import Narwhal.Airgap.InventoryRuns
import Narwhal.Lib.Fold
import Narwhal.Lib.JsonRoundTrip
import Narwhal.Lib.PyValue

open pylib narwhal.oci_layout

namespace narwhal.build_sbom

/-! ### Licenses -/

/-- The rows of the license map: a repository with its license and a note. -/
abbrev LicenseMap := List (Str × Str × Str)

/-- `load_license_map()`, from the text of the file; the last row of a repository counts. -/
def load_license_map (text : Str) : LicenseMap :=
  ((splitLines text).filter fun line => strip line ≠ [] ∧ line.head? ≠ some 35).filterMap fun line =>
    match split [9] line with
    | repo :: _ :: spdx :: rest => some (repo, spdx, rest.headD [])
    | _ => none

inductive License where
  | expression (spdx : Str)
  | id (spdx : Str)
deriving DecidableEq

def licenses_for (spdx : Str) : List License :=
  if spdx = [] ∨ spdx = lit "NOASSERTION" then []
  else if [" OR ", " AND ", " WITH "].any fun op => isInfix (lit op) spdx then [.expression spdx]
  else [.id spdx]

/-! ### Images -/

/-- A component of the type `container`; `sha256` is the content of its hash. -/
structure ImageComponent where
  name : Str
  version : Str
  purl : Str
  sha256 : Option Str
  description : Option Str
  licenses : List License
  note : Option Str
deriving DecidableEq

/-- The digest of the first manifest of an index, where there is one. -/
def firstDigest (index : Json) : Raises (Option Json) := do
  let manifests ← getOr .null "manifests" index
  if manifests.truthy then
    match manifests with
    | .arr (first :: _) => do
      let digest ← getOr .null "digest" first
      return if digest.truthy then some digest else none
    | _ => none
  else some none

/-- The digest that is read from a layout. -/
def digestOf (bundle : Bundle) (ref : Str) : Raises (Option Json) :=
  let index := bundle (layoutPath ref ++ [lit "index.json"])
  match index.target with
  | .file _ => do
    match loads any_keys (← read_text index) with
    | some doc => firstDigest doc
    | none => some none
  | _ => some none

/-- The name and the version in a reference. -/
def nameVersion (ref : Str) : Str × Str :=
  match rpartition 58 (ref.takeWhile (· ≠ 64)) with
  | some (name, version) => if name = [] then (ref, lit "latest") else (name, version)
  | none => (ref, lit "latest")

def image_component (license_map : LicenseMap) (bundle : Bundle) (ref : Str) : Raises ImageComponent := do
  let digest ← digestOf bundle ref
  let pinned_digest := (ref.dropWhile (· ≠ 64)).drop 1
  let (name, version) := nameVersion ref
  let purl := lit "pkg:oci/" ++ afterLast [47] name ++ lit "?repository_url=" ++ name ++ lit "&tag=" ++ version
  let (spdx, note) := ((license_map.filter fun row => row.1 = name).getLast?.map Prod.snd).getD ([], [])
  let entries := licenses_for spdx
  let comp : ImageComponent := {
    name := name
    version := version
    purl := purl
    sha256 := none
    description := some (lit "digest unavailable: OCI layout missing or unreadable in bundle")
    licenses := entries
    note := if entries ≠ [] ∧ note ≠ [] then some note else none }
  match digest with
  | none => some comp
  | some (.str digest) =>
    some { comp with
      sha256 := some (removeHead (lit "sha256:") digest)
      purl := purl ++ lit "&digest=" ++ if pinned_digest = [] then digest else pinned_digest
      description := none }
  | some _ => none

def image_components (license_map : LicenseMap) (bundle : Bundle) : Raises (List ImageComponent) := do
  (← read_list (bundle [lit "manifest.txt"])).mapM (image_component license_map bundle)

/-! ### Charts -/

/-- A component of the type `library`. -/
structure ChartComponent where
  name : Str
  version : Str
  purl : Str
  sha256 : Str
deriving DecidableEq

section

variable (decimal : Nat → Bool)

/-- What `v?\d` matches at the start. -/
def startsVersion (s : Str) : Bool := ((if s.head? = some 118 then s.drop 1 else s).head?).any decimal

/-- `^(?P<name>.+)-(?P<version>v?\d[^-]*)$`: only the last hyphen can be the one between the two. -/
def matchChart (stem : Str) : Option (Str × Str) :=
  match rpartition 45 stem with
  | some (name, version) => if name ≠ [] ∧ 10 ∉ name ∧ startsVersion decimal version then some (name, version) else none
  | none => none

def chart_component (bundle : Bundle) (tgz : Str) : Raises ChartComponent :=
  match (bundle [lit "charts", tgz]).target with
  | .file content =>
    let stem := tgz.take (tgz.length - 4)
    let (name, version) := (matchChart decimal stem).getD (stem, lit "unknown")
    some {
      name := name
      version := version
      purl := lit "pkg:helm/" ++ name ++ lit "@" ++ version
      sha256 := sha256_hexdigest content }
  | _ => none

/-- `sorted((bundle / "charts").glob("*.tgz"))` -/
def tgzs (bundle : Bundle) : List Str :=
  match (bundle [lit "charts"]).target with
  | .dir names => (names.filter fun name => (lit ".tgz").isSuffixOf name).insertionSort (· ≤ ·)
  | _ => []

def chart_components (bundle : Bundle) : Raises (List ChartComponent) := (tgzs bundle).mapM (chart_component decimal bundle)

end

/-! ### References -/

/-- A reference `[host[:port]/]path[:tag][@digest]`. -/
structure Reference where
  host : Option (Str × Option Str)
  path : Str
  tag : Option Str
  digest : Option Str
  host_valid : ∀ h ∈ host, h.1 ≠ [] ∧ 58 ∉ h.1 ∧ 64 ∉ h.1 ∧ ∀ port ∈ h.2, port ≠ [] ∧ port.all isDigit = true
  path_valid : path ≠ [] ∧ 58 ∉ path ∧ 64 ∉ path
  tag_valid : ∀ t ∈ tag, 47 ∉ t ∧ 58 ∉ t ∧ 64 ∉ t

namespace Reference

def hostText (r : Reference) : Str :=
  match r.host with
  | none => []
  | some (host, none) => host ++ [47]
  | some (host, some port) => host ++ 58 :: port ++ [47]

/-- The repository, which is all before the tag. -/
def repository (r : Reference) : Str := r.hostText ++ r.path

def tagText (r : Reference) : Str :=
  match r.tag with
  | none => []
  | some tag => 58 :: tag

def digestText (r : Reference) : Str :=
  match r.digest with
  | none => []
  | some digest => 64 :: digest

def text (r : Reference) : Str := r.repository ++ r.tagText ++ r.digestText

/-- The port of the host, where one is written. -/
def port (r : Reference) : Option Str := r.host.bind Prod.snd

theorem not_mem_port {port : Str} (h : port.all isDigit = true) {c : Nat} (hc : isDigit c = false) : c ∉ port := by
  intro hmem
  rw [List.all_eq_true.mp h c hmem] at hc
  cases hc

theorem at_not_mem_repository (r : Reference) : 64 ∉ r.repository := by
  unfold repository hostText
  rw [List.mem_append, not_or]
  refine ⟨?_, r.path_valid.2.2⟩
  split
  · simp
  · next host hhost => simp [(r.host_valid (host, none) hhost).2.2.1]
  · next host port hhost =>
    have hvalid := r.host_valid (host, some port) hhost
    simp [hvalid.2.2.1, not_mem_port (hvalid.2.2.2 port rfl).2 (c := 64) rfl]

theorem colon_not_mem_repository (r : Reference) (h : r.port = none) : 58 ∉ r.repository := by
  unfold repository hostText
  rw [List.mem_append, not_or]
  refine ⟨?_, r.path_valid.2.1⟩
  split
  · simp
  · next host hhost => simp [(r.host_valid (host, none) hhost).2.1]
  · next host port hhost => simp [Reference.port, hhost] at h

/-- What stands before the first `@`. -/
theorem takeWhile_text (r : Reference) : r.text.takeWhile (· ≠ 64) = r.repository ++ r.tagText := by
  have htag : 64 ∉ r.tagText := by
    unfold tagText
    split
    · simp
    · next tag htag => simp [(r.tag_valid tag htag).2.2]
  have hnot : ∀ c ∈ r.repository ++ r.tagText, decide (c ≠ 64) = true := by
    intro c hc
    rw [decide_eq_true_eq]
    rintro rfl
    exact (List.mem_append.mp hc).elim r.at_not_mem_repository htag
  unfold text digestText
  rw [List.takeWhile_append_of_pos hnot]
  split <;> simp

theorem repository_ne_nil (r : Reference) : r.repository ≠ [] := by
  intro h
  exact r.path_valid.1 (List.append_eq_nil_iff.mp h).2

/-- The code reads the repository and the tag where there is a tag, or neither a port nor a digest. -/
theorem nameVersion_iff (r : Reference) : nameVersion r.text = (r.repository, r.tag.getD (lit "latest")) ↔
    r.tag ≠ none ∨ r.port = none ∧ r.digest = none := by
  unfold nameVersion
  rw [r.takeWhile_text]
  cases htag : r.tag with
  | some tag =>
    have hsplit : rpartition 58 (r.repository ++ r.tagText) = some (r.repository, tag) := by
      rw [tagText, htag]
      exact rpartition_append (r.tag_valid tag htag).2.1 _
    simp [hsplit, r.repository_ne_nil]
  | none =>
    have htext : r.tagText = [] := by rw [tagText, htag]
    rw [htext, List.append_nil]
    cases hport : r.port with
    | none =>
      rw [rpartition_eq_none_iff.mpr (r.colon_not_mem_repository hport)]
      cases hdigest : r.digest <;> simp [text, htext, digestText, hdigest]
    | some port =>
      -- The last colon is the one before the port.
      obtain ⟨⟨host, _⟩, hhost, rfl⟩ := Option.bind_eq_some_iff.mp hport
      obtain ⟨hne, -, -, hdigits⟩ := r.host_valid _ hhost
      have hrepository : r.repository = host ++ 58 :: (port ++ 47 :: r.path) := by
        rw [repository, hostText, hhost]
        simp
      have hnot : 58 ∉ port ++ 47 :: r.path := by
        simp [not_mem_port (hdigits port rfl).2 (c := 58) rfl, r.path_valid.2.1]
      have hshort : host ≠ r.repository := by
        intro h
        have hlength := congrArg List.length (h.trans hrepository)
        simp at hlength
      rw [hrepository, rpartition_append hnot]
      rw [hrepository] at hshort
      simp [hne, hshort]

end Reference

/-! ### Chart versions -/

/-- An identifier of a pre-release or of a build: `[0-9A-Za-z-]+` -/
def isIdentifier (s : Str) : Bool :=
  s ≠ [] && s.all fun c => isDigit c || (65 ≤ c && c ≤ 90) || (97 ≤ c && c ≤ 122) || c == 45

/-- A semantic version. -/
structure SemVer where
  major : Nat
  minor : Nat
  patch : Nat
  prerelease : List Str
  build : List Str
  prerelease_valid : ∀ id ∈ prerelease, isIdentifier id = true ∧ (id.all isDigit = true → id = [48] ∨ id.head? ≠ some 48)
  build_valid : ∀ id ∈ build, isIdentifier id = true

namespace SemVer

def core (v : SemVer) : Str := natRepr v.major ++ 46 :: natRepr v.minor ++ 46 :: natRepr v.patch

def text (v : SemVer) : Str :=
  v.core ++ (if v.prerelease = [] then [] else 45 :: [46].intercalate v.prerelease) ++
    if v.build = [] then [] else 43 :: [46].intercalate v.build

/-- A version begins as the pattern asks. -/
theorem startsVersion_text {decimal : Nat → Bool} (hdecimal : ∀ c, isDigit c = true → decimal c = true) (v : SemVer) :
    startsVersion decimal v.text = true := by
  obtain ⟨d, rest, hmajor⟩ : ∃ d rest, natRepr v.major = d :: rest := List.exists_cons_of_ne_nil (natRepr_ne_nil _)
  have hd : isDigit d = true := isDigit_of_mem_natRepr (n := v.major) (by rw [hmajor]; exact List.mem_cons_self)
  have hhead : v.text.head? = some d := by
    rw [text, core, hmajor]
    rfl
  have hne : d ≠ 118 := by
    rintro rfl
    cases hd
  simp [startsVersion, hhead, hne, hdecimal d hd]

end SemVer

/-- A chart is read as it is named where its version has no hyphen. -/
theorem matchChart_iff {decimal : Nat → Bool} (hdecimal : ∀ c, isDigit c = true → decimal c = true) (name : Str) (v : SemVer) :
    matchChart decimal (name ++ 45 :: v.text) = some (name, v.text) ↔ name ≠ [] ∧ 10 ∉ name ∧ 45 ∉ v.text := by
  unfold matchChart
  constructor
  · intro h
    split at h
    · next before after hsplit =>
      split_ifs at h with hvalid
      cases h
      exact ⟨hvalid.1, hvalid.2.1, (eq_of_rpartition hsplit).2⟩
    · cases h
  · rintro ⟨hne, hnewline, hhyphen⟩
    rw [rpartition_append hhyphen]
    simp [hne, hnewline, SemVer.startsVersion_text hdecimal v]

/-! ### Agreement with the verified layouts -/

/-- The digest of the first entry of the index of a layout. -/
def firstEntryDigest (bundle : Bundle) (ref : Str) : Option Str :=
  (((read_json (bundle (layoutPath ref ++ [lit "index.json"])) false).bind (listField "manifests")).bind List.head?).bind
    (strField "digest")

/-- The component of a reference has the digest that its layout was verified with, and the repository and the tag
    that the reference writes. -/
structure ImageAgrees (bundle : Bundle) (ref : Str) (comp : ImageComponent) : Prop where
  digest : ∀ row, verify_image bundle ref = some row → comp.sha256 = some (row.layout_digest.drop 7)
  identity : ∀ r : Reference, r.text = ref → comp.name = r.repository ∧ comp.version = r.tag.getD (lit "latest")

/-- The component of a chart has the name and the version that its file is named by. -/
def ChartAgrees (tgz : Str) (comp : ChartComponent) : Prop :=
  ∀ (name : Str) (v : SemVer), name ≠ [] → tgz = name ++ 45 :: v.text ++ lit ".tgz" → comp.name = name ∧ comp.version = v.text

section

variable (decimal : Nat → Bool) (license_map : LicenseMap) (bundle : Bundle) (refs : List Str)

/-- The components are one for each image and one for each chart, and agree with them. -/
structure Agrees : Prop where
  images : ∃ comps, image_components license_map bundle = some comps ∧ List.Forall₂ (ImageAgrees bundle) refs comps
  charts : ∃ comps, chart_components decimal bundle = some comps ∧ List.Forall₂ ChartAgrees (tgzs bundle) comps

/-- The condition on the bundle under which that is so. -/
structure Plain : Prop where
  first : ∀ ref ∈ refs, ∀ row, verify_image bundle ref = some row →
    (firstEntryDigest bundle ref).map (removeHead (lit "sha256:")) = some (row.layout_digest.drop 7)
  references : ∀ r : Reference, r.text ∈ refs → r.tag ≠ none ∨ r.port = none ∧ r.digest = none
  files : ∀ tgz ∈ tgzs bundle, ∃ content, (bundle [lit "charts", tgz]).target = .file content
  versions : ∀ tgz ∈ tgzs bundle, ∀ (name : Str) (v : SemVer), name ≠ [] → tgz = name ++ 45 :: v.text ++ lit ".tgz" →
    10 ∉ name ∧ 45 ∉ v.text

end

section

variable {decimal : Nat → Bool} {license_map : LicenseMap} {bundle : Bundle} {ref : Str} {row : Row}

/-- The index of a verified layout has entries. -/
theorem exists_entries_of_verified (h : verify_image bundle ref = some row) : ∃ fields first rest,
    read_json (bundle (layoutPath ref ++ [lit "index.json"])) false = some (.obj fields) ∧
      lookupField (lit "manifests") fields = some (.arr (first :: rest)) := by
  obtain ⟨rfl, desc, hof⟩ := verify_image_eq_some h
  obtain ⟨index, hindex, htop⟩ := Option.bind_eq_some_iff.mp hof.top
  unfold top at htop
  cases index with
  | obj fields =>
    cases hentries : lookupField (lit "manifests") fields with
    | none => simp [listField, field, hentries] at htop
    | some value =>
      cases value with
      | arr items =>
        cases items with
        | nil => simp [listField, field, hentries, candidates] at htop
        | cons first rest => exact ⟨fields, first, rest, hindex, hentries⟩
      | _ => simp [listField, field, hentries] at htop
  | _ => simp [listField, field] at htop

/-- What is read of a verified layout is the digest of its first entry. -/
theorem digestOf_verified {fields : List (Str × Json)} {first : Json} {rest : List Json}
    (hindex : read_json (bundle (layoutPath ref ++ [lit "index.json"])) false = some (.obj fields))
    (hentries : lookupField (lit "manifests") fields = some (.arr (first :: rest))) :
    digestOf bundle ref = (getOr .null "digest" first).map fun digest => if digest.truthy then some digest else none := by
  unfold read_json at hindex
  split at hindex
  · cases hindex
  · next content hregular =>
    have hfile : (bundle (layoutPath ref ++ [lit "index.json"])).target = .file content := by
      unfold regular at hregular
      split_ifs at hregular
      split at hregular
      · next content' htarget => rw [htarget, Option.some.inj hregular]
      · cases hregular
    simp only [parse_json, Bool.false_eq_true, if_false, Option.ite_none_left_eq_some] at hindex
    obtain ⟨-, hindex⟩ := hindex
    split at hindex
    · cases hindex
    · next text hdecode =>
      have hloads : loads any_keys (universalNewlines text) = some (.obj fields) := hindex
      have hread : read_text (bundle (layoutPath ref ++ [lit "index.json"])) = some (universalNewlines text) := by
        simp only [read_text, hfile, hdecode, Option.map_some]
      have hget : getOr .null "manifests" (.obj fields) = some (.arr (first :: rest)) := by
        rw [getOr, hentries, Option.getD_some]
      have hfirst : firstDigest (.obj fields) =
          (getOr .null "digest" first).map fun digest => if digest.truthy then some digest else none := by
        rw [firstDigest, hget]
        cases first <;> rfl
      simp only [digestOf, hfile, hread, hloads, hfirst, Option.bind_eq_bind, Option.bind_some]

/-- A component of an image has the name and version of its reference, and the digest of its first entry, if there is
    one. -/
theorem image_component_cases {comp : ImageComponent} (h : image_component license_map bundle ref = some comp) :
    (comp.name, comp.version) = nameVersion ref ∧
      ((digestOf bundle ref = some none ∧ comp.sha256 = none) ∨
        ∃ digest, digestOf bundle ref = some (some (.str digest)) ∧ comp.sha256 = some (removeHead (lit "sha256:") digest)) := by
  unfold image_component at h
  obtain ⟨digest, hdigest, h⟩ := Option.bind_eq_some_iff.mp h
  dsimp only at h
  split at h
  · cases h
    exact ⟨rfl, .inl ⟨hdigest, rfl⟩⟩
  · next digest =>
    cases h
    exact ⟨rfl, .inr ⟨digest, hdigest, rfl⟩⟩
  · cases h

theorem exists_image_component {digest : Str} (h : digestOf bundle ref = some (some (.str digest))) :
    ∃ comp, image_component license_map bundle ref = some comp := by
  unfold image_component
  rw [h]
  exact ⟨_, rfl⟩

/-- The component of a verified image has the digest of the layout where the first entry of the index has it. -/
theorem image_component_digest_iff (h : verify_image bundle ref = some row) :
    (∃ comp, image_component license_map bundle ref = some comp ∧ comp.sha256 = some (row.layout_digest.drop 7)) ↔
      (firstEntryDigest bundle ref).map (removeHead (lit "sha256:")) = some (row.layout_digest.drop 7) := by
  obtain ⟨-, desc, hof⟩ := verify_image_eq_some h
  obtain ⟨fields, first, rest, hindex, hentries⟩ := exists_entries_of_verified h
  have hread := digestOf_verified hindex hentries
  have hfirst : firstEntryDigest bundle ref = strField "digest" first := by
    simp [firstEntryDigest, hindex, listField, field, hentries]
  rw [hfirst]
  constructor
  · rintro ⟨comp, hcomp, hsha⟩
    obtain ⟨-, ⟨-, hnone⟩ | ⟨digest, hdigest, hsome⟩⟩ := image_component_cases hcomp
    · rw [hnone] at hsha
      cases hsha
    · rw [hread] at hdigest
      obtain ⟨value, hvalue, htruthy⟩ := Option.map_eq_some_iff.mp hdigest
      split_ifs at htruthy
      cases htruthy
      cases first with
      | obj entry =>
        cases hlookup : lookupField (lit "digest") entry with
        | none => simp [getOr, hlookup] at hvalue
        | some found =>
          obtain rfl : found = .str digest := by simpa [getOr, hlookup] using hvalue
          rw [← hsha, hsome]
          simp [strField, field, hlookup]
      | _ => cases hvalue
  · intro hdigest
    obtain ⟨digest, hstr, hhead⟩ := Option.map_eq_some_iff.mp hdigest
    have hne : digest ≠ [] := by
      rintro rfl
      have hdigest := hof.wellFormed
      simp only [isDigest, Bool.and_eq_true, beq_iff_eq] at hdigest
      rw [← hhead] at hdigest
      simp [removeHead] at hdigest
    have hlookup : getOr .null "digest" first = some (.str digest) := by
      unfold strField at hstr
      split at hstr
      · next s hfield =>
        cases hstr
        cases first with
        | obj entry =>
          rw [field] at hfield
          rw [getOr, hfield, Option.getD_some]
        | _ => cases hfield
      · cases hstr
    have hdigestOf : digestOf bundle ref = some (some (.str digest)) := by
      simp [hread, hlookup, Json.truthy, hne]
    have hexists : ∃ comp, image_component license_map bundle ref = some comp := exists_image_component hdigestOf
    obtain ⟨comp, hcomp⟩ := hexists
    obtain ⟨-, ⟨hnone, -⟩ | ⟨digest', hsome, hsha⟩⟩ := image_component_cases hcomp
    · rw [hdigestOf] at hnone
      cases hnone
    · rw [hdigestOf] at hsome
      cases hsome
      exact ⟨comp, hcomp, by rw [hsha, hhead]⟩

/-- An image agrees exactly if its first entry is the one that was verified, and its reference is split where it
    should be. -/
theorem image_agrees_iff (h : verify_image bundle ref = some row) :
    (∃ comp, image_component license_map bundle ref = some comp ∧ ImageAgrees bundle ref comp) ↔
      (firstEntryDigest bundle ref).map (removeHead (lit "sha256:")) = some (row.layout_digest.drop 7) ∧
        ∀ r : Reference, r.text = ref → r.tag ≠ none ∨ r.port = none ∧ r.digest = none := by
  have hidentity : ∀ {comp : ImageComponent}, image_component license_map bundle ref = some comp → ∀ r : Reference, r.text = ref →
      ((comp.name = r.repository ∧ comp.version = r.tag.getD (lit "latest")) ↔ r.tag ≠ none ∨ r.port = none ∧ r.digest = none) := by
    rintro comp hcomp r rfl
    rw [← r.nameVersion_iff, ← (image_component_cases hcomp).1, Prod.mk.injEq]
  constructor
  · rintro ⟨comp, hcomp, hagrees⟩
    exact ⟨(image_component_digest_iff h).mp ⟨comp, hcomp, hagrees.digest row h⟩,
      fun r hr => (hidentity hcomp r hr).mp (hagrees.identity r hr)⟩
  · rintro ⟨hdigest, hreferences⟩
    obtain ⟨comp, hcomp, hsha⟩ := (image_component_digest_iff h).mpr hdigest
    refine ⟨comp, hcomp, fun row' hrow' => ?_, fun r hr => (hidentity hcomp r hr).mpr (hreferences r hr)⟩
    rw [h] at hrow'
    rw [hsha, Option.some.inj hrow']

theorem take_tgz (stem : Str) : (stem ++ lit ".tgz").take ((stem ++ lit ".tgz").length - 4) = stem := by
  have hfour : (lit ".tgz").length = 4 := rfl
  rw [List.length_append, hfour, Nat.add_sub_cancel, List.take_left]

theorem exists_chart_component {tgz : Str} {content : Bytes} (h : (bundle [lit "charts", tgz]).target = .file content) :
    ∃ comp, chart_component decimal bundle tgz = some comp := by
  unfold chart_component
  rw [h]
  exact ⟨_, rfl⟩

theorem file_of_chart_component {tgz : Str} {comp : ChartComponent} (h : chart_component decimal bundle tgz = some comp) :
    (∃ content, (bundle [lit "charts", tgz]).target = .file content) ∧ (comp.name, comp.version) =
      (matchChart decimal (tgz.take (tgz.length - 4))).getD (tgz.take (tgz.length - 4), lit "unknown") := by
  unfold chart_component at h
  split at h
  · next content hcontent =>
    cases h
    exact ⟨⟨content, hcontent⟩, rfl⟩
  · cases h

/-- Only a file without a hyphen in its version gives a component with a name and a semantic version. -/
theorem hyphen_of_chart_component {tgz name : Str} {v : SemVer} {comp : ChartComponent}
    (h : chart_component decimal bundle tgz = some comp) (hname : comp.name = name) (hversion : comp.version = v.text) :
    10 ∉ name ∧ 45 ∉ v.text := by
  have hread := (file_of_chart_component h).2
  cases hmatch : matchChart decimal (tgz.take (tgz.length - 4)) with
  | none =>
    rw [hmatch, Option.getD_none, Prod.mk.injEq] at hread
    have hstarts : startsVersion isDigit v.text = true := SemVer.startsVersion_text (fun _ => id) v
    rw [← hversion, hread.2] at hstarts
    cases hstarts
  | some pair =>
    obtain ⟨before, after⟩ := pair
    rw [hmatch, Option.getD_some, Prod.mk.injEq] at hread
    unfold matchChart at hmatch
    split at hmatch
    · next before' after' hsplit =>
      split_ifs at hmatch with hvalid
      cases hmatch
      rw [← hname, ← hversion, hread.1, hread.2]
      exact ⟨hvalid.2.1, (eq_of_rpartition hsplit).2⟩
    · cases hmatch

/-- A chart agrees exactly if its file is there and its name is split where it should be, -/
theorem chart_agrees_iff (hdecimal : ∀ c, isDigit c = true → decimal c = true) {tgz : Str} :
    (∃ comp, chart_component decimal bundle tgz = some comp ∧ ChartAgrees tgz comp) ↔
      (∃ content, (bundle [lit "charts", tgz]).target = .file content) ∧
        ∀ (name : Str) (v : SemVer), name ≠ [] → tgz = name ++ 45 :: v.text ++ lit ".tgz" → 10 ∉ name ∧ 45 ∉ v.text := by
  constructor
  · rintro ⟨comp, hcomp, hagrees⟩
    refine ⟨(file_of_chart_component hcomp).1, fun name v hne heq => ?_⟩
    obtain ⟨hname, hversion⟩ := hagrees name v hne heq
    exact hyphen_of_chart_component hcomp hname hversion
  · rintro ⟨⟨content, hcontent⟩, hplain⟩
    obtain ⟨comp, hcomp⟩ := @exists_chart_component decimal bundle tgz content hcontent
    refine ⟨comp, hcomp, fun name v hne heq => ?_⟩
    obtain ⟨hnewline, hhyphen⟩ := hplain name v hne heq
    have hread := (file_of_chart_component hcomp).2
    rw [heq, take_tgz, (matchChart_iff hdecimal name v).mpr ⟨hne, hnewline, hhyphen⟩, Option.getD_some, Prod.mk.injEq] at hread
    exact hread

/-- and the charts agree one by one. -/
theorem charts_agree_iff (hdecimal : ∀ c, isDigit c = true → decimal c = true) :
    (∃ comps, chart_components decimal bundle = some comps ∧ List.Forall₂ ChartAgrees (tgzs bundle) comps) ↔
    (∀ tgz ∈ tgzs bundle, ∃ content, (bundle [lit "charts", tgz]).target = .file content) ∧
      ∀ tgz ∈ tgzs bundle, ∀ (name : Str) (v : SemVer), name ≠ [] → tgz = name ++ 45 :: v.text ++ lit ".tgz" →
        10 ∉ name ∧ 45 ∉ v.text := by
  rw [chart_components, exists_mapM_forall₂_iff, ← forall₂_and]
  exact forall₂_congr fun tgz _ => chart_agrees_iff hdecimal

end

/-- The components of a bundle whose images have been verified agree with the layouts and the names exactly where
    the bundle is plain. -/
theorem sbom_agrees_iff (decimal : Nat → Bool) (hdecimal : ∀ c, isDigit c = true → decimal c = true) (license_map : LicenseMap)
    (bundle : Bundle) (refs : List Str) (hrefs : read_list (bundle [lit "manifest.txt"]) = some refs)
    (hverified : ∀ ref ∈ refs, (verify_image bundle ref).isSome = true) :
    Agrees decimal license_map bundle refs ↔ Plain bundle refs := by
  have hcomponents : image_components license_map bundle = refs.mapM (image_component license_map bundle) := by
    rw [image_components, hrefs]
    rfl
  have himages : (∃ comps, image_components license_map bundle = some comps ∧ List.Forall₂ (ImageAgrees bundle) refs comps) ↔
      ∀ ref ∈ refs, (∀ row, verify_image bundle ref = some row →
        (firstEntryDigest bundle ref).map (removeHead (lit "sha256:")) = some (row.layout_digest.drop 7)) ∧
        ∀ r : Reference, r.text = ref → r.tag ≠ none ∨ r.port = none ∧ r.digest = none := by
    rw [hcomponents, exists_mapM_forall₂_iff]
    refine forall₂_congr fun ref href => ?_
    obtain ⟨row, hrow⟩ := Option.isSome_iff_exists.mp (hverified ref href)
    rw [image_agrees_iff hrow]
    simp [hrow]
  constructor
  · intro h
    have hrefs' := himages.mp h.images
    obtain ⟨hfiles, hversions⟩ := (charts_agree_iff hdecimal).mp h.charts
    exact ⟨fun ref href => (hrefs' ref href).1, fun r hr => (hrefs' r.text hr).2 r rfl, hfiles, hversions⟩
  · intro h
    refine ⟨himages.mpr fun ref href => ⟨h.first ref href, fun r hr => h.references r (hr ▸ href)⟩, ?_⟩
    exact (charts_agree_iff hdecimal).mpr ⟨h.files, h.versions⟩

/-! ### A bundle of one image and one chart -/

def chartBundle (chart : String) : Bundle := fun path =>
  (List.lookup path [([lit "manifest.txt"], ⟨false, .file (blit "a\n")⟩), ([lit "charts"], ⟨false, .dir [lit chart]⟩),
    ([lit "charts", lit chart], ⟨false, .file []⟩)]).getD (sampleBundle path)

/-- An image is verified by what its layout holds. -/
theorem verify_image_congr {bundle bundle' : Bundle} {img : Str}
    (h : ∀ rest, bundle (layoutPath img ++ rest) = bundle' (layoutPath img ++ rest)) :
    verify_image bundle img = verify_image bundle' img := by
  have hdescriptor : check_descriptor bundle (layoutPath img) = check_descriptor bundle' (layoutPath img) := by
    funext desc hash_it
    simp only [check_descriptor, Descriptor.path, h]
  have hwalk : ∀ remaining, walk bundle (layoutPath img) remaining = walk bundle' (layoutPath img) remaining := by
    intro remaining
    induction remaining with
    | zero => rfl
    | succ remaining ih =>
      funext desc stats
      simp only [walk, hdescriptor, ih]
  simp only [verify_image, h, hwalk]

theorem verified_chartBundle (chart : String) :
    ∀ ref ∈ [lit "a"], (verify_image (chartBundle chart) ref).isSome = true := by
  have hlayout : verify_image (chartBundle chart) (lit "a") = verify_image sampleBundle (lit "a") :=
    verify_image_congr fun rest => rfl
  rw [List.forall_mem_singleton, hlayout, verify_sample]
  rfl

theorem sbom_agrees_iff_sample :
    Agrees isDigit [] (chartBundle "app-1.0.0.tgz") [lit "a"] ↔ Plain (chartBundle "app-1.0.0.tgz") [lit "a"] :=
  sbom_agrees_iff isDigit (fun _ => id) [] (chartBundle "app-1.0.0.tgz") [lit "a"] (by decide)
    (verified_chartBundle "app-1.0.0.tgz")

/-- `1.0.0-rc.1` -/
def candidateVersion : SemVer := ⟨1, 0, 0, [lit "rc", lit "1"], [], by decide, by decide⟩

/-- The chart of a release candidate is not read as it is named. -/
theorem prerelease_chart_misread :
    read_list (chartBundle "app-1.0.0-rc.1.tgz" [lit "manifest.txt"]) = some [lit "a"] ∧
      (∀ ref ∈ [lit "a"], (verify_image (chartBundle "app-1.0.0-rc.1.tgz") ref).isSome = true) ∧
      ¬ Agrees isDigit [] (chartBundle "app-1.0.0-rc.1.tgz") [lit "a"] := by
  refine ⟨by decide, verified_chartBundle "app-1.0.0-rc.1.tgz", fun h => ?_⟩
  obtain ⟨-, hversions⟩ := (charts_agree_iff (fun _ => id)).mp h.charts
  have hplain := hversions (lit "app-1.0.0-rc.1.tgz") (by decide) (lit "app") candidateVersion (by decide) (by decide)
  exact hplain.2 (by decide)

end narwhal.build_sbom
