import Narwhal.Lib.PyValue
import Narwhal.Lib.TextLines

open pylib

namespace narwhal.upgrade_bundle

/-! ### The verifier -/

def ALLOWED_LICENSES : List Str :=
  ["Apache-2.0", "MIT", "BSD-2-Clause", "BSD-3-Clause", "ISC", "MPL-2.0", "GPL-2.0-only", "GPL-2.0-or-later",
    "AGPL-3.0", "curl"].map lit

def FORBIDDEN_LICENSES : List Str := ["RSALv2", "SSPLv1", "SSPL-1.0", "BUSL-1.1", "Elastic-2.0"].map lit

/-- The items of a dictionary. -/
abbrev Artifact := List (Str × Json)

inductive Problem where
  | notAList
  | notAnObject (idx : Nat)
  | invalidName (idx : Nat)
  | duplicateName (idx : Nat) (name : Str)
  | digest (name : Str)
  | licenseType (name : Str)
  | blankLicense (name : Str)
  | forbiddenLicense (name lic : Str)
  | unknownLicense (name lic : Str)
  | missingDependency (name : Str) (dep : Json)
deriving DecidableEq

/-- The text of an error; `str` is Python's on what a dependency can be. -/
def Problem.message (str : Json → Str) : Problem → Str
  | .notAList => lit "Field 'artifacts' must be a list"
  | .notAnObject idx => lit "Artifact at index " ++ natRepr idx ++ lit " is not an object"
  | .invalidName idx => lit "Artifact at index " ++ natRepr idx ++ lit " has invalid or missing name"
  | .duplicateName idx name =>
    lit "Artifact at index " ++ natRepr idx ++ lit " declares duplicate artifact name '" ++ name ++ lit "'"
  | .digest name => lit "Artifact '" ++ name ++ lit "' requires an exact SHA-256 or SHA-512 digest"
  | .licenseType name => lit "Artifact '" ++ name ++ lit "' license must be a string"
  | .blankLicense name => lit "Artifact '" ++ name ++ lit "' has a blank license"
  | .forbiddenLicense name lic => lit "Artifact '" ++ name ++ lit "' uses forbidden license '" ++ lic ++ lit "'"
  | .unknownLicense name lic =>
    lit "Artifact '" ++ name ++ lit "' license '" ++ lic ++ lit "' needs review in check-license-policy.py"
  | .missingDependency name dep =>
    lit "Artifact '" ++ name ++ lit "' declares missing dependency '" ++ str dep ++ lit "'"

def isHex (c : Nat) : Bool := (48 ≤ c && c ≤ 57) || (65 ≤ c && c ≤ 70) || (97 ≤ c && c ≤ 102)

/-- `sha256:[a-fA-F0-9]{64}|sha512:[a-fA-F0-9]{128}`, matched in full. -/
def isDigest (s : Str) : Bool :=
  let hex := s.drop 7
  hex.all isHex &&
    ((lit "sha256:").isPrefixOf s && hex.length == 64 || (lit "sha512:").isPrefixOf s && hex.length == 128)

/-- The name of an artifact without the whitespace around it, where it has one. -/
def nameOf (art : Artifact) : Option Str :=
  match lookupField (lit "name") art with
  | some (.str raw_name) => if strip raw_name = [] then none else some (strip raw_name)
  | _ => none

def artifactNames (artifacts : List Json) : List Str :=
  artifacts.filterMap fun
    | .obj art => nameOf art
    | _ => none

def checkDigest (name : Str) (art : Artifact) : List Problem :=
  match lookupField (lit "digest") art with
  | some (.str digest) => if isDigest digest then [] else [.digest name]
  | _ => [.digest name]

def checkLicense (name lic : Str) : List Problem :=
  if lic = [] then [.blankLicense name]
  else if lic ∈ FORBIDDEN_LICENSES then [.forbiddenLicense name lic]
  else if lic ∉ ALLOWED_LICENSES then [.unknownLicense name lic]
  else []

/-- Looking up a dependency that cannot be hashed raises. -/
def checkDependencies (artifact_names : List Str) (name : Str) (art : Artifact) : Raises (List Problem) := do
  let deps ← iterate ((lookupField (lit "dependencies") art).getD (.arr []))
  if deps.all Json.hashable then
    some ((deps.filter fun dep => ¬ artifact_names.any fun n => dep.eq true (.str n)).map (.missingDependency name))
  else none

def checkArtifact (artifact_names : List Str) (name : Str) (art : Artifact) : Raises (List Problem) :=
  match (lookupField (lit "license") art).getD (.str []) with
  | .str raw_license => do
    let missing ← checkDependencies artifact_names name art
    return checkDigest name art ++ checkLicense name (strip raw_license) ++ missing
  | _ => some (checkDigest name art ++ [.licenseType name])

def checkArtifacts (artifact_names : List Str) : Nat → List Str → List Json → Raises (List Problem)
  | _, _, [] => some []
  | idx, seen_names, .obj art :: rest =>
    match nameOf art with
    | none => do return .invalidName idx :: (← checkArtifacts artifact_names (idx + 1) seen_names rest)
    | some name => do
      let problems ← checkArtifact artifact_names name art
      let others ← checkArtifacts artifact_names (idx + 1) (name :: seen_names) rest
      return (if name ∈ seen_names then [.duplicateName idx name] else []) ++ problems ++ others
  | idx, seen_names, _ :: rest => do
    return .notAnObject idx :: (← checkArtifacts artifact_names (idx + 1) seen_names rest)

def validate_metadata (manifest : Json) : Raises (List Problem) := do
  match ← getOr (.arr []) "artifacts" manifest with
  | .arr artifacts => checkArtifacts (artifactNames artifacts) 0 [] artifacts
  | _ => some [.notAList]

/-! ### The diff -/

/-- `art.get(key)` -/
def getKey (key : String) (art : Artifact) : Json := (lookupField (lit key) art).getD .null

/-- `{a["name"]: a for a in artifacts if "name" in a}` -/
def byName (artifacts : List Json) : Raises (List (Json × Artifact)) :=
  artifacts.foldlM (fun d a => do
    if ← strIn (lit "name") a then
      match a with
      | .obj art => if (getKey "name" art).hashable then some (dictSet (getKey "name" art) art d) else none
      | _ => none
    else some d) []

structure Updated where
  name : Json
  artifact_type : Json
  old_version : Json
  new_version : Json
  old_digest : Json
  new_digest : Json
  source_ref : Json
  license : Json
  old_license : Json
  new_license : Json

structure MissingDependency where
  artifact : Json
  missing_dependency : Json
deriving DecidableEq

structure Counts where
  added : Nat
  removed : Nat
  updated : Nat
  unchanged : Nat
  missing_dependencies : Nat

structure Diff where
  current_bundle_id : Json
  current_version : Json
  new_bundle_id : Json
  new_version : Json
  promotion_stage : Json
  compatibility_matrix_ref : Json
  counts : Counts
  added : List Artifact
  removed : List Artifact
  updated : List Updated
  unchanged : List Artifact
  missing_dependencies : List MissingDependency

/-- Version, digest and license are equal. -/
def sameRelease (old_art new_art : Artifact) : Bool :=
  ["version", "digest", "license"].all fun key => (getKey key old_art).eq false (getKey key new_art)

def updatedEntry (name : Json) (old_art new_art : Artifact) : Updated where
  name := name
  artifact_type := getKey "artifact_type" new_art
  old_version := getKey "version" old_art
  new_version := getKey "version" new_art
  old_digest := getKey "digest" old_art
  new_digest := getKey "digest" new_art
  source_ref := getKey "source_ref" new_art
  license := getKey "license" new_art
  old_license := getKey "license" old_art
  new_license := getKey "license" new_art

section

variable (current_artifacts new_artifacts : List (Json × Artifact))

def added : List Artifact := (new_artifacts.filter fun e => (dictGet e.1 current_artifacts).isNone).map Prod.snd

def updated : List Updated :=
  new_artifacts.filterMap fun e => do
    let old_art ← dictGet e.1 current_artifacts
    if sameRelease old_art e.2 then none else some (updatedEntry e.1 old_art e.2)

def unchanged : List Artifact :=
  (new_artifacts.filter fun e => (dictGet e.1 current_artifacts).any (sameRelease · e.2)).map Prod.snd

def removed : List Artifact := (current_artifacts.filter fun e => (dictGet e.1 new_artifacts).isNone).map Prod.snd

/-- The dependencies of an artifact that no artifact has as its name. -/
def missingOf (e : Json × Artifact) : Raises (List MissingDependency) := do
  let deps ← iterate ((lookupField (lit "dependencies") e.2).getD (.arr []))
  if deps.all Json.hashable then
    some ((deps.filter fun dep => (dictGet dep new_artifacts).isNone).map (MissingDependency.mk e.1))
  else none

def missingDependencies : Raises (List MissingDependency) := do
  return (← new_artifacts.mapM (missingOf new_artifacts)).flatten

end

def generate_diff (current_doc new_doc : Json) : Raises Diff := do
  let current_artifacts ← byName (← iterate (← getOr (.arr []) "artifacts" current_doc))
  let new_artifacts ← byName (← iterate (← getOr (.arr []) "artifacts" new_doc))
  let missing_dependencies ← missingDependencies new_artifacts
  let added := added current_artifacts new_artifacts
  let removed := removed current_artifacts new_artifacts
  let updated := updated current_artifacts new_artifacts
  let unchanged := unchanged current_artifacts new_artifacts
  return {
    current_bundle_id := ← getOr .null "bundle_id" current_doc
    current_version := ← getOr .null "target_version" current_doc
    new_bundle_id := ← getOr .null "bundle_id" new_doc
    new_version := ← getOr .null "target_version" new_doc
    promotion_stage := ← getOr .null "promotion_stage" new_doc
    compatibility_matrix_ref := ← getOr .null "compatibility_matrix_ref" new_doc
    counts := ⟨added.length, removed.length, updated.length, unchanged.length, missing_dependencies.length⟩
    added := added
    removed := removed
    updated := updated
    unchanged := unchanged
    missing_dependencies := missing_dependencies }

/-! ### What the verifier accepts -/

/-- The artifacts of a manifest. -/
def artifactsOf (manifest : Json) : List Artifact :=
  match getOr (.arr []) "artifacts" manifest with
  | some (.arr items) => items.filterMap fun
    | .obj art => some art
    | _ => none
  | _ => []

/-- The name of an artifact as it is written. -/
def rawName (art : Artifact) : Str :=
  match lookupField (lit "name") art with
  | some (.str raw_name) => raw_name
  | _ => []

theorem getKey_name {art : Artifact} {name : Str} (h : nameOf art = some name) :
    lookupField (lit "name") art = some (.str (rawName art)) ∧ name = strip (rawName art) := by
  unfold nameOf at h
  split at h
  · next raw hraw =>
    split_ifs at h
    simp only [rawName, hraw]
    exact ⟨trivial, (Option.some.inj h).symm⟩
  · cases h

/-- Artifacts among which the verifier finds no problem, where these names are known. -/
structure Checked (artifact_names : List Str) (artifacts : List Artifact) : Prop where
  named : ∀ art ∈ artifacts, ∃ name, nameOf art = some name ∧ checkArtifact artifact_names name art = some []
  distinct : (artifacts.filterMap nameOf).Nodup

theorem checked_of_checkArtifacts {artifact_names : List Str} {items : List Json} {idx : Nat} {seen_names : List Str}
    (h : checkArtifacts artifact_names idx seen_names items = some []) :
    ∃ artifacts : List Artifact, items = artifacts.map .obj ∧ Checked artifact_names artifacts ∧
      ∀ name ∈ artifacts.filterMap nameOf, name ∉ seen_names := by
  induction items generalizing idx seen_names with
  | nil => exact ⟨[], rfl, ⟨by simp, List.nodup_nil⟩, by simp⟩
  | cons item items ih =>
    cases item with
    | obj art =>
      rw [checkArtifacts] at h
      split at h
      · simp only [Option.bind_eq_bind, Option.bind_eq_some_iff, Option.pure_def, Option.some.injEq] at h
        obtain ⟨others, -, h⟩ := h
        cases h
      · next name hname =>
        simp only [Option.bind_eq_bind, Option.bind_eq_some_iff, Option.pure_def, Option.some.injEq,
          List.append_eq_nil_iff] at h
        obtain ⟨problems, hproblems, others, hothers, ⟨hseen, rfl⟩, rfl⟩ := h
        have hnew : name ∉ seen_names := by
          intro hmem
          simp [hmem] at hseen
        obtain ⟨artifacts, rfl, hchecked, hnot⟩ := ih hothers
        refine ⟨art :: artifacts, rfl, ⟨?_, ?_⟩, ?_⟩
        · exact List.forall_mem_cons.mpr ⟨⟨name, hname, hproblems⟩, hchecked.named⟩
        · rw [List.filterMap_cons_some hname, List.nodup_cons]
          exact ⟨fun hmem => hnot name hmem List.mem_cons_self, hchecked.distinct⟩
        · rw [List.filterMap_cons_some hname]
          exact List.forall_mem_cons.mpr ⟨hnew, fun other hother hmem => hnot other hother (List.mem_cons_of_mem _ hmem)⟩
    | _ =>
      simp only [checkArtifacts, Option.bind_eq_bind, Option.bind_eq_some_iff, Option.pure_def, Option.some.injEq] at h
      obtain ⟨others, -, h⟩ := h
      cases h

/-- The artifacts of an accepted manifest are all objects, with names that differ without the whitespace around them. -/
theorem checked_of_validate {manifest : Json} (h : validate_metadata manifest = some []) :
    getOr (.arr []) "artifacts" manifest = some (.arr ((artifactsOf manifest).map .obj)) ∧
      Checked ((artifactsOf manifest).filterMap nameOf) (artifactsOf manifest) := by
  unfold validate_metadata at h
  obtain ⟨value, hvalue, h⟩ := Option.bind_eq_some_iff.mp h
  split at h
  · next items =>
    obtain ⟨artifacts, rfl, hchecked, -⟩ := checked_of_checkArtifacts h
    have hart : artifactsOf manifest = artifacts := by
      simp [artifactsOf, hvalue, List.filterMap_map]
    have hnames : artifactNames (artifacts.map .obj) = artifacts.filterMap nameOf := by
      simp [artifactNames, List.filterMap_map]
    rw [hart]
    exact ⟨hvalue, hnames ▸ hchecked⟩
  · cases h

/-! ### Artifacts by name -/

/-- An artifact under its name. -/
def entry (art : Artifact) : Json × Artifact := (.str (rawName art), art)

section

variable {artifact_names : List Str} {artifacts : List Artifact}

theorem Checked.getKey_name (h : Checked artifact_names artifacts) {art : Artifact} (hart : art ∈ artifacts) :
    getKey "name" art = .str (rawName art) := by
  obtain ⟨name, hname, -⟩ := h.named art hart
  rw [getKey, (upgrade_bundle.getKey_name hname).1, Option.getD_some]

theorem Checked.nodup_rawName (h : Checked artifact_names artifacts) : (artifacts.map rawName).Nodup := by
  have hstrip : artifacts.filterMap nameOf = (artifacts.map rawName).map strip := by
    rw [List.map_map, ← List.filterMap_eq_map]
    refine List.filterMap_congr fun art hart => ?_
    obtain ⟨name, hname, -⟩ := h.named art hart
    rw [hname, (upgrade_bundle.getKey_name hname).2]
    rfl
  exact (hstrip ▸ h.distinct).of_map strip

theorem byName_foldl {d : List Artifact} (h : Checked artifact_names artifacts) (hd : ((d ++ artifacts).map rawName).Nodup) :
    (artifacts.map Json.obj).foldlM (fun d a => do
      if ← strIn (lit "name") a then
        match a with
        | .obj art => if (getKey "name" art).hashable then some (dictSet (getKey "name" art) art d) else none
        | _ => none
      else some d) (d.map entry) = some ((d ++ artifacts).map entry) := by
  induction artifacts generalizing d with
  | nil => simp
  | cons art artifacts ih =>
    obtain ⟨⟨name, hname, hproblems⟩, hnamed⟩ := List.forall_mem_cons.mp h.named
    have hkey := h.getKey_name List.mem_cons_self
    have hin : strIn (lit "name") (.obj art) = some true := by
      rw [strIn, (upgrade_bundle.getKey_name hname).1, Option.isSome_some]
    have hrest : Checked artifact_names artifacts :=
      ⟨hnamed, h.distinct.sublist ((List.sublist_cons_self art artifacts).filterMap nameOf)⟩
    have hnew : ∀ kv ∈ d.map entry, Json.eq true kv.1 (.str (rawName art)) = false := by
      intro kv hkv
      obtain ⟨old, hold, rfl⟩ := List.mem_map.mp hkv
      rw [Bool.eq_false_iff]
      intro heq
      rw [entry, eq_str_iff, Json.str.injEq] at heq
      rw [List.map_append, List.map_cons] at hd
      exact (List.nodup_append.mp hd).2.2 _ (List.mem_map_of_mem hold) _ List.mem_cons_self heq.symm
    have hset : dictSet (.str (rawName art)) art (d.map entry) = (d ++ [art]).map entry := by
      rw [dictSet_of_new hnew, List.map_append]
      rfl
    have hstep := ih (d := d ++ [art]) hrest (by simpa using hd)
    rw [List.append_assoc, List.singleton_append] at hstep
    rw [List.map_cons, List.foldlM_cons]
    simp only [hin, hkey, hset, Option.bind_eq_bind, Option.bind_some, if_true, Json.hashable]
    exact hstep

theorem byName_checked (h : Checked artifact_names artifacts) :
    byName (artifacts.map .obj) = some (artifacts.map entry) :=
  byName_foldl (d := []) h h.nodup_rawName

theorem dictGet_entries (artifacts : List Artifact) (name : Str) :
    dictGet (.str name) (artifacts.map entry) = artifacts.find? fun art => rawName art = name := by
  induction artifacts with
  | nil => rfl
  | cons art artifacts ih =>
    have heq : Json.eq true (.str (rawName art)) (.str name) = decide (rawName art = name) := by
      simp [Json.eq]
    rw [List.map_cons, entry, dictGet, ih, heq, List.find?_cons]
    cases decide (rawName art = name) <;> rfl

end

/-! ### The report -/

/-- The names under which the artifacts of the new manifest are reported. -/
def Diff.names (d : Diff) : List Json :=
  d.added.map (getKey "name") ++ d.updated.map Updated.name ++ d.unchanged.map (getKey "name")

/-- A report on the artifacts of two manifests, where those that are reported unchanged are the same. -/
structure Complete (Same : Artifact → Artifact → Prop) (current new : List Artifact) (d : Diff) : Prop where
  once : ∀ art ∈ new, d.names.count (getKey "name" art) = 1
  reported : ∀ art ∈ new, art ∈ d.added ∨ art ∈ d.unchanged ∨ ∃ u ∈ d.updated, u.name = getKey "name" art
  removed : ∀ old ∈ current, (∀ art ∈ new, getKey "name" art ≠ getKey "name" old) → old ∈ d.removed
  unchanged : ∀ art ∈ d.unchanged, art ∈ new ∧ ∃ old ∈ current, getKey "name" old = getKey "name" art ∧ Same old art

/-- How an artifact of the new manifest is reported. -/
inductive Change where
  | added
  | updated
  | unchanged
deriving DecidableEq

def changeOf (current : List Artifact) (art : Artifact) : Change :=
  match current.find? fun old => rawName old = rawName art with
  | none => .added
  | some old => if sameRelease old art then .unchanged else .updated

section

variable {artifact_names : List Str} {current new : List Artifact}

theorem added_entries (current new : List Artifact) :
    added (current.map entry) (new.map entry) = new.filter fun art => changeOf current art = .added := by
  have hkind : ∀ art, (dictGet (entry art).1 (current.map entry)).isNone = decide (changeOf current art = .added) := by
    intro art
    rw [entry, dictGet_entries, changeOf]
    split
    · next hfind => simp [hfind]
    · next old hfind => by_cases hsame : sameRelease old art = true <;> simp [hfind, hsame]
  rw [added, List.filter_map, List.map_map]
  simp only [Function.comp_def, hkind]
  exact List.map_id _

theorem unchanged_entries (current new : List Artifact) :
    unchanged (current.map entry) (new.map entry) = new.filter fun art => changeOf current art = .unchanged := by
  have hkind : ∀ art, (dictGet (entry art).1 (current.map entry)).any (sameRelease · (entry art).2) =
      decide (changeOf current art = .unchanged) := by
    intro art
    rw [entry, dictGet_entries, changeOf]
    split
    · next hfind => simp [hfind]
    · next old hfind => by_cases hsame : sameRelease old art = true <;> simp [hfind, hsame]
  rw [unchanged, List.filter_map, List.map_map]
  simp only [Function.comp_def, hkind]
  exact List.map_id _

theorem updated_names (current new : List Artifact) : (updated (current.map entry) (new.map entry)).map Updated.name =
    (new.filter fun art => changeOf current art = .updated).map fun art => .str (rawName art) := by
  have hkind : ∀ art, ((dictGet (entry art).1 (current.map entry)).bind fun old_art =>
      if sameRelease old_art art then none else some (updatedEntry (entry art).1 old_art art)).map Updated.name =
      if changeOf current art = .updated then some (.str (rawName art)) else none := by
    intro art
    rw [entry, dictGet_entries, changeOf]
    split
    · next hfind => simp [hfind]
    · next old hfind => by_cases hsame : sameRelease old art = true <;> simp [hfind, hsame, updatedEntry]
  rw [updated, List.map_filterMap, List.filterMap_map]
  refine (List.filterMap_congr fun art _ => hkind art).trans ?_
  induction new with
  | nil => rfl
  | cons art new ih =>
    rw [List.filterMap_cons, List.filter_cons, ih]
    by_cases hchange : changeOf current art = .updated <;> simp [hchange]

/-- Every artifact is reported in one of the three ways. -/
theorem filter_changes_perm (current new : List Artifact) :
    ((new.filter fun art => changeOf current art = .added) ++ (new.filter fun art => changeOf current art = .updated) ++
      new.filter fun art => changeOf current art = .unchanged).Perm new := by
  induction new with
  | nil => exact .refl _
  | cons art new ih =>
    cases hchange : changeOf current art with
    | added => simpa [hchange] using ih
    | updated =>
      simp only [List.filter_cons, hchange, reduceCtorEq, decide_false, decide_true, Bool.false_eq_true, if_false, if_true]
      rw [List.append_assoc, List.cons_append]
      exact List.perm_middle.trans (by rw [← List.append_assoc]; exact ih.cons art)
    | unchanged =>
      simp only [List.filter_cons, hchange, reduceCtorEq, decide_false, decide_true, Bool.false_eq_true, if_false, if_true]
      exact List.perm_middle.trans (ih.cons art)

theorem checkDependencies_eq_nil {name : Str} {art : Artifact} (h : checkDependencies artifact_names name art = some []) :
    ∃ deps, iterate ((lookupField (lit "dependencies") art).getD (.arr [])) = some deps ∧ deps.all Json.hashable = true ∧
      ∀ dep ∈ deps, ∃ n ∈ artifact_names, dep = .str n := by
  unfold checkDependencies at h
  obtain ⟨deps, hdeps, h⟩ := Option.bind_eq_some_iff.mp h
  split_ifs at h with hhash
  refine ⟨deps, hdeps, hhash, fun dep hdep => ?_⟩
  have hnil := List.map_eq_nil_iff.mp (Option.some.inj h)
  have hnames : (artifact_names.any fun n => dep.eq true (.str n)) = true := by
    simpa using List.filter_eq_nil_iff.mp hnil dep hdep
  obtain ⟨n, hn, heq⟩ := List.any_eq_true.mp hnames
  exact ⟨n, hn, eq_str_right_iff.mp heq⟩

theorem Checked.dependencies (h : Checked artifact_names new) {art : Artifact} (hart : art ∈ new) :
    ∃ deps, iterate ((lookupField (lit "dependencies") art).getD (.arr [])) = some deps ∧ deps.all Json.hashable = true ∧
      ∀ dep ∈ deps, ∃ n ∈ artifact_names, dep = .str n := by
  obtain ⟨name, -, hproblems⟩ := h.named art hart
  unfold checkArtifact at hproblems
  split at hproblems
  · simp only [Option.bind_eq_bind, Option.bind_eq_some_iff, Option.pure_def, Option.some.injEq,
      List.append_eq_nil_iff] at hproblems
    obtain ⟨missing, hmissing, -, rfl⟩ := hproblems
    exact checkDependencies_eq_nil hmissing
  · simp at hproblems

/-- No dependency is missing where the names have no whitespace around them. -/
theorem exists_missingOf (h : Checked (new.filterMap nameOf) new) {art : Artifact} (hart : art ∈ new) :
    ∃ missing, missingOf (new.map entry) (entry art) = some missing ∧
      ((∀ art ∈ new, strip (rawName art) = rawName art) → missing = []) := by
  obtain ⟨deps, hiterate, hhash, hnames⟩ := h.dependencies hart
  have hmissing : missingOf (new.map entry) (entry art) =
      some ((deps.filter fun dep => (dictGet dep (new.map entry)).isNone).map (MissingDependency.mk (.str (rawName art)))) := by
    simp only [missingOf, entry, hiterate, Option.bind_eq_bind, Option.bind_some, hhash, if_true]
  refine ⟨_, hmissing, fun hstripped => ?_⟩
  rw [List.map_eq_nil_iff, List.filter_eq_nil_iff]
  intro dep hdep hnone
  obtain ⟨n, hn, rfl⟩ := hnames dep hdep
  obtain ⟨other, hother, hname⟩ := List.mem_filterMap.mp hn
  rw [dictGet_entries, Option.isNone_iff_eq_none, List.find?_eq_none] at hnone
  have hraw : rawName other = n := by rw [(upgrade_bundle.getKey_name hname).2, hstripped other hother]
  simpa [hraw] using hnone other hother

theorem exists_missingDependencies (h : Checked (new.filterMap nameOf) new) :
    ∃ missing, missingDependencies (new.map entry) = some missing ∧
      ((∀ art ∈ new, strip (rawName art) = rawName art) → missing = []) := by
  suffices hmap : ∀ arts : List Artifact, (∀ art ∈ arts, art ∈ new) →
      ∃ missing, (arts.map entry).mapM (missingOf (new.map entry)) = some missing ∧
        ((∀ art ∈ new, strip (rawName art) = rawName art) → missing.flatten = []) by
    obtain ⟨missing, hmissing, hempty⟩ := hmap new fun _ => id
    refine ⟨missing.flatten, ?_, hempty⟩
    unfold missingDependencies
    rw [hmissing]
    rfl
  intro arts
  induction arts with
  | nil => exact fun _ => ⟨[], rfl, fun _ => rfl⟩
  | cons art arts ih =>
    intro hsub
    obtain ⟨hart, hrest⟩ := List.forall_mem_cons.mp hsub
    obtain ⟨first, hfirst, hfirstEmpty⟩ := exists_missingOf h hart
    obtain ⟨missing, hmissing, hempty⟩ := ih hrest
    refine ⟨first :: missing, ?_, fun hstripped => ?_⟩
    · rw [List.map_cons, List.mapM_cons, hfirst, hmissing]
      rfl
    · rw [List.flatten_cons, hfirstEmpty hstripped, hempty hstripped]
      rfl

/-- The diff of two manifests whose artifacts have been checked. -/
theorem generate_diff_checked {currentDoc newDoc : Json} {other_names : List Str}
    (hcurrent : getOr (.arr []) "artifacts" currentDoc = some (.arr (current.map .obj))) (hchecked : Checked artifact_names current)
    (hnew : getOr (.arr []) "artifacts" newDoc = some (.arr (new.map .obj))) (hchecked' : Checked other_names new)
    {missing : List MissingDependency} (hmissing : missingDependencies (new.map entry) = some missing) :
    ∃ d, generate_diff currentDoc newDoc = some d ∧ d.missing_dependencies = missing ∧
      d.added = added (current.map entry) (new.map entry) ∧ d.updated = updated (current.map entry) (new.map entry) ∧
      d.unchanged = unchanged (current.map entry) (new.map entry) ∧ d.removed = removed (current.map entry) (new.map entry) := by
  have hget : ∀ {doc value : Json}, getOr (.arr []) "artifacts" doc = some value → ∃ fields, doc = .obj fields := by
    intro doc value h
    cases doc with
    | obj fields => exact ⟨fields, rfl⟩
    | _ => cases h
  obtain ⟨currentFields, rfl⟩ := hget hcurrent
  obtain ⟨newFields, rfl⟩ := hget hnew
  let d : Diff := {
    current_bundle_id := (lookupField (lit "bundle_id") currentFields).getD .null
    current_version := (lookupField (lit "target_version") currentFields).getD .null
    new_bundle_id := (lookupField (lit "bundle_id") newFields).getD .null
    new_version := (lookupField (lit "target_version") newFields).getD .null
    promotion_stage := (lookupField (lit "promotion_stage") newFields).getD .null
    compatibility_matrix_ref := (lookupField (lit "compatibility_matrix_ref") newFields).getD .null
    counts := ⟨(added (current.map entry) (new.map entry)).length, (removed (current.map entry) (new.map entry)).length,
      (updated (current.map entry) (new.map entry)).length, (unchanged (current.map entry) (new.map entry)).length, missing.length⟩
    added := added (current.map entry) (new.map entry)
    removed := removed (current.map entry) (new.map entry)
    updated := updated (current.map entry) (new.map entry)
    unchanged := unchanged (current.map entry) (new.map entry)
    missing_dependencies := missing }
  refine ⟨d, ?_, rfl, rfl, rfl, rfl, rfl⟩
  unfold generate_diff
  simp only [hcurrent, hnew, iterate, byName_checked hchecked, byName_checked hchecked', hmissing, Option.bind_eq_bind,
    Option.bind_some, Option.pure_def]
  rfl

theorem complete_of_checked {other_names : List Str} (hchecked : Checked artifact_names current)
    (hchecked' : Checked other_names new) {d : Diff} (hadded : d.added = added (current.map entry) (new.map entry))
    (hupdated : d.updated = updated (current.map entry) (new.map entry))
    (hunchanged : d.unchanged = unchanged (current.map entry) (new.map entry))
    (hremoved : d.removed = removed (current.map entry) (new.map entry)) :
    Complete (fun old art => sameRelease old art = true) current new d := by
  have hkeys : ∀ arts : List Artifact, (∀ art ∈ arts, art ∈ new) →
      arts.map (getKey "name") = arts.map fun art => .str (rawName art) :=
    fun arts hsub => List.map_congr_left fun art hart => hchecked'.getKey_name (hsub art hart)
  have hperm : d.names.Perm (new.map fun art => .str (rawName art)) := by
    rw [Diff.names, hadded, hupdated, hunchanged, added_entries, unchanged_entries, updated_names,
      hkeys _ fun art hart => (List.mem_filter.mp hart).1, hkeys _ fun art hart => (List.mem_filter.mp hart).1,
      ← List.map_append, ← List.map_append]
    exact (filter_changes_perm current new).map _
  have hnodup : (new.map fun art => Json.str (rawName art)).Nodup := by
    have hinj : Function.Injective Json.str := fun _ _ h => Json.str.inj h
    have hmap := hchecked'.nodup_rawName.map hinj
    rwa [List.map_map] at hmap
  constructor
  · intro art hart
    rw [hperm.count_eq, hchecked'.getKey_name hart]
    exact List.count_eq_one_of_mem hnodup (List.mem_map_of_mem hart)
  · intro art hart
    cases hchange : changeOf current art with
    | added =>
      rw [hadded, added_entries]
      exact .inl (List.mem_filter.mpr ⟨hart, decide_eq_true hchange⟩)
    | unchanged =>
      rw [hunchanged, unchanged_entries]
      exact .inr (.inl (List.mem_filter.mpr ⟨hart, decide_eq_true hchange⟩))
    | updated =>
      have hname : Json.str (rawName art) ∈ d.updated.map Updated.name := by
        rw [hupdated, updated_names]
        exact List.mem_map.mpr ⟨art, List.mem_filter.mpr ⟨hart, decide_eq_true hchange⟩, rfl⟩
      obtain ⟨u, hu, hname⟩ := List.mem_map.mp hname
      exact .inr (.inr ⟨u, hu, hname.trans (hchecked'.getKey_name hart).symm⟩)
  · intro old hold hgone
    rw [hremoved, removed, List.mem_map]
    refine ⟨entry old, List.mem_filter.mpr ⟨List.mem_map_of_mem hold, ?_⟩, rfl⟩
    rw [entry, dictGet_entries, Option.isNone_iff_eq_none, List.find?_eq_none]
    intro art hart heq
    refine hgone art hart ?_
    rw [hchecked'.getKey_name hart, hchecked.getKey_name hold, of_decide_eq_true heq]
  · intro art hart
    rw [hunchanged, unchanged_entries] at hart
    obtain ⟨hmem, hchange⟩ := List.mem_filter.mp hart
    refine ⟨hmem, ?_⟩
    unfold changeOf at hchange
    split at hchange
    · simp at hchange
    · next old hfind =>
      split_ifs at hchange with hsame
      · have hold := List.mem_of_find?_eq_some hfind
        have hname : rawName old = rawName art := by simpa using List.find?_some hfind
        refine ⟨old, hold, ?_, hsame⟩
        rw [hchecked.getKey_name hold, hchecked'.getKey_name hmem, hname]
      · simp at hchange

end

/-- The diff of two accepted manifests reports every artifact once; what is unchanged has the same version, digest and license. -/
theorem diff_complete {current new : Json} (hcurrent : validate_metadata current = some [])
    (hnew : validate_metadata new = some []) :
    ∃ d, generate_diff current new = some d ∧
      Complete (fun old art => sameRelease old art = true) (artifactsOf current) (artifactsOf new) d ∧
      ((∀ art ∈ artifactsOf new, strip (rawName art) = rawName art) → d.missing_dependencies = []) := by
  obtain ⟨hlisted, hchecked⟩ := checked_of_validate hcurrent
  obtain ⟨hlisted', hchecked'⟩ := checked_of_validate hnew
  obtain ⟨missing, hmissing, hempty⟩ := exists_missingDependencies hchecked'
  obtain ⟨d, hd, hmissing', hadded, hupdated, hunchanged, hremoved⟩ :=
    generate_diff_checked hlisted hchecked hlisted' hchecked' hmissing
  refine ⟨d, hd, complete_of_checked hchecked hchecked' hadded hupdated hunchanged hremoved, fun hstripped => ?_⟩
  rw [hmissing', hempty hstripped]

/-! ### Two manifests that differ in a source -/

def sampleArtifact (source_ref : String) : Artifact :=
  [(lit "digest", .str (lit "sha256:" ++ List.replicate 64 97)), (lit "license", .str (lit "MIT")),
    (lit "name", .str (lit "app")), (lit "source_ref", .str (lit source_ref)), (lit "version", .str (lit "1.0"))]

def sampleManifest (source_ref : String) : Json := .obj [(lit "artifacts", .arr [.obj (sampleArtifact source_ref)])]

theorem sample_validated (source_ref : String) : validate_metadata (sampleManifest source_ref) = some [] := by
  rfl

/-- An artifact with a version, a letter of its digest and the names of what it depends on. -/
def releaseArtifact (name version : String) (letter : Nat) (dependencies : List String) : Json :=
  .obj [(lit "dependencies", .arr (dependencies.map fun dep => .str (lit dep))),
    (lit "digest", .str (lit "sha256:" ++ List.replicate 64 letter)), (lit "license", .str (lit "Apache-2.0")),
    (lit "name", .str (lit name)), (lit "version", .str (lit version))]

/-- `app` needs `web`; `old` is not in the next bundle. -/
def currentBundle : Json := .obj [(lit "artifacts", .arr [releaseArtifact "app" "1.0" 97 ["web"],
  releaseArtifact "web" "1.0" 98 [], releaseArtifact "old" "1.0" 99 []])]

/-- `app` is updated and needs `db` too, which is new; `web` is the same. -/
def nextBundle : Json := .obj [(lit "artifacts", .arr [releaseArtifact "web" "1.0" 98 [],
  releaseArtifact "app" "1.1" 100 ["web", "db"], releaseArtifact "db" "1.0" 101 []])]

theorem diff_complete_sample : ∃ d, generate_diff currentBundle nextBundle = some d ∧
    Complete (fun old art => sameRelease old art = true) (artifactsOf currentBundle) (artifactsOf nextBundle) d ∧
    ((∀ art ∈ artifactsOf nextBundle, strip (rawName art) = rawName art) → d.missing_dependencies = []) :=
  diff_complete (by decide +kernel) (by decide +kernel)

/-- The artifact is reported unchanged, though it comes from another source. -/
theorem other_source_unchanged : validate_metadata (sampleManifest "a") = some [] ∧ validate_metadata (sampleManifest "b") = some [] ∧
    ∃ d, generate_diff (sampleManifest "a") (sampleManifest "b") = some d ∧
      ¬ Complete (fun old art => Json.eq false (.obj old) (.obj art) = true) (artifactsOf (sampleManifest "a"))
        (artifactsOf (sampleManifest "b")) d := by
  refine ⟨sample_validated "a", sample_validated "b", _, rfl, fun h => ?_⟩
  obtain ⟨-, old, hold, -, hsame⟩ := h.unchanged (sampleArtifact "b") (by decide)
  have hdiffers : ∀ old ∈ artifactsOf (sampleManifest "a"), Json.eq false (.obj old) (.obj (sampleArtifact "b")) = false := by
    decide
  rw [hdiffers old hold] at hsame
  cases hsame

end narwhal.upgrade_bundle
