import Mathlib.Data.Prod.Lex
import Narwhal.Lib.JsDouble
import Narwhal.Lib.JsRecord
import Narwhal.Lib.Ranking

open jslib

namespace narwhal.portal.oss_updates

/-! ### Versions -/

structure Semver where
  major : Double
  minor : Double
  patch : Double
  whole : major.IsWhole ∧ minor.IsWhole ∧ patch.IsWhole

/-- The version that three runs of digits write; no digits write 0. -/
def Semver.ofDigits (major minor patch : Text) : Semver where
  major := .ofNat (number major)
  minor := .ofNat (number minor)
  patch := .ofNat (number patch)
  whole := ⟨Double.isWhole_ofNat _, Double.isWhole_ofNat _, Double.isWhole_ofNat _⟩

/-- `/^v?(\d+)\.(\d+)(?:\.(\d+))?/` -/
def matchSemver (s : Text) : Option Semver :=
  let s := if s.head? = some 'v' then s.tail else s
  let major := s.takeWhile isDigit
  match s.dropWhile isDigit with
  | '.' :: rest =>
    let minor := rest.takeWhile isDigit
    let patch :=
      match rest.dropWhile isDigit with
      | '.' :: rest => rest.takeWhile isDigit
      | _ => []
    if major = [] ∨ minor = [] then none else some (.ofDigits major minor patch)
  | _ => none

def parseSemver (input : Text) : Option Semver := if input = [] then none else matchSemver (trimText input)

def compareSemver (a b : Semver) : Double :=
  (a.major.sub b.major).or ((a.minor.sub b.minor).or (a.patch.sub b.patch))

/-- `x > 0` -/
def positive (x : Double) : Bool := Double.lt (.finite 0) x

inductive GapKind where
  | none
  | patch
  | minor
  | major
  | ahead
  | unknown
deriving DecidableEq

def gapKind (declared latest : Text) : GapKind :=
  match parseSemver declared, parseSemver latest with
  | some d, some l =>
    let cmp := compareSemver d l
    if cmp.isZero then .none
    else if positive cmp then .ahead
    else if d.major ≠ l.major then .major
    else if d.minor ≠ l.minor then .minor
    else .patch
  | _, _ => .unknown

def normalizeVersion (v : Text) : Option Text :=
  if v = [] then none
  else
    let s := trimText v
    let s := if s.head? = some 'v' then s.tail else s
    if s = [] then none else some s

def sameVersion (a b : Text) : Bool :=
  match parseSemver a, parseSemver b with
  | some pa, some pb => (compareSemver pa pb).isZero
  | _, _ => normalizeVersion a = normalizeVersion b

/-! ### Ages -/

def DAY_MS : Int := 24 * 60 * 60 * 1000

def COOLING_DAYS : Int := 7

section

variable (parse : Text → Option Int)

/-- The difference of two times in days, in double precision. -/
def days (later earlier : Int) : ℚ := roundDouble (roundDouble ((later - earlier : Int) : ℚ) / DAY_MS)

def ageDays (iso : Text) (now : Int) : Option Int :=
  if iso = [] then none else (parse iso).map fun t => max 0 ⌊days now t⌋

def isCooling (publishedAt : Text) (now : Int) : Bool := (ageDays parse publishedAt now).any (· < COOLING_DAYS)

end

/-! ### Releases -/

/-- A release with a tag that can be read. -/
structure UpstreamRelease where
  tag : Text
  publishedAt : Text
  url : Text
  readable : (parseSemver tag).isSome = true

def UpstreamRelease.version (r : UpstreamRelease) : Semver := (parseSemver r.tag).get r.readable

/-- A hyphen and one of these words, in either case. -/
def namesPrerelease (tag : Text) : Bool :=
  tag.tails.any fun s => ["-rc", "-alpha", "-beta", "-pre", "-dev", "-snapshot"].any fun word =>
    word.toList.isPrefixOf (s.map Char.toLower)

def normalizeRelease (r : Json) : Option UpstreamRelease :=
  match r.getString "tag_name".toList, r.getString "published_at".toList with
  | some tag, some publishedAt =>
    if r.getBoolean "draft".toList = some true ∨ r.getBoolean "prerelease".toList = some true then none
    else if namesPrerelease tag then none
    else if readable : (parseSemver tag).isSome = true then
      some {
        tag := tag
        publishedAt := publishedAt
        url := ((r.getString "html_url".toList).filter ("https://".toList.isPrefixOf ·)).getD []
        readable := readable }
    else none
  | _, _ => none

/-- Stable releases only, the newest first. -/
def normalizeReleases (raw : Json) : List UpstreamRelease :=
  ((raw.array.getD []).filterMap normalizeRelease).insertionSort
    fun a b => ¬ positive (compareSemver b.version a.version)

/-! ### A week -/

theorem le_days_iff (now t : Int) : (COOLING_DAYS : ℚ) ≤ days now t ↔ COOLING_DAYS * DAY_MS ≤ now - t := by
  constructor
  · intro h
    by_contra hlt
    have hms : (now - t : Int) ≤ 7 * DAY_MS - 1 := by
      unfold COOLING_DAYS at hlt
      omega
    have hround : roundDouble ((now - t : Int) : ℚ) ≤ ((7 * DAY_MS - 1 : Int) : ℚ) := by
      rw [← roundDouble_intCast (n := 7 * DAY_MS - 1) (by decide)]
      exact roundDouble_mono (by exact_mod_cast hms)
    have hday : (0 : ℚ) < DAY_MS := by norm_num [DAY_MS]
    have hquotient := roundDouble_mono (div_le_div_of_nonneg_right hround hday.le)
    have hbound : roundDouble (((7 * DAY_MS - 1 : Int) : ℚ) / DAY_MS) < 7 := by decide +kernel
    have hseven : (7 : ℚ) ≤ days now t := by exact_mod_cast h
    exact absurd (hseven.trans hquotient) (not_le.mpr hbound)
  · intro h
    have hround : ((7 * DAY_MS : Int) : ℚ) ≤ roundDouble ((now - t : Int) : ℚ) := by
      rw [← roundDouble_intCast (n := 7 * DAY_MS) (by decide)]
      exact roundDouble_mono (by exact_mod_cast h)
    have hday : (0 : ℚ) < DAY_MS := by norm_num [DAY_MS]
    have hquotient : (7 : ℚ) ≤ roundDouble ((now - t : Int) : ℚ) / DAY_MS := by
      rw [le_div_iff₀ hday]
      exact_mod_cast hround
    have hseven : roundDouble 7 = 7 := by exact_mod_cast roundDouble_intCast (n := 7) (by decide)
    have hle : (7 : ℚ) ≤ days now t := hseven ▸ roundDouble_mono hquotient
    exact_mod_cast hle

/-- A release is not held back where its time cannot be read, or is seven days ago. -/
theorem isCooling_eq_false_iff {parse : Text → Option Int} {publishedAt : Text} {now : Int} :
    isCooling parse publishedAt now = false ↔
      publishedAt = [] ∨ ∀ t, parse publishedAt = some t → COOLING_DAYS * DAY_MS ≤ now - t := by
  by_cases hempty : publishedAt = []
  · simp [isCooling, ageDays, hempty]
  · cases hparse : parse publishedAt with
    | none => simp [isCooling, ageDays, hempty, hparse]
    | some t =>
      have hage : ¬ max 0 ⌊days now t⌋ < COOLING_DAYS ↔ (COOLING_DAYS : ℚ) ≤ days now t := by
        rw [← Int.le_floor, not_lt, le_max_iff]
        exact or_iff_right (by decide)
      simp [isCooling, ageDays, hempty, hparse, ← le_days_iff, ← hage]

/-! ### The order of versions -/

/-- The three numbers, the first that differs counts. -/
def Semver.order (v : Semver) : WithTop ℚ ×ₗ WithTop ℚ ×ₗ WithTop ℚ :=
  toLex (v.major.size, toLex (v.minor.size, v.patch.size))

theorem positive_compareSemver (a b : Semver) : positive (compareSemver a b) = true ↔ b.order < a.order := by
  obtain ⟨hmajor, hminor, hpatch⟩ := a.whole
  obtain ⟨hmajor', hminor', hpatch'⟩ := b.whole
  have hlast : positive (a.patch.sub b.patch) = true ↔ b.patch.size < a.patch.size := Double.sub_pos_iff hpatch hpatch'
  unfold compareSemver positive at *
  rw [Double.sub_or_pos_iff hmajor hmajor', Double.sub_or_pos_iff hminor hminor', hlast, Semver.order, Semver.order,
    Prod.Lex.toLex_lt_toLex, Prod.Lex.toLex_lt_toLex]
  simp only [eq_comm]

theorem normalizeReleases_eq (raw : Json) : normalizeReleases raw =
    ranking.ranked (fun r => r.version.order) ((raw.array.getD []).filterMap normalizeRelease) := by
  unfold normalizeReleases ranking.ranked
  congr 1
  funext a b
  rw [positive_compareSemver, not_lt]

end narwhal.portal.oss_updates
