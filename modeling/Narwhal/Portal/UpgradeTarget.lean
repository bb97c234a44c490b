import Narwhal.Portal.OssVersions

open jslib ranking

namespace narwhal.portal.oss_updates

/-! ### The source -/

structure OssUpstreamInfo where
  latest : Text
  latestPublishedAt : Text
  latestUrl : Text
  latestAgeDays : Option Int
  cooling : Bool
  target : Option Text
  targetPublishedAt : Option Text
  gap : GapKind
  daysBehind : Option Int
deriving DecidableEq

section

variable (parse : Text → Option Int) (releases : List UpstreamRelease) (declared : Text) (heldMinor : Bool) (now : Int)

/-- The releases of the declared minor where it is held. -/
def pool : List UpstreamRelease :=
  match heldMinor, parseSemver declared with
  | true, some d => releases.filter fun r => r.version.major = d.major ∧ r.version.minor = d.minor
  | _, _ => releases

def newer (pool : List UpstreamRelease) : List UpstreamRelease :=
  pool.filter fun r => (parseSemver declared).any fun d => positive (compareSemver r.version d)

/-- The first release of a list that is not held back. -/
def cooled (newer : List UpstreamRelease) : Option UpstreamRelease := newer.find? fun r => ¬ isCooling parse r.publishedAt now

/-- How many days after another time this one is. -/
def daysBetween (later earlier : Option Int) : Option Int := do
  let later ← later
  let earlier ← earlier
  return max 0 ⌊days later earlier + 1 / 2⌋

def summarizeUpstream : Option OssUpstreamInfo :=
  match pool releases declared heldMinor with
  | [] => none
  | latest :: rest =>
    let target := cooled parse now (newer declared (latest :: rest))
    let declaredRelease := releases.find? fun r => sameVersion r.tag declared
    some {
      latest := latest.tag
      latestPublishedAt := latest.publishedAt
      latestUrl := latest.url
      latestAgeDays := ageDays parse latest.publishedAt now
      cooling := isCooling parse latest.publishedAt now
      target := target.map UpstreamRelease.tag
      targetPublishedAt := target.map UpstreamRelease.publishedAt
      gap := gapKind declared latest.tag
      daysBehind := daysBetween (parse latest.publishedAt) (declaredRelease.bind fun r => parse r.publishedAt) }

end

/-! ### The rule -/

/-- A record of the raw list that is a stable release: neither a draft nor a pre-release, by its flags and by its tag. -/
structure Stable (release : Json) (tag publishedAt : Text) (version : Semver) : Prop where
  tag_name : release.getString "tag_name".toList = some tag
  published_at : release.getString "published_at".toList = some publishedAt
  draft : release.getBoolean "draft".toList ≠ some true
  prerelease : release.getBoolean "prerelease".toList ≠ some true
  named : namesPrerelease tag = false
  readable : parseSemver tag = some version

section

variable (Old : Text → Prop) (raw : Json) (declared : Text) (heldMinor : Bool)

/-- A stable release of the raw list that is newer than the declared version, of its minor where that is held, and old enough. -/
structure Eligible (tag publishedAt : Text) (version : Semver) : Prop where
  stable : ∃ release ∈ raw.array.getD [], Stable release tag publishedAt version
  newer : ∃ d, parseSemver declared = some d ∧ d.order < version.order ∧
    (heldMinor = true → version.major = d.major ∧ version.minor = d.minor)
  old : Old publishedAt

/-- The target is the greatest of the eligible releases, none if there is none, and the latest release is no older version. -/
structure TargetRule (info : Option OssUpstreamInfo) : Prop where
  none : (info.bind OssUpstreamInfo.target) = none → ∀ tag publishedAt version, ¬ Eligible Old raw declared heldMinor tag publishedAt version
  greatest : ∀ i, info = some i → ∀ tag, i.target = some tag → ∃ publishedAt version,
    i.targetPublishedAt = some publishedAt ∧ Eligible Old raw declared heldMinor tag publishedAt version ∧
    (∀ other otherAt otherVersion, Eligible Old raw declared heldMinor other otherAt otherVersion →
      otherVersion.order ≤ version.order) ∧
    ∃ latestVersion, parseSemver i.latest = some latestVersion ∧ version.order ≤ latestVersion.order

end

/-- At least seven full days before now. -/
def PublishedAWeekAgo (parse : Text → Option Int) (now : Int) (publishedAt : Text) : Prop :=
  ∃ t, parse publishedAt = some t ∧ COOLING_DAYS * DAY_MS ≤ now - t

/-- At least seven full days before now, or at a time that cannot be read. -/
def NotCooling (parse : Text → Option Int) (now : Int) (publishedAt : Text) : Prop :=
  publishedAt = [] ∨ ∀ t, parse publishedAt = some t → COOLING_DAYS * DAY_MS ≤ now - t

/-! ### Reading the raw list -/

theorem stable_iff {release : Json} {tag publishedAt : Text} {version : Semver} :
    Stable release tag publishedAt version ↔
      ∃ r, normalizeRelease release = some r ∧ r.tag = tag ∧ r.publishedAt = publishedAt ∧ r.version = version := by
  constructor
  · rintro ⟨htag, hat, hdraft, hpre, hnamed, hversion⟩
    have hreadable : (parseSemver tag).isSome = true := by rw [hversion, Option.isSome_some]
    let url := ((release.getString "html_url".toList).filter ("https://".toList.isPrefixOf ·)).getD []
    refine ⟨⟨tag, publishedAt, url, hreadable⟩, ?_, rfl, rfl, by simp [UpstreamRelease.version, hversion]⟩
    unfold normalizeRelease
    simp only [htag, hat, hdraft, hpre, hnamed, or_self, if_false, Bool.false_eq_true, dif_pos hreadable]
    rfl
  · rintro ⟨r, hr, rfl, rfl, rfl⟩
    unfold normalizeRelease at hr
    split at hr
    · rename_i tag publishedAt htag hat
      split_ifs at hr with hflags hnamed hreadable
      obtain rfl := Option.some.inj hr
      rw [not_or] at hflags
      exact ⟨htag, hat, hflags.1, hflags.2, Bool.eq_false_iff.mpr hnamed, (Option.some_get _).symm⟩
    · cases hr

theorem exists_stable_iff {raw : Json} {tag publishedAt : Text} {version : Semver} :
    (∃ release ∈ raw.array.getD [], Stable release tag publishedAt version) ↔
      ∃ r ∈ normalizeReleases raw, r.tag = tag ∧ r.publishedAt = publishedAt ∧ r.version = version := by
  rw [normalizeReleases_eq]
  simp only [mem_ranked, List.mem_filterMap, stable_iff]
  constructor
  · rintro ⟨release, hmem, r, hr, heq⟩
    exact ⟨r, ⟨release, hmem, hr⟩, heq⟩
  · rintro ⟨r, ⟨release, hmem, hr⟩, heq⟩
    exact ⟨release, hmem, r, hr, heq⟩

theorem mem_newer_pool {releases : List UpstreamRelease} {declared : Text} {heldMinor : Bool} {r : UpstreamRelease} :
    r ∈ newer declared (pool releases declared heldMinor) ↔ r ∈ releases ∧ ∃ d, parseSemver declared = some d ∧
      d.order < r.version.order ∧ (heldMinor = true → r.version.major = d.major ∧ r.version.minor = d.minor) := by
  unfold newer pool
  cases hd : parseSemver declared with
  | none => simp
  | some d => cases heldMinor <;> simp [positive_compareSemver, and_assoc, and_comm]

theorem pairwise_pool (raw : Json) (declared : Text) (heldMinor : Bool) :
    (pool (normalizeReleases raw) declared heldMinor).Pairwise fun a b => b.version.order ≤ a.version.order := by
  have htotal : Std.Total fun a b : UpstreamRelease => b.version.order ≤ a.version.order := ⟨fun a b => le_total _ _⟩
  have htrans : IsTrans UpstreamRelease fun a b => b.version.order ≤ a.version.order := ⟨fun a b c hab hbc => hbc.trans hab⟩
  have hsorted : (normalizeReleases raw).Pairwise fun a b => b.version.order ≤ a.version.order := by
    rw [normalizeReleases_eq]
    exact List.pairwise_insertionSort _ _
  unfold pool
  split
  · exact hsorted.filter _
  · exact hsorted

/-- What is found first in a sorted list comes before all others of its kind. -/
theorem le_of_find {α : Type} {r : α → α → Prop} {p : α → Bool} {l : List α} {a b : α} (hrefl : ∀ a, r a a)
    (hsorted : l.Pairwise r) (hfind : l.find? p = some a) (hb : b ∈ l) (hp : p b = true) : r a b := by
  obtain ⟨-, before, after, rfl, hbefore⟩ := List.find?_eq_some_iff_append.mp hfind
  obtain hb | hb := List.mem_append.mp hb
  · simpa [hp] using hbefore b hb
  · obtain rfl | hb := List.mem_cons.mp hb
    · exact hrefl b
    · exact (List.pairwise_cons.mp (List.pairwise_append.mp hsorted).2.1).1 b hb

/-- Which eligible release the code finds. -/
theorem eligible_iff {parse : Text → Option Int} {now : Int} {raw : Json} {declared : Text} {heldMinor : Bool}
    {tag publishedAt : Text} {version : Semver} :
    Eligible (NotCooling parse now) raw declared heldMinor tag publishedAt version ↔
      ∃ r ∈ newer declared (pool (normalizeReleases raw) declared heldMinor), isCooling parse r.publishedAt now = false ∧
        r.tag = tag ∧ r.publishedAt = publishedAt ∧ r.version = version := by
  simp only [mem_newer_pool, isCooling_eq_false_iff]
  constructor
  · rintro ⟨hstable, hnewer, hold⟩
    obtain ⟨r, hr, rfl, rfl, rfl⟩ := exists_stable_iff.mp hstable
    exact ⟨r, ⟨hr, hnewer⟩, hold, rfl, rfl, rfl⟩
  · rintro ⟨r, ⟨hr, hnewer⟩, hold, rfl, rfl, rfl⟩
    exact ⟨exists_stable_iff.mpr ⟨r, hr, rfl, rfl, rfl⟩, hnewer, hold⟩

theorem target_rule (parse : Text → Option Int) (now : Int) (raw : Json) (declared : Text) (heldMinor : Bool) :
    TargetRule (NotCooling parse now) raw declared heldMinor
      (summarizeUpstream parse (normalizeReleases raw) declared heldMinor now) := by
  have hsorted := pairwise_pool raw declared heldMinor
  constructor
  · intro hnone tag publishedAt version helig
    obtain ⟨r, hr, hold, -⟩ := eligible_iff.mp helig
    unfold summarizeUpstream at hnone
    cases hpool : pool (normalizeReleases raw) declared heldMinor with
    | nil => simp [hpool, newer] at hr
    | cons latest rest =>
      rw [hpool] at hnone hr
      have hfind : cooled parse now (newer declared (latest :: rest)) = none := by simpa using hnone
      have hcooling := List.find?_eq_none.mp hfind r hr
      simp [hold] at hcooling
  · intro i hi tag htag
    unfold summarizeUpstream at hi
    cases hpool : pool (normalizeReleases raw) declared heldMinor with
    | nil => simp [hpool] at hi
    | cons latest rest =>
      rw [hpool] at hi hsorted
      obtain rfl := Option.some.inj hi
      obtain ⟨r, hr, rfl⟩ := Option.map_eq_some_iff.mp htag
      have hmem := List.mem_of_find?_eq_some hr
      have hold : isCooling parse r.publishedAt now = false := by simpa using List.find?_some hr
      have hnewer : (newer declared (latest :: rest)).Pairwise fun a b => b.version.order ≤ a.version.order := hsorted.filter _
      refine ⟨r.publishedAt, r.version, ?_, eligible_iff.mpr ⟨r, hpool ▸ hmem, hold, rfl, rfl, rfl⟩, ?_, latest.version, ?_, ?_⟩
      · exact Option.map_eq_some_iff.mpr ⟨r, hr, rfl⟩
      · intro other otherAt otherVersion helig
        obtain ⟨r', hr', hold', -, -, rfl⟩ := eligible_iff.mp helig
        rw [hpool] at hr'
        exact le_of_find (r := fun a b : UpstreamRelease => b.version.order ≤ a.version.order) (fun _ => le_rfl) hnewer hr hr'
          (decide_eq_true (by rw [hold']; exact Bool.false_ne_true))
      · exact (Option.some_get latest.readable).symm
      · obtain rfl | hrest := List.mem_cons.mp (List.mem_of_mem_filter hmem)
        · exact le_rfl
        · exact (List.pairwise_cons.mp hsorted).1 r hrest

/-! ### A time that cannot be read -/

/-- A release that was published "soon". -/
def soonRelease : Json := .arr [.obj [("tag_name".toList, .str "v1.2.0".toList), ("published_at".toList, .str "soon".toList)]]

def soonInfo : OssUpstreamInfo where
  latest := "v1.2.0".toList
  latestPublishedAt := "soon".toList
  latestUrl := []
  latestAgeDays := none
  cooling := false
  target := some "v1.2.0".toList
  targetPublishedAt := some "soon".toList
  gap := .minor
  daysBehind := none

theorem unreadable_time_targeted :
    summarizeUpstream (dateParse fun _ => none) (normalizeReleases soonRelease) "1.1.0".toList false 0 = some soonInfo ∧
      ¬ TargetRule (PublishedAWeekAgo (dateParse fun _ => none) 0) soonRelease "1.1.0".toList false (some soonInfo) := by
  have hunreadable : dateParse (fun _ => none) "soon".toList = none := by decide
  refine ⟨by decide +kernel, fun h => ?_⟩
  obtain ⟨publishedAt, version, hat, ⟨-, -, t, ht, -⟩, -⟩ := h.greatest soonInfo rfl _ rfl
  obtain rfl : "soon".toList = publishedAt := Option.some.inj hat
  rw [hunreadable] at ht
  cases ht

end narwhal.portal.oss_updates
