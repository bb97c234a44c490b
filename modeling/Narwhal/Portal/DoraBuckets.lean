import Mathlib.Algebra.BigOperators.Group.List.Basic
import Mathlib.Data.List.Sort
import Narwhal.Lib.JsDate

open jslib

namespace narwhal.portal.governance_dora

/-! ### The window -/

structure HistoryEntry where
  revision : Text
  deployedAt : Text

/-- An application of Argo CD; its namespace is that of the destination, "default" where there is none. -/
structure App where
  name : Text
  namespace_ : Text
  phase : Option Text
  history : List HistoryEntry

structure FlatDeploy where
  app : Text
  namespace_ : Text
  revision : Text
  deployedAt : Text
  deployedAtMs : Int
  isLatest : Bool
  phase : Option Text

def DAY_MS : Int := 24 * 60 * 60 * 1000

def sevenDaysAgo (now : Int) : Int := now - 7 * DAY_MS

/-- The deployments of an application after a time; `parse` is `new Date(text).getTime()`, none for
    `NaN`. -/
def appDeploys (parse : Text → Option Int) (after : Int) (app : App) : List FlatDeploy :=
  app.history.zipIdx.filterMap fun (h, i) =>
    match parse h.deployedAt with
    | none => none
    | some deployedAtMs =>
      if after < deployedAtMs then
        some {
          app := app.name
          namespace_ := if app.namespace_ = [] then "default".toList else app.namespace_
          revision := h.revision
          deployedAt := h.deployedAt
          deployedAtMs := deployedAtMs
          isLatest := i = app.history.length - 1
          phase := app.phase }
      else none

/-- The deployments of the last seven days, newest first. -/
def deployments (parse : Text → Option Int) (apps : List App) (now : Int) : List FlatDeploy :=
  (apps.flatMap (appDeploys parse (sevenDaysAgo now))).insertionSort fun a b => b.deployedAtMs ≤ a.deployedAtMs

/-! ### The days -/

/-- The number of the calendar day of a time; the offset is that of the time zone. -/
def localDay (offset t : Int) : Int := (t + offset) / DAY_MS

/-- The month and the day of the month, with two digits each. -/
def dayText (day : Int) : Text := digits2 (civilOfDays day).month ++ '-' :: digits2 (civilOfDays day).day

def dateStr (offset t : Int) : Text := dayText (localDay offset t)

structure DailyDeploys where
  date : Text
  count : Nat
deriving DecidableEq

/-- The days without their counts, the oldest first. -/
def emptyDays (offset now : Int) : List DailyDeploys :=
  [6, 5, 4, 3, 2, 1, 0].map fun i => ⟨dateStr offset (now - i * DAY_MS), 0⟩

/-- The first day of this date is counted up. -/
def countDay (date : Text) : List DailyDeploys → List DailyDeploys
  | [] => []
  | day :: days => if day.date = date then { day with count := day.count + 1 } :: days else day :: countDay date days

/-- What the route answers of the deployments. -/
structure DoraMetrics where
  totalDeploys : Nat
  dailyDeploys : List DailyDeploys

def doraMetrics (parse : Text → Option Int) (offset : Int) (apps : List App) (now : Int) : DoraMetrics where
  totalDeploys := (deployments parse apps now).length
  dailyDeploys := (deployments parse apps now).foldl
    (fun days d => countDay (dateStr offset d.deployedAtMs) days) (emptyDays offset now)

/-! ### Counting -/

/-- What a day has after a list of dates was counted. -/
def counted (dates : List Text) (day : DailyDeploys) : DailyDeploys := { day with count := day.count + dates.count day.date }

theorem countDay_eq (date : Text) {days : List DailyDeploys} (h : (days.map DailyDeploys.date).Nodup) :
    countDay date days = days.map (counted [date]) := by
  induction days with
  | nil => rfl
  | cons day days ih =>
    obtain ⟨hnot, hrest⟩ := List.nodup_cons.mp h
    by_cases hday : day.date = date
    · have hother : ∀ day' ∈ days, counted [date] day' = day' := by
        intro day' hmem
        have hne : date ≠ day'.date := by
          rintro rfl
          exact hnot (hday ▸ List.mem_map_of_mem hmem)
        simp [counted, hne]
      rw [countDay, if_pos hday, List.map_cons, List.map_congr_left hother, List.map_id']
      simp [counted, hday]
    · rw [countDay, if_neg hday, List.map_cons, ih hrest]
      simp [counted, Ne.symm hday]

/-- The days have as many deployments as have their dates. -/
theorem foldl_countDay (dates : List Text) {days : List DailyDeploys} (h : (days.map DailyDeploys.date).Nodup) :
    dates.foldl (fun days date => countDay date days) days = days.map (counted dates) := by
  induction dates generalizing days with
  | nil => exact (List.map_id days).symm
  | cons date dates ih =>
    have hdates : (days.map (counted [date])).map DailyDeploys.date = days.map DailyDeploys.date := by
      rw [List.map_map]
      rfl
    rw [List.foldl_cons, countDay_eq date h, ih (hdates ▸ h), List.map_map]
    refine List.map_congr_left fun day _ => ?_
    simp only [Function.comp_apply, counted, List.count_cons, List.count_nil, DailyDeploys.mk.injEq, true_and]
    omega

/-- Counts over distinct dates add up to the length where every date is among them. -/
theorem sum_count_eq_length_iff (dates : List Text) {days : List Text} (h : days.Nodup) :
    (days.map fun day => dates.count day).sum = dates.length ↔ ∀ date ∈ dates, date ∈ days := by
  have hone : ∀ date, (days.map fun day => if date = day then 1 else 0).sum = if date ∈ days then 1 else 0 := by
    intro date
    induction days with
    | nil => rfl
    | cons day days ih =>
      obtain ⟨hnot, hrest⟩ := List.nodup_cons.mp h
      rw [List.map_cons, List.sum_cons, ih hrest]
      by_cases hday : date = day
      · subst hday
        simp [hnot]
      · simp [hday]
  have hsum : (days.map fun day => dates.count day).sum = (dates.filter fun date => date ∈ days).length := by
    induction dates with
    | nil => simp
    | cons date dates ih =>
      have hcons : (days.map fun day => (date :: dates).count day) =
          days.map fun day => dates.count day + if date = day then 1 else 0 := by
        refine List.map_congr_left fun day _ => ?_
        rw [List.count_cons]
        simp
      rw [hcons, List.sum_map_add, ih, hone]
      by_cases hmem : date ∈ days <;> simp [hmem]
  rw [hsum, List.length_filter_eq_length_iff]
  simp

/-! ### The days of the window -/

section

variable (parse : Text → Option Int) (offset : Int) (apps : List App) (now : Int)

/-- The calendar days of the answer. -/
def shownDays : List Int := [6, 5, 4, 3, 2, 1, 0].map fun i => localDay offset now - i

theorem localDay_sub (i : Int) : localDay offset (now - i * DAY_MS) = localDay offset now - i := by
  unfold localDay DAY_MS
  omega

theorem emptyDays_eq : emptyDays offset now = (shownDays offset now).map fun day => ⟨dayText day, 0⟩ := by
  simp only [emptyDays, shownDays, List.map_map]
  refine List.map_congr_left fun i _ => ?_
  simp only [Function.comp_apply, dateStr, localDay_sub]

theorem mem_shownDays_iff {day : Int} : day ∈ shownDays offset now ↔ localDay offset now - 6 ≤ day ∧ day ≤ localDay offset now := by
  simp only [shownDays, List.map_cons, List.map_nil, List.mem_cons, List.not_mem_nil, or_false]
  omega

/-- Days of less than a year have the same text only if they are the same. -/
theorem dayText_inj {day day' : Int} (h : dayText day = dayText day') (hlt : day < day' + 365) (hlt' : day' < day + 365) :
    day = day' := by
  have htwo : ∀ n : Nat, (digits2 n).length = 2 := fun _ => rfl
  obtain ⟨hmonth, hrest⟩ := List.append_inj h (by rw [htwo, htwo])
  have hday := (List.cons.inj hrest).2
  have hinj : ∀ m n : Nat, m < 100 → n < 100 → digits2 m = digits2 n → m = n := by
    intro m n hm hn heq
    rw [← number_digits2 hm, heq, number_digits2 hn]
  have hbounds : ∀ day : Int, (civilOfDays day).month < 100 ∧ (civilOfDays day).day < 100 := by
    intro day
    obtain ⟨hmonth, hday, -, -⟩ := civilOfEra_bounds ((day + 719468) / 146097)
      (show ((day + 719468) % 146097).toNat < 146097 by omega)
    exact ⟨hmonth, hday⟩
  exact civilOfDays_month_day_inj (hinj _ _ (hbounds day).1 (hbounds day').1 hmonth)
    (hinj _ _ (hbounds day).2 (hbounds day').2 hday) hlt hlt'

theorem nodup_dates : ((emptyDays offset now).map DailyDeploys.date).Nodup := by
  rw [emptyDays_eq, List.map_map]
  have hnodup : (shownDays offset now).Nodup := by
    refine List.Nodup.map (fun i j hij => ?_) (by decide)
    omega
  refine List.Nodup.map_on (fun day hday day' hday' heq => ?_) hnodup
  rw [mem_shownDays_iff] at hday hday'
  exact dayText_inj heq (by omega) (by omega)

theorem dailyDeploys_eq : (doraMetrics parse offset apps now).dailyDeploys =
    (emptyDays offset now).map (counted ((deployments parse apps now).map fun d => dateStr offset d.deployedAtMs)) := by
  rw [← foldl_countDay _ (nodup_dates offset now), List.foldl_map]
  rfl

theorem dates_eq : (doraMetrics parse offset apps now).dailyDeploys.map DailyDeploys.date =
    (emptyDays offset now).map DailyDeploys.date := by
  rw [dailyDeploys_eq, List.map_map]
  rfl

theorem mem_appDeploys {app : App} {after : Int} {d : FlatDeploy} (h : d ∈ appDeploys parse after app) :
    ∃ entry ∈ app.history, parse entry.deployedAt = some d.deployedAtMs ∧ after < d.deployedAtMs := by
  obtain ⟨⟨entry, i⟩, hmem, hsome⟩ := List.mem_filterMap.mp h
  dsimp only at hsome
  split at hsome
  · cases hsome
  · next t ht =>
    by_cases hafter : after < t
    · rw [if_pos hafter] at hsome
      obtain rfl := Option.some.inj hsome
      exact ⟨entry, List.fst_mem_of_mem_zipIdx hmem, ht, hafter⟩
    · rw [if_neg hafter] at hsome
      cases hsome

theorem exists_appDeploy {app : App} {after : Int} {entry : HistoryEntry} (hmem : entry ∈ app.history) {t : Int}
    (ht : parse entry.deployedAt = some t) (hafter : after < t) : ∃ d ∈ appDeploys parse after app, d.deployedAtMs = t := by
  obtain ⟨i, hi⟩ := List.mem_iff_getElem?.mp hmem
  have hindex : (entry, i) ∈ app.history.zipIdx := List.mk_mem_zipIdx_iff_getElem?.mpr hi
  let d : FlatDeploy := {
    app := app.name
    namespace_ := if app.namespace_ = [] then "default".toList else app.namespace_
    revision := entry.revision
    deployedAt := entry.deployedAt
    deployedAtMs := t
    isLatest := i = app.history.length - 1
    phase := app.phase }
  refine ⟨d, List.mem_filterMap.mpr ⟨(entry, i), hindex, ?_⟩, rfl⟩
  simp only [ht, if_pos hafter, d]

/-- The deployments of the window are the entries of the histories that are of the last seven days. -/
theorem forall_deployments_iff {P : Int → Prop} : (∀ d ∈ deployments parse apps now, P d.deployedAtMs) ↔
    ∀ app ∈ apps, ∀ entry ∈ app.history, ∀ t, parse entry.deployedAt = some t → sevenDaysAgo now < t → P t := by
  simp only [deployments, List.mem_insertionSort, List.mem_flatMap]
  constructor
  · intro h app happ entry hentry t ht hafter
    obtain ⟨d, hd, rfl⟩ := exists_appDeploy parse hentry ht hafter
    exact h d ⟨app, happ, hd⟩
  · rintro h d ⟨app, happ, hd⟩
    obtain ⟨entry, hentry, ht, hafter⟩ := mem_appDeploys parse hd
    exact h app happ entry hentry _ ht hafter

/-- No entry of a history is of a time after that of the call. -/
def NotAfterNow : Prop := ∀ app ∈ apps, ∀ entry ∈ app.history, ∀ t, parse entry.deployedAt = some t → t ≤ now

variable {parse apps now}

theorem localDay_bounds (hnow : NotAfterNow parse apps now) {d : FlatDeploy} (hd : d ∈ deployments parse apps now) :
    localDay offset now - 7 ≤ localDay offset d.deployedAtMs ∧ localDay offset d.deployedAtMs ≤ localDay offset now := by
  have htime : sevenDaysAgo now < d.deployedAtMs ∧ d.deployedAtMs ≤ now := by
    revert d
    rw [forall_deployments_iff parse apps now (P := fun t => sevenDaysAgo now < t ∧ t ≤ now)]
    exact fun app happ entry hentry t ht hafter => ⟨hafter, hnow app happ entry hentry t ht⟩
  unfold sevenDaysAgo DAY_MS at htime
  unfold localDay DAY_MS
  omega

/-- A deployment has the date of a shown day only on that day. -/
theorem dateStr_eq_iff (hnow : NotAfterNow parse apps now) {d : FlatDeploy} (hd : d ∈ deployments parse apps now) {day : Int}
    (hday : day ∈ shownDays offset now) : dateStr offset d.deployedAtMs = dayText day ↔ localDay offset d.deployedAtMs = day := by
  have hbounds := localDay_bounds offset hnow hd
  rw [mem_shownDays_iff] at hday
  refine ⟨fun h => dayText_inj h (by omega) (by omega), fun h => ?_⟩
  rw [dateStr, h]

/-- The buckets account for every deployment: their counts add up to the total, the bucket of a day
    counts the deployments of that day, every deployment is of one of the days, and no two buckets have
    one date. -/
structure AccountsForAll (parse : Text → Option Int) (offset : Int) (apps : List App) (now : Int) : Prop where
  total : ((doraMetrics parse offset apps now).dailyDeploys.map DailyDeploys.count).sum =
    (doraMetrics parse offset apps now).totalDeploys
  counts : (doraMetrics parse offset apps now).dailyDeploys = (shownDays offset now).map fun day =>
    ⟨dayText day, (deployments parse apps now).countP fun d => localDay offset d.deployedAtMs = day⟩
  days : ∀ d ∈ deployments parse apps now, localDay offset d.deployedAtMs ∈ shownDays offset now
  distinct : ((doraMetrics parse offset apps now).dailyDeploys.map DailyDeploys.date).Nodup

theorem counts_eq (hnow : NotAfterNow parse apps now) :
    (doraMetrics parse offset apps now).dailyDeploys = (shownDays offset now).map fun day =>
      ⟨dayText day, (deployments parse apps now).countP fun d => localDay offset d.deployedAtMs = day⟩ := by
  rw [dailyDeploys_eq, emptyDays_eq, List.map_map]
  refine List.map_congr_left fun day hday => ?_
  simp only [Function.comp_apply, counted, zero_add, List.count, List.countP_map, DailyDeploys.mk.injEq, true_and]
  refine List.countP_congr fun d hd => ?_
  simpa using dateStr_eq_iff offset hnow hd hday

theorem total_iff (hnow : NotAfterNow parse apps now) :
    ((doraMetrics parse offset apps now).dailyDeploys.map DailyDeploys.count).sum =
        (doraMetrics parse offset apps now).totalDeploys ↔
      ∀ d ∈ deployments parse apps now, localDay offset d.deployedAtMs ∈ shownDays offset now := by
  let dates := (deployments parse apps now).map fun d => dateStr offset d.deployedAtMs
  have hcounts : (doraMetrics parse offset apps now).dailyDeploys.map DailyDeploys.count =
      ((emptyDays offset now).map DailyDeploys.date).map fun date => dates.count date := by
    rw [dailyDeploys_eq, emptyDays_eq]
    simp only [List.map_map]
    refine List.map_congr_left fun day _ => ?_
    exact Nat.zero_add _
  have hlength : (doraMetrics parse offset apps now).totalDeploys = dates.length := (List.length_map _).symm
  rw [hcounts, hlength, sum_count_eq_length_iff dates (nodup_dates offset now), List.forall_mem_map]
  refine forall_congr' fun d => forall_congr' fun hd => ?_
  rw [emptyDays_eq, List.map_map, List.mem_map]
  constructor
  · rintro ⟨day, hday, heq⟩
    rw [(dateStr_eq_iff offset hnow hd hday).mp heq.symm]
    exact hday
  · exact fun h => ⟨_, h, rfl⟩

/-- The buckets account for every deployment exactly if none of the window is of the day seven days
    ago. -/
theorem buckets_account_iff (parse : Text → Option Int) (offset : Int) (apps : List App) (now : Int)
    (hnow : NotAfterNow parse apps now) :
    AccountsForAll parse offset apps now ↔
      ∀ app ∈ apps, ∀ entry ∈ app.history, ∀ t, parse entry.deployedAt = some t → sevenDaysAgo now < t →
        localDay offset t ≠ localDay offset now - 7 := by
  rw [← forall_deployments_iff parse apps now (P := fun t => localDay offset t ≠ localDay offset now - 7)]
  have hdays : (∀ d ∈ deployments parse apps now, localDay offset d.deployedAtMs ∈ shownDays offset now) ↔
      ∀ d ∈ deployments parse apps now, localDay offset d.deployedAtMs ≠ localDay offset now - 7 := by
    refine forall_congr' fun d => forall_congr' fun hd => ?_
    have hbounds := localDay_bounds offset hnow hd
    rw [mem_shownDays_iff]
    omega
  rw [← hdays]
  refine ⟨AccountsForAll.days, fun h => ⟨(total_iff offset hnow).mpr h, counts_eq offset hnow, h, ?_⟩⟩
  rw [dates_eq]
  exact nodup_dates offset now

end

/-- Two deployments of one application, a day and six days and a half before noon of 2026-01-10. -/
def sampleTimes (s : Text) : Option Int :=
  if s = "2026-01-09T12:00:00Z".toList then some 1767960000000
  else if s = "2026-01-03T23:00:00Z".toList then some 1767481200000
  else none

def sampleApps : List App :=
  [⟨"web".toList, [], none, [⟨"a1".toList, "2026-01-03T23:00:00Z".toList⟩, ⟨"b2".toList, "2026-01-09T12:00:00Z".toList⟩]⟩]

def sampleNow : Int := 1768046400000

/-- The older one is of the day seven days ago and is in no bucket. -/
theorem oldest_day_lost : ¬ AccountsForAll sampleTimes 0 sampleApps sampleNow := by
  intro h
  have htotal := h.total
  revert htotal
  decide +kernel

/-- Two applications with deployments today, yesterday and six days ago, one before the week, and one whose time
    is not a date. -/
def weekTimes (s : Text) : Option Int :=
  if s = "2026-01-10T09:00:00Z".toList then some 1768035600000
  else if s = "2026-01-09T12:00:00Z".toList then some 1767960000000
  else if s = "2026-01-04T08:00:00Z".toList then some 1767513600000
  else if s = "2025-12-30T12:00:00Z".toList then some 1767096000000
  else none

def weekApps : List App :=
  [⟨"web".toList, [], none, [⟨"a1".toList, "2025-12-30T12:00:00Z".toList⟩, ⟨"b2".toList, "2026-01-04T08:00:00Z".toList⟩,
      ⟨"c3".toList, "2026-01-09T12:00:00Z".toList⟩]⟩,
    ⟨"api".toList, [], none, [⟨"d4".toList, "2026-01-09T12:00:00Z".toList⟩, ⟨"e5".toList, "unknown".toList⟩,
      ⟨"f6".toList, "2026-01-10T09:00:00Z".toList⟩]⟩]

/-- None of them is of the day seven days ago, and each of the week is counted on its day. -/
theorem buckets_account_sample : AccountsForAll weekTimes 0 weekApps sampleNow := by
  have hdays : ∀ app ∈ weekApps, ∀ entry ∈ app.history, (weekTimes entry.deployedAt).all (fun t =>
      t ≤ sampleNow ∧ (sevenDaysAgo sampleNow < t → localDay 0 t ≠ localDay 0 sampleNow - 7)) = true := by
    decide +kernel
  have hday : ∀ app ∈ weekApps, ∀ entry ∈ app.history, ∀ t, weekTimes entry.deployedAt = some t →
      t ≤ sampleNow ∧ (sevenDaysAgo sampleNow < t → localDay 0 t ≠ localDay 0 sampleNow - 7) := by
    intro app happ entry hentry t ht
    have hall := hdays app happ entry hentry
    rw [ht] at hall
    exact of_decide_eq_true hall
  apply (buckets_account_iff weekTimes 0 weekApps sampleNow ?_).mpr
  · intro app happ entry hentry t ht
    exact (hday app happ entry hentry t ht).2
  · intro app happ entry hentry t ht
    exact (hday app happ entry hentry t ht).1

end narwhal.portal.governance_dora
