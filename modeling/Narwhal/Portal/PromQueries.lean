import Narwhal.Lib.Fold
import Narwhal.Lib.JsDouble
import Narwhal.Lib.ReadThrough
import Narwhal.Portal.CacheKeys

open jslib pylib readthrough
open narwhal.portal.cache_keys (JsNumber cacheKeys.promQuery cacheKeys.promRange metaKey)

namespace narwhal.portal.prometheus

inductive TelemetryStatus where
  | ok | empty | unavailable | partial_ | ambiguous | stale
deriving DecidableEq

structure PromApiResultItem where
  value : Option (Double × Text)
  values : Option (List (Double × Text))

/-- How a request ends: with an exception, a status that is no success, or the list of results. -/
inductive PromAnswer where
  | failed (message : Text)
  | refused (status : Nat)
  | results (items : List PromApiResultItem)

/-- The state of Prometheus: what it answers to a query, and to one over a range with start, end and
    step. -/
structure Prometheus where
  query : Text → PromAnswer
  queryRange : Text → Double → Double → Double → PromAnswer

/-- How JavaScript reads and prints numbers. -/
structure Numbers where
  parseFloat : Text → Double
  print : Double → JsNumber

/-- A result without the time of its evaluation; a number may be `null` where JSON has written it, and
    a zero has no sign. -/
structure PromQueryResult where
  status : TelemetryStatus
  value : Option Double
  seriesCount : Nat
  query : Text
  error : Option Text
  warning : Option Text
deriving DecidableEq

structure PromRangeResult where
  status : TelemetryStatus
  data : List (Option Double × Option Double)
  seriesCount : Nat
  query : Text
  error : Option Text
deriving DecidableEq

def DEFAULT_CLUSTER_ID : Text := "primary".toList

def STALENESS_THRESHOLD_SECONDS : Double := .finite 300

def MAX_PROMQL_LEN : Nat := 2000

/-- `PROMQL_SAFE_RE`, on one character. -/
def isPromQLChar (c : Char) : Bool :=
  isLower c || isUpper c || isDigit c || isSpace c || "_\x7b\x7d=!~\"',.()[]-+*/:$|".toList.contains c

/-- The refusal of a query. -/
def assertPromQLSafe (v : Text) : Except Text Unit :=
  if v = [] then .error "invalid promql: must be a non-empty string".toList
  else if MAX_PROMQL_LEN < utf16Length v then .error "invalid promql: too long (>2000)".toList
  else if v.all isPromQLChar then .ok ()
  else .error "invalid promql: contains disallowed characters".toList

/-! ### Scalars -/

/-- The arguments of `queryScalarExplicit`, and the time of the call in milliseconds. -/
structure ScalarCall where
  promql : Text
  clusterId : Option Text
  maxAgeSeconds : Option Double
  allowMultiSeries : Bool
  now : Nat

/-- The time and the value of a result, or the warning that there is none. -/
def reading (numbers : Numbers) (item : PromApiResultItem) : Except Text (Double × Double) :=
  match item.value with
  | none => .error "Result value is NaN or undefined".toList
  | some (ts, valStr) =>
    if valStr = "NaN".toList then .error "Result value is NaN or undefined".toList
    else if (numbers.parseFloat valStr).isNaN then .error "Parsed value is NaN".toList
    else .ok (ts, numbers.parseFloat valStr)

/-- The age in seconds where it is above what the call allows. -/
def staleBy (numbers : Numbers) (i : ScalarCall) (ts : Double) : Option Text :=
  let age := (Double.ofNat (i.now / 1000)).sub ts
  if (i.maxAgeSeconds.getD STALENESS_THRESHOLD_SECONDS).lt age then some (numbers.print age.round).text else none

/-- What the call makes of an answer. -/
def scalarResult (numbers : Numbers) (i : ScalarCall) (answer : PromAnswer) : PromQueryResult :=
  match answer with
  | .failed message => ⟨.unavailable, none, 0, i.promql, some message, none⟩
  | .refused status => ⟨.unavailable, none, 0, i.promql, some ("Prometheus query failed: ".toList ++ natText status), none⟩
  | .results [] => ⟨.empty, none, 0, i.promql, none, none⟩
  | .results (item :: rest) =>
    let seriesCount := rest.length + 1
    if rest ≠ [] ∧ i.allowMultiSeries = false then
      ⟨.ambiguous, none, seriesCount, i.promql,
        some ("Ambiguous scalar query returned ".toList ++ natText seriesCount ++ " series without aggregation".toList), none⟩
    else
      match reading numbers item with
      | .error warning => ⟨.stale, none, seriesCount, i.promql, none, some warning⟩
      | .ok (ts, numVal) =>
        match staleBy numbers i ts with
        | some age =>
          ⟨.stale, some numVal.printed, seriesCount, i.promql, none, some ("Telemetry is stale by ".toList ++ age ++ ['s'])⟩
        | none => ⟨.ok, some numVal.printed, seriesCount, i.promql, none, none⟩

/-- What is cached: an empty result, and one with a value. -/
def scalarKept (numbers : Numbers) (i : ScalarCall) : PromAnswer → Bool
  | .failed _ => false
  | .refused _ => false
  | .results [] => true
  | .results (item :: rest) => (rest.isEmpty || i.allowMultiSeries) && (reading numbers item).isOk

/-- What JSON keeps of a result. -/
def PromQueryResult.stored (r : PromQueryResult) : PromQueryResult := { r with value := r.value.bind Double.json }

def queryScalarExplicit (numbers : Numbers) (up : Prometheus) : Cached ScalarCall Text (Except Text PromQueryResult) where
  key i := cacheKeys.promQuery (i.clusterId.getD DEFAULT_CLUSTER_ID) i.promql
  stampKey := metaKey
  admits i := (assertPromQLSafe i.promql).isOk
  compute i := (assertPromQLSafe i.promql).map fun _ => scalarResult numbers i (up.query i.promql)
  stored := Except.map PromQueryResult.stored
  keeps i := scalarKept numbers i (up.query i.promql)

/-- Two calls for one query make the same of the results: the second one takes as many series, the age
    shows in the same way in both, and the value is one that JSON keeps. -/
def SameScalar (numbers : Numbers) (up : Prometheus) (i j : ScalarCall) : Prop :=
  i.promql = j.promql ∧
  ∀ item rest, up.query j.promql = .results (item :: rest) →
    (rest = [] ∨ j.allowMultiSeries = true) ∧
    ∀ ts numVal, reading numbers item = .ok (ts, numVal) → numVal.isFinite = true ∧ staleBy numbers i ts = staleBy numbers j ts

theorem scalarResult_query (numbers : Numbers) (i : ScalarCall) (answer : PromAnswer) :
    (scalarResult numbers i answer).query = i.promql := by
  unfold scalarResult
  split
  · rfl
  · rfl
  · rfl
  · dsimp only
    split_ifs
    · rfl
    · split
      · rfl
      · split <;> rfl

/-- The result where there is a value. -/
def valueResult (i : ScalarCall) (seriesCount : Nat) (numVal : Double) : Option Text → PromQueryResult
  | some age => ⟨.stale, some numVal.printed, seriesCount, i.promql, none, some ("Telemetry is stale by ".toList ++ age ++ ['s'])⟩
  | none => ⟨.ok, some numVal.printed, seriesCount, i.promql, none, none⟩

theorem scalarResult_value {numbers : Numbers} {i : ScalarCall} {item : PromApiResultItem} {rest : List PromApiResultItem}
    {ts numVal : Double} (hseries : rest = [] ∨ i.allowMultiSeries = true) (hreading : reading numbers item = .ok (ts, numVal)) :
    scalarResult numbers i (.results (item :: rest)) = valueResult i (rest.length + 1) numVal (staleBy numbers i ts) := by
  have hambiguous : ¬ (rest ≠ [] ∧ i.allowMultiSeries = false) := by
    rintro ⟨hrest, hallow⟩
    exact hseries.elim hrest (by simp [hallow])
  simp only [scalarResult, if_neg hambiguous, hreading]
  cases staleBy numbers i ts <;> rfl

/-- Of several series no value is taken where that is not allowed. -/
theorem scalarResult_ambiguous {numbers : Numbers} {i : ScalarCall} {item : PromApiResultItem} {rest : List PromApiResultItem}
    (hrest : rest ≠ []) (hallow : i.allowMultiSeries = false) :
    (scalarResult numbers i (.results (item :: rest))).status = .ambiguous := by
  simp [scalarResult, hrest, hallow]

theorem valueResult_status (i : ScalarCall) (seriesCount : Nat) (numVal : Double) (age : Option Text) :
    (valueResult i seriesCount numVal age).status ≠ .ambiguous := by
  cases age <;> simp [valueResult]

/-- A value read from the cache is the other's where JSON keeps the number and both are of one age. -/
theorem valueResult_stored_iff {i j : ScalarCall} (hpromql : i.promql = j.promql) (seriesCount : Nat) (numVal : Double)
    (age age' : Option Text) :
    (valueResult i seriesCount numVal age).stored = valueResult j seriesCount numVal age' ↔
      numVal.isFinite = true ∧ age = age' := by
  rw [← Double.json_printed]
  cases age <;> cases age' <;> simp [valueResult, PromQueryResult.stored, hpromql]

/-- A result with a value comes of an item that can be read, in as many series as are allowed. -/
theorem scalarKept_value {numbers : Numbers} {i : ScalarCall} {item : PromApiResultItem} {rest : List PromApiResultItem}
    (h : scalarKept numbers i (.results (item :: rest)) = true) :
    (rest = [] ∨ i.allowMultiSeries = true) ∧ ∃ ts numVal, reading numbers item = .ok (ts, numVal) := by
  simp only [scalarKept, Bool.and_eq_true, Bool.or_eq_true, List.isEmpty_iff] at h
  obtain ⟨⟨ts, numVal⟩, hreading⟩ := exists_ok_of_isOk h.2
  exact ⟨h.1, ts, numVal, hreading⟩

theorem scalarResult_stored_iff {numbers : Numbers} {up : Prometheus} {i j : ScalarCall}
    (hkeeps : scalarKept numbers i (up.query i.promql) = true) :
    (scalarResult numbers i (up.query i.promql)).stored = scalarResult numbers j (up.query j.promql) ↔
      SameScalar numbers up i j := by
  constructor
  · intro h
    have hpromql : i.promql = j.promql := by
      simpa [PromQueryResult.stored, scalarResult_query] using congrArg PromQueryResult.query h
    refine ⟨hpromql, fun item rest hup => ?_⟩
    rw [hpromql, hup] at h hkeeps
    obtain ⟨hseries, ts, numVal, hreading⟩ := scalarKept_value hkeeps
    rw [scalarResult_value hseries hreading] at h
    have hallow : rest = [] ∨ j.allowMultiSeries = true := by
      by_contra hnot
      simp only [not_or, Bool.not_eq_true] at hnot
      have hstatus := congrArg PromQueryResult.status h
      rw [scalarResult_ambiguous hnot.1 hnot.2] at hstatus
      exact valueResult_status i _ numVal _ hstatus
    refine ⟨hallow, fun ts' numVal' hreading' => ?_⟩
    obtain ⟨rfl, rfl⟩ : ts = ts' ∧ numVal = numVal' := by simpa [hreading] using hreading'
    rw [scalarResult_value hallow hreading] at h
    exact (valueResult_stored_iff hpromql _ _ _ _).mp h
  · rintro ⟨hpromql, hsame⟩
    rw [hpromql] at hkeeps ⊢
    cases hup : up.query j.promql with
    | failed message => simp [hup, scalarKept] at hkeeps
    | refused status => simp [hup, scalarKept] at hkeeps
    | results items =>
      cases items with
      | nil => simp [scalarResult, PromQueryResult.stored, hpromql]
      | cons item rest =>
        rw [hup] at hkeeps
        obtain ⟨hseries, ts, numVal, hreading⟩ := scalarKept_value hkeeps
        obtain ⟨hallow, hage⟩ := hsame item rest hup
        rw [scalarResult_value hseries hreading, scalarResult_value hallow hreading]
        exact (valueResult_stored_iff hpromql _ _ _ _).mpr (hage ts numVal hreading)

theorem scalar_transparent_iff (numbers : Numbers) (up : Prometheus) (i j : ScalarCall) :
    (queryScalarExplicit numbers up).Transparent i j ↔
      ((assertPromQLSafe i.promql).isOk = true → scalarKept numbers i (up.query i.promql) = true →
        (assertPromQLSafe j.promql).isOk = true →
        metaKey ((queryScalarExplicit numbers up).key i) ≠ (queryScalarExplicit numbers up).key j ∧
        ((queryScalarExplicit numbers up).key i = (queryScalarExplicit numbers up).key j → SameScalar numbers up i j)) := by
  rw [Cached.transparent_iff]
  refine forall_congr' fun hi => forall_congr' fun hkeeps => forall_congr' fun hj => and_congr Iff.rfl (forall_congr' fun _ => ?_)
  obtain ⟨_, hi⟩ := exists_ok_of_isOk hi
  obtain ⟨_, hj⟩ := exists_ok_of_isOk hj
  simp only [queryScalarExplicit, hi, hj, Except.map, Except.ok.injEq]
  exact scalarResult_stored_iff hkeeps

/-! ### Ranges -/

/-- The arguments of `queryRangeExplicit`, and the time of the call in milliseconds. -/
structure RangeCall where
  promql : Text
  durationMinutes : Double
  stepSeconds : Double
  clusterId : Option Text
  now : Nat

def rangeAnswer (up : Prometheus) (i : RangeCall) : PromAnswer :=
  let end_ := Double.ofNat (i.now / 1000)
  let start := end_.sub (i.durationMinutes.mul (.finite 60))
  up.queryRange i.promql start end_ i.stepSeconds

def points (numbers : Numbers) (item : PromApiResultItem) : List (Option Double × Option Double) :=
  (item.values.getD []).map fun (ts, val) => (some ts.printed, some (numbers.parseFloat val).printed)

def rangeResult (numbers : Numbers) (i : RangeCall) (answer : PromAnswer) : PromRangeResult :=
  match answer with
  | .failed message => ⟨.unavailable, [], 0, i.promql, some message⟩
  | .refused status => ⟨.unavailable, [], 0, i.promql, some ("Prometheus range query failed: ".toList ++ natText status)⟩
  | .results [] => ⟨.empty, [], 0, i.promql, none⟩
  | .results [item] => ⟨.ok, points numbers item, 1, i.promql, none⟩
  | .results (item :: rest) =>
    ⟨.ambiguous, points numbers item, rest.length + 1, i.promql,
      some ("Ambiguous range query returned ".toList ++ natText (rest.length + 1) ++ " series without aggregation".toList)⟩

/-- Only one series is cached. -/
def rangeKept : PromAnswer → Bool
  | .results [_] => true
  | _ => false

def PromRangeResult.stored (r : PromRangeResult) : PromRangeResult :=
  { r with data := r.data.map fun point => (point.1.bind Double.json, point.2.bind Double.json) }

def queryRangeExplicit (numbers : Numbers) (up : Prometheus) : Cached RangeCall Text (Except Text PromRangeResult) where
  key i := cacheKeys.promRange (i.clusterId.getD DEFAULT_CLUSTER_ID) i.promql (numbers.print i.durationMinutes)
  stampKey := metaKey
  admits i := (assertPromQLSafe i.promql).isOk
  compute i := (assertPromQLSafe i.promql).map fun _ => rangeResult numbers i (rangeAnswer up i)
  stored := Except.map PromRangeResult.stored
  keeps i := rangeKept (rangeAnswer up i)

/-- Two calls for one query are answered with one series of the same points, numbers that JSON keeps. -/
def SameRange (numbers : Numbers) (up : Prometheus) (i j : RangeCall) : Prop :=
  i.promql = j.promql ∧
  ∃ item item', rangeAnswer up i = .results [item] ∧ rangeAnswer up j = .results [item'] ∧
    points numbers item = points numbers item' ∧
    ∀ point ∈ item.values.getD [], point.1.isFinite = true ∧ (numbers.parseFloat point.2).isFinite = true

theorem rangeResult_query (numbers : Numbers) (i : RangeCall) (answer : PromAnswer) :
    (rangeResult numbers i answer).query = i.promql := by
  unfold rangeResult
  split <;> rfl

/-- Only one series is answered without an exception or a warning. -/
theorem rangeResult_ok {numbers : Numbers} {i : RangeCall} {answer : PromAnswer} (h : (rangeResult numbers i answer).status = .ok) :
    ∃ item, answer = .results [item] := by
  unfold rangeResult at h
  split at h
  · cases h
  · cases h
  · cases h
  · exact ⟨_, rfl⟩
  · cases h

theorem points_stored_iff (numbers : Numbers) (item : PromApiResultItem) :
    (points numbers item).map (fun point => (point.1.bind Double.json, point.2.bind Double.json)) = points numbers item ↔
      ∀ point ∈ item.values.getD [], point.1.isFinite = true ∧ (numbers.parseFloat point.2).isFinite = true := by
  rw [points, List.map_map, List.map_inj_left]
  refine forall_congr' fun point => forall_congr' fun _ => ?_
  rw [← Double.json_printed, ← Double.json_printed]
  simp

/-- Points that are read from the cache are numbers, and the ones that were written. -/
theorem points_stored_eq_iff (numbers : Numbers) (item item' : PromApiResultItem) :
    (points numbers item).map (fun point => (point.1.bind Double.json, point.2.bind Double.json)) = points numbers item' ↔
      points numbers item = points numbers item' ∧
      ∀ point ∈ item.values.getD [], point.1.isFinite = true ∧ (numbers.parseFloat point.2).isFinite = true := by
  constructor
  · intro h
    have hfinite : ∀ point ∈ item.values.getD [], point.1.isFinite = true ∧ (numbers.parseFloat point.2).isFinite = true := by
      intro point hpoint
      have hmem : (point.1.printed.json, (numbers.parseFloat point.2).printed.json) ∈ points numbers item' := by
        rw [← h, points, List.map_map]
        exact List.mem_map.mpr ⟨point, hpoint, rfl⟩
      obtain ⟨point', -, hpoint'⟩ := List.mem_map.mp hmem
      simp only [Prod.mk.injEq] at hpoint'
      exact ⟨Double.isFinite_of_json hpoint'.1.symm, Double.isFinite_of_json hpoint'.2.symm⟩
    exact ⟨((points_stored_iff numbers item).mpr hfinite).symm.trans h, hfinite⟩
  · rintro ⟨h, hfinite⟩
    exact ((points_stored_iff numbers item).mpr hfinite).trans h

theorem rangeResult_stored_iff {numbers : Numbers} {up : Prometheus} {i j : RangeCall}
    (hkeeps : rangeKept (rangeAnswer up i) = true) :
    (rangeResult numbers i (rangeAnswer up i)).stored = rangeResult numbers j (rangeAnswer up j) ↔
      SameRange numbers up i j := by
  obtain ⟨item, hitem⟩ : ∃ item, rangeAnswer up i = .results [item] := by
    unfold rangeKept at hkeeps
    split at hkeeps
    · exact ⟨_, ‹_›⟩
    · cases hkeeps
  constructor
  · intro h
    have hpromql : i.promql = j.promql := by
      simpa [PromRangeResult.stored, rangeResult_query] using congrArg PromRangeResult.query h
    have hstatus := congrArg PromRangeResult.status h
    rw [hitem] at h hstatus
    obtain ⟨item', hitem'⟩ := rangeResult_ok hstatus.symm
    rw [hitem'] at h
    obtain ⟨hpoints, hfinite⟩ := (points_stored_eq_iff numbers item item').mp (congrArg PromRangeResult.data h)
    exact ⟨hpromql, item, item', hitem, hitem', hpoints, hfinite⟩
  · rintro ⟨hpromql, item₁, item', hitem₁, hitem', hpoints, hfinite⟩
    have hstored := (points_stored_eq_iff numbers item₁ item').mpr ⟨hpoints, hfinite⟩
    simp [hitem₁, hitem', rangeResult, PromRangeResult.stored, hstored, hpromql]

theorem range_transparent_iff (numbers : Numbers) (up : Prometheus) (i j : RangeCall) :
    (queryRangeExplicit numbers up).Transparent i j ↔
      ((assertPromQLSafe i.promql).isOk = true → rangeKept (rangeAnswer up i) = true →
        (assertPromQLSafe j.promql).isOk = true →
        metaKey ((queryRangeExplicit numbers up).key i) ≠ (queryRangeExplicit numbers up).key j ∧
        ((queryRangeExplicit numbers up).key i = (queryRangeExplicit numbers up).key j → SameRange numbers up i j)) := by
  rw [Cached.transparent_iff]
  refine forall_congr' fun hi => forall_congr' fun hkeeps => forall_congr' fun hj => and_congr Iff.rfl (forall_congr' fun _ => ?_)
  obtain ⟨_, hi⟩ := exists_ok_of_isOk hi
  obtain ⟨_, hj⟩ := exists_ok_of_isOk hj
  simp only [queryRangeExplicit, hi, hj, Except.map, Except.ok.injEq]
  exact rangeResult_stored_iff hkeeps

end narwhal.portal.prometheus
