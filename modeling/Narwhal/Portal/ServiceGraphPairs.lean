import Narwhal.Portal.ServiceGraph

open jslib promql

namespace narwhal.portal.service_graph

/-! ### Pairs of workloads -/

/-- Two workloads, each with its namespace. -/
structure Pair where
  sourceNamespace : Text
  source : Text
  destinationNamespace : Text
  destination : Text
deriving DecidableEq

def Pair.names (p : Pair) : Text × Text := (p.source, p.destination)

def pairOf (metric : List (Text × Text)) : Pair :=
  ⟨label metric SOURCE_NAMESPACE, label metric SOURCE, label metric DESTINATION_NAMESPACE, label metric DESTINATION⟩

def namesOf (metric : List (Text × Text)) : Text × Text := (label metric SOURCE, label metric DESTINATION)

def RawEdge.pair (e : RawEdge) : Pair :=
  ⟨e.sourceNamespace.getD [], e.source, e.destinationNamespace.getD [], e.destination⟩

/-- The series of a pair. -/
def own (p : Pair) (v : List Sample) : List Sample := (v.filter known).filter fun s => pairOf s.metric = p

/-- The series of all pairs of workloads of these names, in whatever namespaces. -/
def homonymous (p : Pair) (v : List Sample) : List Sample := (v.filter known).filter fun s => namesOf s.metric = p.names

/-- Workload names have neither of the separators. -/
def Plain (m : Metrics) : Prop :=
  ∀ s ∈ m.requests ++ m.durations ++ m.sentBytes, ':' ∉ label s.metric SOURCE ∧ '|' ∉ label s.metric SOURCE

/-! ### What the queries answer for a pair -/

theorem pairOf_eq_iff (a b : List (Text × Text)) :
    pairOf a = pairOf b ↔ restrict NAMESPACED_LABELS a = restrict NAMESPACED_LABELS b := by
  rw [restrict_eq_iff]
  simp only [NAMESPACED_LABELS, List.mem_cons, List.not_mem_nil, or_false, forall_eq_or_imp, forall_eq, pairOf, Pair.mk.injEq]
  constructor
  · rintro ⟨h1, h2, h3, h4⟩
    exact ⟨h2, h4, h1, h3⟩
  · rintro ⟨h2, h4, h1, h3⟩
    exact ⟨h1, h2, h3, h4⟩

theorem pairOf_restrict (a : List (Text × Text)) : pairOf (restrict NAMESPACED_LABELS a) = pairOf a := by
  simp [pairOf, label_restrict, NAMESPACED_LABELS]

theorem namesOf_eq_iff (a b : List (Text × Text)) :
    namesOf a = namesOf b ↔ restrict PAIR_LABELS a = restrict PAIR_LABELS b := by
  rw [restrict_eq_iff]
  simp [PAIR_LABELS, namesOf]

theorem namesOf_restrict (a : List (Text × Text)) : namesOf (restrict PAIR_LABELS a) = namesOf a := by
  simp [namesOf, label_restrict, PAIR_LABELS]

/-- A map over the results that pass, then a filter by what the map keeps. -/
theorem filter_filterMap_of {α β : Type} {f : α → Option β} {p : α → Bool} {q : β → Bool}
    (h : ∀ a b, f a = some b → q b = p a) (l : List α) : (l.filterMap f).filter q = (l.filter p).filterMap f := by
  induction l with
  | nil => rfl
  | cons a l ih =>
    cases hf : f a with
    | none =>
      rw [List.filterMap_cons_none hf, ih]
      cases hp : p a with
      | false => rw [List.filter_cons_of_neg (by simp [hp])]
      | true => rw [List.filter_cons_of_pos hp, List.filterMap_cons_none hf]
    | some b =>
      rw [List.filterMap_cons_some hf]
      cases hp : p a with
      | false => rw [List.filter_cons_of_neg (by simp [h a b hf, hp]), List.filter_cons_of_neg (by simp [hp]), ih]
      | true => rw [List.filter_cons_of_pos (by simp [h a b hf, hp]), List.filter_cons_of_pos hp, List.filterMap_cons_some hf, ih]

theorem getD_nonEmpty (x : Text) : (nonEmpty x).getD [] = x := by
  unfold nonEmpty
  split_ifs with h
  · exact h.symm
  · rfl

theorem isSystemWorkload_nil : isSystemWorkload [] = true := by decide

/-! ### Raw edges -/

/-- Whether a rate between two workloads passes the noise filter. -/
def passes (p : Pair) (rate : Double) : Bool :=
  !isSystemWorkload p.source && !isSystemWorkload p.destination && !rate.lt MIN_RATE

def l7Edge (p : Pair) (rate errRate : Double) (latency : Option Double) : RawEdge where
  source := p.source
  destination := p.destination
  sourceNamespace := nonEmpty p.sourceNamespace
  destinationNamespace := nonEmpty p.destinationNamespace
  kind := some .l7
  requestRate := rate
  errorRate := errorRateOf errRate rate
  p95LatencyMs := latency.filter Double.isFinite

def l4Edge (p : Pair) (rate : Double) : RawEdge where
  source := p.source
  destination := p.destination
  sourceNamespace := nonEmpty p.sourceNamespace
  destinationNamespace := nonEmpty p.destinationNamespace
  kind := some .l4
  requestRate := rate
  errorRate := .finite 0
  p95LatencyMs := none

theorem pair_l7Edge (p : Pair) (rate errRate : Double) (latency : Option Double) : (l7Edge p rate errRate latency).pair = p := by
  simp [RawEdge.pair, l7Edge, getD_nonEmpty]

/-- The labels that are summed away do not filter anything. -/
theorem noise_restrict (a : List (Text × Text)) :
    SYSTEM_SERVICES.contains (label (restrict NAMESPACED_LABELS a) "destination_service_name".toList) = false ∧
    isHealthCheckPath (restrict NAMESPACED_LABELS a) = false := by
  have habsent : ∀ l, l ∉ NAMESPACED_LABELS → (restrict NAMESPACED_LABELS a).lookup l = none := by
    intro l hl
    rw [List.lookup_eq_none_iff]
    intro field hfield
    obtain ⟨l', hl', rfl⟩ := List.mem_map.mp (List.mem_filter.mp hfield).1
    rw [bne_iff_ne]
    rintro rfl
    exact hl hl'
  have hservice : label (restrict NAMESPACED_LABELS a) "destination_service_name".toList = [] := by
    rw [label, habsent _ (by decide), Option.getD_none]
  constructor
  · rw [hservice]
    decide
  · rw [isHealthCheckPath, habsent _ (by decide), habsent _ (by decide)]
    decide

theorem istioEdge_restrict (errorMap latencyMap : JsMap Text Double) (a : List (Text × Text)) (rate : Double) :
    istioEdge errorMap latencyMap ⟨restrict NAMESPACED_LABELS a, rate⟩ =
      if passes (pairOf a) rate then
        some (l7Edge (pairOf a) rate ((errorMap.get (pairKey ':' (pairOf a).source (pairOf a).destination)).getD (.finite 0))
          (latencyMap.get (pairKey ':' (pairOf a).source (pairOf a).destination)))
      else none := by
  obtain ⟨hservice, hpath⟩ := noise_restrict a
  have hpair := pairOf_restrict a
  obtain ⟨hsn, hs, hdn, hd⟩ := Pair.mk.inj hpair
  unfold istioEdge
  dsimp only
  rw [hservice, hpath, hs, hd, hsn, hdn]
  change _ = if passes (pairOf a) rate = true then _ else _
  by_cases hsource : isSystemWorkload (label a SOURCE) = true
  · simp [passes, pairOf, hsource]
  · by_cases hdestination : isSystemWorkload (label a DESTINATION) = true
    · simp [passes, pairOf, hdestination]
    · have hsne : label a SOURCE ≠ [] := fun h => hsource (h ▸ isSystemWorkload_nil)
      have hdne : label a DESTINATION ≠ [] := fun h => hdestination (h ▸ isSystemWorkload_nil)
      rw [if_neg (not_or.mpr ⟨hsne, hdne⟩), if_neg (not_or.mpr ⟨hsource, hdestination⟩)]
      cases hrate : rate.lt MIN_RATE with
      | true => simp [passes, hrate]
      | false => simp [passes, pairOf, hsource, hdestination, hrate, l7Edge]

theorem tcpEdge_restrict (a : List (Text × Text)) (rate : Double) :
    tcpEdge ⟨restrict NAMESPACED_LABELS a, rate⟩ = if passes (pairOf a) rate then some (l4Edge (pairOf a) rate) else none := by
  obtain ⟨hservice, -⟩ := noise_restrict a
  have hpair := pairOf_restrict a
  obtain ⟨hsn, hs, hdn, hd⟩ := Pair.mk.inj hpair
  unfold tcpEdge
  dsimp only
  rw [hservice, hs, hd, hsn, hdn]
  by_cases hsource : isSystemWorkload (label a SOURCE) = true
  · simp [passes, pairOf, hsource]
  · by_cases hdestination : isSystemWorkload (label a DESTINATION) = true
    · simp [passes, pairOf, hdestination]
    · have hsne : label a SOURCE ≠ [] := fun h => hsource (h ▸ isSystemWorkload_nil)
      have hdne : label a DESTINATION ≠ [] := fun h => hdestination (h ▸ isSystemWorkload_nil)
      rw [if_neg (not_or.mpr ⟨hsne, hdne⟩), if_neg (not_or.mpr ⟨hsource, hdestination⟩)]
      cases hrate : rate.lt MIN_RATE with
      | true => simp [passes, hrate]
      | false => simp [passes, pairOf, hsource, hdestination, hrate, l4Edge]

theorem pair_of_istioEdge {errorMap latencyMap : JsMap Text Double} {r : Sample} {e : RawEdge}
    (h : istioEdge errorMap latencyMap r = some e) : e.pair = pairOf r.metric := by
  unfold istioEdge at h
  dsimp only at h
  split_ifs at h
  rw [← Option.some.inj h]
  simp [RawEdge.pair, pairOf, getD_nonEmpty]

theorem pair_of_tcpEdge {r : Sample} {e : RawEdge} (h : tcpEdge r = some e) : e.pair = pairOf r.metric := by
  unfold tcpEdge at h
  dsimp only at h
  split_ifs at h
  rw [← Option.some.inj h]
  simp [RawEdge.pair, pairOf, getD_nonEmpty]

/-! ### The maps by names -/

theorem pairKey_inj {c : Char} {s t s' t' : Text} (hs : c ∉ s) (hs' : c ∉ s') (h : pairKey c s t = pairKey c s' t') :
    s = s' ∧ t = t' :=
  append_cons_inj hs hs' h

/-- A map by names has the value of the last result that has the names. -/
theorem get_valueMap {f : Double → Double} {results : List Sample} (hplain : ∀ r ∈ results, ':' ∉ label r.metric SOURCE)
    {s d : Text} (hs : s ≠ []) (hd : d ≠ []) (hcolon : ':' ∉ s) :
    (valueMap f results).get (pairKey ':' s d) =
      (results.filter fun r => namesOf r.metric = (s, d)).getLast?.map fun r => f r.value := by
  have hfold : ∀ (results : List Sample) (map : JsMap Text Double), (∀ r ∈ results, ':' ∉ label r.metric SOURCE) →
      (results.foldl (fun map r =>
        let src := label r.metric SOURCE
        let dst := label r.metric DESTINATION
        if src ≠ [] ∧ dst ≠ [] then map.set (pairKey ':' src dst) (f r.value) else map) map).get (pairKey ':' s d) =
      ((results.filter fun r => namesOf r.metric = (s, d)).getLast?.map fun r => f r.value).or
        (map.get (pairKey ':' s d)) := by
    intro results
    induction results with
    | nil => intro map _; rfl
    | cons r results ih =>
      intro map hplain
      rw [List.forall_mem_cons] at hplain
      rw [List.foldl_cons, ih _ hplain.2]
      by_cases hnames : namesOf r.metric = (s, d)
      · obtain ⟨rfl, rfl⟩ := Prod.mk.inj hnames
        rw [List.filter_cons_of_pos (by simp [namesOf])]
        dsimp only
        rw [if_pos ⟨hs, hd⟩, JsMap.get_set, if_pos rfl, List.getLast?_cons]
        cases (results.filter _).getLast? <;> rfl
      · rw [List.filter_cons_of_neg (by simpa using hnames)]
        dsimp only
        split_ifs
        · rw [JsMap.get_set, if_neg]
          intro hkey
          obtain ⟨h1, h2⟩ := pairKey_inj hcolon hplain.1 hkey
          exact hnames (by rw [namesOf, ← h1, ← h2])
        · rfl
  exact (hfold results .empty hplain).trans (Option.or_none ..)

/-- What a map holds of the pairs of some names. -/
theorem get_valueMap_aggregate (f : Double → Double) (agg : List Sample → Double) {v : List Sample} {p : Pair}
    (hplain : ∀ s ∈ v, ':' ∉ label s.metric SOURCE) (hs : p.source ≠ []) (hd : p.destination ≠ []) (hcolon : ':' ∉ p.source) :
    (valueMap f (aggregate agg PAIR_LABELS (v.filter known))).get (pairKey ':' p.source p.destination) =
      if homonymous p v = [] then none else some (f (agg (homonymous p v))) := by
  have hresults : ∀ r ∈ aggregate agg PAIR_LABELS (v.filter known), ':' ∉ label r.metric SOURCE := by
    intro r hr
    obtain ⟨s, hs, hmetric⟩ := metric_of_mem_aggregate hr
    rw [hmetric, label_restrict, if_pos (show SOURCE ∈ PAIR_LABELS from List.mem_cons_self)]
    exact hplain s (List.mem_filter.mp hs).1
  rw [get_valueMap hresults hs hd hcolon, filter_aggregate namesOf_eq_iff namesOf_restrict]
  unfold homonymous Pair.names
  cases (v.filter known).filter fun s => namesOf s.metric = (p.source, p.destination) with
  | nil => rfl
  | cons s rest => rfl

/-! ### The edges of a pair -/

section

variable (engine : Engine) (m : Metrics)

def rawL7 : List RawEdge :=
  (istioRate engine m).filterMap
    (istioEdge (valueMap id (istioErrorRate engine m)) (valueMap (fun x => x.mul (.finite 1000)) (istiop95Latency engine m)))

def rawL4 : List RawEdge := (istioTcpRate engine m).filterMap tcpEdge

/-- The rate of some series, zero without any. -/
def Engine.rate (v : List Sample) : Double := if v = [] then .finite 0 else engine.total v

/-- The quantile of some series, if there are any. -/
def Engine.latency (v : List Sample) : Option Double := if v = [] then none else some (engine.quantile v)

/-- The raw edge of a pair with requests: its errors and latency are those of all pairs of its names. -/
def ownL7 (p : Pair) : RawEdge :=
  l7Edge p (engine.total (own p m.requests)) (engine.rate (homonymous p m.errors))
    ((engine.latency (homonymous p m.durations)).map fun x => x.mul (.finite 1000))

def ownL4 (p : Pair) : RawEdge := l4Edge p (engine.total (own p m.sentBytes))

/-- A pair has series, and their rate passes the noise filter. -/
def Busy (p : Pair) (v : List Sample) : Prop := own p v ≠ [] ∧ passes p (engine.total (own p v)) = true

end

variable {engine : Engine} {m : Metrics} {p : Pair}

theorem ne_nil_of_passes {rate : Double} (h : passes p rate = true) : p.source ≠ [] ∧ p.destination ≠ [] := by
  simp only [passes, Bool.and_eq_true, Bool.not_eq_true'] at h
  constructor
  · intro hs
    rw [hs, isSystemWorkload_nil] at h
    cases h.1.1
  · intro hd
    rw [hd, isSystemWorkload_nil] at h
    cases h.1.2

theorem source_of_own {v : List Sample} (h : own p v ≠ []) : ∃ s ∈ v, label s.metric SOURCE = p.source := by
  obtain ⟨s, rest, hs⟩ := List.exists_cons_of_ne_nil h
  obtain ⟨hmem, hpair⟩ := List.mem_filter.mp (hs ▸ List.mem_cons_self : s ∈ own p v)
  exact ⟨s, (List.mem_filter.mp hmem).1, congrArg Pair.source (of_decide_eq_true hpair)⟩

theorem Plain.source_own (hplain : Plain m) (h : own p m.requests ≠ []) : ':' ∉ p.source ∧ '|' ∉ p.source := by
  obtain ⟨s, hs, hsource⟩ := source_of_own h
  rw [← hsource]
  exact hplain s (List.mem_append_left _ (List.mem_append_left _ hs))

open Classical in
/-- The L7 edge of a pair. -/
theorem filter_rawL7 (hplain : Plain m) (p : Pair) :
    (rawL7 engine m).filter (fun e => e.pair = p) = if Busy engine p m.requests then [ownL7 engine m p] else [] := by
  have hresults : (istioRate engine m).filter (fun r => pairOf r.metric = p) = _ :=
    filter_aggregate pairOf_eq_iff pairOf_restrict p
  have hfiltered : (m.requests.filter known).filter (fun s => pairOf s.metric = p) = own p m.requests := rfl
  rw [rawL7, filter_filterMap_of (p := fun r => pairOf r.metric = p) fun r e h => by rw [pair_of_istioEdge h], hresults,
    hfiltered]
  cases hown : own p m.requests with
  | nil => rw [if_neg fun h => h.1 hown]; rfl
  | cons s rest =>
    have hpair : pairOf s.metric = p := of_decide_eq_true (List.mem_filter.mp (hown ▸ List.mem_cons_self : s ∈ own p m.requests)).2
    dsimp only
    rw [List.filterMap_cons, istioEdge_restrict, hpair]
    by_cases hpasses : passes p (engine.total (s :: rest)) = true
    · have hne : own p m.requests ≠ [] := by simp [hown]
      obtain ⟨hs, hd⟩ := ne_nil_of_passes hpasses
      have hcolon := (hplain.source_own hne).1
      have herrors := get_valueMap_aggregate id engine.total (v := m.errors) (p := p)
        (fun s hs => (hplain s (List.mem_append_left _ (List.mem_append_left _ (List.mem_filter.mp hs).1))).1) hs hd hcolon
      have hlatency := get_valueMap_aggregate (fun x => x.mul (.finite 1000)) engine.quantile (v := m.durations)
        (p := p)
        (fun s hs => (hplain s (List.mem_append_left _ (List.mem_append_right _ hs))).1) hs hd hcolon
      have hbusy : Busy engine p m.requests := ⟨hne, hown ▸ hpasses⟩
      rw [if_pos hbusy, if_pos hpasses, istioErrorRate, istiop95Latency, herrors, hlatency]
      dsimp only
      rw [List.filterMap_nil, ownL7, hown, Engine.rate, Engine.latency]
      congr 2
      · split_ifs <;> rfl
      · split_ifs <;> rfl
    · have hbusy : ¬ Busy engine p m.requests := fun h => hpasses (hown ▸ h.2)
      rw [if_neg hbusy, if_neg hpasses]
      rfl

open Classical in
/-- The L4 edge of a pair, before the merge. -/
theorem filter_rawL4 (p : Pair) :
    (rawL4 engine m).filter (fun e => e.pair = p) = if Busy engine p m.sentBytes then [ownL4 engine m p] else [] := by
  have hresults : (istioTcpRate engine m).filter (fun r => pairOf r.metric = p) = _ :=
    filter_aggregate pairOf_eq_iff pairOf_restrict p
  have hfiltered : (m.sentBytes.filter known).filter (fun s => pairOf s.metric = p) = own p m.sentBytes := rfl
  rw [rawL4, filter_filterMap_of (p := fun r => pairOf r.metric = p) fun r e h => by rw [pair_of_tcpEdge h], hresults,
    hfiltered]
  cases hown : own p m.sentBytes with
  | nil => rw [if_neg fun h => h.1 hown]; rfl
  | cons s rest =>
    have hpair : pairOf s.metric = p := of_decide_eq_true (List.mem_filter.mp (hown ▸ List.mem_cons_self : s ∈ own p m.sentBytes)).2
    dsimp only
    rw [List.filterMap_cons, tcpEdge_restrict, hpair]
    by_cases hpasses : passes p (engine.total (s :: rest)) = true
    · have hbusy : Busy engine p m.sentBytes := ⟨by simp [hown], hown ▸ hpasses⟩
      rw [if_pos hbusy, if_pos hpasses, ownL4, hown]
      rfl
    · have hbusy : ¬ Busy engine p m.sentBytes := fun h => hpasses (hown ▸ h.2)
      rw [if_neg hbusy, if_neg hpasses]
      rfl

/-! ### The merge -/

/-- Some pair of the same names has an L7 edge before the filters of the graph. -/
def Covered (engine : Engine) (m : Metrics) (p : Pair) : Prop := ∃ p', p'.names = p.names ∧ Busy engine p' m.requests

/-- The raw edges of the graph. -/
def rawEdges (engine : Engine) (m : Metrics) : List RawEdge :=
  rawL7 engine m ++ (rawL4 engine m).filter fun e =>
    !((rawL7 engine m).map fun e => pairKey '|' e.source e.destination).contains (pairKey '|' e.source e.destination)

theorem mem_rawL7_iff (hplain : Plain m) (e : RawEdge) :
    e ∈ rawL7 engine m ↔ Busy engine e.pair m.requests ∧ e = ownL7 engine m e.pair := by
  classical
  have hfilter : (rawL7 engine m).filter (fun e' => e'.pair = e.pair) = _ := filter_rawL7 hplain e.pair
  have hmem : e ∈ rawL7 engine m ↔ e ∈ (rawL7 engine m).filter (fun e' => e'.pair = e.pair) := by
    simp [List.mem_filter]
  rw [hmem, hfilter]
  by_cases hbusy : Busy engine e.pair m.requests
  · rw [if_pos hbusy, List.mem_singleton, and_iff_right hbusy]
  · rw [if_neg hbusy]
    exact iff_of_false List.not_mem_nil fun h => hbusy h.1

/-- The merge looks at the names only. -/
theorem covered_iff (hplain : Plain m) (hbusy : Busy engine p m.sentBytes) :
    ((rawL7 engine m).map fun e => pairKey '|' e.source e.destination).contains (pairKey '|' p.source p.destination) = true ↔
      Covered engine m p := by
  obtain ⟨s, hs, hsource⟩ := source_of_own hbusy.1
  have hbar : '|' ∉ p.source := hsource ▸ (hplain s (List.mem_append_right _ hs)).2
  rw [List.contains_iff_mem, List.mem_map]
  constructor
  · rintro ⟨e, he, hkey⟩
    have hown := ((mem_rawL7_iff hplain e).mp he).1
    have hnames := pairKey_inj (hplain.source_own hown.1).2 hbar hkey
    exact ⟨e.pair, Prod.ext hnames.1 hnames.2, hown⟩
  · rintro ⟨p', hnames, hbusy'⟩
    obtain ⟨hs, hd⟩ := Prod.mk.inj hnames
    have hpair : (ownL7 engine m p').pair = p' := pair_l7Edge ..
    refine ⟨ownL7 engine m p', (mem_rawL7_iff hplain _).mpr ⟨hpair.symm ▸ hbusy', by rw [hpair]⟩, ?_⟩
    change pairKey '|' p'.source p'.destination = _
    rw [hs, hd]

open Classical in
/-- The raw edges of a pair. -/
theorem filter_rawEdges (hplain : Plain m) (p : Pair) :
    (rawEdges engine m).filter (fun e => e.pair = p) =
      (if Busy engine p m.requests then [ownL7 engine m p] else []) ++
      if Busy engine p m.sentBytes ∧ ¬ Covered engine m p then [ownL4 engine m p] else [] := by
  rw [rawEdges, List.filter_append, filter_rawL7 hplain, List.filter_comm, filter_rawL4]
  congr 1
  by_cases hbusy : Busy engine p m.sentBytes
  · rw [if_pos hbusy]
    have hcovered := covered_iff hplain hbusy
    by_cases hcov : Covered engine m p
    · rw [if_neg fun h => h.2 hcov]
      exact List.filter_cons_of_neg (by simpa [ownL4, l4Edge] using hcovered.mpr hcov)
    · rw [if_pos ⟨hbusy, hcov⟩]
      exact List.filter_cons_of_pos (by simpa [ownL4, l4Edge] using fun h => hcov (hcovered.mp h))
  · rw [if_neg hbusy, if_neg fun h => hbusy h.1]
    rfl

end narwhal.portal.service_graph
