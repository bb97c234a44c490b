import Narwhal.Portal.ServiceGraphPairs

open jslib promql
open narwhal.portal.cache_keys (GraphWindow)

namespace narwhal.portal.service_graph

section

variable (engine : Engine) (apps : List App) (namespace_ : Option Text) (minRate : Double)

/-- What Prometheus answers of these series, Hubble's apart. -/
def answersOf (m : Metrics) : Answers where
  istioRate := some (istioRate engine m)
  istioErrorRate := some (istioErrorRate engine m)
  istiop95Latency := some (istiop95Latency engine m)
  istioTcpRate := some (istioTcpRate engine m)
  hubbleRate := none

/-- The graph for the source `istio`. -/
def graph (window : GraphWindow) (m : Metrics) : ServiceGraphResult :=
  getServiceGraph apps namespace_ minRate "istio".toList (answersOf engine m) window

/-- The edges of the graph that are drawn for a pair. -/
def edgesOf (m : Metrics) (p : Pair) : List ServiceEdge :=
  ((drawnEdges apps namespace_ minRate (rawEdges engine m)).filter fun drawn => drawn.1.pair = p).map Prod.snd

/-- The graph shows a rate between the two workloads: it is no self call, and neither the namespace nor
    the minimum rate leaves it out. -/
structure Shown (p : Pair) (rate : Double) : Prop where
  source : resolveWorkload p.source (buildWorkloadToServiceMap apps) ≠ []
  destination : resolveWorkload p.destination (buildWorkloadToServiceMap apps) ≠ []
  distinct : resolveWorkload p.source (buildWorkloadToServiceMap apps) ≠
    resolveWorkload p.destination (buildWorkloadToServiceMap apps)
  view : ∀ ns, namespace_ = some ns → ns ≠ [] → p.sourceNamespace = ns ∨ p.destinationNamespace = ns
  rate : rate.ge minRate = true

/-- A pair has an L7 edge of its own. -/
def HasL7 (m : Metrics) (p : Pair) : Prop :=
  Busy engine p m.requests ∧ Shown apps namespace_ minRate p (engine.total (own p m.requests))

/-- The L4 series of a pair call for an edge. -/
def CallsForL4 (m : Metrics) (p : Pair) : Prop :=
  Busy engine p m.sentBytes ∧ Shown apps namespace_ minRate p (engine.total (own p m.sentBytes))

/-- The error rate that an edge shows. -/
def shownErrorRate (errRate totalRate : Double) : Double := roundTo (.finite 10000) (errorRateOf errRate totalRate)

/-- The latency that an edge shows. -/
def shownLatency (latency : Option Double) : Option Double := (latency.filter Double.isFinite).map Double.round

/-- A pair with L4 series and without an L7 edge has an L4 edge, and an L7 edge carries the error rate
    and the latency of its own pair, in the milliseconds of the histogram. -/
structure Faithful (m : Metrics) : Prop where
  l4 : ∀ p, CallsForL4 engine apps namespace_ minRate m p →
    (∀ d ∈ edgesOf engine apps namespace_ minRate m p, d.kind ≠ some .l7) →
    ∃ d ∈ edgesOf engine apps namespace_ minRate m p, d.kind = some .l4
  l7 : ∀ p, ∀ d ∈ edgesOf engine apps namespace_ minRate m p, d.kind = some .l7 →
    d.errorRate = shownErrorRate (engine.rate (own p m.errors)) (engine.total (own p m.requests)) ∧
    d.p95LatencyMs = shownLatency (engine.latency (own p m.durations))

/-- No pair that needs an L4 edge has the names of a pair with requests, and on the pairs with an L7
    edge the errors and the latency of all pairs of their names show as their own do, though the latency
    is multiplied by 1000. -/
structure Separate (m : Metrics) : Prop where
  l4 : ∀ p, CallsForL4 engine apps namespace_ minRate m p → ¬ HasL7 engine apps namespace_ minRate m p →
    ∀ p', p'.names = p.names → ¬ Busy engine p' m.requests
  errors : ∀ p, HasL7 engine apps namespace_ minRate m p →
    shownErrorRate (engine.rate (homonymous p m.errors)) (engine.total (own p m.requests)) =
      shownErrorRate (engine.rate (own p m.errors)) (engine.total (own p m.requests))
  latency : ∀ p, HasL7 engine apps namespace_ minRate m p →
    shownLatency ((engine.latency (homonymous p m.durations)).map fun x => x.mul (.finite 1000)) =
      shownLatency (engine.latency (own p m.durations))

end

/-- The series of a pair are the same in both. -/
structure SameSeries (m m' : Metrics) (p : Pair) : Prop where
  requests : own p m.requests = own p m'.requests
  errors : own p m.errors = own p m'.errors
  durations : own p m.durations = own p m'.durations
  sentBytes : own p m.sentBytes = own p m'.sentBytes

section

variable {engine : Engine} {apps : List App} {namespace_ : Option Text} {minRate : Double} {m : Metrics} {p : Pair}

/-- What a raw edge is drawn as. -/
def drawnAs (apps : List App) (e : RawEdge) : ServiceEdge where
  source := resolveWorkload e.source (buildWorkloadToServiceMap apps)
  destination := resolveWorkload e.destination (buildWorkloadToServiceMap apps)
  kind := e.kind
  requestRate := roundTo (.finite 1000) e.requestRate
  errorRate := roundTo (.finite 10000) e.errorRate
  p95LatencyMs := e.p95LatencyMs.map Double.round

theorem drawnEdges_append (es es' : List RawEdge) :
    drawnEdges apps namespace_ minRate (es ++ es') = drawnEdges apps namespace_ minRate es ++ drawnEdges apps namespace_ minRate es' := by
  rw [drawnEdges, List.filter_append, List.filter_append, List.filterMap_append]
  rfl

/-- Only the raw edges of a pair become edges of it. -/
theorem filter_drawnEdges (es : List RawEdge) :
    (drawnEdges apps namespace_ minRate es).filter (fun drawn => drawn.1.pair = p) =
      drawnEdges apps namespace_ minRate (es.filter fun e => e.pair = p) := by
  have hpair : ∀ (e : RawEdge) (drawn : RawEdge × ServiceEdge),
      ((drawEdge (buildWorkloadToServiceMap apps) e).map fun edge => (e, edge)) = some drawn →
      decide (drawn.1.pair = p) = decide (e.pair = p) := by
    intro e drawn h
    obtain ⟨edge, -, rfl⟩ := Option.map_eq_some_iff.mp h
    rfl
  rw [drawnEdges, filter_filterMap_of hpair, List.filter_comm, List.filter_comm (fun e : RawEdge => e.pair = p)]
  rfl

theorem inView_iff {e : RawEdge} (hsource : e.sourceNamespace = nonEmpty p.sourceNamespace)
    (hdestination : e.destinationNamespace = nonEmpty p.destinationNamespace) :
    inView namespace_ e = true ↔
      ∀ ns, namespace_ = some ns → ns ≠ [] → p.sourceNamespace = ns ∨ p.destinationNamespace = ns := by
  have hsome : ∀ x ns : Text, ns ≠ [] → (nonEmpty x = some ns ↔ x = ns) := by
    intro x ns hns
    unfold nonEmpty
    split_ifs with hx
    · exact iff_of_false (by simp) fun h => hns (h ▸ hx)
    · exact Option.some_inj
  cases namespace_ with
  | none => exact iff_of_true rfl fun ns h => by cases h
  | some ns =>
    by_cases hns : ns = []
    · subst hns
      exact iff_of_true rfl fun ns h hne => absurd (Option.some.inj h).symm hne
    · simp [inView, Option.filter, hns, hsource, hdestination, hsome _ _ hns]

open Classical in
theorem drawEdge_eq {e : RawEdge} :
    drawEdge (buildWorkloadToServiceMap apps) e =
      if resolveWorkload e.source (buildWorkloadToServiceMap apps) ≠ [] ∧
          resolveWorkload e.destination (buildWorkloadToServiceMap apps) ≠ [] ∧
          resolveWorkload e.source (buildWorkloadToServiceMap apps) ≠
            resolveWorkload e.destination (buildWorkloadToServiceMap apps)
      then some (drawnAs apps e) else none := by
  unfold drawEdge
  dsimp only
  by_cases hid : resolveWorkload e.source (buildWorkloadToServiceMap apps) = [] ∨
      resolveWorkload e.destination (buildWorkloadToServiceMap apps) = []
  · rw [if_pos hid, if_neg fun h => hid.elim h.1 h.2.1]
  · obtain ⟨hs, hd⟩ := not_or.mp hid
    rw [if_neg hid]
    by_cases hself : resolveWorkload e.source (buildWorkloadToServiceMap apps) =
        resolveWorkload e.destination (buildWorkloadToServiceMap apps)
    · rw [if_pos hself, if_neg fun h => h.2.2 hself]
    · rw [if_neg hself, if_pos ⟨hs, hd, hself⟩]
      rfl

open Classical in
/-- An edge is drawn exactly if the graph shows its rate. -/
theorem drawnEdges_singleton {e : RawEdge} (hsource : e.sourceNamespace = nonEmpty p.sourceNamespace)
    (hdestination : e.destinationNamespace = nonEmpty p.destinationNamespace) (hs : e.source = p.source)
    (hd : e.destination = p.destination) :
    drawnEdges apps namespace_ minRate [e] =
      if Shown apps namespace_ minRate p e.requestRate then [(e, drawnAs apps e)] else [] := by
  have hview : inView namespace_ e = true ↔ _ := inView_iff hsource hdestination
  let hasRate : RawEdge → Bool := fun e => e.requestRate.ge minRate
  by_cases hshown : Shown apps namespace_ minRate p e.requestRate
  · have hids : resolveWorkload e.source (buildWorkloadToServiceMap apps) ≠ [] ∧
        resolveWorkload e.destination (buildWorkloadToServiceMap apps) ≠ [] ∧
        resolveWorkload e.source (buildWorkloadToServiceMap apps) ≠
          resolveWorkload e.destination (buildWorkloadToServiceMap apps) := by
      rw [hs, hd]
      exact ⟨hshown.source, hshown.destination, hshown.distinct⟩
    rw [if_pos hshown, drawnEdges, List.filter_cons_of_pos (p := hasRate) hshown.rate, List.filter_nil,
      List.filter_cons_of_pos (hview.mpr hshown.view), List.filter_nil, List.filterMap_cons, drawEdge_eq, if_pos hids]
    rfl
  · rw [if_neg hshown, drawnEdges]
    by_cases hrate : e.requestRate.ge minRate = true
    · rw [List.filter_cons_of_pos (p := hasRate) hrate, List.filter_nil]
      by_cases hin : inView namespace_ e = true
      · have hids : ¬ (resolveWorkload e.source (buildWorkloadToServiceMap apps) ≠ [] ∧
            resolveWorkload e.destination (buildWorkloadToServiceMap apps) ≠ [] ∧
            resolveWorkload e.source (buildWorkloadToServiceMap apps) ≠
              resolveWorkload e.destination (buildWorkloadToServiceMap apps)) := by
          rw [hs, hd]
          exact fun h => hshown ⟨h.1, h.2.1, h.2.2, hview.mp hin, hrate⟩
        rw [List.filter_cons_of_pos hin, List.filter_nil, List.filterMap_cons, drawEdge_eq, if_neg hids]
        rfl
      · rw [List.filter_cons_of_neg hin]
        rfl
    · rw [List.filter_cons_of_neg (p := hasRate) hrate]
      rfl

open Classical in
/-- A pair has the edge of its requests, and that of its bytes unless its names are covered. -/
theorem edgesOf_eq (hplain : Plain m) (p : Pair) :
    edgesOf engine apps namespace_ minRate m p =
      (if HasL7 engine apps namespace_ minRate m p then [drawnAs apps (ownL7 engine m p)] else []) ++
      if CallsForL4 engine apps namespace_ minRate m p ∧ ¬ Covered engine m p then [drawnAs apps (ownL4 engine m p)] else [] := by
  rw [edgesOf, filter_drawnEdges, filter_rawEdges hplain, drawnEdges_append, List.map_append]
  congr 1
  · by_cases hbusy : Busy engine p m.requests
    · rw [if_pos hbusy, drawnEdges_singleton rfl rfl rfl rfl]
      change (if Shown apps namespace_ minRate p (engine.total (own p m.requests)) then _ else _ : List _).map _ = _
      by_cases hshown : Shown apps namespace_ minRate p (engine.total (own p m.requests))
      · rw [if_pos hshown, if_pos ⟨hbusy, hshown⟩]
        rfl
      · rw [if_neg hshown, if_neg fun h => hshown h.2]
        rfl
    · rw [if_neg hbusy, if_neg fun h => hbusy h.1]
      rfl
  · by_cases hbusy : Busy engine p m.sentBytes ∧ ¬ Covered engine m p
    · rw [if_pos hbusy, drawnEdges_singleton rfl rfl rfl rfl]
      change (if Shown apps namespace_ minRate p (engine.total (own p m.sentBytes)) then _ else _ : List _).map _ = _
      by_cases hshown : Shown apps namespace_ minRate p (engine.total (own p m.sentBytes))
      · rw [if_pos hshown, if_pos ⟨⟨hbusy.1, hshown⟩, hbusy.2⟩]
        rfl
      · rw [if_neg hshown, if_neg fun h => hshown h.1.2]
        rfl
    · rw [if_neg hbusy, if_neg fun h => hbusy ⟨h.1.1, h.2⟩]
      rfl

theorem mem_edgesOf_iff (hplain : Plain m) {p : Pair} {d : ServiceEdge} :
    d ∈ edgesOf engine apps namespace_ minRate m p ↔
      (HasL7 engine apps namespace_ minRate m p ∧ d = drawnAs apps (ownL7 engine m p)) ∨
      ((CallsForL4 engine apps namespace_ minRate m p ∧ ¬ Covered engine m p) ∧ d = drawnAs apps (ownL4 engine m p)) := by
  rw [edgesOf_eq hplain, List.mem_append]
  apply or_congr
  · split_ifs with h <;> simp [h]
  · split_ifs with h <;> simp [h]

theorem not_covered_iff : ¬ Covered engine m p ↔ ∀ p', p'.names = p.names → ¬ Busy engine p' m.requests := by
  simp only [Covered, not_exists, not_and]

/-- The graph is faithful exactly if pairs of the same names keep out of each other's way. -/
theorem faithful_iff (hplain : Plain m) :
    Faithful engine apps namespace_ minRate m ↔ Separate engine apps namespace_ minRate m := by
  have hl7 : ∀ {p d}, d ∈ edgesOf engine apps namespace_ minRate m p → d.kind = some .l7 →
      HasL7 engine apps namespace_ minRate m p ∧ d = drawnAs apps (ownL7 engine m p) := by
    intro p d hd hkind
    obtain h | ⟨-, rfl⟩ := (mem_edgesOf_iff hplain).mp hd
    · exact h
    · cases hkind
  have hl4 : ∀ {p d}, d ∈ edgesOf engine apps namespace_ minRate m p → d.kind = some .l4 → ¬ Covered engine m p := by
    intro p d hd hkind
    obtain ⟨-, rfl⟩ | ⟨h, -⟩ := (mem_edgesOf_iff hplain).mp hd
    · cases hkind
    · exact h.2
  constructor
  · intro h
    refine ⟨fun p hcalls hnone => ?_, fun p hown => ?_, fun p hown => ?_⟩
    · obtain ⟨d, hd, hkind⟩ := h.l4 p hcalls fun d hd hkind => hnone (hl7 hd hkind).1
      exact not_covered_iff.mp (hl4 hd hkind)
    · exact (h.l7 p _ ((mem_edgesOf_iff hplain).mpr (.inl ⟨hown, rfl⟩)) rfl).1
    · exact (h.l7 p _ ((mem_edgesOf_iff hplain).mpr (.inl ⟨hown, rfl⟩)) rfl).2
  · intro h
    constructor
    · intro p hcalls hnone
      have hown : ¬ HasL7 engine apps namespace_ minRate m p :=
        fun hown => hnone _ ((mem_edgesOf_iff hplain).mpr (.inl ⟨hown, rfl⟩)) rfl
      have hcovered := not_covered_iff.mpr (h.l4 p hcalls hown)
      exact ⟨_, (mem_edgesOf_iff hplain).mpr (.inr ⟨⟨hcalls, hcovered⟩, rfl⟩), rfl⟩
    · intro p d hd hkind
      obtain ⟨hown, rfl⟩ := hl7 hd hkind
      exact ⟨h.errors p hown, h.latency p hown⟩

/-! ### Other namespaces -/

section

variable {m' : Metrics}

theorem SameSeries.hasL7 (h : SameSeries m m' p) :
    HasL7 engine apps namespace_ minRate m p ↔ HasL7 engine apps namespace_ minRate m' p := by
  unfold HasL7 Busy
  rw [h.requests]

theorem SameSeries.callsForL4 (h : SameSeries m m' p) :
    CallsForL4 engine apps namespace_ minRate m p ↔ CallsForL4 engine apps namespace_ minRate m' p := by
  unfold CallsForL4 Busy
  rw [h.sentBytes]

/-- The edge that the requests of a pair alone call for. -/
def faithfulL7 (engine : Engine) (apps : List App) (m : Metrics) (p : Pair) : ServiceEdge where
  source := resolveWorkload p.source (buildWorkloadToServiceMap apps)
  destination := resolveWorkload p.destination (buildWorkloadToServiceMap apps)
  kind := some .l7
  requestRate := roundTo (.finite 1000) (engine.total (own p m.requests))
  errorRate := shownErrorRate (engine.rate (own p m.errors)) (engine.total (own p m.requests))
  p95LatencyMs := shownLatency (engine.latency (own p m.durations))

open Classical in
/-- In a faithful graph the edges of a pair come from its own series. -/
theorem Faithful.edgesOf (h : Faithful engine apps namespace_ minRate m) (hplain : Plain m) (p : Pair) :
    edgesOf engine apps namespace_ minRate m p =
      if HasL7 engine apps namespace_ minRate m p then [faithfulL7 engine apps m p]
      else if CallsForL4 engine apps namespace_ minRate m p then [drawnAs apps (ownL4 engine m p)]
      else [] := by
  have hsep := (faithful_iff hplain).mp h
  rw [edgesOf_eq hplain]
  by_cases hown : HasL7 engine apps namespace_ minRate m p
  · have hcovered : Covered engine m p := ⟨p, rfl, hown.1⟩
    have hedge : drawnAs apps (ownL7 engine m p) = faithfulL7 engine apps m p := by
      rw [drawnAs, faithfulL7, ServiceEdge.mk.injEq]
      exact ⟨rfl, rfl, rfl, rfl, hsep.errors p hown, hsep.latency p hown⟩
    rw [if_pos hown, if_pos hown, if_neg fun h => h.2 hcovered, hedge]
    rfl
  · rw [if_neg hown, if_neg hown]
    by_cases hcalls : CallsForL4 engine apps namespace_ minRate m p
    · rw [if_pos hcalls, if_pos ⟨hcalls, not_covered_iff.mpr (hsep.l4 p hcalls hown)⟩]
      rfl
    · rw [if_neg hcalls, if_neg fun h => hcalls h.1]
      rfl

/-- What pairs in other namespaces do does not change the edges of a pair. -/
theorem edgesOf_congr (hplain : Plain m) (hplain' : Plain m') (h : Faithful engine apps namespace_ minRate m)
    (h' : Faithful engine apps namespace_ minRate m') (hsame : SameSeries m m' p) :
    edgesOf engine apps namespace_ minRate m p = edgesOf engine apps namespace_ minRate m' p := by
  classical
  have hl7 : faithfulL7 engine apps m p = faithfulL7 engine apps m' p := by
    rw [faithfulL7, faithfulL7, hsame.requests, hsame.errors, hsame.durations]
  have hl4 : ownL4 engine m p = ownL4 engine m' p := by
    rw [ownL4, ownL4, hsame.sentBytes]
  have hown : HasL7 engine apps namespace_ minRate m p ↔ HasL7 engine apps namespace_ minRate m' p := hsame.hasL7
  have hcalls : CallsForL4 engine apps namespace_ minRate m p ↔ CallsForL4 engine apps namespace_ minRate m' p :=
    hsame.callsForL4
  rw [h.edgesOf hplain, h'.edgesOf hplain', hl7, hl4]
  exact if_congr hown rfl (if_congr hcalls rfl rfl)

/-- The graph shows every pair as its own series say exactly if no pair without requests needs an L4
    edge under the names of one with requests, and errors and latency show the same with and without the
    other pairs of the names; then other namespaces do not change the edges of a pair. -/
theorem graph_faithful_iff (hplain : Plain m) :
    (Faithful engine apps namespace_ minRate m ↔ Separate engine apps namespace_ minRate m) ∧
    ∀ m' p, Plain m' → Faithful engine apps namespace_ minRate m → Faithful engine apps namespace_ minRate m' →
      SameSeries m m' p → edgesOf engine apps namespace_ minRate m p = edgesOf engine apps namespace_ minRate m' p :=
  ⟨faithful_iff hplain, fun _ _ hplain' h h' hsame => edgesOf_congr hplain hplain' h h' hsame⟩

end

end

/-- Values are added in their order. -/
def sampleEngine : Engine where
  sum
    | [x] => x
    | xs => xs.foldl Double.add (.finite 0)
  p95 := fun _ => .nan

def WEB : Text := ['w', 'e', 'b']

def API : Text := ['a', 'p', 'i']

/-- Requests or bytes from `web` to `api` within a namespace. -/
def sampleSeries (ns : Text) : Sample :=
  ⟨[(SOURCE, WEB), (DESTINATION, API), (SOURCE_NAMESPACE, ns), (DESTINATION_NAMESPACE, ns)], .finite 1⟩

def samplePair (ns : Text) : Pair := ⟨ns, WEB, ns, API⟩

theorem plain_samples (requests sentBytes : List Text) :
    Plain ⟨requests.map sampleSeries, [], sentBytes.map sampleSeries⟩ := by
  intro s hs
  have hmem : ∃ ns, s = sampleSeries ns := by
    simp only [List.append_nil, List.mem_append, List.mem_map] at hs
    obtain ⟨ns, -, rfl⟩ | ⟨ns, -, rfl⟩ := hs
    · exact ⟨ns, rfl⟩
    · exact ⟨ns, rfl⟩
  obtain ⟨ns, rfl⟩ := hmem
  have hsource : label (sampleSeries ns).metric SOURCE = WEB := by
    simp [sampleSeries, label]
  rw [hsource]
  decide

def JOB : Text := ['j', 'o', 'b']

/-- Bytes from `job` to `api` within a namespace. -/
def jobSeries (ns : Text) : Sample :=
  ⟨[(SOURCE, JOB), (DESTINATION, API), (SOURCE_NAMESPACE, ns), (DESTINATION_NAMESPACE, ns)], .finite 1⟩

/-- Requests in one namespace, and what `job` sends in these others. -/
def mixedMetrics (namespaces : List Text) : Metrics := ⟨[sampleSeries ['a']], [], namespaces.map jobSeries⟩

theorem own_jobSeries {namespaces : List Text} {p : Pair} (h : own p (namespaces.map jobSeries) ≠ []) : p.source = JOB := by
  obtain ⟨s, hs⟩ := List.exists_mem_of_ne_nil _ h
  obtain ⟨hmem, hpair⟩ := List.mem_filter.mp hs
  obtain ⟨ns, -, rfl⟩ := List.mem_map.mp (List.mem_filter.mp hmem).1
  rw [← of_decide_eq_true hpair]
  rfl

theorem own_sampleSeries {ns : Text} {p : Pair} (h : own p [sampleSeries ns] ≠ []) : p.source = WEB := by
  obtain ⟨s, hs⟩ := List.exists_mem_of_ne_nil _ h
  obtain ⟨hmem, hpair⟩ := List.mem_filter.mp hs
  obtain rfl := List.mem_singleton.mp (List.mem_filter.mp hmem).1
  rw [← of_decide_eq_true hpair]
  rfl

theorem mixedMetrics_plain (namespaces : List Text) : Plain (mixedMetrics namespaces) := by
  intro s hs
  have hsource : label s.metric SOURCE = WEB ∨ label s.metric SOURCE = JOB := by
    simp only [mixedMetrics, List.append_nil, List.cons_append, List.nil_append, List.mem_cons, List.mem_map] at hs
    obtain rfl | ⟨ns, -, rfl⟩ := hs
    · exact .inl rfl
    · exact .inr rfl
  obtain hsource | hsource := hsource
  · rw [hsource]
    decide
  · rw [hsource]
    decide

theorem mixedMetrics_separate (namespaces : List Text) : Separate sampleEngine [] none (.finite 0) (mixedMetrics namespaces) where
  l4 p hcalls _ p' hnames hbusy := by
    have hsource : p'.source = p.source := congrArg Prod.fst hnames
    rw [own_sampleSeries hbusy.1, own_jobSeries hcalls.1.1] at hsource
    exact absurd hsource (by decide)
  errors p _ := rfl
  latency p _ := rfl

/-- The first namespace has an L7 edge, the other an L4 edge that does not change the first. -/
theorem mixed_samples_faithful :
    Faithful sampleEngine [] none (.finite 0) (mixedMetrics [['b']]) ∧
      (edgesOf sampleEngine [] none (.finite 0) (mixedMetrics [['b']]) (samplePair ['a'])).map ServiceEdge.kind = [some .l7] ∧
      edgesOf sampleEngine [] none (.finite 0) (mixedMetrics [['b']]) (samplePair ['a']) =
        edgesOf sampleEngine [] none (.finite 0) (mixedMetrics []) (samplePair ['a']) := by
  have hfaithful : ∀ namespaces, Faithful sampleEngine [] none (.finite 0) (mixedMetrics namespaces) := fun namespaces =>
    (graph_faithful_iff (mixedMetrics_plain namespaces)).1.mpr (mixedMetrics_separate namespaces)
  have hsame : SameSeries (mixedMetrics [['b']]) (mixedMetrics []) (samplePair ['a']) := ⟨rfl, rfl, rfl, by decide⟩
  exact ⟨hfaithful _, by decide +kernel,
    (graph_faithful_iff (mixedMetrics_plain _)).2 _ _ (mixedMetrics_plain _) (hfaithful _) (hfaithful _) hsame⟩

/-- Requests in one namespace take the L4 edge of the other away. -/
theorem covered_pair_unfaithful :
    Plain ⟨[sampleSeries ['a']], [], [sampleSeries ['b']]⟩ ∧
    ¬ Faithful sampleEngine [] none MIN_RATE ⟨[sampleSeries ['a']], [], [sampleSeries ['b']]⟩ := by
  have hplain : Plain ⟨[sampleSeries ['a']], [], [sampleSeries ['b']]⟩ :=
    plain_samples [['a']] [['b']]
  refine ⟨hplain, fun h => ?_⟩
  have hcalls : CallsForL4 sampleEngine [] none MIN_RATE ⟨[sampleSeries ['a']], [], [sampleSeries ['b']]⟩ (samplePair ['b']) := by
    exact ⟨⟨by decide, by decide +kernel⟩, ⟨by decide, by decide, by decide, fun ns h => by simp at h, by decide +kernel⟩⟩
  have hnone : ¬ HasL7 sampleEngine [] none MIN_RATE ⟨[sampleSeries ['a']], [], [sampleSeries ['b']]⟩ (samplePair ['b']) :=
    fun h => h.1.1 (by decide)
  exact ((faithful_iff hplain).mp h).l4 _ hcalls hnone (samplePair ['a']) rfl ⟨by decide, by decide +kernel⟩

end narwhal.portal.service_graph
