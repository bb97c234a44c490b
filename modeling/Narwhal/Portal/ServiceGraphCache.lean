import Narwhal.Portal.CacheKeyClash
import Narwhal.Portal.PromQueries
import Narwhal.Portal.ServiceGraph

open jslib readthrough
open narwhal.portal.prometheus
open narwhal.portal.cache_keys (GraphWindow Call cacheKeys.serviceGraphCluster metaKey Clash key_eq_iff)

namespace narwhal.portal.service_graph

/-! ### What is read of a graph -/

/-- An edge as it is read; a number is `null` where JSON has written one that is not finite, and a zero
    has no sign. -/
structure EdgeView where
  source : Text
  destination : Text
  kind : Option Kind
  requestRate : Option Double
  errorRate : Option Double
  p95LatencyMs : Option Double
deriving DecidableEq

/-- A graph without the time at which it was made. -/
structure GraphView where
  window : GraphWindow
  nodes : List ServiceNode
  edges : List EdgeView
  namespaces : Option (List Text)
  metricKind : Option MetricKind
  notice : Option Text
deriving DecidableEq

def ServiceEdge.view (edge : ServiceEdge) : EdgeView where
  source := edge.source
  destination := edge.destination
  kind := edge.kind
  requestRate := some edge.requestRate.printed
  errorRate := some edge.errorRate.printed
  p95LatencyMs := edge.p95LatencyMs.map Double.printed

def ServiceGraphResult.view (graph : ServiceGraphResult) : GraphView where
  window := graph.window
  nodes := graph.nodes
  edges := graph.edges.map ServiceEdge.view
  namespaces := graph.namespaces
  metricKind := graph.metricKind
  notice := graph.notice

/-- What JSON keeps of an edge. -/
def EdgeView.stored (edge : EdgeView) : EdgeView :=
  { edge with
    requestRate := edge.requestRate.bind Double.json
    errorRate := edge.errorRate.bind Double.json
    p95LatencyMs := edge.p95LatencyMs.bind Double.json }

def GraphView.stored (graph : GraphView) : GraphView := { graph with edges := graph.edges.map EdgeView.stored }

/-! ### Calls -/

/-- The arguments of `getServiceGraph`. -/
structure GraphCall where
  window : GraphWindow
  namespace_ : Option Text
  minRate : Option Double

/-- `minRate: number = MIN_RATE`. -/
def GraphCall.limit (i : GraphCall) : Double := i.minRate.getD MIN_RATE

/-- The value of `SERVICE_GRAPH_SOURCE`, what Prometheus answers to the queries of a window, and the
    applications. -/
structure Upstream where
  source : Text
  answers : GraphWindow → Answers
  apps : List App

def getServiceGraphCached (up : Upstream) : Cached GraphCall Text GraphView where
  key i := cacheKeys.serviceGraphCluster i.window i.namespace_
  stampKey := metaKey
  admits _ := true
  compute i := (getServiceGraph up.apps i.namespace_ i.limit up.source (up.answers i.window) i.window).view
  stored := GraphView.stored
  keeps i := (collectEdges up.source (up.answers i.window)).isSome

/-- A raw edge that passes both filters of a call. -/
def GraphCall.shows (i : GraphCall) (e : RawEdge) : Bool := e.requestRate.ge i.limit && inView i.namespace_ e

def ServiceEdge.isFinite (edge : ServiceEdge) : Bool :=
  edge.requestRate.isFinite && edge.errorRate.isFinite && edge.p95LatencyMs.all Double.isFinite

/-- Two calls for one window show the same of its raw edges: those that become an edge, with numbers that
    JSON keeps, and the namespaces of those that pass the limit. -/
structure SameGraph (up : Upstream) (i j : GraphCall) : Prop where
  window : i.window = j.window
  shown : ∀ rawEdges kind, collectEdges up.source (up.answers j.window) = some (rawEdges, kind) →
    ∀ e ∈ rawEdges, ∀ edge, drawEdge (buildWorkloadToServiceMap up.apps) e = some edge →
      i.shows e = j.shows e ∧ (i.shows e = true → edge.isFinite = true)
  namespaces : ∀ rawEdges kind, collectEdges up.source (up.answers j.window) = some (rawEdges, kind) →
    ∀ ns, (∃ e ∈ rawEdges, e.requestRate.ge i.limit = true ∧ ns ∈ e.sourceNamespace.toList ++ e.destinationNamespace.toList) ↔
      ∃ e ∈ rawEdges, e.requestRate.ge j.limit = true ∧ ns ∈ e.sourceNamespace.toList ++ e.destinationNamespace.toList

theorem EdgeView.stored_view_iff (edge : ServiceEdge) : edge.view.stored = edge.view ↔ edge.isFinite = true := by
  cases hp : edge.p95LatencyMs <;>
    simp [ServiceEdge.view, EdgeView.stored, ServiceEdge.isFinite, hp, Double.json_printed, and_assoc]

theorem mem_drawnEdges_iff {up : Upstream} {i : GraphCall} {rawEdges : List RawEdge} {e : RawEdge} {edge : ServiceEdge}
    (hedge : drawEdge (buildWorkloadToServiceMap up.apps) e = some edge) :
    (e, edge) ∈ drawnEdges up.apps i.namespace_ i.limit rawEdges ↔ e ∈ rawEdges ∧ i.shows e = true := by
  simp only [drawnEdges, List.mem_filterMap, List.mem_filter, Option.map_eq_some_iff, Prod.mk.injEq, GraphCall.shows,
    Bool.and_eq_true]
  constructor
  · rintro ⟨e', ⟨⟨hmem, hrate⟩, hview⟩, edge', -, rfl, -⟩
    exact ⟨hmem, hrate, hview⟩
  · rintro ⟨hmem, hrate, hview⟩
    exact ⟨e, ⟨⟨hmem, hrate⟩, hview⟩, edge, hedge, rfl, rfl⟩

theorem edge_of_mem_drawnEdges {apps : List App} {namespace_ : Option Text} {limit : Double} {rawEdges : List RawEdge}
    {e : RawEdge} {edge : ServiceEdge} (h : (e, edge) ∈ drawnEdges apps namespace_ limit rawEdges) :
    drawEdge (buildWorkloadToServiceMap apps) e = some edge := by
  obtain ⟨e', -, hedge⟩ := List.mem_filterMap.mp h
  obtain ⟨edge', hedge', heq⟩ := Option.map_eq_some_iff.mp hedge
  cases heq
  exact hedge'

theorem drawnEdges_eq (apps : List App) (i : GraphCall) (rawEdges : List RawEdge) :
    drawnEdges apps i.namespace_ i.limit rawEdges =
      (rawEdges.filter i.shows).filterMap fun e => (drawEdge (buildWorkloadToServiceMap apps) e).map fun edge => (e, edge) := by
  rw [drawnEdges, List.filter_filter]
  congr 1
  exact List.filter_congr fun e _ => Bool.and_comm _ _

/-- What is drawn depends on the raw edges that a call shows. -/
theorem drawnEdges_congr {apps : List App} {i j : GraphCall} {rawEdges : List RawEdge}
    (h : ∀ e ∈ rawEdges, ∀ edge, drawEdge (buildWorkloadToServiceMap apps) e = some edge → i.shows e = j.shows e) :
    drawnEdges apps i.namespace_ i.limit rawEdges = drawnEdges apps j.namespace_ j.limit rawEdges := by
  rw [drawnEdges_eq, drawnEdges_eq, List.filterMap_filter, List.filterMap_filter]
  refine List.filterMap_congr fun e he => ?_
  cases hedge : drawEdge (buildWorkloadToServiceMap apps) e with
  | none => simp
  | some edge => rw [h e he edge hedge]

/-- Of two calls one shows what the other does. -/
def Nested (i j : GraphCall) : Prop := (∀ e, i.shows e = true → j.shows e = true) ∨ ∀ e, j.shows e = true → i.shows e = true

theorem nested_of_namespace_eq {i j : GraphCall} (h : i.namespace_ = j.namespace_) : Nested i j := by
  simp only [Nested, GraphCall.shows, Bool.and_eq_true, h]
  exact (Double.ge_nested i.limit j.limit).imp (fun hge e he => ⟨hge _ he.1, he.2⟩) fun hge e he => ⟨hge _ he.1, he.2⟩

/-- A clash of two graphs is one of no namespace with a namespace named "all". -/
theorem args_of_clash {window window' : GraphWindow} {namespace_ namespace_' : Option Text}
    (h : Clash (.serviceGraphCluster window namespace_) (.serviceGraphCluster window' namespace_')) :
    window = window' ∧ namespace_ = none := by
  cases h with
  | serviceGraphCluster => exact ⟨rfl, rfl⟩

theorem args_of_key_eq {i j : GraphCall}
    (h : cacheKeys.serviceGraphCluster i.window i.namespace_ = cacheKeys.serviceGraphCluster j.window j.namespace_) :
    i.window = j.window ∧ (i.namespace_ = j.namespace_ ∨ i.namespace_ = none ∨ j.namespace_ = none) := by
  have hkey : (Call.serviceGraphCluster i.window i.namespace_).key = (Call.serviceGraphCluster j.window j.namespace_).key := h
  obtain heq | hclash | hclash := key_eq_iff.mp hkey
  · obtain ⟨hwindow, hnamespace⟩ := Call.serviceGraphCluster.inj heq
    exact ⟨hwindow, .inl hnamespace⟩
  · obtain ⟨hwindow, hnone⟩ := args_of_clash hclash
    exact ⟨hwindow, .inr (.inl hnone)⟩
  · obtain ⟨hwindow, hnone⟩ := args_of_clash hclash
    exact ⟨hwindow.symm, .inr (.inr hnone)⟩

theorem nested_of_limit_eq {i j : GraphCall}
    (hkey : cacheKeys.serviceGraphCluster i.window i.namespace_ = cacheKeys.serviceGraphCluster j.window j.namespace_)
    (hlimit : i.limit = j.limit) : Nested i j := by
  obtain hnamespace | hnone | hnone := (args_of_key_eq hkey).2
  · exact nested_of_namespace_eq hnamespace
  · refine .inr fun e he => ?_
    simp only [GraphCall.shows, Bool.and_eq_true] at he ⊢
    exact ⟨hlimit ▸ he.1, by simp [inView, hnone]⟩
  · refine .inl fun e he => ?_
    simp only [GraphCall.shows, Bool.and_eq_true] at he ⊢
    exact ⟨hlimit ▸ he.1, by simp [inView, hnone]⟩

theorem drawnEdges_eq_of_length {apps : List App} {i j : GraphCall} {rawEdges : List RawEdge} (hnested : Nested i j)
    (hlength : (drawnEdges apps i.namespace_ i.limit rawEdges).length = (drawnEdges apps j.namespace_ j.limit rawEdges).length) :
    drawnEdges apps i.namespace_ i.limit rawEdges = drawnEdges apps j.namespace_ j.limit rawEdges := by
  simp only [drawnEdges_eq] at hlength ⊢
  obtain h | h := hnested
  · exact ((List.monotone_filter_right rawEdges h).filterMap _).eq_of_length hlength
  · exact (((List.monotone_filter_right rawEdges h).filterMap _).eq_of_length hlength.symm).symm

/-- The namespaces that a call lists. -/
theorem mem_namespaces_iff {limit : Double} {rawEdges : List RawEdge} {ns : Text} :
    ns ∈ setOf ((rawEdges.filter fun e => e.requestRate.ge limit).flatMap fun e =>
        e.sourceNamespace.toList ++ e.destinationNamespace.toList) ↔
      ∃ e ∈ rawEdges, e.requestRate.ge limit = true ∧ ns ∈ e.sourceNamespace.toList ++ e.destinationNamespace.toList := by
  rw [mem_setOf, List.mem_flatMap]
  simp only [List.mem_filter, and_assoc]

theorem compute_window (up : Upstream) (i : GraphCall) : ((getServiceGraphCached up).compute i).window = i.window := by
  simp only [getServiceGraphCached, getServiceGraph]
  split <;> rfl

theorem view_of_collectEdges {up : Upstream} {i : GraphCall} {rawEdges : List RawEdge} {kind : MetricKind}
    (h : collectEdges up.source (up.answers i.window) = some (rawEdges, kind)) :
    let drawn := drawnEdges up.apps i.namespace_ i.limit rawEdges
    (getServiceGraphCached up).compute i =
      { window := i.window
        nodes := (drawn.foldl seeEdge .empty).entries.map fun node =>
          ⟨node.1, node.2.getD "unknown".toList, ((buildNodeStatusMap up.apps).get node.1).getD .unknown⟩
        edges := drawn.map fun d => d.2.view
        namespaces := some (sortTexts (setOf ((rawEdges.filter fun e => e.requestRate.ge i.limit).flatMap fun e =>
          e.sourceNamespace.toList ++ e.destinationNamespace.toList)))
        metricKind := some kind
        notice := none } := by
  simp [getServiceGraphCached, getServiceGraph, ServiceGraphResult.view, h]

/-- Where the calls show the same, what is read of the first graph is the second. -/
theorem graph_stored_eq {up : Upstream} {i j : GraphCall} (hkeeps : (getServiceGraphCached up).keeps i = true)
    (h : SameGraph up i j) :
    ((getServiceGraphCached up).compute i).stored = (getServiceGraphCached up).compute j := by
  obtain ⟨⟨rawEdges, kind⟩, hi⟩ := Option.isSome_iff_exists.mp hkeeps
  have hj := hi
  rw [h.window] at hj
  have hdrawn := drawnEdges_congr fun e he edge hedge => (h.shown rawEdges kind hj e he edge hedge).1
  have hnamespaces := (sortTexts_eq_iff (nodup_setOf _) (nodup_setOf _)).mpr fun ns =>
    mem_namespaces_iff.trans ((h.namespaces rawEdges kind hj ns).trans mem_namespaces_iff.symm)
  have hstored : ((drawnEdges up.apps i.namespace_ i.limit rawEdges).map fun d => d.2.view).map EdgeView.stored =
      (drawnEdges up.apps i.namespace_ i.limit rawEdges).map fun d => d.2.view := by
    rw [List.map_map, List.map_inj_left]
    rintro ⟨e, edge⟩ hmem
    have hedge := edge_of_mem_drawnEdges hmem
    obtain ⟨he, hshows⟩ := (mem_drawnEdges_iff hedge).mp hmem
    exact (EdgeView.stored_view_iff edge).mpr ((h.shown rawEdges kind hj e he edge hedge).2 hshows)
  rw [view_of_collectEdges hi, view_of_collectEdges hj]
  simp only [GraphView.stored, hstored]
  rw [hdrawn, hnamespaces, h.window]

/-- Where one of the calls shows what the other does, they have to show the same. -/
theorem sameGraph_of_stored_eq {up : Upstream} {i j : GraphCall} (hkeeps : (getServiceGraphCached up).keeps i = true)
    (hnested : Nested i j) (h : ((getServiceGraphCached up).compute i).stored = (getServiceGraphCached up).compute j) :
    SameGraph up i j := by
  obtain ⟨⟨rawEdges, kind⟩, hi⟩ := Option.isSome_iff_exists.mp hkeeps
  have hwindow : i.window = j.window := by
    rw [← compute_window up i, ← compute_window up j, ← h]
    rfl
  have hj := hi
  rw [hwindow] at hj
  rw [view_of_collectEdges hi, view_of_collectEdges hj] at h
  have hedges := congrArg GraphView.edges h
  have hdrawn := drawnEdges_eq_of_length hnested (by simpa [GraphView.stored] using congrArg List.length hedges)
  have hraw : ∀ rawEdges' kind', collectEdges up.source (up.answers j.window) = some (rawEdges', kind') → rawEdges' = rawEdges := by
    intro rawEdges' kind' hj'
    exact (congrArg Prod.fst (Option.some.inj (hj.symm.trans hj'))).symm
  refine ⟨hwindow, fun rawEdges' kind' hj' e he edge hedge => ?_, fun rawEdges' kind' hj' ns => ?_⟩
  · obtain rfl := hraw rawEdges' kind' hj'
    refine ⟨?_, fun hshows => ?_⟩
    · rw [Bool.eq_iff_iff]
      have hmem : e ∈ rawEdges' ∧ i.shows e = true ↔ e ∈ rawEdges' ∧ j.shows e = true := by
        rw [← mem_drawnEdges_iff hedge, hdrawn, mem_drawnEdges_iff hedge]
      simpa [he] using hmem
    · have hmem := (mem_drawnEdges_iff (i := i) hedge).mpr ⟨he, hshows⟩
      rw [← hdrawn] at hedges
      simp only [GraphView.stored, List.map_map] at hedges
      exact (EdgeView.stored_view_iff edge).mp (List.map_inj_left.mp hedges (e, edge) hmem)
  · obtain rfl := hraw rawEdges' kind' hj'
    have hnamespaces := Option.some.inj (congrArg GraphView.namespaces h)
    exact mem_namespaces_iff.symm.trans ((mem_iff_of_sortTexts_eq hnamespaces ns).trans mem_namespaces_iff)

theorem graph_transparent_of_same (up : Upstream) {i j : GraphCall}
    (h : (getServiceGraphCached up).keeps i = true →
      metaKey ((getServiceGraphCached up).key i) ≠ (getServiceGraphCached up).key j ∧
      ((getServiceGraphCached up).key i = (getServiceGraphCached up).key j → SameGraph up i j)) :
    (getServiceGraphCached up).Transparent i j := by
  rw [Cached.transparent_iff]
  intro _ hkeeps _
  obtain ⟨hmeta, hsame⟩ := h hkeeps
  exact ⟨hmeta, fun hkey => graph_stored_eq hkeeps (hsame hkey)⟩

theorem same_of_graph_transparent (up : Upstream) {i j : GraphCall} (hargs : i.namespace_ = j.namespace_ ∨ i.limit = j.limit)
    (h : (getServiceGraphCached up).Transparent i j) (hkeeps : (getServiceGraphCached up).keeps i = true) :
    metaKey ((getServiceGraphCached up).key i) ≠ (getServiceGraphCached up).key j ∧
      ((getServiceGraphCached up).key i = (getServiceGraphCached up).key j → SameGraph up i j) := by
  obtain ⟨hmeta, hstored⟩ := (Cached.transparent_iff _ i j).mp h rfl hkeeps rfl
  refine ⟨hmeta, fun hkey => sameGraph_of_stored_eq hkeeps ?_ (hstored hkey)⟩
  exact hargs.elim nested_of_namespace_eq (nested_of_limit_eq hkey)

/-! ### Transparency -/

/-- A second call is answered as on an empty cache exactly if the first one is not kept, or has another
    key and the sibling of it is not the key of the second, or shows the same. -/
theorem caches_transparent_iff (numbers : Numbers) :
    (∀ (up : Prometheus) (i j : ScalarCall), (queryScalarExplicit numbers up).Transparent i j ↔
      ((assertPromQLSafe i.promql).isOk = true → scalarKept numbers i (up.query i.promql) = true →
        (assertPromQLSafe j.promql).isOk = true →
        metaKey ((queryScalarExplicit numbers up).key i) ≠ (queryScalarExplicit numbers up).key j ∧
        ((queryScalarExplicit numbers up).key i = (queryScalarExplicit numbers up).key j → SameScalar numbers up i j))) ∧
    (∀ (up : Prometheus) (i j : RangeCall), (queryRangeExplicit numbers up).Transparent i j ↔
      ((assertPromQLSafe i.promql).isOk = true → rangeKept (rangeAnswer up i) = true →
        (assertPromQLSafe j.promql).isOk = true →
        metaKey ((queryRangeExplicit numbers up).key i) ≠ (queryRangeExplicit numbers up).key j ∧
        ((queryRangeExplicit numbers up).key i = (queryRangeExplicit numbers up).key j → SameRange numbers up i j))) ∧
    ∀ (up : Upstream) (i j : GraphCall),
      (((getServiceGraphCached up).keeps i = true →
          metaKey ((getServiceGraphCached up).key i) ≠ (getServiceGraphCached up).key j ∧
          ((getServiceGraphCached up).key i = (getServiceGraphCached up).key j → SameGraph up i j)) →
        (getServiceGraphCached up).Transparent i j) ∧
      (i.namespace_ = j.namespace_ ∨ i.limit = j.limit → (getServiceGraphCached up).Transparent i j →
        (getServiceGraphCached up).keeps i = true →
        metaKey ((getServiceGraphCached up).key i) ≠ (getServiceGraphCached up).key j ∧
        ((getServiceGraphCached up).key i = (getServiceGraphCached up).key j → SameGraph up i j)) :=
  ⟨scalar_transparent_iff numbers, range_transparent_iff numbers, fun up _ _ =>
    ⟨graph_transparent_of_same up, fun hargs h hkeeps => same_of_graph_transparent up hargs h hkeeps⟩⟩

/-- One edge of rate 1, read at first with no limit and then with limit 2. -/
def slowEdge : Upstream where
  source := "istio-tcp".toList
  answers _ := {
    istioRate := none
    istioErrorRate := none
    istiop95Latency := none
    istioTcpRate := some [⟨[(SOURCE, "web".toList), (DESTINATION, "db".toList)], .finite 1⟩]
    hubbleRate := none }
  apps := []

theorem limit_not_in_key :
    ¬ (getServiceGraphCached slowEdge).Transparent ⟨.h1, none, some (.finite 0)⟩ ⟨.h1, none, some (.finite 2)⟩ := by
  intro h
  have hkeeps : (getServiceGraphCached slowEdge).keeps ⟨.h1, none, some (.finite 0)⟩ = true := by decide +kernel
  have hstored := ((Cached.transparent_iff _ _ _).mp h rfl hkeeps rfl).2 rfl
  have hshown : ((getServiceGraphCached slowEdge).compute ⟨.h1, none, some (.finite 0)⟩).stored.edges.length = 1 := by
    decide +kernel
  have hhidden : ((getServiceGraphCached slowEdge).compute ⟨.h1, none, some (.finite 2)⟩).edges.length = 0 := by
    decide +kernel
  change (GraphView.stored _).edges.length = 1 at hshown
  rw [show GraphView.stored _ = _ from hstored, hhidden] at hshown
  cases hshown

end narwhal.portal.service_graph
