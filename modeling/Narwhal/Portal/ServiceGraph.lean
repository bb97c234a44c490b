import Narwhal.Lib.JsGroup
import Narwhal.Lib.PromQL
import Narwhal.Portal.CacheKeys

open jslib promql
open narwhal.portal.cache_keys (GraphWindow)

namespace narwhal.portal.service_graph

/-! ### The queries -/

def SOURCE : Text := "source_workload".toList

def DESTINATION : Text := "destination_workload".toList

def SOURCE_NAMESPACE : Text := "source_workload_namespace".toList

def DESTINATION_NAMESPACE : Text := "destination_workload_namespace".toList

/-- The rates over the window of the series that the queries read. -/
structure Metrics where
  /-- `istio_requests_total`. -/
  requests : List Sample
  /-- `istio_request_duration_milliseconds_bucket`. -/
  durations : List Sample
  /-- `istio_tcp_sent_bytes_total`. -/
  sentBytes : List Sample

/-- How Prometheus adds up values, and reads the quantile 0.95 from the buckets of a histogram. -/
structure Engine where
  sum : List Double → Double
  p95 : List (Text × Double) → Double

/-- `source_workload!="unknown",destination_workload!="unknown"`. -/
def known (s : Sample) : Bool :=
  label s.metric SOURCE ≠ "unknown".toList ∧ label s.metric DESTINATION ≠ "unknown".toList

/-- `response_code=~"5.."`. -/
def isServerError (s : Sample) : Bool :=
  match label s.metric "response_code".toList with
  | ['5', a, b] => a ≠ '\n' ∧ b ≠ '\n'
  | _ => false

def Metrics.errors (m : Metrics) : List Sample := m.requests.filter isServerError

def PAIR_LABELS : List Text := [SOURCE, DESTINATION]

def NAMESPACED_LABELS : List Text := [SOURCE, DESTINATION, SOURCE_NAMESPACE, DESTINATION_NAMESPACE]

section

variable (engine : Engine) (m : Metrics)

def Engine.total (v : List Sample) : Double := engine.sum (values v)

def Engine.quantile (v : List Sample) : Double := engine.p95 (buckets engine.sum v)

/-- What `buildIstioRateQuery` asks for. -/
def istioRate : List Sample := aggregate engine.total NAMESPACED_LABELS (m.requests.filter known)

/-- What `buildIstioErrorRateQuery` asks for. -/
def istioErrorRate : List Sample := aggregate engine.total PAIR_LABELS (m.errors.filter known)

/-- What `buildIstiop95LatencyQuery` asks for. -/
def istiop95Latency : List Sample := aggregate engine.quantile PAIR_LABELS (m.durations.filter known)

/-- What `buildIstioTcpRateQuery` asks for. -/
def istioTcpRate : List Sample := aggregate engine.total NAMESPACED_LABELS (m.sentBytes.filter known)

end

/-! ### Edges -/

inductive Kind where
  | l7
  | l4
deriving DecidableEq

structure RawEdge where
  source : Text
  destination : Text
  sourceNamespace : Option Text
  destinationNamespace : Option Text
  kind : Option Kind
  requestRate : Double
  errorRate : Double
  p95LatencyMs : Option Double
deriving DecidableEq

structure ServiceEdge where
  source : Text
  destination : Text
  kind : Option Kind
  requestRate : Double
  errorRate : Double
  p95LatencyMs : Option Double
deriving DecidableEq

def SYSTEM_WORKLOADS : List Text := ["kubernetes", "coredns", "istiod", "unknown", ""].map String.toList

/-- `name.toLowerCase()` as far as it can be equal to a name of ASCII characters. -/
def lowerWorkload (name : Text) : Text :=
  name.map fun c => if isUpper c then Char.ofNat (c.toNat + 32) else if c.toNat = 0x212A then 'k' else c

def isSystemWorkload (name : Text) : Bool := SYSTEM_WORKLOADS.contains (lowerWorkload name)

def isHealthCheckPath (labels : List (Text × Text)) : Bool :=
  let path := ((labels.lookup "request_path".toList).or (labels.lookup "path".toList)).getD []
  (["/healthz", "/readyz", "/metrics", "/livez"].map String.toList).contains path

/-- `0.01`, the double. -/
def MIN_RATE : Double := .finite (5764607523034235 / 2 ^ 59)

/-- `${src}:${dst}`, and the same with `|`. -/
def pairKey (separator : Char) (src dst : Text) : Text := src ++ separator :: dst

/-- The values of a query by source and destination, those without a name left out. -/
def valueMap (f : Double → Double) (results : List Sample) : JsMap Text Double :=
  results.foldl (fun map r =>
    let src := label r.metric SOURCE
    let dst := label r.metric DESTINATION
    if src ≠ [] ∧ dst ≠ [] then map.set (pairKey ':' src dst) (f r.value) else map) .empty

/-- `x || undefined`. -/
def nonEmpty (x : Text) : Option Text := if x = [] then none else some x

def errorRateOf (errRate totalRate : Double) : Double :=
  if (Double.finite 0).lt totalRate then (errRate.div totalRate).min (.finite 1) else .finite 0

def SYSTEM_SERVICES : List Text := ["kubernetes", "coredns", "istiod"].map String.toList

/-- One round of the loop in `buildEdgesFromIstio`. -/
def istioEdge (errorMap latencyMap : JsMap Text Double) (r : Sample) : Option RawEdge :=
  let src := label r.metric SOURCE
  let dst := label r.metric DESTINATION
  let dstService := label r.metric "destination_service_name".toList
  if src = [] ∨ dst = [] then none
  else if isSystemWorkload src ∨ isSystemWorkload dst then none
  else if SYSTEM_SERVICES.contains dstService then none
  else if isHealthCheckPath r.metric then none
  else if r.value.lt MIN_RATE then none
  else
    let key := pairKey ':' src dst
    some {
      source := src
      destination := dst
      sourceNamespace := nonEmpty (label r.metric SOURCE_NAMESPACE)
      destinationNamespace := nonEmpty (label r.metric DESTINATION_NAMESPACE)
      kind := some .l7
      requestRate := r.value
      errorRate := errorRateOf ((errorMap.get key).getD (.finite 0)) r.value
      p95LatencyMs := (latencyMap.get key).filter Double.isFinite }

/-- The answers of the three queries; none is a failure. -/
def buildEdgesFromIstio (rateResults errorResults latencyResults : Option (List Sample)) : Option (List RawEdge) :=
  let errorMap := valueMap id (errorResults.getD [])
  -- "Prometheus answers in seconds"
  let latencyMap := valueMap (fun x => x.mul (.finite 1000)) (latencyResults.getD [])
  rateResults.map fun results => results.filterMap (istioEdge errorMap latencyMap)

/-- One round of the loop in `buildEdgesFromIstioTcp`. -/
def tcpEdge (r : Sample) : Option RawEdge :=
  let src := label r.metric SOURCE
  let dst := label r.metric DESTINATION
  let dstService := label r.metric "destination_service_name".toList
  if src = [] ∨ dst = [] then none
  else if isSystemWorkload src ∨ isSystemWorkload dst then none
  else if SYSTEM_SERVICES.contains dstService then none
  else if r.value.lt MIN_RATE then none
  else
    some {
      source := src
      destination := dst
      sourceNamespace := nonEmpty (label r.metric SOURCE_NAMESPACE)
      destinationNamespace := nonEmpty (label r.metric DESTINATION_NAMESPACE)
      kind := some .l4
      requestRate := r.value
      errorRate := .finite 0
      p95LatencyMs := none }

def buildEdgesFromIstioTcp (rateResults : Option (List Sample)) : Option (List RawEdge) :=
  rateResults.map fun results => results.filterMap tcpEdge

/-- One round of the loop in `buildEdgesFromHubble`. -/
def hubbleEdge (r : Sample) : Option RawEdge :=
  let src := label r.metric "source".toList
  let dst := label r.metric "destination".toList
  if src = [] ∨ dst = [] ∨ src = "unknown".toList ∨ dst = "unknown".toList then none
  else if isSystemWorkload src ∨ isSystemWorkload dst then none
  else if r.value.lt MIN_RATE then none
  else
    some {
      source := src
      destination := dst
      sourceNamespace := none
      destinationNamespace := none
      kind := none
      requestRate := r.value
      errorRate := .finite 0
      p95LatencyMs := none }

def buildEdgesFromHubble (rateResults : Option (List Sample)) : Option (List RawEdge) :=
  rateResults.map fun results => results.filterMap hubbleEdge

/-! ### The graph -/

inductive MetricKind where
  | l7
  | l4
  | hubble
  | mixed
deriving DecidableEq

/-- The edges of both kinds where the source is `istio`: an L4 edge is left out where an L7 edge has
    its names. -/
def mergeEdges (l7 l4 : Option (List RawEdge)) : Option (List RawEdge × MetricKind) :=
  if l7 = none ∧ l4 = none then none
  else
    let l7e := l7.getD []
    let l4e := l4.getD []
    let covered := l7e.map fun e => pairKey '|' e.source e.destination
    let rawEdges := l7e ++ l4e.filter fun e => !covered.contains (pairKey '|' e.source e.destination)
    some (rawEdges, if l7e.length = 0 then .l4 else if l7e.length < rawEdges.length then .mixed else .l7)

/-- The answers to the queries of one window; none is a failure. -/
structure Answers where
  istioRate : Option (List Sample)
  istioErrorRate : Option (List Sample)
  istiop95Latency : Option (List Sample)
  istioTcpRate : Option (List Sample)
  hubbleRate : Option (List Sample)

/-- The raw edges by the value of `SERVICE_GRAPH_SOURCE`. -/
def collectEdges (source : Text) (answers : Answers) : Option (List RawEdge × MetricKind) :=
  let istio := buildEdgesFromIstio answers.istioRate answers.istioErrorRate answers.istiop95Latency
  let tcp := buildEdgesFromIstioTcp answers.istioTcpRate
  let hubble := buildEdgesFromHubble answers.hubbleRate
  if source = "istio".toList then mergeEdges istio tcp
  else if source = "istio-tcp".toList then tcp.map fun edges => (edges, .l4)
  else if source = "hubble".toList then hubble.map fun edges => (edges, .hubble)
  else if source = "both".toList then
    if istio = none ∧ hubble = none then none else some (istio.getD [] ++ hubble.getD [], .mixed)
  else none

def isHashChar (c : Char) : Bool := isDigit c || ('a' ≤ c && c ≤ 'f')

/-- The name without a last part of five to ten hexadecimal digits. -/
def withoutHash (workload : Text) : Text :=
  let hash := workload.reverse.takeWhile isHashChar
  match workload.reverse.dropWhile isHashChar with
  | '-' :: rest => if 5 ≤ hash.length ∧ hash.length ≤ 10 then rest.reverse else workload
  | _ => workload

def resolveWorkload (workload : Text) (serviceMap : JsMap Text Text) : Text :=
  if SYSTEM_WORKLOADS.contains workload then []
  else
    match serviceMap.get workload, serviceMap.get (withoutHash workload) with
    | some id, _ => id
    | none, some id => id
    | none, none => "unmapped-pods:".toList ++ workload

/-- An application of Argo CD. -/
structure App where
  name : Text
  health : Text

def buildWorkloadToServiceMap (apps : List App) : JsMap Text Text :=
  apps.foldl (fun map app => map.set app.name app.name) .empty

inductive NodeStatus where
  | healthy
  | degraded
  | unknown
deriving DecidableEq

def nodeStatus (health : Text) : NodeStatus :=
  if health = "Healthy".toList then .healthy
  else if health = "Degraded".toList then .degraded
  else .unknown

def buildNodeStatusMap (apps : List App) : JsMap Text NodeStatus :=
  apps.foldl (fun map app => map.set app.name (nodeStatus app.health)) .empty

/-- `Math.round(x * scale) / scale`. -/
def roundTo (scale : Double) (x : Double) : Double := (x.mul scale).round.div scale

/-- The edge between services that a raw edge becomes; none at a workload without service, and between
    workloads of one service. -/
def drawEdge (serviceMap : JsMap Text Text) (e : RawEdge) : Option ServiceEdge :=
  let srcId := resolveWorkload e.source serviceMap
  let dstId := resolveWorkload e.destination serviceMap
  if srcId = [] ∨ dstId = [] then none
  else if srcId = dstId then none
  else
    some {
      source := srcId
      destination := dstId
      kind := e.kind
      requestRate := roundTo (.finite 1000) e.requestRate
      errorRate := roundTo (.finite 10000) e.errorRate
      p95LatencyMs := e.p95LatencyMs.map Double.round }

/-- The filter for a namespace that is not empty. -/
def inView (namespace_ : Option Text) (e : RawEdge) : Bool :=
  match namespace_.filter (· ≠ []) with
  | none => true
  | some ns => e.sourceNamespace = some ns ∨ e.destinationNamespace = some ns

/-- A node and the first namespace seen of it. -/
def seeNode (nodes : JsMap Text (Option Text)) (id : Text) (namespace_ : Option Text) : JsMap Text (Option Text) :=
  nodes.set id (((nodes.get id).getD none).or namespace_)

def seeEdge (nodes : JsMap Text (Option Text)) (drawn : RawEdge × ServiceEdge) : JsMap Text (Option Text) :=
  seeNode (seeNode nodes drawn.2.source drawn.1.sourceNamespace) drawn.2.destination drawn.1.destinationNamespace

structure ServiceNode where
  id : Text
  namespace_ : Text
  status : NodeStatus
deriving DecidableEq

structure ServiceGraphResult where
  window : GraphWindow
  nodes : List ServiceNode
  edges : List ServiceEdge
  namespaces : Option (List Text)
  metricKind : Option MetricKind
  notice : Option Text
deriving DecidableEq

section

variable (apps : List App) (namespace_ : Option Text) (minRate : Double)

/-- The raw edges that are drawn, with what they become. -/
def drawnEdges (rawEdges : List RawEdge) : List (RawEdge × ServiceEdge) :=
  ((rawEdges.filter fun e => e.requestRate.ge minRate).filter (inView namespace_)).filterMap fun e =>
    (drawEdge (buildWorkloadToServiceMap apps) e).map fun edge => (e, edge)

/-- The graph, from the answers of the queries. -/
def getServiceGraph (source : Text) (answers : Answers) (window : GraphWindow) : ServiceGraphResult :=
  match collectEdges source answers with
  | none =>
    { window := window, nodes := [], edges := [], namespaces := none, metricKind := none
      notice := some "Prometheus 미응답 — 서비스 그래프를 일시적으로 표시할 수 없습니다.".toList }
  | some (rawEdges, metricKind) =>
    let filtered := rawEdges.filter fun e => e.requestRate.ge minRate
    let drawn := drawnEdges apps namespace_ minRate rawEdges
    let statusMap := buildNodeStatusMap apps
    { window := window
      nodes := (drawn.foldl seeEdge .empty).entries.map fun node =>
        ⟨node.1, node.2.getD "unknown".toList, (statusMap.get node.1).getD .unknown⟩
      edges := drawn.map Prod.snd
      namespaces := some (sortTexts (setOf (filtered.flatMap fun e => e.sourceNamespace.toList ++ e.destinationNamespace.toList)))
      metricKind := some metricKind
      notice := none }

end

end narwhal.portal.service_graph
