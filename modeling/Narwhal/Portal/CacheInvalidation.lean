import Narwhal.Lib.Glob
import Narwhal.Portal.CacheKeySegments
import Narwhal.Portal.ValkeyCache

open jslib narwhal.portal.cache_keys narwhal.portal.valkey

namespace narwhal.portal.cache_invalidation

/-! ### The registry -/

inductive CacheInvalidationEvent where
  | iamChanged | namespaceChanged | clusterChanged | argocdAppChanged | apisixRouteChanged | alertSilenceChanged
  | certificateRenewed | nodeTuningChanged | eventIngested
deriving DecidableEq, Repr

structure CacheNamespaceSpec where
  invalidationTriggers : List CacheInvalidationEvent
  invalidationPatterns : List Text

/-- The namespaces that some event invalidates. The others have neither triggers nor patterns. -/
inductive CacheNamespace where
  | myApps | routesList | k8sPods | k8sEvents | k8sResource | podsList | podsLogs | governanceResourcesV3
  | governanceDoraV2 | governanceScorecard | eventsTimeline | clusterInfra | clusterDomain | costV2 | costServiceV2
  | costTrendV2 | apisixRoutes | alertsActive | graphCluster | graphSvc | k8sNamespaces | k8sRbac | k8sCerts
  | k8sNodeReadiness | argocd
deriving DecidableEq, Repr

def CacheNamespace.spec : CacheNamespace → CacheNamespaceSpec
  | .myApps => ⟨[.iamChanged, .namespaceChanged, .clusterChanged, .argocdAppChanged], ["my-apps:*".toList]⟩
  | .routesList => ⟨[.apisixRouteChanged], ["api:routes-list".toList]⟩
  | .k8sPods => ⟨[.namespaceChanged], ["k8s:pods:*".toList]⟩
  | .k8sEvents => ⟨[.namespaceChanged], ["k8s:events:*".toList]⟩
  | .k8sResource => ⟨[.namespaceChanged], ["k8s:resource:*".toList]⟩
  | .podsList => ⟨[.namespaceChanged], ["pods:list:*".toList]⟩
  | .podsLogs => ⟨[.namespaceChanged], ["pods:logs:*".toList]⟩
  | .governanceResourcesV3 => ⟨[.iamChanged, .namespaceChanged], ["governance:resources:v3:*".toList]⟩
  | .governanceDoraV2 => ⟨[.iamChanged, .namespaceChanged], ["governance:dora:v2:*".toList]⟩
  | .governanceScorecard => ⟨[.iamChanged, .namespaceChanged], ["governance:scorecard:*".toList]⟩
  | .eventsTimeline => ⟨[.iamChanged], ["events:timeline:*".toList]⟩
  | .clusterInfra => ⟨[.clusterChanged], ["cluster:*:infra".toList]⟩
  | .clusterDomain => ⟨[.clusterChanged], ["cluster:*:domain".toList]⟩
  | .costV2 => ⟨[.iamChanged, .namespaceChanged], ["cost:v2:*".toList]⟩
  | .costServiceV2 => ⟨[.iamChanged, .namespaceChanged], ["cost:service:v2:*".toList]⟩
  | .costTrendV2 => ⟨[.iamChanged, .namespaceChanged], ["cost:trend:v2:*".toList]⟩
  | .apisixRoutes => ⟨[.apisixRouteChanged], ["apisix:routes".toList]⟩
  | .alertsActive => ⟨[.alertSilenceChanged], ["alerts:active".toList]⟩
  | .graphCluster => ⟨[.namespaceChanged], ["graph:cluster:*".toList]⟩
  | .graphSvc => ⟨[.namespaceChanged], ["graph:svc:*".toList]⟩
  | .k8sNamespaces => ⟨[.namespaceChanged, .clusterChanged], ["k8s:namespaces".toList]⟩
  | .k8sRbac => ⟨[.iamChanged, .clusterChanged], ["k8s:rbac".toList]⟩
  | .k8sCerts => ⟨[.certificateRenewed], ["k8s:certs".toList]⟩
  | .k8sNodeReadiness => ⟨[.nodeTuningChanged], ["k8s:node-readiness".toList, "k8s:node:*".toList]⟩
  | .argocd => ⟨[.argocdAppChanged, .namespaceChanged], ["argocd:apps".toList, "argocd:app:*".toList]⟩

/-- In the order of the registry. -/
def CACHE_NAMESPACES : List CacheNamespace :=
  [.myApps, .routesList, .k8sPods, .k8sEvents, .k8sResource, .podsList, .podsLogs, .governanceResourcesV3,
    .governanceDoraV2, .governanceScorecard, .eventsTimeline, .clusterInfra, .clusterDomain, .costV2, .costServiceV2,
    .costTrendV2, .apisixRoutes, .alertsActive, .graphCluster, .graphSvc, .k8sNamespaces, .k8sRbac, .k8sCerts,
    .k8sNodeReadiness, .argocd]

def invalidationPatternsFor (event : CacheInvalidationEvent) : List Text :=
  setOf ((CACHE_NAMESPACES.filter fun ns => ns.spec.invalidationTriggers.contains event).flatMap fun ns =>
    ns.spec.invalidationPatterns)

/-! ### Deleting by pattern -/

/-- What `SCAN` answers, and `UNLINK` for each batch of its keys. -/
inductive ScanAnswer where
  | failed
  | page (nextCursor : Text) (keys : List Text) (unlinks : List Answer)

def META : Text := ":meta".toList

/-- The keys of a page and their siblings. -/
def batchOf (keys : List Text) : List Text :=
  setOf (keys.flatMap fun key => if META.isSuffixOf key then [key] else [key, metaKey key])

/-- At most 100 keys go into one command. -/
def slices (batch : List Text) : List (List Text) :=
  (List.range ((batch.length + 99) / 100)).map fun i => (batch.drop (i * 100)).take 100

/-- The flag tells that a command failed. -/
def unlinkAll (data : Data) : List (List Text) → List Answer → Bool × Data
  | [], _ => (false, data)
  | slice :: rest, answers =>
    match answers.headD .served with
    | .served => unlinkAll (data.remove slice) rest answers.tail
    | .failed applied => (true, (Answer.failed applied).apply data (data.remove slice))

/-- The flag tells that the call threw; without a last page it goes on scanning. -/
def deletePattern (data : Data) : List ScanAnswer → Option (Bool × Data)
  | [] => none
  | .failed :: _ => some (true, data)
  | .page nextCursor keys unlinks :: answers =>
    match unlinkAll data (slices (batchOf keys)) unlinks with
    | (true, data) => some (true, data)
    | (false, data) => if nextCursor ≠ ['0'] then deletePattern data answers else some (false, data)

/-! ### One event -/

/-- What happens while a pattern is dealt with: the connection comes or goes before, and the
    commands are answered. -/
structure Turn where
  event : Option Bool := none
  del : Answer := .served
  scans : List ScanAnswer := []

def Turn.start (turn : Turn) (s : Cache) : Cache :=
  match turn.event with
  | some connected => s.onEvent connected
  | none => s

/-- The flag tells that a failure was logged. -/
def invalidatePattern (turn : Turn) (s : Cache) (pattern : Text) : Option (Cache × Bool) :=
  let s := turn.start s
  if isLiteral pattern then some (s.cacheDel pattern turn.del)
  else (deletePattern s.data turn.scans).map fun (threw, data) => ({ s with data := data }, threw)

def invalidateAll (turns : Text → Turn) (s : Cache) : List Text → Option (Cache × Bool)
  | [] => some (s, false)
  | pattern :: patterns => do
    let (s, logged) ← invalidatePattern (turns pattern) s pattern
    let (s, loggedLater) ← invalidateAll turns s patterns
    return (s, logged || loggedLater)

def invalidateFor (turns : Text → Turn) (s : Cache) (event : CacheInvalidationEvent) : Option (Cache × Bool) :=
  invalidateAll turns s (invalidationPatternsFor event)

end narwhal.portal.cache_invalidation
