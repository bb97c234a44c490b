import Narwhal.Lib.JsJson

open jslib

namespace narwhal.portal.cache_keys

/-- The parts that are not empty, with colons between them. -/
def join (parts : List Text) : Text := [':'].intercalate (parts.filter (· ≠ []))

/-- `v ?? "all"` -/
def orAll (v : Option Text) : Text := v.getD "all".toList

/-- A number in a key. -/
inductive JsNumber where
  | finite (n : Number)
  | nan
  | infinity (negative : Bool)
deriving DecidableEq

def JsNumber.text : JsNumber → Text
  | .finite n => n.text
  | .nan => "NaN".toList
  | .infinity false => "Infinity".toList
  | .infinity true => "-Infinity".toList

def boolText : Bool → Text
  | true => "true".toList
  | false => "false".toList

inductive CostScope where
  | cluster | namespace | service
deriving DecidableEq

def CostScope.name : CostScope → Text
  | .cluster => "cluster".toList
  | .namespace => "namespace".toList
  | .service => "service".toList

inductive FalcoEventPriority where
  | emergency | alert | critical | error | warning | notice | informational | debug
deriving DecidableEq

def FalcoEventPriority.name : FalcoEventPriority → Text
  | .emergency => "Emergency".toList
  | .alert => "Alert".toList
  | .critical => "Critical".toList
  | .error => "Error".toList
  | .warning => "Warning".toList
  | .notice => "Notice".toList
  | .informational => "Informational".toList
  | .debug => "Debug".toList

inductive GraphWindow where
  | m1 | h1 | d1 | d7 | d30
deriving DecidableEq

def GraphWindow.name : GraphWindow → Text
  | .m1 => "1m".toList
  | .h1 => "1h".toList
  | .d1 => "1d".toList
  | .d7 => "7d".toList
  | .d30 => "30d".toList

/-! ### The builders -/

namespace cacheKeys

def myApps (userSub scopeFingerprint : Text) : Text := join ["my-apps".toList, userSub, scopeFingerprint]

def routesList : Text := "api:routes-list".toList

/-- An empty service leaves a colon at the end. -/
def traces (service : Text) : Text := "traces:".toList ++ service

def toolsHealth (role : Text) : Text := join ["tools".toList, "health".toList, role]

def architectureTopology : Text := "architecture:topology".toList

def k8sPods (namespace_ : Text) (app : Option Text) : Text :=
  join ["k8s".toList, "pods".toList, namespace_, orAll app]

def k8sEvents (namespace_ name : Text) : Text := join ["k8s".toList, "events".toList, namespace_, name]

def k8sResource (namespace_ name : Text) : Text := join ["k8s".toList, "resource".toList, namespace_, name]

def podsList (namespace_ : Text) (instance_ : Option Text) : Text :=
  join ["pods".toList, "list".toList, namespace_, orAll instance_]

def podsLogs (namespace_ pod container : Text) (tailLines : JsNumber) (previous : Bool) : Text :=
  "pods:logs:".toList ++ namespace_ ++ ':' :: pod ++ ':' :: container ++ ':' :: tailLines.text ++ ':' :: boolText previous

def governanceRbacV2 : Text := "governance:rbac:v2".toList

def governanceResourcesV3 (scopeFingerprint : Text) : Text :=
  join ["governance".toList, "resources".toList, "v3".toList, scopeFingerprint]

def governanceDistributionV2 : Text := "governance:distribution:v2".toList

def governanceOperationalEventsV2 : Text := "governance:operational-events:v2".toList

def governanceOperationalEventsV3 : Text := "governance:operational-events:v3".toList

def governanceDoraV2 (scopeFingerprint : Text) : Text :=
  join ["governance".toList, "dora".toList, "v2".toList, scopeFingerprint]

def governanceScorecard (scopeFingerprint : Text) : Text :=
  join ["governance".toList, "scorecard".toList, scopeFingerprint]

def eventsTimeline (scopeFingerprint : Text) : Text := join ["events".toList, "timeline".toList, scopeFingerprint]

def falcoEvents (priority : Option Text) (sinceMinutes limit : JsNumber) : Text :=
  join ["falco".toList, "events".toList, orAll priority, sinceMinutes.text, limit.text]

def falcoCritical : Text := "falco:critical".toList

def kisaComplianceList : Text := "compliance:kisa:list".toList

def heroSummary : Text := "hero:summary".toList

def costV2 (scope : CostScope) (scopeFingerprint pricingKey : Text) : Text :=
  join ["cost".toList, "v2".toList, scope.name, scopeFingerprint, pricingKey]

def costServiceV2 (scopeFingerprint serviceNamespace serviceId pricingKey : Text) : Text :=
  join ["cost".toList, "service".toList, "v2".toList, scopeFingerprint, serviceNamespace, serviceId, pricingKey]

/-- Without a namespace two colons stand side by side. -/
def costTrendV2 (scope : CostScope) (scopeFingerprint : Text) (serviceNamespace : Option Text) (id : Text)
    (days : JsNumber) (pricingKey : Text) : Text :=
  "cost:trend:v2:".toList ++ scope.name ++ ':' :: scopeFingerprint ++ ':' :: serviceNamespace.getD [] ++ ':' :: id ++
    ':' :: days.text ++ ':' :: pricingKey

def apisixRoutes : Text := "apisix:routes".toList

def promQuery (clusterId promql : Text) : Text := join ["prom".toList, clusterId, promql]

def promVector (clusterId promql : Text) : Text := join ["promv".toList, clusterId, promql]

def promRange (clusterId promql : Text) (durationMinutes : JsNumber) : Text :=
  join ["promr".toList, clusterId, promql, durationMinutes.text]

def promNodeMetrics (clusterId : Text) : Text := join ["promnodemetrics".toList, clusterId]

def promCluster (clusterId : Text) : Text := join ["promcluster".toList, clusterId]

def platformStatus : Text := "status:platform".toList

def trivySummary : Text := "security:summary".toList

def trivyWorkloads : Text := "security:workloads".toList

def trivyDbStatus : Text := "security:trivy-db".toList

def trivyImage (image : Text) : Text := join ["security".toList, "image".toList, image]

def trivyTopVulnerable (limit : JsNumber) : Text := join ["security".toList, "top-vulnerable".toList, limit.text]

def scorecardRules : Text := "scorecard:rules".toList

def scorecardDetail (rulesVersion : JsNumber) (serviceId : Text) : Text :=
  join ["scorecard".toList, "detail".toList, rulesVersion.text, serviceId]

/-- Without a filter a colon stands at the end. -/
def scorecardAll (rulesVersion : JsNumber) (tierFilter : Option Text) : Text :=
  "scorecard:all:".toList ++ rulesVersion.text ++ ':' :: tierFilter.getD []

def openbaoSecrets : Text := "openbao:secrets".toList

def alertmanagerActive : Text := "alerts:active".toList

def complianceConfigAuditList : Text := "compliance:config-audit:list".toList

def complianceConfigAuditDetail (namespace_ name : Text) : Text :=
  join ["compliance".toList, "config-audit".toList, namespace_, name]

def complianceRbacAuditList : Text := "compliance:rbac-audit:list".toList

def complianceRbacAuditDetail (namespace_ name : Text) : Text :=
  join ["compliance".toList, "rbac-audit".toList, namespace_, name]

def complianceInfraAuditList : Text := "compliance:infra-audit:list".toList

def complianceInfraAuditDetail (node : Text) : Text := join ["compliance".toList, "infra-audit".toList, node]

def complianceFrameworksList : Text := "compliance:frameworks:list".toList

def complianceFrameworksDetail (id : Text) : Text := join ["compliance".toList, "frameworks".toList, id]

def complianceSummary : Text := "compliance:summary".toList

def serviceGraphCluster (window : GraphWindow) (namespace_ : Option Text) : Text :=
  join ["graph".toList, "cluster".toList, window.name, orAll namespace_]

def serviceGraphSvc (serviceId : Text) (window : GraphWindow) : Text :=
  join ["graph".toList, "svc".toList, serviceId, window.name]

def k8sCniPlugin : Text := "k8s:cni-plugin".toList

def k8sKubeletConfig (nodeName : Text) : Text := join ["k8s".toList, "kubelet-config".toList, nodeName]

def k8sNamespaces : Text := "k8s:namespaces".toList

def k8sRbac : Text := "k8s:rbac".toList

def k8sEventsAll (namespace_ : Option Text) : Text := join ["k8s".toList, "events".toList, orAll namespace_]

def k8sCerts : Text := "k8s:certs".toList

def k8sKyverno : Text := "k8s:kyverno".toList

def k8sApiserverPods : Text := "k8s:apiserver-pods".toList

def k8sNodeReadiness : Text := "k8s:node-readiness".toList

def k8sControlPlaneHealth : Text := "k8s:control-plane-health".toList

def k8sNetpol : Text := "k8s:netpol".toList

def k8sNode (name : Text) : Text := join ["k8s".toList, "node".toList, name]

def healthDependencies : Text := "health:dependencies".toList

def healthSummary : Text := "health:summary".toList

def liveK8sInformerLease : Text := "live:k8s-informer:lease".toList

def ossUpstreamReleases (repo : Text) : Text := join ["oss-updates".toList, "upstream".toList, repo]

end cacheKeys

/-- The sibling key with the time of the entry. -/
def metaKey (key : Text) : Text := key ++ ":meta".toList

/-! ### Calls -/

/-- A text without a colon: a service that may be left empty, or a container. -/
abbrev Plain := { t : Text // ':' ∉ t }

/-- A name that is not empty and has no colon: of a cluster, a namespace, a pod, a node, a
    service, a role or a repository, a fingerprint, or an encoded pricing key. -/
abbrev Segment := { t : Text // t ≠ [] ∧ ':' ∉ t }

/-- A text of the client's that is not empty. -/
abbrev Given := { t : Text // t ≠ [] }

/-- The fingerprint of a scope. -/
abbrev Fingerprint := { t : Text // t.length = 32 ∧ ':' ∉ t }

/-- The builders without an argument, but for those of lists that have details. -/
inductive Fixed where
  | routesList | architectureTopology | governanceRbacV2 | governanceDistributionV2 | governanceOperationalEventsV2
  | governanceOperationalEventsV3 | falcoCritical | kisaComplianceList | heroSummary | apisixRoutes | platformStatus
  | trivySummary | trivyWorkloads | trivyDbStatus | scorecardRules | openbaoSecrets | alertmanagerActive
  | complianceSummary | k8sCniPlugin | k8sNamespaces | k8sRbac | k8sCerts | k8sKyverno | k8sApiserverPods
  | k8sNodeReadiness | k8sControlPlaneHealth | k8sNetpol | healthDependencies | healthSummary | liveK8sInformerLease
deriving DecidableEq

def Fixed.key : Fixed → Text
  | .routesList => cacheKeys.routesList
  | .architectureTopology => cacheKeys.architectureTopology
  | .governanceRbacV2 => cacheKeys.governanceRbacV2
  | .governanceDistributionV2 => cacheKeys.governanceDistributionV2
  | .governanceOperationalEventsV2 => cacheKeys.governanceOperationalEventsV2
  | .governanceOperationalEventsV3 => cacheKeys.governanceOperationalEventsV3
  | .falcoCritical => cacheKeys.falcoCritical
  | .kisaComplianceList => cacheKeys.kisaComplianceList
  | .heroSummary => cacheKeys.heroSummary
  | .apisixRoutes => cacheKeys.apisixRoutes
  | .platformStatus => cacheKeys.platformStatus
  | .trivySummary => cacheKeys.trivySummary
  | .trivyWorkloads => cacheKeys.trivyWorkloads
  | .trivyDbStatus => cacheKeys.trivyDbStatus
  | .scorecardRules => cacheKeys.scorecardRules
  | .openbaoSecrets => cacheKeys.openbaoSecrets
  | .alertmanagerActive => cacheKeys.alertmanagerActive
  | .complianceSummary => cacheKeys.complianceSummary
  | .k8sCniPlugin => cacheKeys.k8sCniPlugin
  | .k8sNamespaces => cacheKeys.k8sNamespaces
  | .k8sRbac => cacheKeys.k8sRbac
  | .k8sCerts => cacheKeys.k8sCerts
  | .k8sKyverno => cacheKeys.k8sKyverno
  | .k8sApiserverPods => cacheKeys.k8sApiserverPods
  | .k8sNodeReadiness => cacheKeys.k8sNodeReadiness
  | .k8sControlPlaneHealth => cacheKeys.k8sControlPlaneHealth
  | .k8sNetpol => cacheKeys.k8sNetpol
  | .healthDependencies => cacheKeys.healthDependencies
  | .healthSummary => cacheKeys.healthSummary
  | .liveK8sInformerLease => cacheKeys.liveK8sInformerLease

/-- The builders with one name for an argument. -/
inductive Single where
  | toolsHealth | governanceResourcesV3 | governanceDoraV2 | governanceScorecard | eventsTimeline | promNodeMetrics
  | promCluster | k8sKubeletConfig | k8sNode | ossUpstreamReleases
deriving DecidableEq

def Single.key : Single → Text → Text
  | .toolsHealth => cacheKeys.toolsHealth
  | .governanceResourcesV3 => cacheKeys.governanceResourcesV3
  | .governanceDoraV2 => cacheKeys.governanceDoraV2
  | .governanceScorecard => cacheKeys.governanceScorecard
  | .eventsTimeline => cacheKeys.eventsTimeline
  | .promNodeMetrics => cacheKeys.promNodeMetrics
  | .promCluster => cacheKeys.promCluster
  | .k8sKubeletConfig => cacheKeys.k8sKubeletConfig
  | .k8sNode => cacheKeys.k8sNode
  | .ossUpstreamReleases => cacheKeys.ossUpstreamReleases

/-- The audits whose details have a namespace and a name. -/
inductive Audit where
  | config | rbac
deriving DecidableEq

def Audit.listKey : Audit → Text
  | .config => cacheKeys.complianceConfigAuditList
  | .rbac => cacheKeys.complianceRbacAuditList

def Audit.detailKey : Audit → Text → Text → Text
  | .config => cacheKeys.complianceConfigAuditDetail
  | .rbac => cacheKeys.complianceRbacAuditDetail

/-- The lists whose details have one text. -/
inductive Item where
  | infraAudit | frameworks
deriving DecidableEq

def Item.listKey : Item → Text
  | .infraAudit => cacheKeys.complianceInfraAuditList
  | .frameworks => cacheKeys.complianceFrameworksList

def Item.detailKey : Item → Text → Text
  | .infraAudit => cacheKeys.complianceInfraAuditDetail
  | .frameworks => cacheKeys.complianceFrameworksDetail

/-- A call of a builder with arguments that its callers can pass. -/
inductive Call where
  | fixed (builder : Fixed)
  | single (builder : Single) (name : Segment)
  | myApps (userSub : Text) (scopeFingerprint : Fingerprint)
  | traces (service : Plain)
  | k8sPods (namespace_ : Segment) (app : Option Given)
  | k8sEvents (namespace_ : Segment) (name : Given)
  | k8sEventsAll (namespace_ : Option Segment)
  | k8sResource (namespace_ : Segment) (name : Given)
  | podsList (namespace_ : Segment) (instance_ : Option Segment)
  | podsLogs (namespace_ pod : Segment) (container : Plain) (tailLines : JsNumber) (previous : Bool)
  | falcoEvents (priority : Option FalcoEventPriority) (sinceMinutes limit : JsNumber)
  | costV2 (scope : CostScope) (scopeFingerprint : Fingerprint) (pricingKey : Segment)
  | costServiceV2 (scopeFingerprint : Fingerprint) (serviceNamespace serviceId pricingKey : Segment)
  | costTrendV2 (scope : CostScope) (scopeFingerprint : Fingerprint) (serviceNamespace : Option Segment) (id : Segment)
    (days : JsNumber) (pricingKey : Segment)
  | promQuery (clusterId : Segment) (promql : Given)
  | promVector (clusterId : Segment) (promql : Given)
  | promRange (clusterId : Segment) (promql : Given) (durationMinutes : JsNumber)
  | trivyImage (image : Given)
  | trivyTopVulnerable (limit : JsNumber)
  | scorecardDetail (rulesVersion : JsNumber) (serviceId : Given)
  | scorecardAll (rulesVersion : JsNumber) (tierFilter : Option Text)
  | auditList (audit : Audit)
  | auditDetail (audit : Audit) (namespace_ name : Text)
  | itemList (item : Item)
  | itemDetail (item : Item) (id : Text)
  | serviceGraphCluster (window : GraphWindow) (namespace_ : Option Text)
  | serviceGraphSvc (serviceId : Segment) (window : GraphWindow)

def Call.key : Call → Text
  | .fixed builder => builder.key
  | .single builder name => builder.key name
  | .myApps userSub scopeFingerprint => cacheKeys.myApps userSub scopeFingerprint
  | .traces service => cacheKeys.traces service
  | .k8sPods namespace_ app => cacheKeys.k8sPods namespace_ (app.map Subtype.val)
  | .k8sEvents namespace_ name => cacheKeys.k8sEvents namespace_ name
  | .k8sEventsAll namespace_ => cacheKeys.k8sEventsAll (namespace_.map Subtype.val)
  | .k8sResource namespace_ name => cacheKeys.k8sResource namespace_ name
  | .podsList namespace_ instance_ => cacheKeys.podsList namespace_ (instance_.map Subtype.val)
  | .podsLogs namespace_ pod container tailLines previous => cacheKeys.podsLogs namespace_ pod container tailLines previous
  | .falcoEvents priority sinceMinutes limit => cacheKeys.falcoEvents (priority.map (·.name)) sinceMinutes limit
  | .costV2 scope scopeFingerprint pricingKey => cacheKeys.costV2 scope scopeFingerprint pricingKey
  | .costServiceV2 scopeFingerprint serviceNamespace serviceId pricingKey =>
    cacheKeys.costServiceV2 scopeFingerprint serviceNamespace serviceId pricingKey
  | .costTrendV2 scope scopeFingerprint serviceNamespace id days pricingKey =>
    cacheKeys.costTrendV2 scope scopeFingerprint (serviceNamespace.map Subtype.val) id days pricingKey
  | .promQuery clusterId promql => cacheKeys.promQuery clusterId promql
  | .promVector clusterId promql => cacheKeys.promVector clusterId promql
  | .promRange clusterId promql durationMinutes => cacheKeys.promRange clusterId promql durationMinutes
  | .trivyImage image => cacheKeys.trivyImage image
  | .trivyTopVulnerable limit => cacheKeys.trivyTopVulnerable limit
  | .scorecardDetail rulesVersion serviceId => cacheKeys.scorecardDetail rulesVersion serviceId
  | .scorecardAll rulesVersion tierFilter => cacheKeys.scorecardAll rulesVersion tierFilter
  | .auditList audit => audit.listKey
  | .auditDetail audit namespace_ name => audit.detailKey namespace_ name
  | .itemList item => item.listKey
  | .itemDetail item id => item.detailKey id
  | .serviceGraphCluster window namespace_ => cacheKeys.serviceGraphCluster window namespace_
  | .serviceGraphSvc serviceId window => cacheKeys.serviceGraphSvc serviceId window

end narwhal.portal.cache_keys
