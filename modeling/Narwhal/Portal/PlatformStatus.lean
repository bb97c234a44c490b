import Narwhal.Lib.JsDate
import Narwhal.Lib.JsHeap
import Narwhal.Lib.JsRecord
import Narwhal.Lib.SingleFlight

open jslib singleflight

namespace narwhal.portal.platform_status

inductive ComponentStatus where
  | healthy | degraded | down | unknown
deriving DecidableEq

inductive Category where
  | controlPlane | gitops | identity | registry | observability | storage | networking | database
deriving DecidableEq

def ComponentStatus.text : ComponentStatus → Text
  | .healthy => "healthy".toList
  | .degraded => "degraded".toList
  | .down => "down".toList
  | .unknown => "unknown".toList

def Category.text : Category → Text
  | .controlPlane => "control-plane".toList
  | .gitops => "gitops".toList
  | .identity => "identity".toList
  | .registry => "registry".toList
  | .observability => "observability".toList
  | .storage => "storage".toList
  | .networking => "networking".toList
  | .database => "database".toList

/-- The id and the category of a component are not set where the map of the applications gives a function
    of `Object.prototype`. -/
structure StatusComponent where
  id : Option Text
  name : Text
  category : Option Category
  status : ComponentStatus
  detail : Text
  source : Text
  impacts : List Text
deriving DecidableEq

structure StatusIncident where
  id : Text
  critical : Bool
  title : Text
  /-- `null`, or the id of a component -/
  component : Option (Option Text)
  startsAt : Text
  summary : Text
deriving DecidableEq

structure Nodes where
  total : Nat
  ready : Nat
deriving DecidableEq

structure PlatformStatus where
  overall : ComponentStatus
  summary : Text
  nodes : Nodes
  components : List StatusComponent
  incidents : List StatusIncident
  generatedAt : Text
deriving DecidableEq

/-! ### Static config -/

structure Mapping where
  id : Option Text
  name : Text
  category : Option Category

def ARGO_COMPONENT_MAP : List (String × String × String × Category) := [
  ("apisix", "apisix", "APISIX", .networking),
  ("keycloak", "keycloak", "Keycloak", .identity),
  ("harbor", "harbor", "Harbor", .registry),
  ("argocd", "argocd", "ArgoCD", .gitops),
  ("prometheus-stack", "prometheus-stack", "Prometheus", .observability),
  ("grafana", "grafana", "Grafana", .observability),
  ("loki", "loki", "Loki", .observability),
  ("tempo", "tempo", "Tempo", .observability),
  ("openbao", "openbao", "OpenBao", .storage),
  ("cilium", "cilium", "Cilium", .networking),
  ("coredns", "coredns", "CoreDNS", .networking),
  ("cnpg", "cnpg", "CloudNativePG", .database),
  ("database", "cnpg", "CloudNativePG", .database)]

/-- `ARGO_COMPONENT_MAP[name]`. Of the properties that every object inherits, only one has a name that an
    application can have. -/
def mappingOf (name : Text) : Option Mapping :=
  match ARGO_COMPONENT_MAP.find? fun entry => entry.1.toList = name with
  | some (_, id, label, category) => some ⟨some id.toList, label.toList, some category⟩
  | none => if name = "constructor".toList then some ⟨none, "Object".toList, none⟩ else none

def DEPENDENCY_MAP : List (String × List String) := [
  ("apiserver", ["all"]),
  ("etcd", ["all"]),
  ("apisix", ["ingress: all external UIs (portal, grafana, harbor, argocd, keycloak)"]),
  ("keycloak", ["new logins / SSO (existing JWT sessions survive)"]),
  ("coredns", ["cluster DNS + pod networking"]),
  ("cilium", ["cluster DNS + pod networking"]),
  ("argocd", ["new GitOps syncs (running apps unaffected)"]),
  ("harbor", ["new image pulls (running pods unaffected)"]),
  ("prometheus-stack", ["metrics + portal dashboards"]),
  ("openbao", ["secret sync (external-secrets)"]),
  ("cnpg", ["Keycloak DB, Harbor DB"])]

def impactsOf (id : Option Text) : List Text :=
  match DEPENDENCY_MAP.find? fun entry => some entry.1.toList = id with
  | some entry => entry.2.map String.toList
  | none => []

def CRITICAL_CATEGORIES : List (Option Category) := [some .controlPlane, some .networking, some .identity]

/-! ### Component builders -/

structure ControlPlanePodHealth where
  name : Text
  /-- "Running", "Pending" or "Failed" -/
  status : Text

/-- `s.includes(part)` -/
def contains (s part : Text) : Bool := s.tails.any part.isPrefixOf

def matchedPods (matchToken : String) (pods : List ControlPlanePodHealth) : List ControlPlanePodHealth :=
  pods.filter fun p => contains p.name matchToken.toList

def controlPlaneComponent (id name matchToken : String) (pods : List ControlPlanePodHealth) : StatusComponent :=
  let matched := matchedPods matchToken pods
  let running := (matched.filter fun p => p.status = "Running".toList).length
  { id := some id.toList
    name := name.toList
    category := some .controlPlane
    status :=
      if matched.length = 0 then .unknown
      else if running = matched.length then .healthy
      else if running > 0 then .degraded
      else .down
    detail :=
      if matched.length > 0 then natText running ++ '/' :: natText matched.length ++ " pods running".toList
      else "no pods found".toList
    source := "k8s:control-plane-health".toList
    impacts := impactsOf (some id.toList) }

def argoHealthToStatus (health : Text) : ComponentStatus :=
  if health = "Healthy".toList then .healthy
  else if health = "Degraded".toList ∨ health = "Missing".toList then .down
  else if health = "Progressing".toList then .degraded
  else .unknown

structure ArgoApp where
  name : Text
  health : Text
  sync : Text

structure Alert where
  labels : List (Text × Text)
  startsAt : Text
  /-- the annotations "summary" and "description" -/
  summary : Option Text
  description : Option Text

/-- `s.toLowerCase()` as far as it can contain a word of ASCII characters. -/
def lowerText (s : Text) : Text :=
  s.flatMap fun c =>
    if isUpper c then [Char.ofNat (c.toNat + 32)]
    else if c.toNat = 0x212A then ['k']
    else if c.toNat = 0x130 then ['i', Char.ofNat 0x307]
    else [c]

/-- The labels of an alert that are set and not empty, in one text. -/
def haystack (alert : Alert) : Text :=
  let parts := (["namespace", "job", "service", "alertname"].filterMap fun key => alert.labels.lookup key.toList).filter (· ≠ [])
  lowerText ([' '].intercalate parts)

/-- An id that is not set is looked for as the word. -/
def matchIncidentComponent (alert : Alert) (componentIds : List (Option Text)) : Option (Option Text) :=
  componentIds.find? fun id => contains (haystack alert) (id.getD "undefined".toList)

/-- `items.join(", ")` -/
def joined (items : List Text) : Text := ", ".toList.intercalate items

def isUnhealthy (c : StatusComponent) : Bool := c.status = .degraded ∨ c.status = .down

def buildSummary (overall : ComponentStatus) (components : List StatusComponent) (incidents : List StatusIncident)
    (unavailable : List Text) : Text :=
  if overall = .healthy then "All systems operational".toList
  else
    let unhealthy := components.filter isUnhealthy
    let names := joined (unhealthy.map fun c => c.id.getD [])
    if overall = .down then
      "Critical outage: ".toList ++ (if names ≠ [] then names else "control-plane".toList) ++ " down".toList
    else
      let incidentNote :=
        if incidents.length > 0 then ", ".toList ++ natText incidents.length ++ " active incident(s)".toList else []
      let unavailableNote :=
        if unavailable.length > 0 then ", status incomplete: ".toList ++ joined unavailable ++ " unreachable".toList else []
      natText unhealthy.length ++ " component(s) degraded: ".toList ++ names ++ incidentNote ++ unavailableNote

/-! ### Aggregator -/

/-- What the providers answer; `none` is a read that failed. -/
structure Providers where
  nodes : Option Nodes
  controlPlane : Option (List ControlPlanePodHealth)
  argo : Option (List ArgoApp)
  alerts : Option (List Alert)

def argoComponent (mapping : Mapping) (app : ArgoApp) : StatusComponent where
  id := mapping.id
  name := mapping.name
  category := mapping.category
  status := argoHealthToStatus app.health
  detail := "sync ".toList ++ app.sync ++ ", health ".toList ++ app.health
  source := "argocd".toList
  impacts := impactsOf mapping.id

/-- One turn of the loop over the applications. -/
def addApp (components : List StatusComponent) (app : ArgoApp) : List StatusComponent :=
  match mappingOf app.name with
  | none => components
  | some mapping =>
    if components.any fun c => c.id = mapping.id then components else components ++ [argoComponent mapping app]

/-- The component of a provider whose read failed. -/
def unreachable (id name : String) (category : Category) (impacts : List Text) : StatusComponent :=
  ⟨some id.toList, name.toList, some category, .unknown, "provider unreachable".toList, id.toList, impacts⟩

def observedComponents (p : Providers) : List StatusComponent :=
  let controlPlanePods := p.controlPlane.getD []
  (p.argo.getD []).foldl addApp [
    controlPlaneComponent "apiserver" "kube-apiserver" "kube-apiserver" controlPlanePods,
    controlPlaneComponent "etcd" "etcd" "etcd" controlPlanePods]

def componentsOf (p : Providers) : List StatusComponent :=
  observedComponents p ++
    (if p.argo.isNone then [unreachable "argocd" "ArgoCD" .gitops (impactsOf (some "argocd".toList))] else []) ++
    if p.alerts.isNone then [unreachable "alertmanager" "Alertmanager" .observability []] else []

def unavailableOf (p : Providers) : List Text :=
  (if p.argo.isNone then ["argocd".toList] else []) ++ if p.alerts.isNone then ["alertmanager".toList] else []

def incidentOf (componentIds : List (Option Text)) (alert : Alert) (idx : Nat) : StatusIncident where
  id := "alert-".toList ++ (alert.labels.lookup "alertname".toList).getD "unknown".toList ++ '-' :: natText idx
  critical := alert.labels.lookup "severity".toList = some "critical".toList
  title := (alert.labels.lookup "alertname".toList).getD "Alert".toList
  component := matchIncidentComponent alert componentIds
  startsAt := alert.startsAt
  summary := (alert.summary.or alert.description).getD []

def incidentsOf (p : Providers) : List StatusIncident :=
  (p.alerts.getD []).mapIdx fun idx alert => incidentOf ((componentsOf p).map StatusComponent.id) alert idx

def isCritical (c : StatusComponent) (status : ComponentStatus) : Bool :=
  CRITICAL_CATEGORIES.contains c.category ∧ c.status = status

def overallOf (components : List StatusComponent) (incidents : List StatusIncident) (unavailable : List Text) :
    ComponentStatus :=
  if components.any fun c => isCritical c .down then .down
  else if components.any isUnhealthy ∨ (components.any fun c => isCritical c .unknown) ∨ incidents.length > 0 ∨
      unavailable.length > 0 then .degraded
  else .healthy

/-- The aggregation of what the providers answer. -/
def aggregate (p : Providers) (now : Int) : PlatformStatus :=
  let components := componentsOf p
  let incidents := incidentsOf p
  let overall := overallOf components incidents (unavailableOf p)
  ⟨overall, buildSummary overall components incidents (unavailableOf p), p.nodes.getD ⟨0, 0⟩, components, incidents,
    isoText now⟩

/-! ### A status in the cache -/

/-- A property that is not set is left out. -/
def optionalField (name : String) (value : Option Text) : List (Text × Json) :=
  value.toList.map fun text => (name.toList, .str text)

def StatusComponent.json (c : StatusComponent) : Json :=
  .obj (optionalField "id" c.id ++ [("name".toList, .str c.name)] ++ optionalField "category" (c.category.map Category.text) ++
    [("status".toList, .str c.status.text), ("detail".toList, .str c.detail), ("source".toList, .str c.source),
      ("impacts".toList, .arr (c.impacts.map .str))])

def StatusIncident.json (i : StatusIncident) : Json :=
  .obj ([("id".toList, .str i.id), ("severity".toList, .str (if i.critical then "critical".toList else "warning".toList)),
      ("title".toList, .str i.title)] ++
    (match i.component with
      | none => [("component".toList, .null)]
      | some id => optionalField "component" id) ++
    [("startsAt".toList, .str i.startsAt), ("summary".toList, .str i.summary)])

def PlatformStatus.json (s : PlatformStatus) : Json :=
  .obj [("overall".toList, .str s.overall.text), ("summary".toList, .str s.summary),
    ("nodes".toList, .obj [("total".toList, .num (natNumber s.nodes.total)), ("ready".toList, .num (natNumber s.nodes.ready))]),
    ("components".toList, .arr (s.components.map StatusComponent.json)),
    ("incidents".toList, .arr (s.incidents.map StatusIncident.json)), ("generatedAt".toList, .str s.generatedAt)]

def COMPONENT_STATUSES : List Text := ["healthy", "degraded", "down", "unknown"].map String.toList

def isNumber : Option Json → Bool
  | some (.num _) => true
  | _ => false

def isPlatformStatus (value : Json) : Bool :=
  (value.getString "overall".toList).any (COMPONENT_STATUSES.contains ·) &&
    (value.getString "summary".toList).isSome && (value.getString "generatedAt".toList).isSome &&
    ((value.get "components".toList).bind Json.array).isSome && ((value.get "incidents".toList).bind Json.array).isSome &&
    isNumber ((value.get "nodes".toList).bind fun nodes => nodes.get "total".toList) &&
    isNumber ((value.get "nodes".toList).bind fun nodes => nodes.get "ready".toList)

/-! ### The calls of every process -/

/-- `cacheTtl("platformStatus")` -/
def platformStatusTtl : Nat := 15

/-- An aggregation, and the providers that it misses. -/
structure Aggregation where
  status : PlatformStatus
  unavailable : List Text
deriving DecidableEq

/-- `getPlatformStatus`: a call takes the run in the slot or starts one; the run reads the cache, and
    writes to it unless a provider is missing. -/
def getPlatformStatus (ι : Type) : Scheme ι Providers Aggregation where
  place := .inside
  looks _ := false
  work p now := some ⟨aggregate p now, unavailableOf p⟩
  accepts a := isPlatformStatus a.status.json
  keeps a := a.unavailable.length = 0
  live _ _ written now := now < written + platformStatusTtl * 1000

/-! ### When the platform is healthy -/

/-- Some pod of this name is found, and each of them is running. -/
def Running (matchToken : String) (pods : List ControlPlanePodHealth) : Prop :=
  matchedPods matchToken pods ≠ [] ∧ ∀ pod ∈ matchedPods matchToken pods, pod.status = "Running".toList

/-- The application is the first one of its component. -/
def Shown (apps : List ArgoApp) (app : ArgoApp) (mapping : Mapping) : Prop :=
  ∃ before after, apps = before ++ app :: after ∧ mappingOf app.name = some mapping ∧
    ∀ earlier ∈ before, ∀ m, mappingOf earlier.name = some m → m.id ≠ mapping.id

/-- All but the nodes were read, no alert is active, the control plane runs, and no application that is shown
    is out of health; where it is critical, its health is known. -/
structure Operational (p : Providers) : Prop where
  controlPlane : ∃ pods, p.controlPlane = some pods ∧ Running "kube-apiserver" pods ∧ Running "etcd" pods
  argo : ∃ apps, p.argo = some apps ∧ ∀ app mapping, Shown apps app mapping →
    argoHealthToStatus app.health = .healthy ∨
      argoHealthToStatus app.health = .unknown ∧ mapping.category ∉ CRITICAL_CATEGORIES
  alerts : p.alerts = some []

/-- The component neither shows harm nor leaves a critical part unknown. -/
def Fine (c : StatusComponent) : Prop := c.status = .healthy ∨ c.status = .unknown ∧ c.category ∉ CRITICAL_CATEGORIES

theorem overallOf_eq_healthy_iff (components : List StatusComponent) (incidents : List StatusIncident)
    (unavailable : List Text) :
    overallOf components incidents unavailable = .healthy ↔
      (∀ c ∈ components, Fine c) ∧ incidents = [] ∧ unavailable = [] := by
  have hfine : ∀ c : StatusComponent, Fine c ↔
      ¬ isCritical c .down = true ∧ ¬ isUnhealthy c = true ∧ ¬ isCritical c .unknown = true := by
    intro c
    simp only [Fine, isCritical, isUnhealthy, decide_eq_true_eq, List.contains_iff_mem]
    cases c.status <;> simp
  unfold overallOf
  split_ifs with hdown hdegraded
  · refine iff_of_false (fun h => by cases h) ?_
    rintro ⟨hall, _⟩
    obtain ⟨c, hc, hcritical⟩ := List.any_eq_true.mp hdown
    exact ((hfine c).mp (hall c hc)).1 hcritical
  · refine iff_of_false (fun h => by cases h) ?_
    rintro ⟨hall, rfl, rfl⟩
    obtain hunhealthy | hunknown | hincidents | hunavailable := hdegraded
    · obtain ⟨c, hc, hharm⟩ := List.any_eq_true.mp hunhealthy
      exact ((hfine c).mp (hall c hc)).2.1 hharm
    · obtain ⟨c, hc, hcritical⟩ := List.any_eq_true.mp hunknown
      exact ((hfine c).mp (hall c hc)).2.2 hcritical
    · exact absurd hincidents (lt_irrefl 0)
    · exact absurd hunavailable (lt_irrefl 0)
  · obtain ⟨hunhealthy, hunknown, hincidents, hunavailable⟩ : _ ∧ _ ∧ _ ∧ _ := by
      simpa only [not_or] using hdegraded
    refine iff_of_true rfl ⟨fun c hc => (hfine c).mpr ⟨fun h => ?_, fun h => ?_, fun h => ?_⟩, ?_, ?_⟩
    · exact hdown (List.any_eq_true.mpr ⟨c, hc, h⟩)
    · exact hunhealthy (List.any_eq_true.mpr ⟨c, hc, h⟩)
    · exact hunknown (List.any_eq_true.mpr ⟨c, hc, h⟩)
    · exact List.length_eq_zero_iff.mp (Nat.eq_zero_of_not_pos hincidents)
    · exact List.length_eq_zero_iff.mp (Nat.eq_zero_of_not_pos hunavailable)

theorem fine_controlPlaneComponent_iff (id name matchToken : String) (pods : List ControlPlanePodHealth) :
    Fine (controlPlaneComponent id name matchToken pods) ↔ Running matchToken pods := by
  have hrunning : ((matchedPods matchToken pods).filter fun p => p.status = "Running".toList).length =
      (matchedPods matchToken pods).length ↔ ∀ pod ∈ matchedPods matchToken pods, pod.status = "Running".toList := by
    simp only [List.length_filter_eq_length_iff, decide_eq_true_eq]
  have hcritical : some Category.controlPlane ∈ CRITICAL_CATEGORIES := by decide
  unfold Fine Running controlPlaneComponent
  dsimp only
  split_ifs with hnone hall hsome
  · refine iff_of_false ?_ fun h => h.1 (List.length_eq_zero_iff.mp hnone)
    rintro (h | ⟨_, h⟩)
    · cases h
    · exact h hcritical
  · refine iff_of_true (.inl rfl) ⟨fun hnil => hnone (by rw [hnil]; rfl), hrunning.mp hall⟩
  · exact iff_of_false (by simp) fun h => hall (hrunning.mpr h.2)
  · exact iff_of_false (by simp) fun h => hall (hrunning.mpr h.2)

theorem ids_mappingOf : ∀ name mapping, mappingOf name = some mapping →
    mapping.id ≠ some "apiserver".toList ∧ mapping.id ≠ some "etcd".toList := by
  intro name mapping hmapping
  unfold mappingOf at hmapping
  split at hmapping
  · rename_i id label category hfind
    cases hmapping
    have hids : ∀ entry ∈ ARGO_COMPONENT_MAP, some entry.2.1.toList ≠ some "apiserver".toList ∧
        some entry.2.1.toList ≠ some "etcd".toList := by decide
    exact hids _ (List.mem_of_find?_eq_some hfind)
  · split_ifs at hmapping
    cases hmapping
    exact ⟨by simp, by simp⟩

theorem mem_addApp {components : List StatusComponent} {app : ArgoApp} {c : StatusComponent} :
    c ∈ addApp components app ↔ c ∈ components ∨ ∃ mapping, mappingOf app.name = some mapping ∧
      (∀ d ∈ components, d.id ≠ mapping.id) ∧ c = argoComponent mapping app := by
  unfold addApp
  cases hmapping : mappingOf app.name with
  | none => simp
  | some mapping =>
    dsimp only
    split_ifs with hknown
    · obtain ⟨d, hd, hid⟩ := List.any_eq_true.mp hknown
      simp only [Option.some.injEq, exists_eq_left']
      exact (or_iff_left fun h => h.1 d hd (of_decide_eq_true hid)).symm
    · have hnew : ∀ d ∈ components, d.id ≠ mapping.id := fun d hd hid =>
        hknown (List.any_eq_true.mpr ⟨d, hd, decide_eq_true hid⟩)
      simp only [List.mem_append, List.mem_singleton, Option.some.injEq, exists_eq_left']
      exact or_congr_right ⟨fun h => ⟨hnew, h⟩, And.right⟩

/-- An id is not used after a turn where it was not used before and is not the one of the application. -/
theorem forall_addApp_iff {components : List StatusComponent} {app : ArgoApp} {id : Option Text} :
    (∀ d ∈ addApp components app, d.id ≠ id) ↔
      (∀ d ∈ components, d.id ≠ id) ∧ ∀ m, mappingOf app.name = some m → m.id ≠ id := by
  constructor
  · refine fun h => ⟨fun d hd => h d (mem_addApp.mpr (.inl hd)), fun m hm hid => ?_⟩
    by_cases hnew : ∀ d ∈ components, d.id ≠ m.id
    · exact h _ (mem_addApp.mpr (.inr ⟨m, hm, hnew, rfl⟩)) hid
    · push Not at hnew
      obtain ⟨d, hd, hdid⟩ := hnew
      exact h d (mem_addApp.mpr (.inl hd)) (hdid.trans hid)
  · rintro ⟨hold, happ⟩ d hd
    obtain hd | ⟨m, hm, _, rfl⟩ := mem_addApp.mp hd
    · exact hold d hd
    · exact happ m hm

/-- The loop adds the first application of each component that is not there yet. -/
theorem mem_foldl_addApp {components : List StatusComponent} {apps : List ArgoApp} {c : StatusComponent} :
    c ∈ apps.foldl addApp components ↔ c ∈ components ∨ ∃ app mapping, Shown apps app mapping ∧
      (∀ d ∈ components, d.id ≠ mapping.id) ∧ c = argoComponent mapping app := by
  induction apps generalizing components with
  | nil =>
    refine (or_iff_left ?_).symm
    rintro ⟨app, mapping, ⟨before, after, hnil, _⟩, _⟩
    cases before <;> cases hnil
  | cons first apps ih =>
    rw [List.foldl_cons, ih, mem_addApp, or_assoc]
    refine or_congr_right ⟨?_, ?_⟩
    · rintro (⟨mapping, hmapping, hnew, rfl⟩ | ⟨app, mapping, ⟨before, after, rfl, hmapping, hbefore⟩, hnew, rfl⟩)
      · exact ⟨first, mapping, ⟨[], apps, rfl, hmapping, List.forall_mem_nil _⟩, hnew, rfl⟩
      · obtain ⟨hold, hfirst⟩ := forall_addApp_iff.mp hnew
        exact ⟨app, mapping, ⟨first :: before, after, rfl, hmapping, List.forall_mem_cons.mpr ⟨hfirst, hbefore⟩⟩, hold, rfl⟩
    · rintro ⟨app, mapping, ⟨before, after, happs, hmapping, hbefore⟩, hnew, rfl⟩
      cases before with
      | nil =>
        cases happs
        exact .inl ⟨mapping, hmapping, hnew, rfl⟩
      | cons earlier before =>
        cases happs
        obtain ⟨hfirst, hbefore⟩ := List.forall_mem_cons.mp hbefore
        exact .inr ⟨app, mapping, ⟨before, after, rfl, hmapping, hbefore⟩, forall_addApp_iff.mpr ⟨hnew, hfirst⟩, rfl⟩

theorem forall_observedComponents_iff (p : Providers) :
    (∀ c ∈ observedComponents p, Fine c) ↔
      Running "kube-apiserver" (p.controlPlane.getD []) ∧ Running "etcd" (p.controlPlane.getD []) ∧
        ∀ app mapping, Shown (p.argo.getD []) app mapping → Fine (argoComponent mapping app) := by
  rw [observedComponents, ← fine_controlPlaneComponent_iff "apiserver" "kube-apiserver", ← fine_controlPlaneComponent_iff "etcd" "etcd"]
  constructor
  · refine fun h => ⟨h _ (mem_foldl_addApp.mpr (.inl List.mem_cons_self)),
      h _ (mem_foldl_addApp.mpr (.inl (List.mem_cons_of_mem _ List.mem_cons_self))),
      fun app mapping hshown => h _ (mem_foldl_addApp.mpr (.inr ⟨app, mapping, hshown, ?_, rfl⟩))⟩
    obtain ⟨_, _, _, hmapping, _⟩ := hshown
    obtain ⟨hapiserver, hetcd⟩ := ids_mappingOf app.name mapping hmapping
    exact List.forall_mem_cons.mpr ⟨hapiserver.symm, List.forall_mem_cons.mpr ⟨hetcd.symm, List.forall_mem_nil _⟩⟩
  · rintro ⟨hapiserver, hetcd, happs⟩ c hc
    obtain hc | ⟨app, mapping, hshown, _, rfl⟩ := mem_foldl_addApp.mp hc
    · obtain rfl | hc := List.mem_cons.mp hc
      · exact hapiserver
      · obtain rfl := List.mem_singleton.mp hc
        exact hetcd
    · exact happs app mapping hshown

theorem not_running_nil (matchToken : String) : ¬ Running matchToken [] := fun h => h.1 rfl

theorem overallOf_eq_healthy_iff_operational (p : Providers) :
    overallOf (componentsOf p) (incidentsOf p) (unavailableOf p) = .healthy ↔ Operational p := by
  rw [overallOf_eq_healthy_iff]
  constructor
  · rintro ⟨hfine, hincidents, hunavailable⟩
    have hobserved := (forall_observedComponents_iff p).mp fun c hc =>
      hfine c (List.mem_append_left _ (List.mem_append_left _ hc))
    obtain ⟨nodes, controlPlane, argo, alerts⟩ := p
    cases controlPlane with
    | none => exact absurd hobserved.1 (not_running_nil _)
    | some pods =>
      cases argo with
      | none => cases hunavailable
      | some apps =>
        cases alerts with
        | none => cases hunavailable
        | some alerts =>
          cases alerts with
          | nil => exact ⟨⟨pods, rfl, hobserved.1, hobserved.2.1⟩, ⟨apps, rfl, fun app mapping => hobserved.2.2 app mapping⟩, rfl⟩
          | cons alert alerts => exact absurd (List.mapIdx_eq_nil_iff.mp hincidents) (List.cons_ne_nil _ _)
  · obtain ⟨nodes, controlPlane, argo, alerts⟩ := p
    rintro ⟨⟨pods, hpods, hapiserver, hetcd⟩, ⟨apps, hargo, happs⟩, halerts⟩
    cases hpods
    cases hargo
    cases halerts
    have hobserved := (forall_observedComponents_iff ⟨nodes, some pods, some apps, some []⟩).mpr ⟨hapiserver, hetcd, happs⟩
    have hcomponents : componentsOf ⟨nodes, some pods, some apps, some []⟩ =
        observedComponents ⟨nodes, some pods, some apps, some []⟩ := (List.append_nil _).trans (List.append_nil _)
    exact ⟨fun c hc => hobserved c (hcomponents ▸ hc), rfl, rfl⟩

/-- The platform is healthy exactly if it was read and is operational: of the providers that fail, only that of
    the nodes is tolerated. -/
theorem overall_healthy_iff (p : Providers) (now : Int) : (aggregate p now).overall = .healthy ↔ Operational p :=
  overallOf_eq_healthy_iff_operational p

/-! ### What a call returns -/

/-- What is written is read back. -/
theorem isPlatformStatus_json (s : PlatformStatus) : isPlatformStatus s.json = true := by
  have hoverall : COMPONENT_STATUSES.contains s.overall.text = true := by
    cases s.overall <;> decide
  have hjson : isPlatformStatus s.json = (COMPONENT_STATUSES.contains s.overall.text && true && true && true && true && true &&
      true) := rfl
  rw [hjson, hoverall]
  rfl

theorem unavailableOf_eq_nil_iff (p : Providers) : unavailableOf p = [] ↔ p.argo.isSome ∧ p.alerts.isSome := by
  obtain ⟨_, _, argo, alerts⟩ := p
  cases argo <;> cases alerts <;> simp [unavailableOf]

section

variable {ι π : Type} [DecidableEq ι] [DecidableEq π]

/-- Either what the providers answered to the run of the call, or a status for which Argo CD and Alertmanager answered:
    one that the run found less than fifteen seconds after it was written. Neither run had ended when the
    call began. -/
theorem status_fresh {s : State ι π Providers Aggregation} (h : Reachable (getPlatformStatus ι) s) {c : ι}
    {call : Call ι π Providers Aggregation} {a : Aggregation} (hcall : s.calls c = some call) (hresult : call.result = some a) :
    ∃ m ∈ s.made, a.status = aggregate m.input m.time ∧ (a.status.overall = .healthy ↔ Operational m.input) ∧
      (Fresh s call m ∨ m.input.argo.isSome ∧ m.input.alerts.isSome ∧ ∃ r run written read settled, s.runs r = some run ∧
        run.process = call.process ∧ run.settlement.map Prod.fst = some settled ∧ m.time ≤ written ∧ written ≤ read ∧
        read < written + 15000 ∧ run.since ≤ read ∧ read ≤ settled ∧ call.since ≤ settled) := by
  have hmade : ∀ m, MadeOk (getPlatformStatus ι) s m → m ∈ s.made ∧ m.value = ⟨aggregate m.input m.time, unavailableOf m.input⟩ :=
    fun m hm => ⟨hm.1, (Option.some.inj hm.2.1).symm⟩
  obtain ⟨m, hm, rfl, hfresh⟩ | ⟨entry, read, since, hfound, rfl, hsince⟩ := h.result hcall hresult
  · obtain ⟨hmem, hvalue⟩ := hmade m hm
    rw [hvalue]
    exact ⟨m, hmem, rfl, overallOf_eq_healthy_iff_operational _, .inl hfresh⟩
  · obtain ⟨hmem, hvalue⟩ := hmade entry.toMade hfound.sound.made
    obtain ⟨hplace, _⟩ | ⟨_, r, run, settled, hrun, hprocess, rfl, hsettled, hcalled⟩ := hsince
    · exact absurd rfl hplace
    · have hkept : unavailableOf entry.input = [] := by
        have hkeeps := hfound.sound.keeps
        rw [hvalue] at hkeeps
        exact List.length_eq_zero_iff.mp (of_decide_eq_true hkeeps)
      obtain ⟨hargo, halerts⟩ := (unavailableOf_eq_nil_iff _).mp hkept
      have hlive : read < entry.written + 15000 := of_decide_eq_true hfound.live
      have hread : read ≤ settled := by
        obtain ⟨_, hok⟩ := h.sound.runs r run hrun
        obtain ⟨_, _, phase⟩ := run
        cases phase with
        | settled =>
          cases hsettled
          exact (hok.2 _ rfl).2.2
        | _ => cases hsettled
      rw [hvalue]
      exact ⟨entry.toMade, hmem, rfl, overallOf_eq_healthy_iff_operational _, .inr ⟨hargo, halerts, r, run, entry.written,
        read, settled, hrun, hprocess, by rw [hsettled]; rfl, hfound.sound.written.1, hfound.after.2, hlive, hfound.after.1, hread, hcalled⟩⟩

end

/-- A control plane that runs, and one healthy application. -/
def healthyProviders : Providers where
  nodes := some ⟨1, 1⟩
  controlPlane := some [⟨"kube-apiserver-a".toList, "Running".toList⟩, ⟨"etcd-a".toList, "Running".toList⟩]
  argo := some [⟨"keycloak".toList, "Healthy".toList, "Synced".toList⟩]
  alerts := some []

/-- The second call's run finds what the first one wrote. -/
def sampleEvents : List (Event Nat Unit Providers) := [.call 0 (), .arrive 0, .readRun 0 true, .resume 0,
  .work 0 healthyProviders, .writeRun 0 true, .settle 0, .wake 0, .tick 5000, .call 1 (), .arrive 1, .readRun 1 true,
  .resume 1, .settle 1, .wake 1]

def sampleState : State Nat Unit Providers Aggregation :=
  ((State.initial Nat Unit Providers Aggregation).run (getPlatformStatus Nat) sampleEvents).getD (State.initial _ _ _ _)

def sampleAggregation : Aggregation := ⟨aggregate healthyProviders 0, unavailableOf healthyProviders⟩

def sampleCall : Call Nat Unit Providers Aggregation :=
  ⟨(), 5000, .shared 1 (.held ⟨⟨0, healthyProviders, 0, sampleAggregation⟩, 0⟩ 5000)⟩

theorem status_fresh_sample :
    ∃ m ∈ sampleState.made, sampleAggregation.status = aggregate m.input m.time ∧
      (sampleAggregation.status.overall = .healthy ↔ Operational m.input) ∧
      (Fresh sampleState sampleCall m ∨ m.input.argo.isSome ∧ m.input.alerts.isSome ∧ ∃ r run written read settled,
        sampleState.runs r = some run ∧ run.process = sampleCall.process ∧ run.settlement.map Prod.fst = some settled ∧
        m.time ≤ written ∧ written ≤ read ∧ read < written + 15000 ∧ run.since ≤ read ∧ read ≤ settled ∧
        sampleCall.since ≤ settled) :=
  @status_fresh Nat Unit _ _ sampleState ⟨sampleEvents, rfl⟩ 1 sampleCall sampleAggregation rfl rfl

end narwhal.portal.platform_status
