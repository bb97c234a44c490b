import Mathlib.Data.List.Infix
import Narwhal.Portal.CacheKeys

open jslib

namespace narwhal.portal.cache_keys

/-! ### Segments -/

/-- What stands between the colons of a text. -/
def segments (s : Text) : List Text := s.splitOn ':'

theorem segments_ne_nil (s : Text) : segments s ≠ [] := List.splitOn_ne_nil ':' s

@[simp] theorem segments_nil : segments [] = [[]] := rfl

theorem segments_inj {s t : Text} (h : segments s = segments t) : s = t := by
  have hjoin : ∀ s : Text, [':'].intercalate (segments s) = s := fun s => List.intercalate_splitOn ':'
  rw [← hjoin s, h, hjoin t]

theorem segments_of_not_mem {s : Text} (h : ':' ∉ s) : segments s = [s] := List.splitOn_eq_singleton h

theorem segments_append (s t : Text) : segments (s ++ ':' :: t) = segments s ++ segments t :=
  List.splitOn_append_cons_self s t

/-- The segments of parts with colons between them. -/
theorem segments_intercalate {parts : List Text} (h : parts ≠ []) :
    segments ([':'].intercalate parts) = parts.flatMap segments := by
  induction parts with
  | nil => exact absurd rfl h
  | cons part parts ih =>
    cases parts with
    | nil => simp
    | cons next parts =>
      rw [List.intercalate_cons_cons, List.append_assoc, List.singleton_append, segments_append,
        ih (List.cons_ne_nil _ _)]
      rfl

/-- The metadata of a key has one segment more. -/
theorem segments_metaKey (s : Text) : segments (metaKey s) = segments s ++ ["meta".toList] := by
  rw [metaKey, show ":meta".toList = ':' :: "meta".toList from rfl, segments_append]
  rfl

/-! ### What a key begins with -/

/-- What is the same in all keys of a builder, or of builders whose keys begin alike. -/
inductive Tag where
  | fixed (builder : Fixed)
  | single (builder : Single)
  | audit (audit : Audit)
  | item (item : Item)
  | myApps | traces | k8sPods | k8sEvents | k8sResource | podsList | podsLogs | falcoEvents | costV2 | costServiceV2
  | costTrendV2 | promQuery | promVector | promRange | trivyImage | trivyTopVulnerable | scorecardDetail | scorecardAll
  | serviceGraphCluster | serviceGraphSvc
deriving DecidableEq

def Single.parts : Single → List Text
  | .toolsHealth => ["tools".toList, "health".toList]
  | .governanceResourcesV3 => ["governance".toList, "resources".toList, "v3".toList]
  | .governanceDoraV2 => ["governance".toList, "dora".toList, "v2".toList]
  | .governanceScorecard => ["governance".toList, "scorecard".toList]
  | .eventsTimeline => ["events".toList, "timeline".toList]
  | .promNodeMetrics => ["promnodemetrics".toList]
  | .promCluster => ["promcluster".toList]
  | .k8sKubeletConfig => ["k8s".toList, "kubelet-config".toList]
  | .k8sNode => ["k8s".toList, "node".toList]
  | .ossUpstreamReleases => ["oss-updates".toList, "upstream".toList]

def Tag.parts : Tag → List Text
  | .fixed builder => segments builder.key
  | .single builder => builder.parts
  | .audit .config => ["compliance".toList, "config-audit".toList]
  | .audit .rbac => ["compliance".toList, "rbac-audit".toList]
  | .item .infraAudit => ["compliance".toList, "infra-audit".toList]
  | .item .frameworks => ["compliance".toList, "frameworks".toList]
  | .myApps => ["my-apps".toList]
  | .traces => ["traces".toList]
  | .k8sPods => ["k8s".toList, "pods".toList]
  | .k8sEvents => ["k8s".toList, "events".toList]
  | .k8sResource => ["k8s".toList, "resource".toList]
  | .podsList => ["pods".toList, "list".toList]
  | .podsLogs => ["pods".toList, "logs".toList]
  | .falcoEvents => ["falco".toList, "events".toList]
  | .costV2 => ["cost".toList, "v2".toList]
  | .costServiceV2 => ["cost".toList, "service".toList, "v2".toList]
  | .costTrendV2 => ["cost".toList, "trend".toList, "v2".toList]
  | .promQuery => ["prom".toList]
  | .promVector => ["promv".toList]
  | .promRange => ["promr".toList]
  | .trivyImage => ["security".toList, "image".toList]
  | .trivyTopVulnerable => ["security".toList, "top-vulnerable".toList]
  | .scorecardDetail => ["scorecard".toList, "detail".toList]
  | .scorecardAll => ["scorecard".toList, "all".toList]
  | .serviceGraphCluster => ["graph".toList, "cluster".toList]
  | .serviceGraphSvc => ["graph".toList, "svc".toList]

def Fixed.all : List Fixed :=
  [.routesList, .architectureTopology, .governanceRbacV2, .governanceDistributionV2, .governanceOperationalEventsV2,
    .governanceOperationalEventsV3, .falcoCritical, .kisaComplianceList, .heroSummary, .apisixRoutes, .platformStatus,
    .trivySummary, .trivyWorkloads, .trivyDbStatus, .scorecardRules, .openbaoSecrets, .alertmanagerActive,
    .complianceSummary, .k8sCniPlugin, .k8sNamespaces, .k8sRbac, .k8sCerts, .k8sKyverno, .k8sApiserverPods,
    .k8sNodeReadiness, .k8sControlPlaneHealth, .k8sNetpol, .healthDependencies, .healthSummary, .liveK8sInformerLease]

def Single.all : List Single :=
  [.toolsHealth, .governanceResourcesV3, .governanceDoraV2, .governanceScorecard, .eventsTimeline, .promNodeMetrics,
    .promCluster, .k8sKubeletConfig, .k8sNode, .ossUpstreamReleases]

/-- The tags without a family. -/
def Tag.rest : List Tag :=
  [.audit .config, .audit .rbac, .item .infraAudit, .item .frameworks, .myApps, .traces, .k8sPods, .k8sEvents,
    .k8sResource, .podsList, .podsLogs, .falcoEvents, .costV2, .costServiceV2, .costTrendV2, .promQuery, .promVector,
    .promRange, .trivyImage, .trivyTopVulnerable, .scorecardDetail, .scorecardAll, .serviceGraphCluster, .serviceGraphSvc]

def Tag.all : List Tag := Fixed.all.map Tag.fixed ++ Single.all.map Tag.single ++ Tag.rest

theorem Fixed.mem_all (builder : Fixed) : builder ∈ Fixed.all := by
  cases builder <;> exact List.mem_of_elem_eq_true rfl

theorem Tag.mem_all (t : Tag) : t ∈ Tag.all := by
  cases t with
  | fixed builder =>
    apply List.mem_append_left
    apply List.mem_append_left
    exact List.mem_map_of_mem builder.mem_all
  | single builder =>
    apply List.mem_append_left
    apply List.mem_append_right
    apply List.mem_map_of_mem
    cases builder <;> exact List.mem_of_elem_eq_true rfl
  | audit audit =>
    apply List.mem_append_right
    cases audit <;> exact List.mem_of_elem_eq_true rfl
  | item item =>
    apply List.mem_append_right
    cases item <;> exact List.mem_of_elem_eq_true rfl
  | _ =>
    apply List.mem_append_right
    exact List.mem_of_elem_eq_true rfl

/-- The parts as numbers, which compare faster. -/
def Tag.codes (t : Tag) : List Nat := t.parts.map fun part => part.foldl (fun n c => n * 256 + c.toNat) 0

/-- No tag begins with another. -/
theorem Tag.codes_prefixFree : ∀ t ∈ Tag.all, ∀ t' ∈ Tag.all, t.codes.isPrefixOf t'.codes = true → t = t' := by
  decide +kernel

/-- No tag begins another. -/
theorem Tag.prefixFree (t : Tag) (ht : t ∈ Tag.all) (t' : Tag) (ht' : t' ∈ Tag.all)
    (h : t.parts.isPrefixOf t'.parts = true) : t = t' := by
  apply Tag.codes_prefixFree t ht t' ht'
  rw [List.isPrefixOf_iff_prefix] at h ⊢
  exact h.map _

theorem Tag.parts_plain : ∀ t ∈ Tag.all, t.parts ≠ [] ∧ t.parts.flatMap segments = t.parts ∧
    t.parts.filter (· ≠ []) = t.parts := by
  decide +kernel

/-! ### What follows -/

def Call.tag : Call → Tag
  | .fixed builder => .fixed builder
  | .single builder _ => .single builder
  | .myApps .. => .myApps
  | .traces _ => .traces
  | .k8sPods .. => .k8sPods
  | .k8sEvents .. => .k8sEvents
  | .k8sEventsAll _ => .k8sEvents
  | .k8sResource .. => .k8sResource
  | .podsList .. => .podsList
  | .podsLogs .. => .podsLogs
  | .falcoEvents .. => .falcoEvents
  | .costV2 .. => .costV2
  | .costServiceV2 .. => .costServiceV2
  | .costTrendV2 .. => .costTrendV2
  | .promQuery .. => .promQuery
  | .promVector .. => .promVector
  | .promRange .. => .promRange
  | .trivyImage _ => .trivyImage
  | .trivyTopVulnerable _ => .trivyTopVulnerable
  | .scorecardDetail .. => .scorecardDetail
  | .scorecardAll .. => .scorecardAll
  | .auditList audit => .audit audit
  | .auditDetail audit _ _ => .audit audit
  | .itemList item => .item item
  | .itemDetail item _ => .item item
  | .serviceGraphCluster .. => .serviceGraphCluster
  | .serviceGraphSvc .. => .serviceGraphSvc

/-- The parts of a key after its tag. -/
def Call.args : Call → List Text
  | .fixed _ => []
  | .single _ name => [name]
  | .myApps userSub scopeFingerprint => [userSub, scopeFingerprint.val].filter (· ≠ [])
  | .traces service => [service]
  | .k8sPods namespace_ app => [namespace_, orAll (app.map Subtype.val)]
  | .k8sEvents namespace_ name => [namespace_, name]
  | .k8sEventsAll namespace_ => [orAll (namespace_.map Subtype.val)]
  | .k8sResource namespace_ name => [namespace_, name]
  | .podsList namespace_ instance_ => [namespace_, orAll (instance_.map Subtype.val)]
  | .podsLogs namespace_ pod container tailLines previous =>
    [namespace_, pod, container, tailLines.text, boolText previous]
  | .falcoEvents priority sinceMinutes limit =>
    [orAll (priority.map (·.name)), sinceMinutes.text, limit.text]
  | .costV2 scope scopeFingerprint pricingKey => [scope.name, scopeFingerprint, pricingKey]
  | .costServiceV2 scopeFingerprint serviceNamespace serviceId pricingKey =>
    [scopeFingerprint, serviceNamespace, serviceId, pricingKey]
  | .costTrendV2 scope scopeFingerprint serviceNamespace id days pricingKey =>
    [scope.name, scopeFingerprint, (serviceNamespace.map Subtype.val).getD [], id, days.text, pricingKey]
  | .promQuery clusterId promql => [clusterId, promql]
  | .promVector clusterId promql => [clusterId, promql]
  | .promRange clusterId promql durationMinutes => [clusterId, promql, durationMinutes.text]
  | .trivyImage image => [image]
  | .trivyTopVulnerable limit => [limit.text]
  | .scorecardDetail rulesVersion serviceId => [rulesVersion.text, serviceId]
  | .scorecardAll rulesVersion tierFilter => [rulesVersion.text, tierFilter.getD []]
  | .auditList _ => ["list".toList]
  | .auditDetail _ namespace_ name => [namespace_, name].filter (· ≠ [])
  | .itemList _ => ["list".toList]
  | .itemDetail _ id => [id].filter (· ≠ [])
  | .serviceGraphCluster window namespace_ => window.name :: [orAll namespace_].filter (· ≠ [])
  | .serviceGraphSvc serviceId window => [serviceId, window.name]

theorem JsNumber.text_plain (n : JsNumber) : n.text ≠ [] ∧ ':' ∉ n.text ∧ n.text ≠ "meta".toList := by
  cases n with
  | finite n =>
    refine ⟨n.ne_nil, fun h => absurd (n.chars _ h) (by decide), fun h => ?_⟩
    have hchar := n.chars 'm'
    rw [show n.text = "meta".toList from h] at hchar
    exact absurd (hchar (by decide)) (by decide)
  | nan => decide
  | infinity negative => cases negative <;> decide

theorem Fingerprint.ne_nil (f : Fingerprint) : f.val ≠ [] := by
  intro h
  have hlength := f.property.1
  rw [h] at hlength
  cases hlength

theorem given_or_all_ne_nil (app : Option Given) : orAll (app.map Subtype.val) ≠ [] := by
  cases app with
  | none => decide
  | some app => exact app.property

theorem segment_or_all_plain (name : Option Segment) :
    orAll (name.map Subtype.val) ≠ [] ∧ ':' ∉ orAll (name.map Subtype.val) := by
  cases name with
  | none => decide
  | some name => exact name.property

theorem priority_or_all_plain (priority : Option FalcoEventPriority) :
    orAll (priority.map (·.name)) ≠ [] ∧ ':' ∉ orAll (priority.map (·.name)) := by
  cases priority with
  | none => decide
  | some priority => cases priority <;> decide

theorem CostScope.name_plain (scope : CostScope) : scope.name ≠ [] ∧ ':' ∉ scope.name := by
  cases scope <;> decide

theorem GraphWindow.name_plain (window : GraphWindow) : window.name ≠ [] ∧ ':' ∉ window.name := by
  cases window <;> decide

/-- A key that is joined drops the empty ones of its arguments. -/
theorem join_tag (t : Tag) (args : List Text) :
    join (t.parts ++ args) = [':'].intercalate (t.parts ++ args.filter (· ≠ [])) := by
  rw [join, List.filter_append, (Tag.parts_plain t t.mem_all).2.2]

theorem join_tag_of_ne_nil {t : Tag} {args : List Text} (h : ∀ a ∈ args, a ≠ []) :
    join (t.parts ++ args) = [':'].intercalate (t.parts ++ args) := by
  rw [join_tag, List.filter_eq_self.mpr]
  intro a ha
  simpa using h a ha

theorem intercalate_append {x y : List Text} (hx : x ≠ []) (hy : y ≠ []) :
    [':'].intercalate (x ++ y) = [':'].intercalate x ++ ':' :: [':'].intercalate y := by
  induction x with
  | nil => exact absurd rfl hx
  | cons part x ih =>
    cases x with
    | nil =>
      rw [List.singleton_append, List.intercalate_cons_of_ne_nil hy, List.intercalate_singleton, List.append_assoc]
      rfl
    | cons next x =>
      rw [List.cons_append, List.cons_append, List.intercalate_cons_cons, ← List.cons_append, ih (List.cons_ne_nil _ _),
        List.intercalate_cons_cons, List.append_assoc, List.append_assoc, List.append_assoc]

/-- A key that is written with the tag's text in front. -/
theorem key_of_text (t : Tag) (text : Text) {args : List Text} (htext : text = [':'].intercalate t.parts ++ [':'])
    (hargs : args ≠ []) : text ++ [':'].intercalate args = [':'].intercalate (t.parts ++ args) := by
  rw [htext, intercalate_append (Tag.parts_plain t t.mem_all).1 hargs, List.append_assoc]
  rfl

/-- A key is its tag and what follows, with colons between the parts. -/
theorem Call.key_eq (c : Call) : c.key = [':'].intercalate (c.tag.parts ++ c.args) := by
  cases c with
  | fixed builder =>
    rw [Call.args, List.append_nil]
    exact (List.intercalate_splitOn ':').symm
  | single builder name =>
    have hkey : builder.key name = join ((Tag.single builder).parts ++ [name.val]) := by cases builder <;> rfl
    rw [Call.key, hkey]
    apply join_tag_of_ne_nil
    simp [name.property.1]
  | myApps userSub scopeFingerprint => exact join_tag .myApps _
  | traces service =>
    rw [Call.tag, Call.args, ← key_of_text .traces "traces:".toList (by decide) (List.cons_ne_nil _ _),
      List.intercalate_singleton]
    rfl
  | k8sPods namespace_ app =>
    apply join_tag_of_ne_nil (t := .k8sPods)
    exact List.forall_mem_cons.mpr ⟨namespace_.property.1, List.forall_mem_singleton.mpr (given_or_all_ne_nil app)⟩
  | k8sEvents namespace_ name =>
    apply join_tag_of_ne_nil (t := .k8sEvents)
    exact List.forall_mem_cons.mpr ⟨namespace_.property.1, List.forall_mem_singleton.mpr name.property⟩
  | k8sEventsAll namespace_ =>
    apply join_tag_of_ne_nil (t := .k8sEvents)
    exact List.forall_mem_singleton.mpr (segment_or_all_plain namespace_).1
  | k8sResource namespace_ name =>
    apply join_tag_of_ne_nil (t := .k8sResource)
    exact List.forall_mem_cons.mpr ⟨namespace_.property.1, List.forall_mem_singleton.mpr name.property⟩
  | podsList namespace_ instance_ =>
    apply join_tag_of_ne_nil (t := .podsList)
    exact List.forall_mem_cons.mpr
      ⟨namespace_.property.1, List.forall_mem_singleton.mpr (segment_or_all_plain instance_).1⟩
  | podsLogs namespace_ pod container tailLines previous =>
    rw [Call.tag, Call.args, ← key_of_text .podsLogs "pods:logs:".toList (by decide) (List.cons_ne_nil _ _)]
    change "pods:logs:".toList ++ namespace_.val ++ ':' :: pod.val ++ ':' :: container.val ++ ':' :: tailLines.text ++
      ':' :: boolText previous = _
    generalize "pods:logs:".toList = text
    simp only [List.intercalate_cons_cons, List.intercalate_singleton, List.append_assoc, List.cons_append,
      List.nil_append]
  | falcoEvents priority sinceMinutes limit =>
    apply join_tag_of_ne_nil (t := .falcoEvents)
    simp only [List.forall_mem_cons]
    exact ⟨(priority_or_all_plain priority).1, sinceMinutes.text_plain.1, limit.text_plain.1, by simp⟩
  | costV2 scope scopeFingerprint pricingKey =>
    apply join_tag_of_ne_nil (t := .costV2)
    simp only [List.forall_mem_cons]
    exact ⟨scope.name_plain.1, scopeFingerprint.ne_nil, pricingKey.property.1, by simp⟩
  | costServiceV2 scopeFingerprint serviceNamespace serviceId pricingKey =>
    apply join_tag_of_ne_nil (t := .costServiceV2)
    simp only [List.forall_mem_cons]
    exact ⟨scopeFingerprint.ne_nil, serviceNamespace.property.1, serviceId.property.1, pricingKey.property.1, by simp⟩
  | costTrendV2 scope scopeFingerprint serviceNamespace id days pricingKey =>
    rw [Call.tag, Call.args, ← key_of_text .costTrendV2 "cost:trend:v2:".toList (by decide) (List.cons_ne_nil _ _)]
    change "cost:trend:v2:".toList ++ scope.name ++ ':' :: scopeFingerprint.val ++
      ':' :: (serviceNamespace.map Subtype.val).getD [] ++ ':' :: id.val ++ ':' :: days.text ++ ':' :: pricingKey.val = _
    generalize "cost:trend:v2:".toList = text
    simp only [List.intercalate_cons_cons, List.intercalate_singleton, List.append_assoc, List.cons_append,
      List.nil_append]
  | promQuery clusterId promql =>
    apply join_tag_of_ne_nil (t := .promQuery)
    exact List.forall_mem_cons.mpr ⟨clusterId.property.1, List.forall_mem_singleton.mpr promql.property⟩
  | promVector clusterId promql =>
    apply join_tag_of_ne_nil (t := .promVector)
    exact List.forall_mem_cons.mpr ⟨clusterId.property.1, List.forall_mem_singleton.mpr promql.property⟩
  | promRange clusterId promql durationMinutes =>
    apply join_tag_of_ne_nil (t := .promRange)
    simp only [List.forall_mem_cons]
    exact ⟨clusterId.property.1, promql.property, durationMinutes.text_plain.1, by simp⟩
  | trivyImage image =>
    apply join_tag_of_ne_nil (t := .trivyImage)
    exact List.forall_mem_singleton.mpr image.property
  | trivyTopVulnerable limit =>
    apply join_tag_of_ne_nil (t := .trivyTopVulnerable)
    exact List.forall_mem_singleton.mpr limit.text_plain.1
  | scorecardDetail rulesVersion serviceId =>
    apply join_tag_of_ne_nil (t := .scorecardDetail)
    exact List.forall_mem_cons.mpr ⟨rulesVersion.text_plain.1, List.forall_mem_singleton.mpr serviceId.property⟩
  | scorecardAll rulesVersion tierFilter =>
    rw [Call.tag, Call.args, ← key_of_text .scorecardAll "scorecard:all:".toList (by decide) (List.cons_ne_nil _ _)]
    change "scorecard:all:".toList ++ rulesVersion.text ++ ':' :: tierFilter.getD [] = _
    generalize "scorecard:all:".toList = text
    simp only [List.intercalate_cons_cons, List.intercalate_singleton, List.append_assoc, List.cons_append,
      List.nil_append]
  | auditList audit => cases audit <;> decide
  | auditDetail audit namespace_ name =>
    cases audit
    · exact join_tag (.audit .config) _
    · exact join_tag (.audit .rbac) _
  | itemList item => cases item <;> decide
  | itemDetail item id =>
    cases item
    · exact join_tag (.item .infraAudit) _
    · exact join_tag (.item .frameworks) _
  | serviceGraphCluster window namespace_ =>
    refine (join_tag .serviceGraphCluster [window.name, orAll namespace_]).trans ?_
    rw [List.filter_cons_of_pos (by simp [window.name_plain.1])]
    rfl
  | serviceGraphSvc serviceId window =>
    apply join_tag_of_ne_nil (t := .serviceGraphSvc)
    exact List.forall_mem_cons.mpr ⟨serviceId.property.1, List.forall_mem_singleton.mpr window.name_plain.1⟩

/-! ### Keys by their segments -/

/-- The segments of a key after its tag. -/
def Call.rest (c : Call) : List Text := c.args.flatMap segments

/-- A key is its tag and the segments of its arguments. -/
theorem segments_key (c : Call) : segments c.key = c.tag.parts ++ c.rest := by
  obtain ⟨hne, hplain, -⟩ := Tag.parts_plain c.tag c.tag.mem_all
  have hparts : c.tag.parts ++ c.args ≠ [] := List.append_ne_nil_of_left_ne_nil hne _
  rw [c.key_eq, segments_intercalate hparts, List.flatMap_append, hplain, Call.rest]

/-- Keys that begin alike have one tag. -/
theorem tag_eq_of_append {t t' : Tag} {x y : List Text} (h : t.parts ++ x = t'.parts ++ y) : t = t' := by
  have hleft : t.parts <+: t'.parts ++ y := ⟨x, h⟩
  have hright : t'.parts <+: t'.parts ++ y := ⟨y, rfl⟩
  cases List.prefix_or_prefix_of_prefix hleft hright with
  | inl hprefix => exact Tag.prefixFree t t.mem_all t' t'.mem_all (List.isPrefixOf_iff_prefix.mpr hprefix)
  | inr hprefix => exact (Tag.prefixFree t' t'.mem_all t t.mem_all (List.isPrefixOf_iff_prefix.mpr hprefix)).symm

/-- Two keys are equal exactly if their tags and their segments are, -/
theorem key_eq_iff_rest {c c' : Call} : c.key = c'.key ↔ c.tag = c'.tag ∧ c.rest = c'.rest := by
  constructor
  · intro h
    have hsegments : c.tag.parts ++ c.rest = c'.tag.parts ++ c'.rest := by
      rw [← segments_key, ← segments_key, h]
    have htag := tag_eq_of_append hsegments
    rw [htag] at hsegments
    exact ⟨htag, List.append_cancel_left hsegments⟩
  · rintro ⟨htag, hrest⟩
    apply segments_inj
    rw [segments_key, segments_key, htag, hrest]

/-- and a key is that of metadata exactly if its last segment says so. -/
theorem key_eq_metaKey_iff_rest {c c' : Call} :
    c.key = metaKey c'.key ↔ c.tag = c'.tag ∧ c.rest = c'.rest ++ ["meta".toList] := by
  constructor
  · intro h
    have hsegments : c.tag.parts ++ c.rest = c'.tag.parts ++ (c'.rest ++ ["meta".toList]) := by
      rw [← segments_key, h, segments_metaKey, segments_key, List.append_assoc]
    have htag := tag_eq_of_append hsegments
    rw [htag] at hsegments
    exact ⟨htag, List.append_cancel_left hsegments⟩
  · rintro ⟨htag, hrest⟩
    apply segments_inj
    rw [segments_metaKey, segments_key, segments_key, htag, hrest, List.append_assoc]

/-! ### The segments of joined arguments -/

theorem flatMap_segments_plain {args : List Text} (h : ∀ a ∈ args, ':' ∉ a) : args.flatMap segments = args := by
  induction args with
  | nil => rfl
  | cons a args ih =>
    rw [List.forall_mem_cons] at h
    rw [List.flatMap_cons, segments_of_not_mem h.1, ih h.2]
    rfl

def joinRest (args : List Text) : List Text := (args.filter (· ≠ [])).flatMap segments

theorem joinRest_append (a b : List Text) : joinRest (a ++ b) = joinRest a ++ joinRest b := by
  rw [joinRest, List.filter_append, List.flatMap_append]
  rfl

theorem joinRest_eq (args : List Text) : joinRest args = if join args = [] then [] else segments (join args) := by
  by_cases hargs : args.filter (· ≠ []) = []
  · rw [joinRest, join, hargs]
    rfl
  · have hjoin : join args ≠ [] := by
      cases hfilter : args.filter (· ≠ []) with
      | nil => exact absurd hfilter hargs
      | cons part parts =>
        have hpart : part ≠ [] := by
          have hmem : part ∈ args.filter (· ≠ []) := by rw [hfilter]; exact List.mem_cons_self
          simpa using (List.mem_filter.mp hmem).2
        rw [join, hfilter]
        cases parts with
        | nil => simpa using hpart
        | cons next parts => simp [List.intercalate_cons_cons, hpart]
    rw [if_neg hjoin, joinRest, join, segments_intercalate hargs]

theorem joinRest_inj {a b : List Text} : joinRest a = joinRest b ↔ join a = join b := by
  rw [joinRest_eq, joinRest_eq]
  constructor
  · intro h
    split at h <;> split at h
    · next ha hb => rw [ha, hb]
    · exact absurd h.symm (segments_ne_nil _)
    · exact absurd h (segments_ne_nil _)
    · exact segments_inj h
  · intro h
    rw [h]

theorem join_singleton (a : Text) : join [a] = a := by
  cases a with
  | nil => rfl
  | cons c a => simp [join]

theorem joinRest_meta : joinRest ["meta".toList] = ["meta".toList] := by decide

end narwhal.portal.cache_keys
