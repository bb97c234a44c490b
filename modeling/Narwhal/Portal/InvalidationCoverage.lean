import Narwhal.Portal.InvalidationRuns

open jslib narwhal.portal.cache_keys narwhal.portal.valkey

namespace narwhal.portal.cache_invalidation

/-! ### Keys and their namespaces -/

/-- `/^[a-z0-9]([-a-z0-9]{0,61}[a-z0-9])?$/` -/
def isValidClusterId (id : Text) : Bool :=
  let plain := fun c : Char => ('a' ≤ c && c ≤ 'z') || isDigit c
  id != [] && id.length ≤ 63 && id.all (fun c => plain c || c == '-') && id.head?.any plain && id.getLast?.any plain

def clusterCacheKey (clusterId resource : Text) : Except Text Text :=
  if isValidClusterId clusterId then .ok ("cluster:".toList ++ clusterId ++ ':' :: resource)
  else .error ("invalid cluster id for cache key: '".toList ++ clusterId ++ "'".toList)

def fixedRegistryKey : Fixed → Option CacheNamespace
  | .routesList => some .routesList
  | .apisixRoutes => some .apisixRoutes
  | .alertmanagerActive => some .alertsActive
  | .k8sNamespaces => some .k8sNamespaces
  | .k8sRbac => some .k8sRbac
  | .k8sCerts => some .k8sCerts
  | .k8sNodeReadiness => some .k8sNodeReadiness
  | _ => none

def singleRegistryKey : Single → Option CacheNamespace
  | .governanceResourcesV3 => some .governanceResourcesV3
  | .governanceDoraV2 => some .governanceDoraV2
  | .governanceScorecard => some .governanceScorecard
  | .eventsTimeline => some .eventsTimeline
  | _ => none

/-- The namespace that a builder is registered under, where some event invalidates it. -/
def registryKey : Call → Option CacheNamespace
  | .fixed builder => fixedRegistryKey builder
  | .single builder _ => singleRegistryKey builder
  | .myApps .. => some .myApps
  | .k8sPods .. => some .k8sPods
  | .k8sEvents .. => some .k8sEvents
  | .k8sResource .. => some .k8sResource
  | .podsList .. => some .podsList
  | .podsLogs .. => some .podsLogs
  | .costV2 .. => some .costV2
  | .costServiceV2 .. => some .costServiceV2
  | .costTrendV2 .. => some .costTrendV2
  | .serviceGraphCluster .. => some .graphCluster
  | .serviceGraphSvc .. => some .graphSvc
  | _ => none

/-- The key is one that a builder makes for the namespace. -/
inductive BuiltFor : CacheNamespace → Text → Prop where
  | call {ns : CacheNamespace} (c : Call) (h : registryKey c = some ns) : BuiltFor ns c.key
  | infra {id key : Text} (h : clusterCacheKey id "infra".toList = .ok key) : BuiltFor .clusterInfra key
  | domain {id key : Text} (h : clusterCacheKey id "domain".toList = .ok key) : BuiltFor .clusterDomain key

/-- A pattern of the namespace matches the key, and its sibling if its name alone cannot tell it
    from one. -/
structure Covered (ns : CacheNamespace) (key : Text) : Prop where
  value : ∃ pattern ∈ ns.spec.invalidationPatterns, globMatch pattern key = true
  sibling : ¬ META <:+ key ∨
    ∃ pattern ∈ ns.spec.invalidationPatterns, isLiteral pattern = false ∧ globMatch pattern (metaKey key) = true

theorem covered_of_literal {ns : CacheNamespace} {key : Text} (hmem : key ∈ ns.spec.invalidationPatterns)
    (hliteral : isLiteral key = true) (hmeta : META.isSuffixOf key = false) : Covered ns key where
  value := ⟨key, hmem, (globMatch_literal hliteral).mpr rfl⟩
  sibling := .inl fun h => by
    rw [List.isSuffixOf_iff_suffix.mpr h] at hmeta
    cases hmeta

theorem covered_of_prefix {ns : CacheNamespace} {literal rest : Text}
    (hmem : literal ++ ['*'] ∈ ns.spec.invalidationPatterns) (hliteral : isLiteral literal = true) :
    Covered ns (literal ++ rest) where
  value := ⟨_, hmem, (globMatch_starred hliteral).mpr ⟨rest, rfl⟩⟩
  sibling := by
    refine .inr ⟨_, hmem, ?_, (globMatch_starred hliteral).mpr ⟨rest ++ META, List.append_assoc _ _ _⟩⟩
    simp [isLiteral]

/-- What a key with arguments begins with. -/
theorem Call.key_begins (c : Call) (hargs : c.args ≠ []) :
    c.key = ([':'].intercalate c.tag.parts ++ [':']) ++ [':'].intercalate c.args := by
  rw [c.key_eq, intercalate_append (Tag.parts_plain c.tag c.tag.mem_all).1 hargs, List.append_assoc]
  rfl

theorem covered_of_tag {ns : CacheNamespace} (c : Call) (t : Tag) (htag : c.tag = t) (hargs : c.args ≠ [])
    (hmem : ([':'].intercalate t.parts ++ [':']) ++ ['*'] ∈ ns.spec.invalidationPatterns)
    (hliteral : isLiteral ([':'].intercalate t.parts ++ [':']) = true) : Covered ns c.key := by
  rw [Call.key_begins c hargs, htag]
  exact covered_of_prefix hmem hliteral

theorem covered_of_fixed {builder : Fixed} {ns : CacheNamespace} (h : fixedRegistryKey builder = some ns) :
    Covered ns builder.key := by
  cases builder <;> first | cases h; exact covered_of_literal (by decide) (by decide) (by decide) | cases h

theorem covered_of_single {builder : Single} {name : Segment} {ns : CacheNamespace}
    (h : singleRegistryKey builder = some ns) : Covered ns (Call.single builder name).key := by
  cases builder <;>
    first
    | cases h
      exact covered_of_tag _ (.single _) rfl (List.cons_ne_nil _ _) (by decide) (by decide)
    | cases h

theorem covered_of_cluster {ns : CacheNamespace} {id resource key : Text} (h : clusterCacheKey id resource = .ok key)
    (hmem : "cluster:".toList ++ '*' :: ':' :: resource ∈ ns.spec.invalidationPatterns)
    (hliteral : isLiteral (':' :: resource) = true) (hlength : META.length ≤ resource.length)
    (hmeta : META.isSuffixOf resource = false) : Covered ns key := by
  unfold clusterCacheKey at h
  split_ifs at h
  obtain rfl := Except.ok.inj h
  constructor
  · refine ⟨_, hmem, (globMatch_append (by decide)).mpr ⟨id ++ ':' :: resource, List.append_assoc _ _ _, ?_⟩⟩
    exact globMatch_star.mpr ⟨id, ':' :: resource, rfl, (globMatch_literal hliteral).mpr rfl⟩
  · refine .inl fun hsuffix => ?_
    have hresource : resource <:+ "cluster:".toList ++ id ++ ':' :: resource :=
      ⟨"cluster:".toList ++ id ++ [':'], by simp⟩
    have hshort := List.suffix_of_suffix_length_le hsuffix hresource hlength
    rw [List.isSuffixOf_iff_suffix.mpr hshort] at hmeta
    cases hmeta

/-- Every key that a builder makes for a namespace is matched by a pattern of the namespace. -/
theorem BuiltFor.covered {ns : CacheNamespace} {key : Text} (h : BuiltFor ns key) : Covered ns key := by
  cases h with
  | call c h =>
    cases c with
    | fixed builder => exact covered_of_fixed h
    | single builder name => exact covered_of_single h
    | myApps userSub scopeFingerprint =>
      cases h
      apply covered_of_tag _ .myApps rfl _ (by decide) (by decide)
      apply List.ne_nil_of_mem (a := scopeFingerprint.val)
      simp [Call.args, scopeFingerprint.ne_nil]
    | k8sPods namespace_ app =>
      cases h
      exact covered_of_tag _ .k8sPods rfl (List.cons_ne_nil _ _) (by decide) (by decide)
    | k8sEvents namespace_ name =>
      cases h
      exact covered_of_tag _ .k8sEvents rfl (List.cons_ne_nil _ _) (by decide) (by decide)
    | k8sResource namespace_ name =>
      cases h
      exact covered_of_tag _ .k8sResource rfl (List.cons_ne_nil _ _) (by decide) (by decide)
    | podsList namespace_ instance_ =>
      cases h
      exact covered_of_tag _ .podsList rfl (List.cons_ne_nil _ _) (by decide) (by decide)
    | podsLogs namespace_ pod container tailLines previous =>
      cases h
      exact covered_of_tag _ .podsLogs rfl (List.cons_ne_nil _ _) (by decide) (by decide)
    | costV2 scope scopeFingerprint pricingKey =>
      cases h
      exact covered_of_tag _ .costV2 rfl (List.cons_ne_nil _ _) (by decide) (by decide)
    | costServiceV2 scopeFingerprint serviceNamespace serviceId pricingKey =>
      cases h
      exact covered_of_tag _ .costServiceV2 rfl (List.cons_ne_nil _ _) (by decide) (by decide)
    | costTrendV2 scope scopeFingerprint serviceNamespace id days pricingKey =>
      cases h
      exact covered_of_tag _ .costTrendV2 rfl (List.cons_ne_nil _ _) (by decide) (by decide)
    | serviceGraphCluster window namespace_ =>
      cases h
      exact covered_of_tag _ .serviceGraphCluster rfl (List.cons_ne_nil _ _) (by decide) (by decide)
    | serviceGraphSvc serviceId window =>
      cases h
      exact covered_of_tag _ .serviceGraphSvc rfl (List.cons_ne_nil _ _) (by decide) (by decide)
    | _ => cases h
  | infra h => exact covered_of_cluster h (by decide) (by decide) (by decide) (by decide)
  | domain h => exact covered_of_cluster h (by decide) (by decide) (by decide) (by decide)

/-! ### The patterns of an event -/

theorem mem_CACHE_NAMESPACES (ns : CacheNamespace) : ns ∈ CACHE_NAMESPACES := by
  cases ns <;> exact List.mem_of_elem_eq_true rfl

theorem mem_invalidationPatternsFor {event : CacheInvalidationEvent} {pattern : Text} :
    pattern ∈ invalidationPatternsFor event ↔
      ∃ ns : CacheNamespace, event ∈ ns.spec.invalidationTriggers ∧ pattern ∈ ns.spec.invalidationPatterns := by
  unfold invalidationPatternsFor
  rw [mem_setOf, List.mem_flatMap]
  constructor
  · rintro ⟨ns, hns, hpattern⟩
    exact ⟨ns, List.contains_iff_mem.mp (List.mem_filter.mp hns).2, hpattern⟩
  · rintro ⟨ns, hevent, hpattern⟩
    exact ⟨ns, List.mem_filter.mpr ⟨mem_CACHE_NAMESPACES ns, List.contains_iff_mem.mpr hevent⟩, hpattern⟩

/-- An exact pattern is matched by no other pattern of its event, and is no sibling. -/
theorem literal_alone : ∀ event, ∀ p ∈ invalidationPatternsFor event, isLiteral p = true →
    META.isSuffixOf p = false ∧ ∀ q ∈ invalidationPatternsFor event, q ≠ p → globMatch q p = false := by
  intro event
  cases event <;> decide +kernel

/-! ### Invalidation -/

/-- What an event invalidates is gone, with its siblings, and the rest is as it was. -/
structure Invalidated (event : CacheInvalidationEvent) (before after : Data) : Prop where
  complete : ∀ ns key, event ∈ ns.spec.invalidationTriggers → BuiltFor ns key → before key ≠ none →
    after key = none ∧ after (metaKey key) = none
  framed : ∀ key, (∀ pattern ∈ invalidationPatternsFor event,
      globMatch pattern key = false ∧ ∀ k, globMatch pattern k = true → key ≠ metaKey k) →
    after key = before key

/-- An exact pattern is skipped without a word while the client takes itself to be disconnected:
    a run that logs no failure invalidates exactly if none is skipped whose key is there. -/
theorem invalidated_iff {turns : Text → Turn} {event : CacheInvalidationEvent} {s s' : Cache}
    (hrun : invalidateFor turns s event = some (s', false))
    (hscanned : Scanned turns s (invalidationPatternsFor event)) :
    Invalidated event s.data s'.data ↔
      ∀ pattern ∈ invalidationPatternsFor event, isLiteral pattern = true →
        (∃ ns, event ∈ ns.spec.invalidationTriggers ∧ BuiltFor ns pattern) →
        connectedAt turns s.isValkeyConnected pattern (invalidationPatternsFor event) = true ∨
          s.data pattern = none := by
  have hdone := invalidateAll_done (nodup_setOf _) hrun hscanned
  constructor
  · rintro h pattern hpattern hliteral ⟨ns, hevent, hbuilt⟩
    by_contra hskipped
    obtain ⟨hconnected, hpresent⟩ := not_or.mp hskipped
    obtain ⟨hmeta, hothers⟩ := literal_alone event pattern hpattern hliteral
    have hnotMeta : ∀ k, pattern ≠ metaKey k := by
      rintro k rfl
      rw [List.isSuffixOf_iff_suffix.mpr (meta_suffix k)] at hmeta
      cases hmeta
    have hkept := hdone.framed pattern fun q hq => by
      by_cases heq : q = pattern
      · subst heq
        refine ⟨fun _ hq => absurd hq hconnected, fun hq => ?_⟩
        rw [hliteral] at hq
        cases hq
      · exact ⟨fun _ _ => ⟨fun h => heq h.symm, hnotMeta q⟩, fun _ => ⟨hothers q hq heq, fun k _ => hnotMeta k⟩⟩
    rw [(h.complete ns pattern hevent hbuilt hpresent).1] at hkept
    exact hpresent hkept.symm
  · intro h
    constructor
    · intro ns key hevent hbuilt hpresent
      have hcovered := hbuilt.covered
      have hgone : s'.data key = none := by
        obtain ⟨pattern, hpattern, hmatch⟩ := hcovered.value
        have hmem := mem_invalidationPatternsFor.mpr ⟨ns, hevent, hpattern⟩
        refine hdone.complete pattern hmem (fun hliteral => ?_) key hmatch
        obtain rfl := (globMatch_literal hliteral).mp hmatch
        exact (h key hmem hliteral ⟨ns, hevent, hbuilt⟩).resolve_right hpresent
      refine ⟨hgone, ?_⟩
      obtain hmeta | ⟨pattern, hpattern, hglob, hmatch⟩ := hcovered.sibling
      · exact hdone.sibling key hmeta hpresent hgone
      · have hmem := mem_invalidationPatternsFor.mpr ⟨ns, hevent, hpattern⟩
        refine hdone.complete pattern hmem (fun hliteral => ?_) _ hmatch
        rw [hglob] at hliteral
        cases hliteral
    · intro key hframe
      apply hdone.framed
      intro pattern hpattern
      obtain ⟨hmatch, hmeta⟩ := hframe pattern hpattern
      refine ⟨fun hliteral _ => ?_, fun _ => ⟨hmatch, hmeta⟩⟩
      have hself := (globMatch_literal (s := pattern) hliteral).mpr rfl
      refine ⟨?_, hmeta pattern hself⟩
      rintro rfl
      rw [hmatch] at hself
      cases hself

/-- The active alerts in the cache. -/
def activeAlerts : Data := Data.empty.set "alerts:active".toList "[]".toList 15 0

theorem invalidationPatternsFor_alertSilenceChanged :
    invalidationPatternsFor .alertSilenceChanged = ["alerts:active".toList] := by
  decide

theorem invalidateFor_alertSilenceChanged (connected : Bool) :
    invalidateFor (fun _ => {}) ⟨connected, activeAlerts⟩ .alertSilenceChanged =
      some (⟨connected,
        if connected then activeAlerts.remove ["alerts:active".toList, metaKey "alerts:active".toList]
        else activeAlerts⟩, false) := by
  have hliteral : isLiteral "alerts:active".toList = true := by decide
  rw [invalidateFor, invalidationPatternsFor_alertSilenceChanged, invalidateAll, invalidatePattern, if_pos hliteral]
  cases connected <;> rfl

theorem scanned_alertSilenceChanged (s : Cache) :
    Scanned (fun _ => {}) s (invalidationPatternsFor .alertSilenceChanged) := by
  rw [invalidationPatternsFor_alertSilenceChanged]
  refine fun s' logged _ => ⟨fun hliteral => ?_, trivial⟩
  rw [show isLiteral "alerts:active".toList = true by decide] at hliteral
  cases hliteral

/-- A node and its readiness in the cache, beside the active alerts. -/
def nodeData : Data :=
  ((activeAlerts.set "k8s:node-readiness".toList "[]".toList 30 0).set "k8s:node:worker-1".toList "{}".toList 30 0).set
    "k8s:node:worker-1:meta".toList "{}".toList 30 0

/-- The scan answers on two pages, of which the first is empty. -/
def nodeTurns (_ : Text) : Turn where
  scans := [.page "5".toList [] [], .page "0".toList ["k8s:node:worker-1".toList] []]

/-- What is left of the data. -/
def nodeDataAfter : Data :=
  (nodeData.remove ["k8s:node-readiness".toList, metaKey "k8s:node-readiness".toList]).remove
    ["k8s:node:worker-1".toList, "k8s:node:worker-1:meta".toList]

theorem invalidationPatternsFor_nodeTuningChanged :
    invalidationPatternsFor .nodeTuningChanged = ["k8s:node-readiness".toList, "k8s:node:*".toList] := by
  decide

theorem invalidateFor_nodeTuningChanged :
    invalidateFor nodeTurns ⟨true, nodeData⟩ .nodeTuningChanged = some (⟨true, nodeDataAfter⟩, false) := by
  rw [invalidateFor, invalidationPatternsFor_nodeTuningChanged]
  rfl

theorem ne_none_of_remove {data : Data} {keys : List Text} {key : Text} (h : data.remove keys key ≠ none) :
    key ∉ keys ∧ data key ≠ none := by
  by_cases hmem : key ∈ keys
  · exact absurd ((without_remove data keys).gone key hmem) h
  · exact ⟨hmem, (without_remove data keys).kept key hmem ▸ h⟩

theorem ne_none_of_set {data : Data} {k value key : Text} {ttlSeconds now : Nat} (h : data.set k value ttlSeconds now key ≠ none) :
    key = k ∨ data key ≠ none := by
  by_cases hkey : key = k
  · exact .inl hkey
  · rw [Data.set, if_neg fun hset => hkey hset.1] at h
    exact .inr h

theorem nodeDataAfter_ne_none {key : Text} (h : nodeDataAfter key ≠ none) : key = "alerts:active".toList := by
  obtain ⟨hworker, h⟩ := ne_none_of_remove h
  obtain ⟨hreadiness, h⟩ := ne_none_of_remove h
  obtain rfl | h := ne_none_of_set h
  · exact absurd (by decide) hworker
  obtain rfl | h := ne_none_of_set h
  · exact absurd (by decide) hworker
  obtain rfl | h := ne_none_of_set h
  · exact absurd (by decide) hreadiness
  · exact (ne_none_of_set h).resolve_right fun hempty => hempty rfl

theorem scanned_nodeTuningChanged : Scanned nodeTurns ⟨true, nodeData⟩ (invalidationPatternsFor .nodeTuningChanged) := by
  rw [invalidationPatternsFor_nodeTuningChanged]
  intro s₁ logged₁ h₁
  obtain ⟨rfl, -⟩ := Prod.mk.inj (Option.some.inj h₁)
  refine ⟨fun hglob => ?_, fun s₂ logged₂ h₂ => ⟨fun _ => ?_, trivial⟩⟩
  · rw [show isLiteral "k8s:node-readiness".toList = true by decide] at hglob
    cases hglob
  · obtain ⟨rfl, -⟩ := Prod.mk.inj (Option.some.inj h₂)
    refine ⟨by decide, fun key hmatch _ hafter => ?_⟩
    rw [nodeDataAfter_ne_none hafter] at hmatch
    exact absurd hmatch (by decide)

theorem invalidated_iff_node : Invalidated .nodeTuningChanged nodeData nodeDataAfter := by
  refine (invalidated_iff invalidateFor_nodeTuningChanged scanned_nodeTuningChanged).mpr ?_
  intro pattern hpattern hliteral _
  rw [invalidationPatternsFor_nodeTuningChanged] at hpattern ⊢
  refine .inl ?_
  obtain rfl | rfl := List.mem_pair.mp hpattern
  · decide
  · cases hliteral

/-- A disconnected client leaves the alerts in the cache and logs nothing. -/
theorem disconnected_keeps_alerts :
    ∃ s', invalidateFor (fun _ => {}) ⟨false, activeAlerts⟩ .alertSilenceChanged = some (s', false) ∧
      Scanned (fun _ => {}) ⟨false, activeAlerts⟩ (invalidationPatternsFor .alertSilenceChanged) ∧
      ¬ Invalidated .alertSilenceChanged activeAlerts s'.data := by
  refine ⟨_, invalidateFor_alertSilenceChanged false, scanned_alertSilenceChanged _, fun h => ?_⟩
  have hkey : activeAlerts "alerts:active".toList ≠ none := by decide
  have hbuilt : BuiltFor .alertsActive "alerts:active".toList := .call (.fixed .alertmanagerActive) rfl
  exact hkey (h.complete .alertsActive _ (by decide) hbuilt hkey).1

end narwhal.portal.cache_invalidation
