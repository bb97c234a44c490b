import Narwhal.Lib.Fold
import Narwhal.Lib.JsDouble
import Narwhal.Lib.JsRecord

open jslib

namespace narwhal.portal.failover_eligibility

/-! ### The source -/

inductive FailoverPreconditionId
  | active_relation | a1_plan_approved | a2_traffic_change_approved | service_identity_resolved
  | service_owner_identified | traffic_path_identified | service_scope_authorized | cluster_registered
  | cluster_probe_healthy | capacity_fresh | service_health_fresh | traffic_path_fresh
  | adapter_change_preview_exact | withdrawal_confirmed | storage_volumes_identified
  | source_writer_stopped_or_fenced | destination_data_within_rpo_and_authoritative
  | single_writer_fencing_verified | service_read_write_validated
  deriving DecidableEq

namespace FailoverPreconditionId

def text : FailoverPreconditionId → Text
  | active_relation => "active_relation".toList
  | a1_plan_approved => "a1_plan_approved".toList
  | a2_traffic_change_approved => "a2_traffic_change_approved".toList
  | service_identity_resolved => "service_identity_resolved".toList
  | service_owner_identified => "service_owner_identified".toList
  | traffic_path_identified => "traffic_path_identified".toList
  | service_scope_authorized => "service_scope_authorized".toList
  | cluster_registered => "cluster_registered".toList
  | cluster_probe_healthy => "cluster_probe_healthy".toList
  | capacity_fresh => "capacity_fresh".toList
  | service_health_fresh => "service_health_fresh".toList
  | traffic_path_fresh => "traffic_path_fresh".toList
  | adapter_change_preview_exact => "adapter_change_preview_exact".toList
  | withdrawal_confirmed => "withdrawal_confirmed".toList
  | storage_volumes_identified => "storage_volumes_identified".toList
  | source_writer_stopped_or_fenced => "source_writer_stopped_or_fenced".toList
  | destination_data_within_rpo_and_authoritative => "destination_data_within_rpo_and_authoritative".toList
  | single_writer_fencing_verified => "single_writer_fencing_verified".toList
  | service_read_write_validated => "service_read_write_validated".toList

end FailoverPreconditionId

open FailoverPreconditionId in
def FAILOVER_PRECONDITION_IDS : List FailoverPreconditionId :=
  [active_relation, a1_plan_approved, a2_traffic_change_approved, service_identity_resolved, service_owner_identified,
    traffic_path_identified, service_scope_authorized, cluster_registered, cluster_probe_healthy, capacity_fresh,
    service_health_fresh, traffic_path_fresh, adapter_change_preview_exact, withdrawal_confirmed,
    storage_volumes_identified, source_writer_stopped_or_fenced, destination_data_within_rpo_and_authoritative,
    single_writer_fencing_verified, service_read_write_validated]

open FailoverPreconditionId in
def STATEFUL_PRECONDITIONS : List FailoverPreconditionId :=
  [storage_volumes_identified, source_writer_stopped_or_fenced, destination_data_within_rpo_and_authoritative,
    single_writer_fencing_verified, service_read_write_validated]

inductive FailoverVerdict
  | eligible | ineligible
  deriving DecidableEq

inductive ReasonId
  | precondition (id : FailoverPreconditionId)
  | evidence_missing | evidence_stale | evidence_conflict | invalid_input
  deriving DecidableEq

structure Reason where
  id : ReasonId
  clusterId : Option Text := none
  deriving DecidableEq

structure FailoverEligibilityResult where
  verdict : FailoverVerdict
  reasons : List Reason
  consideredClusterIds : List Text
  deriving DecidableEq

structure FailoverScope where
  team : Text
  tenant : Text
  «namespace» : Text

/-- A property that is a string and not blank. -/
def nonEmptyString (v : Json) (key : Text) : Option Text := (v.getString key).filter nonBlank

/-- The difference of two times, as a number. -/
def elapsed (now observedAt : Int) : ℚ := roundDouble ((now - observedAt : Int) : ℚ)

def scopeOf (input : Json) : Option FailoverScope :=
  match input.get "scope".toList with
  | some scope =>
    match nonEmptyString scope "team".toList, nonEmptyString scope "tenant".toList,
      nonEmptyString scope "namespace".toList with
    | some team, some tenant, some ns => some ⟨team, tenant, ns⟩
    | _, _, _ => none
  | none => none

def inScope (scope : FailoverScope) (cluster : Json) : Bool :=
  cluster.isRecord && cluster.getString "team".toList = some scope.team &&
    cluster.getString "tenant".toList = some scope.tenant && cluster.getString "namespace".toList = some scope.namespace

/-- What is read of a cluster record. -/
structure Candidate where
  clusterId : Text
  preconditions : List Json
  stateful : Bool

def candidateOf (cluster : Json) : Option Candidate :=
  match nonEmptyString cluster "clusterId".toList, (cluster.get "preconditions".toList).bind Json.array,
    cluster.getBoolean "stateful".toList with
  | some clusterId, some preconditions, some stateful => some ⟨clusterId, preconditions, stateful⟩
  | _, _, _ => none

def required (stateful : Bool) : List FailoverPreconditionId :=
  FAILOVER_PRECONDITION_IDS.filter fun id => stateful || id ∉ STATEFUL_PRECONDITIONS

def isEvidence (id : FailoverPreconditionId) (item : Json) : Bool :=
  item.isRecord && item.getString "id".toList = some id.text

section

variable (parse : Option Json → Option Int) (now : Int)

/-- What is wrong with an evidence item. -/
def findingOf (id : FailoverPreconditionId) (evidence : Json) : Option ReasonId :=
  match finiteNumber (evidence.get "maxAgeMs".toList), parse (evidence.get "observedAt".toList) with
  | some maxAgeMs, some observedAt =>
    if nonEmptyString evidence "source".toList = none ∨ evidence.getBoolean "complete".toList ≠ some true ∨ maxAgeMs < 0 ∨
        now < observedAt then some .evidence_stale
    else if maxAgeMs < elapsed now observedAt then some .evidence_stale
    else if evidence.getString "status".toList = some "fail".toList then some (.precondition id)
    else if evidence.getString "status".toList ≠ some "pass".toList then some .evidence_missing
    else none
  | _, _ => some .evidence_stale

/-- The state of the loop. -/
structure State where
  hasFailure : Bool := false
  reasons : List Reason := []
  consideredClusterIds : List Text := []

def State.fail (s : State) (reason : Reason) : State := { s with hasFailure := true, reasons := s.reasons ++ [reason] }

def judgePrecondition (candidate : Candidate) (s : State) (id : FailoverPreconditionId) : State :=
  match candidate.preconditions.filter (isEvidence id) with
  | [] => s.fail ⟨.evidence_missing, candidate.clusterId⟩
  | [evidence] =>
    match findingOf parse now id evidence with
    | some finding => s.fail ⟨finding, candidate.clusterId⟩
    | none => s
  | _ => s.fail ⟨.evidence_conflict, candidate.clusterId⟩

def judgeCluster (scope : FailoverScope) (s : State) (cluster : Json) : State :=
  if inScope scope cluster = false then s
  else
    match candidateOf cluster with
    | none => s.fail ⟨.invalid_input, none⟩
    | some candidate =>
      (required candidate.stateful).foldl (judgePrecondition parse now candidate)
        { s with consideredClusterIds := s.consideredClusterIds ++ [candidate.clusterId] }

/-- The end of the evaluation. -/
def State.result (s : State) : FailoverEligibilityResult :=
  if s.consideredClusterIds = [] ∧ s.reasons = [] then ⟨.ineligible, [⟨.evidence_missing, none⟩], []⟩
  else ⟨if s.hasFailure then .ineligible else .eligible, s.reasons, s.consideredClusterIds⟩

end

/-- `Date.parse` is `parse`, with `none` for `NaN`. -/
def evaluateFailoverEligibility (parse : Option Json → Option Int) (input : Json) : FailoverEligibilityResult :=
  match scopeOf input, (input.get "clusters".toList).bind Json.array, parse (input.get "now".toList) with
  | some scope, some clusters, some now => (clusters.foldl (judgeCluster parse now scope) {}).result
  | _, _, _ => ⟨.ineligible, [⟨.invalid_input, none⟩], []⟩

/-! ### What a run of the loop collects -/

section

variable {parse : Option Json → Option Int} {now : Int} {scope : FailoverScope}

/-- The state with further reasons and considered clusters. -/
def State.collect (s : State) (reasons : List Reason) (clusterIds : List Text) : State :=
  ⟨s.hasFailure || reasons ≠ [], s.reasons ++ reasons, s.consideredClusterIds ++ clusterIds⟩

theorem State.collect_nil (s : State) : s.collect [] [] = s := by
  simp [collect]

theorem State.collect_collect (s : State) (rs rs' : List Reason) (ids ids' : List Text) :
    (s.collect rs ids).collect rs' ids' = s.collect (rs ++ rs') (ids ++ ids') := by
  simp [collect, Bool.or_assoc]

theorem State.fail_eq_collect (s : State) (reason : Reason) : s.fail reason = s.collect [reason] [] := by
  simp [fail, collect]

/-- What one precondition of a cluster adds. -/
def preconditionReasons (parse : Option Json → Option Int) (now : Int) (candidate : Candidate)
    (id : FailoverPreconditionId) : List Reason :=
  match candidate.preconditions.filter (isEvidence id) with
  | [] => [⟨.evidence_missing, candidate.clusterId⟩]
  | [evidence] => ((findingOf parse now id evidence).map fun finding => ⟨finding, some candidate.clusterId⟩).toList
  | _ => [⟨.evidence_conflict, candidate.clusterId⟩]

/-- What one record in scope adds. -/
def clusterReasons (parse : Option Json → Option Int) (now : Int) (cluster : Json) : List Reason :=
  match candidateOf cluster with
  | none => [⟨.invalid_input, none⟩]
  | some candidate => (required candidate.stateful).flatMap (preconditionReasons parse now candidate)

def clusterIdOf (cluster : Json) : List Text := ((candidateOf cluster).map Candidate.clusterId).toList

theorem judgePrecondition_eq (candidate : Candidate) (s : State) (id : FailoverPreconditionId) :
    judgePrecondition parse now candidate s id = s.collect (preconditionReasons parse now candidate id) [] := by
  unfold judgePrecondition preconditionReasons
  split
  · exact s.fail_eq_collect _
  · next evidence _ =>
    cases findingOf parse now id evidence with
    | none => exact s.collect_nil.symm
    | some finding => exact s.fail_eq_collect _
  · exact s.fail_eq_collect _

theorem foldl_judgePrecondition (candidate : Candidate) (ids : List FailoverPreconditionId) (s : State) :
    ids.foldl (judgePrecondition parse now candidate) s =
      s.collect (ids.flatMap (preconditionReasons parse now candidate)) [] := by
  induction ids generalizing s with
  | nil => exact s.collect_nil.symm
  | cons id ids ih => rw [List.foldl_cons, ih, judgePrecondition_eq, State.collect_collect, List.flatMap_cons, List.nil_append]

theorem judgeCluster_eq (s : State) (cluster : Json) :
    judgeCluster parse now scope s cluster =
      if inScope scope cluster = false then s else s.collect (clusterReasons parse now cluster) (clusterIdOf cluster) := by
  unfold judgeCluster clusterReasons clusterIdOf
  split_ifs
  · rfl
  · cases candidateOf cluster with
    | none => exact s.fail_eq_collect _
    | some candidate =>
      have hconsidered : ({ s with consideredClusterIds := s.consideredClusterIds ++ [candidate.clusterId] } : State) =
          s.collect [] [candidate.clusterId] := by
        simp [State.collect]
      dsimp only
      rw [hconsidered, foldl_judgePrecondition, State.collect_collect]
      rfl

/-- Only the records in scope count. -/
theorem foldl_judgeCluster (clusters : List Json) (s : State) :
    clusters.foldl (judgeCluster parse now scope) s =
      s.collect ((clusters.filter (inScope scope)).flatMap (clusterReasons parse now))
        ((clusters.filter (inScope scope)).flatMap clusterIdOf) := by
  induction clusters generalizing s with
  | nil => exact s.collect_nil.symm
  | cons cluster clusters ih =>
    rw [List.foldl_cons, ih, judgeCluster_eq]
    by_cases hscope : inScope scope cluster = true
    · rw [if_neg (by simp [hscope]), State.collect_collect, List.filter_cons_of_pos hscope, List.flatMap_cons,
        List.flatMap_cons]
    · rw [if_pos (by simpa using hscope), List.filter_cons_of_neg hscope]

theorem clusterIdOf_ne_nil {cluster : Json} (h : clusterReasons parse now cluster = []) : clusterIdOf cluster ≠ [] := by
  unfold clusterReasons at h
  unfold clusterIdOf
  cases hcandidate : candidateOf cluster with
  | none =>
    rw [hcandidate] at h
    cases h
  | some candidate => simp

/-- Without reasons there are considered clusters if any is in scope. -/
theorem considered_eq_nil_iff {clusters : List Json}
    (h : ∀ cluster ∈ clusters, inScope scope cluster = true → clusterReasons parse now cluster = []) :
    (clusters.filter (inScope scope)).flatMap clusterIdOf = [] ↔ ¬ ∃ cluster ∈ clusters, inScope scope cluster = true := by
  simp only [List.flatMap_eq_nil_iff, List.mem_filter, and_imp]
  constructor
  · rintro hids ⟨cluster, hmem, hscope⟩
    exact clusterIdOf_ne_nil (h cluster hmem hscope) (hids cluster hmem hscope)
  · intro hnone cluster hmem hscope
    exact absurd ⟨cluster, hmem, hscope⟩ hnone

/-- The loop ends without a failure if no record in scope gives a reason and there is one. -/
theorem result_eligible_iff (clusters : List Json) :
    ((clusters.foldl (judgeCluster parse now scope) {}).result).verdict = .eligible ↔
      (∃ cluster ∈ clusters, inScope scope cluster = true) ∧
        ∀ cluster ∈ clusters, inScope scope cluster = true → clusterReasons parse now cluster = [] := by
  have hreasons : (clusters.filter (inScope scope)).flatMap (clusterReasons parse now) = [] ↔
      ∀ cluster ∈ clusters, inScope scope cluster = true → clusterReasons parse now cluster = [] := by
    simp only [List.flatMap_eq_nil_iff, List.mem_filter, and_imp]
  rw [foldl_judgeCluster, ← hreasons]
  simp only [State.collect, State.result, List.nil_append, Bool.false_or]
  by_cases hnil : (clusters.filter (inScope scope)).flatMap (clusterReasons parse now) = []
  · have hids := considered_eq_nil_iff (hreasons.mp hnil)
    by_cases hsome : ∃ cluster ∈ clusters, inScope scope cluster = true
    · rw [if_neg fun h => hids.mp h.1 hsome]
      simp [hnil, hsome]
    · rw [if_pos ⟨hids.mpr hsome, hnil⟩]
      simp [hsome]
  · rw [if_neg fun h => hnil h.2]
    simp [hnil]

end

/-! ### Eligibility -/

section

variable (age : Int → Int → ℚ) (parse : Option Json → Option Int) (now : Int)

/-- An evidence item that passes, with this measure of its age. -/
structure Supports (evidence : Json) : Prop where
  complete : evidence.getBoolean "complete".toList = some true
  source : ∃ source, evidence.getString "source".toList = some source ∧ nonBlank source = true
  timely : ∃ observedAt maxAgeMs, parse (evidence.get "observedAt".toList) = some observedAt ∧ observedAt ≤ now ∧
    finiteNumber (evidence.get "maxAgeMs".toList) = some maxAgeMs ∧ age now observedAt ≤ maxAgeMs
  status : evidence.getString "status".toList = some "pass".toList

/-- A well-formed record with one item for each precondition, which supports it. -/
structure Ready (cluster : Json) (candidate : Candidate) : Prop where
  wellFormed : candidateOf cluster = some candidate
  supported : ∀ id ∈ required candidate.stateful,
    ∃ evidence, candidate.preconditions.filter (isEvidence id) = [evidence] ∧ Supports age parse now evidence

/-- A well-formed input. -/
structure WellFormed (input : Json) (scope : FailoverScope) (clusters : List Json) : Prop where
  scope : scopeOf input = some scope
  clusters : input.get "clusters".toList = some (.arr clusters)
  now : parse (input.get "now".toList) = some now

end

/-- What eligibility means. -/
def Eligible (age : Int → Int → ℚ) (parse : Option Json → Option Int) (input : Json) : Prop :=
  ∃ now scope clusters, WellFormed parse now input scope clusters ∧
    (∃ cluster ∈ clusters, inScope scope cluster = true) ∧
      ∀ cluster ∈ clusters, inScope scope cluster = true → ∃ candidate, Ready age parse now cluster candidate

/-! ### The verdict -/

theorem elapsed_nonneg {now observedAt : Int} (h : observedAt ≤ now) : 0 ≤ elapsed now observedAt :=
  roundDouble_nonneg (Int.cast_nonneg (Int.sub_nonneg.mpr h))

section

variable {parse : Option Json → Option Int} {now : Int} {cluster : Json} {candidate : Candidate}

theorem nonEmptyString_ne_none_iff {v : Json} {key : Text} :
    nonEmptyString v key ≠ none ↔ ∃ s, v.getString key = some s ∧ nonBlank s = true := by
  rw [nonEmptyString, ← Option.isSome_iff_ne_none, Option.isSome_iff_exists]
  simp only [Option.filter_eq_some_iff]

/-- Nothing is wrong with an item that supports its precondition. -/
theorem findingOf_eq_none_iff (id : FailoverPreconditionId) {evidence : Json} :
    findingOf parse now id evidence = none ↔ Supports elapsed parse now evidence := by
  unfold findingOf
  constructor
  · intro h
    split at h
    · next maxAgeMs observedAt hmaxAge hobserved =>
      split_ifs at h with hguard hage hfail hpass
      · rw [not_or, not_or, not_or, not_not, not_lt, not_lt] at hguard
        exact ⟨hguard.2.1, nonEmptyString_ne_none_iff.mp hguard.1,
          ⟨observedAt, maxAgeMs, hobserved, hguard.2.2.2, hmaxAge, not_lt.mp hage⟩, not_not.mp hpass⟩
    · cases h
  · rintro ⟨hcomplete, hsource, ⟨observedAt, maxAgeMs, hobserved, hle, hmaxAge, hage⟩, hstatus⟩
    have hnonneg := (elapsed_nonneg hle).trans hage
    have hnonempty := nonEmptyString_ne_none_iff.mpr hsource
    have hfail : some "pass".toList ≠ some "fail".toList := by decide
    simp only [hmaxAge, hobserved, hcomplete, hstatus, hnonempty, hfail, hnonneg.not_gt, hle.not_gt, hage.not_gt,
      ne_eq, not_true_eq_false, or_self, if_false]

theorem preconditionReasons_eq_nil_iff {id : FailoverPreconditionId} :
    preconditionReasons parse now candidate id = [] ↔
      ∃ evidence, candidate.preconditions.filter (isEvidence id) = [evidence] ∧ Supports elapsed parse now evidence := by
  unfold preconditionReasons
  split
  · next h => simp [h]
  · next evidence h =>
    simp only [h, List.cons.injEq, and_true, exists_eq_left', ← findingOf_eq_none_iff id]
    cases findingOf parse now id evidence <;> simp
  · next hnil hone =>
    constructor
    · intro h
      cases h
    · rintro ⟨evidence, h, -⟩
      exact absurd h (hone evidence)

theorem clusterReasons_eq_nil_iff :
    clusterReasons parse now cluster = [] ↔ ∃ candidate, Ready elapsed parse now cluster candidate := by
  unfold clusterReasons
  cases hcandidate : candidateOf cluster with
  | none =>
    constructor
    · intro h
      cases h
    · rintro ⟨candidate, hready⟩
      rw [hready.wellFormed] at hcandidate
      cases hcandidate
  | some candidate =>
    dsimp only
    rw [List.flatMap_eq_nil_iff]
    simp only [preconditionReasons_eq_nil_iff]
    constructor
    · intro h
      exact ⟨candidate, hcandidate, h⟩
    · rintro ⟨candidate', hready⟩
      obtain rfl : candidate' = candidate := Option.some.inj (hready.wellFormed.symm.trans hcandidate)
      exact hready.supported

end

theorem wellFormed_of_ne_invalid (parse : Option Json → Option Int) (input : Json) :
    (∃ now scope clusters, WellFormed parse now input scope clusters ∧
      evaluateFailoverEligibility parse input = (clusters.foldl (judgeCluster parse now scope) {}).result) ∨
    (∀ now scope clusters, ¬ WellFormed parse now input scope clusters) ∧
      evaluateFailoverEligibility parse input = ⟨.ineligible, [⟨.invalid_input, none⟩], []⟩ := by
  unfold evaluateFailoverEligibility
  split
  · next scope clusters now hscope hclusters hnow =>
    obtain ⟨value, hvalue, harray⟩ := Option.bind_eq_some_iff.mp hclusters
    obtain rfl := Json.array_eq_some harray
    exact .inl ⟨now, scope, clusters, ⟨hscope, hvalue, hnow⟩, rfl⟩
  · next hnot =>
    refine .inr ⟨fun now scope clusters h => ?_, rfl⟩
    refine hnot scope clusters now h.scope ?_ h.now
    rw [h.clusters]
    rfl

theorem eligible_iff {parse : Option Json → Option Int} {input : Json} :
    (evaluateFailoverEligibility parse input).verdict = .eligible ↔ Eligible elapsed parse input := by
  obtain ⟨now, scope, clusters, hwell, heval⟩ | ⟨hnot, heval⟩ := wellFormed_of_ne_invalid parse input
  · rw [heval, result_eligible_iff]
    simp only [clusterReasons_eq_nil_iff]
    constructor
    · intro h
      exact ⟨now, scope, clusters, hwell, h⟩
    · rintro ⟨now', scope', clusters', hwell', h⟩
      obtain rfl : now' = now := Option.some.inj (hwell'.now.symm.trans hwell.now)
      obtain rfl : scope' = scope := Option.some.inj (hwell'.scope.symm.trans hwell.scope)
      obtain rfl : clusters' = clusters := Json.arr.inj (Option.some.inj (hwell'.clusters.symm.trans hwell.clusters))
      exact h
  · rw [heval]
    constructor
    · intro h
      cases h
    · rintro ⟨now, scope, clusters, hwell, -⟩
      exact absurd hwell (hnot now scope clusters)

/-! ### The order of the records -/

/-- The same record, with its evidence items in some order. -/
structure SameRecord (cluster cluster' : Json) : Prop where
  isRecord : cluster'.isRecord = cluster.isRecord
  fields : ∀ key, key ≠ "preconditions".toList → cluster'.get key = cluster.get key
  preconditions : cluster'.get "preconditions".toList = cluster.get "preconditions".toList ∨
    ∃ items items', cluster.get "preconditions".toList = some (.arr items) ∧
      cluster'.get "preconditions".toList = some (.arr items') ∧ items.Perm items'

/-- The same input, with its clusters and their evidence items in some order. -/
structure Rearranged (input input' : Json) : Prop where
  scope : input'.get "scope".toList = input.get "scope".toList
  now : input'.get "now".toList = input.get "now".toList
  clusters : ∃ clusters clusters' permuted, input.get "clusters".toList = some (.arr clusters) ∧
    input'.get "clusters".toList = some (.arr clusters') ∧ clusters.Perm permuted ∧
      List.Forall₂ SameRecord permuted clusters'

theorem SameRecord.symm {cluster cluster' : Json} (h : SameRecord cluster cluster') : SameRecord cluster' cluster where
  isRecord := h.isRecord.symm
  fields key hkey := (h.fields key hkey).symm
  preconditions := by
    rcases h.preconditions with heq | ⟨items, items', hget, hget', hperm⟩
    · exact .inl heq.symm
    · exact .inr ⟨items', items, hget', hget, hperm.symm⟩

theorem SameRecord.inScope_eq {cluster cluster' : Json} (h : SameRecord cluster cluster') (scope : FailoverScope) :
    inScope scope cluster' = inScope scope cluster := by
  have hteam := h.fields "team".toList (by decide)
  have htenant := h.fields "tenant".toList (by decide)
  have hns := h.fields "namespace".toList (by decide)
  unfold inScope Json.getString
  rw [h.isRecord, hteam, htenant, hns]

theorem candidateOf_eq_some_iff {cluster : Json} {candidate : Candidate} : candidateOf cluster = some candidate ↔
    nonEmptyString cluster "clusterId".toList = some candidate.clusterId ∧
      cluster.get "preconditions".toList = some (.arr candidate.preconditions) ∧
      cluster.getBoolean "stateful".toList = some candidate.stateful := by
  unfold candidateOf
  constructor
  · intro h
    split at h
    · next clusterId preconditions stateful hid hpreconditions hstateful =>
      obtain rfl := Option.some.inj h
      obtain ⟨value, hvalue, harray⟩ := Option.bind_eq_some_iff.mp hpreconditions
      obtain rfl := Json.array_eq_some harray
      exact ⟨hid, hvalue, hstateful⟩
    · cases h
  · rintro ⟨hid, hpreconditions, hstateful⟩
    simp only [hid, hpreconditions, hstateful, Option.bind_some, Json.array]

theorem SameRecord.ready {age : Int → Int → ℚ} {parse : Option Json → Option Int} {now : Int} {cluster cluster' : Json}
    {candidate : Candidate} (h : SameRecord cluster cluster') (hready : Ready age parse now cluster candidate) :
    ∃ candidate', Ready age parse now cluster' candidate' := by
  obtain ⟨hid, hpreconditions, hstateful⟩ := candidateOf_eq_some_iff.mp hready.wellFormed
  have hid' : nonEmptyString cluster' "clusterId".toList = some candidate.clusterId := by
    unfold nonEmptyString Json.getString at hid ⊢
    rw [h.fields "clusterId".toList (by decide)]
    exact hid
  have hstateful' : cluster'.getBoolean "stateful".toList = some candidate.stateful := by
    unfold Json.getBoolean at hstateful ⊢
    rw [h.fields "stateful".toList (by decide)]
    exact hstateful
  have hitems : ∃ items', cluster'.get "preconditions".toList = some (.arr items') ∧
      candidate.preconditions.Perm items' := by
    rcases h.preconditions with heq | ⟨items, items', hget, hget', hperm⟩
    · exact ⟨candidate.preconditions, heq.trans hpreconditions, .refl _⟩
    · obtain rfl := Json.arr.inj (Option.some.inj (hpreconditions.symm.trans hget))
      exact ⟨items', hget', hperm⟩
  obtain ⟨items', hget', hperm⟩ := hitems
  refine ⟨⟨candidate.clusterId, items', candidate.stateful⟩, candidateOf_eq_some_iff.mpr ⟨hid', hget', hstateful'⟩, ?_⟩
  intro id hmem
  obtain ⟨evidence, hone, hsupports⟩ := hready.supported id hmem
  have hfilter := hperm.filter (isEvidence id)
  rw [hone] at hfilter
  exact ⟨evidence, (List.singleton_perm.mp hfilter).symm, hsupports⟩

/-- Every record of either list is a record of the other. -/
theorem Rearranged.records {input input' : Json} {clusters clusters' : List Json} (h : Rearranged input input')
    (hclusters : input.get "clusters".toList = some (.arr clusters))
    (hclusters' : input'.get "clusters".toList = some (.arr clusters')) :
    (∀ cluster ∈ clusters, ∃ cluster' ∈ clusters', SameRecord cluster cluster') ∧
      ∀ cluster' ∈ clusters', ∃ cluster ∈ clusters, SameRecord cluster cluster' := by
  obtain ⟨others, others', permuted, hget, hget', hperm, hsame⟩ := h.clusters
  obtain rfl := Json.arr.inj (Option.some.inj (hclusters.symm.trans hget))
  obtain rfl := Json.arr.inj (Option.some.inj (hclusters'.symm.trans hget'))
  constructor
  · intro cluster hmem
    obtain ⟨i, hi, rfl⟩ := List.mem_iff_getElem.mp (hperm.mem_iff.mp hmem)
    have hi' : i < clusters'.length := hsame.length_eq ▸ hi
    exact ⟨clusters'[i], List.getElem_mem hi', hsame.get hi hi'⟩
  · intro cluster' hmem
    obtain ⟨i, hi', rfl⟩ := List.mem_iff_getElem.mp hmem
    have hi : i < permuted.length := hsame.length_eq.symm ▸ hi'
    exact ⟨permuted[i], hperm.mem_iff.mpr (List.getElem_mem hi), hsame.get hi hi'⟩

theorem Rearranged.eligible_iff {age : Int → Int → ℚ} {parse : Option Json → Option Int} {input input' : Json}
    (h : Rearranged input input') : Eligible age parse input' ↔ Eligible age parse input := by
  have hscope : scopeOf input' = scopeOf input := by
    unfold scopeOf
    rw [h.scope]
  constructor
  · rintro ⟨now, scope, clusters', hwell', ⟨cluster', hmem', hin'⟩, hready⟩
    obtain ⟨clusters, -, -, hget, -, -, -⟩ := h.clusters
    obtain ⟨hinto, honto⟩ := h.records hget hwell'.clusters
    refine ⟨now, scope, clusters, ⟨hscope ▸ hwell'.scope, hget, h.now ▸ hwell'.now⟩, ?_, ?_⟩
    · obtain ⟨cluster, hmem, hsame⟩ := honto cluster' hmem'
      exact ⟨cluster, hmem, hsame.inScope_eq scope ▸ hin'⟩
    · intro cluster hmem hin
      obtain ⟨other, hother, hsame⟩ := hinto cluster hmem
      obtain ⟨candidate, hcandidate⟩ := hready other hother (hsame.inScope_eq scope ▸ hin)
      exact hsame.symm.ready hcandidate
  · rintro ⟨now, scope, clusters, hwell, ⟨cluster, hmem, hin⟩, hready⟩
    obtain ⟨-, clusters', -, -, hget', -, -⟩ := h.clusters
    obtain ⟨hinto, honto⟩ := h.records hwell.clusters hget'
    refine ⟨now, scope, clusters', ⟨hscope ▸ hwell.scope, hget', h.now ▸ hwell.now⟩, ?_, ?_⟩
    · obtain ⟨cluster', hmem', hsame⟩ := hinto cluster hmem
      exact ⟨cluster', hmem', hsame.inScope_eq scope ▸ hin⟩
    · intro cluster' hmem' hin'
      obtain ⟨other, hother, hsame⟩ := honto cluster' hmem'
      obtain ⟨candidate, hcandidate⟩ := hready other hother (hsame.inScope_eq scope ▸ hin')
      exact hsame.ready hcandidate

/-- Two inputs differ at most in records outside the scope. -/
structure SameInScope (input input' : Json) (clusters clusters' : List Json) : Prop where
  scope : input'.get "scope".toList = input.get "scope".toList
  now : input'.get "now".toList = input.get "now".toList
  before : input.get "clusters".toList = some (.arr clusters)
  after : input'.get "clusters".toList = some (.arr clusters')
  candidates : ∀ scope, scopeOf input = some scope →
    clusters'.filter (inScope scope) = clusters.filter (inScope scope)

/-- The verdict is what eligibility means, in every order of the records and the evidence, and
records outside the scope play no part in the result. -/
theorem eligibility_exact (parse : Option Json → Option Int) :
    (∀ input, (evaluateFailoverEligibility parse input).verdict = .eligible ↔ Eligible elapsed parse input) ∧
      (∀ input input', Rearranged input input' →
        (evaluateFailoverEligibility parse input').verdict = (evaluateFailoverEligibility parse input).verdict) ∧
      ∀ input input' clusters clusters', SameInScope input input' clusters clusters' →
        evaluateFailoverEligibility parse input' = evaluateFailoverEligibility parse input := by
  refine ⟨fun input => eligible_iff, ?_, ?_⟩
  · intro input input' h
    have hbefore : (evaluateFailoverEligibility parse input).verdict = .eligible ↔ _ := eligible_iff
    have hiff := eligible_iff.trans (h.eligible_iff.trans hbefore.symm)
    cases hverdict : (evaluateFailoverEligibility parse input).verdict with
    | eligible => exact hiff.mpr hverdict
    | ineligible =>
      cases hverdict' : (evaluateFailoverEligibility parse input').verdict with
      | eligible => exact absurd (hiff.mp hverdict') (by rw [hverdict]; decide)
      | ineligible => rfl
  · intro input input' clusters clusters' h
    have hscope : scopeOf input' = scopeOf input := by
      unfold scopeOf
      rw [h.scope]
    unfold evaluateFailoverEligibility
    rw [hscope, h.now, h.before, h.after]
    cases hsome : scopeOf input with
    | none => rfl
    | some scope =>
      cases parse (input.get "now".toList) with
      | none => rfl
      | some now => simp only [Option.bind_some, Json.array, foldl_judgeCluster, h.candidates scope hsome]

/-! ### Ages beyond double precision -/

/-- `Date.parse`, for the texts that `toISOString` writes. -/
def parseIso (v : Option Json) : Option Int := (v.bind Json.string).bind (dateParse fun _ => none)

def ancientMaxAge : Number := ⟨"9007199254740992".toList, by decide, List.all_eq_true.mp (by decide)⟩

/-- An evidence item observed 9007199254740993 ms before the time of the input, and good for one less. -/
def ancientEvidence (id : FailoverPreconditionId) : Json :=
  .obj [("id".toList, .str id.text), ("status".toList, .str "pass".toList),
    ("observedAt".toList, .str "-140744-08-10T07:30:29.503Z".toList),
    ("maxAgeMs".toList, .num ancientMaxAge), ("source".toList, .str "probe".toList),
    ("complete".toList, .bool true)]

def ancientRecord : Json :=
  .obj [("clusterId".toList, .str "c1".toList), ("team".toList, .str "a".toList), ("tenant".toList, .str "t".toList),
    ("namespace".toList, .str "n".toList), ("stateful".toList, .bool false),
    ("preconditions".toList, .arr ((required false).map ancientEvidence))]

def ancientInput : Json :=
  .obj [("scope".toList, .obj [("team".toList, .str "a".toList), ("tenant".toList, .str "t".toList),
      ("namespace".toList, .str "n".toList)]), ("clusters".toList, .arr [ancientRecord]),
    ("now".toList, .str "+144683-05-23T16:29:30.496Z".toList)]

theorem ancient_now : parseIso (ancientInput.get "now".toList) = some 4503599627370496 := by decide

theorem ancient_observed (id : FailoverPreconditionId) :
    parseIso ((ancientEvidence id).get "observedAt".toList) = some (-4503599627370497) := by
  have hget : (ancientEvidence id).get "observedAt".toList = some (.str "-140744-08-10T07:30:29.503Z".toList) := rfl
  rw [hget]
  decide

theorem ancient_evidence (id : FailoverPreconditionId) (h : id ∈ required false) :
    ((required false).map ancientEvidence).filter (isEvidence id) = [ancientEvidence id] := by
  cases id
  all_goals first | rfl | exact absurd h (by decide)

theorem roundDouble_half : roundDouble 9007199254740993 = 9007199254740992 := by
  have hulp := ulp_natCast_of_54_digits (n := 9007199254740993) (by norm_num) (by norm_num)
  rw [Nat.cast_ofNat] at hulp
  rw [roundDouble, hulp]
  norm_num [roundHalfEven]

theorem roundDouble_even : roundDouble 9007199254740992 = 9007199254740992 := by
  have hulp := ulp_natCast_of_54_digits (n := 9007199254740992) (by norm_num) (by norm_num)
  rw [Nat.cast_ofNat] at hulp
  rw [roundDouble, hulp]
  norm_num [roundHalfEven]

theorem ancient_elapsed : elapsed 4503599627370496 (-4503599627370497) = 9007199254740992 := by
  unfold elapsed
  norm_num [roundDouble_half]

theorem ancient_maxAge (id : FailoverPreconditionId) :
    finiteNumber ((ancientEvidence id).get "maxAgeMs".toList) = some 9007199254740992 := by
  have hget : (ancientEvidence id).get "maxAgeMs".toList = some (.num ancientMaxAge) := rfl
  have hread : parseFloat ancientMaxAge.text = .finite 9007199254740992 := by
    have hnumber : parseFloat ancientMaxAge.text = .ofRat false (9007199254740992 * 10 ^ (0 - 0 : ℤ)) := rfl
    have hlarge : (2 : ℚ) ^ 54 ≤ 2 ^ 1024 := pow_le_pow_right₀ (by norm_num) (by norm_num)
    have hsmall : ¬ (2 : ℚ) ^ 1024 ≤ 9007199254740992 :=
      ((by norm_num : (9007199254740992 : ℚ) < 2 ^ 54).trans_le hlarge).not_ge
    rw [hnumber]
    norm_num [Double.ofRat, roundDouble_even, hsmall]
  rw [hget]
  simp only [finiteNumber, hread]
  rfl

theorem ancient_inScope : inScope ⟨"a".toList, "t".toList, "n".toList⟩ ancientRecord = true := by decide

theorem ancient_wellFormed : WellFormed parseIso 4503599627370496 ancientInput ⟨"a".toList, "t".toList, "n".toList⟩
    [ancientRecord] where
  scope := rfl
  clusters := rfl
  now := ancient_now

theorem ancient_candidate : candidateOf ancientRecord =
    some ⟨"c1".toList, (required false).map ancientEvidence, false⟩ := rfl

theorem ancient_eligible : Eligible elapsed parseIso ancientInput := by
  refine ⟨_, _, _, ancient_wellFormed, ⟨ancientRecord, by simp, ancient_inScope⟩, fun cluster hmem _ => ?_⟩
  obtain rfl := List.mem_singleton.mp hmem
  refine ⟨_, ancient_candidate, fun id hid => ⟨ancientEvidence id, ancient_evidence id hid, rfl, ?_, ?_, rfl⟩⟩
  · exact ⟨"probe".toList, rfl, by decide⟩
  · exact ⟨_, _, ancient_observed id, by decide, ancient_maxAge id, ancient_elapsed.le⟩

/-- An item that is too old by one millisecond passes, as the age is rounded. -/
theorem rounded_age_passes :
    (evaluateFailoverEligibility parseIso ancientInput).verdict = .eligible ∧
      ¬ Eligible (fun now observedAt => ((now - observedAt : Int) : ℚ)) parseIso ancientInput := by
  refine ⟨eligible_iff.mpr ancient_eligible, ?_⟩
  rintro ⟨now, scope, clusters, hwell, -, hready⟩
  obtain rfl := Option.some.inj (hwell.now.symm.trans ancient_now)
  obtain rfl := Option.some.inj (hwell.scope.symm.trans ancient_wellFormed.scope)
  obtain rfl := Json.arr.inj (Option.some.inj (hwell.clusters.symm.trans ancient_wellFormed.clusters))
  obtain ⟨candidate, hcandidate, hsupported⟩ := hready ancientRecord (by simp) ancient_inScope
  obtain rfl := Option.some.inj (hcandidate.symm.trans ancient_candidate)
  have hrequired : FailoverPreconditionId.active_relation ∈ required false := by decide
  obtain ⟨evidence, hone, -, -, ⟨observedAt, maxAgeMs, hobserved, -, hmaxAge, hage⟩, -⟩ := hsupported _ hrequired
  obtain rfl := List.head_eq_of_cons_eq (hone.symm.trans (ancient_evidence _ hrequired))
  obtain rfl := Option.some.inj (hobserved.symm.trans (ancient_observed _))
  obtain rfl := Option.some.inj (hmaxAge.symm.trans (ancient_maxAge _))
  norm_num at hage

end narwhal.portal.failover_eligibility
