import Narwhal.Portal.ClusterRegistry

open jslib pylib

namespace narwhal.portal.cluster_registry

/-- Two clusters read no credential from the same environment variable. -/
def Separate (c d : Cluster) : Prop :=
  c.credentialRef.apiServerEnvVar ≠ d.credentialRef.apiServerEnvVar ∧
  c.credentialRef.apiServerEnvVar ≠ d.credentialRef.tokenEnvVar ∧
  c.credentialRef.tokenEnvVar ≠ d.credentialRef.apiServerEnvVar ∧
  c.credentialRef.tokenEnvVar ≠ d.credentialRef.tokenEnvVar

instance : DecidableRel Separate := fun c d => by unfold Separate; infer_instance

/-- What the registry promises at every moment. -/
structure Consistent (s : World) : Prop where
  ids : (s.store.map Cluster.id).Nodup
  references : s.store.Pairwise Separate
  nonempty : s.store ≠ []
  kept : s.overwritten = []

instance (s : World) : Decidable (Consistent s) :=
  decidable_of_iff ((s.store.map Cluster.id).Nodup ∧ s.store.Pairwise Separate ∧ s.store ≠ [] ∧ s.overwritten = [])
    ⟨fun ⟨h1, h2, h3, h4⟩ => ⟨h1, h2, h3, h4⟩, fun h => ⟨h.1, h.2, h.3, h.4⟩⟩

/-- The check the call made still passes on the registry it writes to: a cluster that is put
    clashes with no registered one, and a removal leaves another cluster. -/
def Write.Current (store : FileClusterStore) : Write → Prop
  | .put cluster => ∀ c ∈ store, c.id ≠ cluster.id ∧ Separate c cluster
  | .remove id => ∃ c ∈ store, c.id ≠ id

instance (store : FileClusterStore) : ∀ write : Write, Decidable (write.Current store)
  | .put _ => inferInstanceAs (Decidable (∀ _ ∈ _, _))
  | .remove _ => inferInstanceAs (Decidable (∃ _ ∈ _, _))

/-- The step is no write, or one whose check still passes. -/
def Current (s : World) : Op → Prop
  | .start _ => True
  | .finish i => ∀ write ∈ s.waiting[i]?, write.Current s.store

instance (s : World) : ∀ op : Op, Decidable (Current s op)
  | .start _ => inferInstanceAs (Decidable True)
  | .finish _ => inferInstanceAs (Decidable (∀ _ ∈ _, _))

/-! ### One write -/

theorem put_of_fresh {store : FileClusterStore} {cluster : Cluster} (h : ∀ c ∈ store, c.id ≠ cluster.id) :
    store.put cluster = store ++ [cluster] := by
  have hkeep : store.filter (·.id != cluster.id) = store := by
    apply List.filter_eq_self.mpr
    intro c hc
    simpa using h c hc
  rw [FileClusterStore.put, hkeep]

theorem Consistent.put_iff {s : World} (h : Consistent s) (cluster : Cluster) (waiting : List Write) :
    Consistent ⟨s.store.put cluster, waiting, s.overwritten ++ (Write.put cluster).replaces s.store⟩ ↔
      (Write.put cluster).Current s.store := by
  constructor
  · intro hnext c hc
    have hreplaced := hnext.kept
    simp only [h.kept, List.nil_append, Write.replaces, List.filter_eq_nil_iff, beq_iff_eq] at hreplaced
    have hid := hreplaced c hc
    refine ⟨hid, ?_⟩
    have hrefs := hnext.references
    simp only at hrefs
    rw [put_of_fresh hreplaced] at hrefs
    exact (List.pairwise_append.mp hrefs).2.2 c hc cluster List.mem_cons_self
  · intro hcurrent
    have hfresh : ∀ c ∈ s.store, c.id ≠ cluster.id := fun c hc => (hcurrent c hc).1
    refine ⟨?_, ?_, ?_, ?_⟩
    · simp only [put_of_fresh hfresh, List.map_append, List.map_cons, List.map_nil]
      apply List.nodup_append.mpr
      refine ⟨h.ids, by simp, fun id hid id' hid' => ?_⟩
      obtain ⟨c, hc, rfl⟩ := List.mem_map.mp hid
      rw [List.mem_singleton.mp hid']
      exact hfresh c hc
    · simp only [put_of_fresh hfresh]
      apply List.pairwise_append.mpr
      refine ⟨h.references, by simp, fun c hc d hd => ?_⟩
      rw [List.mem_singleton.mp hd]
      exact (hcurrent c hc).2
    · simp [put_of_fresh hfresh]
    · simpa [h.kept, Write.replaces] using hfresh

theorem Consistent.remove_iff {s : World} (h : Consistent s) (id : String) (waiting : List Write) :
    Consistent ⟨s.store.remove id, waiting, s.overwritten ++ (Write.remove id).replaces s.store⟩ ↔
      (Write.remove id).Current s.store := by
  have hsub : (s.store.remove id).Sublist s.store := List.filter_sublist
  constructor
  · intro hnext
    obtain ⟨c, hc⟩ := List.exists_mem_of_ne_nil _ hnext.nonempty
    simp only [FileClusterStore.remove, List.mem_filter, bne_iff_ne, ne_eq] at hc
    exact ⟨c, hc⟩
  · rintro ⟨c, hc, hid⟩
    refine ⟨h.ids.sublist (hsub.map _), h.references.sublist hsub, ?_, ?_⟩
    · apply List.ne_nil_of_mem (a := c)
      simp [FileClusterStore.remove, hc, hid]
    · simp [h.kept, Write.replaces]

/-- From a consistent registry, a step leaves a consistent one exactly when it is current. -/
theorem Consistent.step_iff {s : World} (h : Consistent s) (op : Op) : Consistent (s.step op) ↔ Current s op := by
  cases op with
  | start call => exact iff_of_true ⟨h.ids, h.references, h.nonempty, h.kept⟩ trivial
  | finish i =>
    cases hwrite : s.waiting[i]? with
    | none => simp [World.step, Current, hwrite, h]
    | some write =>
      simp only [World.step, Current, hwrite, Option.mem_def, Option.some.injEq, forall_eq']
      cases write with
      | put cluster => exact h.put_iff cluster _
      | remove id => exact h.remove_iff id _

/-! ### Runs -/

/-- Whatever registrations and removals interleave, the registry keeps its promises as long
    as every write finds the check its call made still passing, and not past the first write
    that does not. -/
theorem registry_consistent_iff_current {s : World} (hstart : Consistent s) {ops : List Op}
    (hrun : Allowed World.step Current s ops) :
    Consistent (s.run ops) ∧ ∀ op, Consistent ((s.run ops).step op) ↔ Current (s.run ops) op := by
  have hreached : Consistent (s.run ops) := hrun.invariant (fun t op ht hop => (ht.step_iff op).mpr hop) hstart
  exact ⟨hreached, hreached.step_iff⟩

/-- A cluster that reads its credentials from two variables of its own. -/
def sampleCluster (id apiServerEnvVar tokenEnvVar : String) : Cluster :=
  ⟨id, id, .staging, .other, none, none, ⟨apiServerEnvVar, tokenEnvVar⟩, DEFAULT_CAPABILITY_PROFILE, .unknown,
    "2026-01-01T00:00:00.000Z", "2026-01-01T00:00:00.000Z"⟩

def sampleInput (id apiServerEnvVar tokenEnvVar : String) : ClusterRegistrationInput :=
  ⟨some id, some id, some "staging", some "other", none, none, some (some apiServerEnvVar, some tokenEnvVar), []⟩

def registered (clusters : List Cluster) : World := ⟨clusters, [], []⟩

/-- One registration, then one removal. -/
def sampleOps : List Op :=
  [.start (.registerCluster (sampleInput "b" "B_API" "B_TOKEN") "2026-01-01T00:00:00.000Z"), .finish 0,
    .start (.removeCluster "a"), .finish 0]

theorem registry_consistent_in_turn :
    Consistent ((registered [sampleCluster "a" "A_API" "A_TOKEN"]).run sampleOps) := by
  have hstart : Consistent (registered [sampleCluster "a" "A_API" "A_TOKEN"]) := by decide
  have hrun : Allowed World.step Current (registered [sampleCluster "a" "A_API" "A_TOKEN"]) sampleOps :=
    ⟨trivial, by decide, trivial, by decide, trivial⟩
  exact (registry_consistent_iff_current hstart hrun).1

/-- Two removals that both read a registry of two clusters leave it empty, and two
    registrations of one id that both read the same registry both succeed. -/
theorem interleaved_calls_break_registry :
    Consistent (registered [sampleCluster "a" "A_API" "A_TOKEN", sampleCluster "b" "B_API" "B_TOKEN"]) ∧
      ((registered [sampleCluster "a" "A_API" "A_TOKEN", sampleCluster "b" "B_API" "B_TOKEN"]).run
        [.start (.removeCluster "a"), .start (.removeCluster "b"), .finish 0, .finish 0]).store = [] ∧
      ((registered [sampleCluster "a" "A_API" "A_TOKEN"]).run
        [.start (.registerCluster (sampleInput "b" "B_API" "B_TOKEN") "2026-01-01T00:00:00.000Z"),
          .start (.registerCluster (sampleInput "b" "C_API" "C_TOKEN") "2026-01-01T00:00:00.000Z"),
          .finish 0, .finish 0]).overwritten = [sampleCluster "b" "B_API" "B_TOKEN"] := by
  decide

end narwhal.portal.cluster_registry
