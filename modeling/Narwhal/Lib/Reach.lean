import Mathlib.Data.Finset.Card
import Mathlib.Data.Finset.SDiff
import Mathlib.Data.List.Dedup
import Mathlib.Logic.Relation

namespace reach

/-! The states that can be reached in a graph with finitely many of them. -/

section

variable {σ : Type} [DecidableEq σ] {next : σ → List σ}

/-- What one step leads to from a seen state, and is not seen yet. -/
def fresh (next : σ → List σ) (seen : List σ) : List σ := ((seen.flatMap next).filter (· ∉ seen)).dedup

/-- Steps are taken until nothing is new, or the bound on the rounds is reached. -/
def explore (next : σ → List σ) : Nat → List σ → List σ
  | 0, seen => seen
  | rounds + 1, seen => if fresh next seen = [] then seen else explore next rounds (seen ++ fresh next seen)

theorem mem_fresh_iff {seen : List σ} {t : σ} : t ∈ fresh next seen ↔ (∃ s ∈ seen, t ∈ next s) ∧ t ∉ seen := by
  simp [fresh]

theorem mem_explore_of_mem {rounds : Nat} {seen : List σ} {s : σ} (h : s ∈ seen) : s ∈ explore next rounds seen := by
  induction rounds generalizing seen with
  | zero => exact h
  | succ rounds ih =>
    rw [explore]
    split_ifs
    · exact h
    · exact ih (List.mem_append_left _ h)

theorem reachable_of_mem_explore {rounds : Nat} {seen : List σ} {t : σ} (h : t ∈ explore next rounds seen) :
    ∃ s ∈ seen, Relation.ReflTransGen (fun s t => t ∈ next s) s t := by
  induction rounds generalizing seen with
  | zero => exact ⟨t, h, .refl⟩
  | succ rounds ih =>
    rw [explore] at h
    split_ifs at h
    · exact ⟨t, h, .refl⟩
    · obtain ⟨s, hs, hreach⟩ := ih h
      obtain hs | hs := List.mem_append.mp hs
      · exact ⟨s, hs, hreach⟩
      · obtain ⟨⟨s', hs', hstep⟩, -⟩ := mem_fresh_iff.mp hs
        exact ⟨s', hs', .head hstep hreach⟩

theorem closed_of_fresh_eq_nil {seen : List σ} (h : fresh next seen = []) {s t : σ} (hs : s ∈ seen) (ht : t ∈ next s) :
    t ∈ seen := by
  by_contra hnew
  have hmem : t ∈ fresh next seen := mem_fresh_iff.mpr ⟨⟨s, hs, ht⟩, hnew⟩
  rw [h] at hmem
  cases hmem

/-- With a round for each state that is not seen yet, the exploration ends closed. -/
theorem closed_explore {U : Finset σ} (hclosed : ∀ s ∈ U, ∀ t ∈ next s, t ∈ U) {rounds : Nat} {seen : List σ}
    (hseen : ∀ s ∈ seen, s ∈ U) (hrounds : (U \ seen.toFinset).card ≤ rounds) {s t : σ}
    (hs : s ∈ explore next rounds seen) (ht : t ∈ next s) : t ∈ explore next rounds seen := by
  induction rounds generalizing seen with
  | zero =>
    by_contra hnew
    have hmem : t ∈ U \ seen.toFinset :=
      Finset.mem_sdiff.mpr ⟨hclosed s (hseen s hs) t ht, fun h => hnew (List.mem_toFinset.mp h)⟩
    rw [Finset.card_eq_zero.mp (Nat.le_zero.mp hrounds)] at hmem
    exact absurd hmem (Finset.notMem_empty t)
  | succ rounds ih =>
    rw [explore] at hs ⊢
    split_ifs at hs ⊢ with hnone
    · exact closed_of_fresh_eq_nil hnone hs ht
    · have hfresh : ∀ t ∈ fresh next seen, t ∈ U := by
        intro t ht
        obtain ⟨⟨s, hs, hstep⟩, -⟩ := mem_fresh_iff.mp ht
        exact hclosed s (hseen s hs) t hstep
      have hseen' : ∀ s ∈ seen ++ fresh next seen, s ∈ U := by
        intro s hs
        obtain hs | hs := List.mem_append.mp hs
        · exact hseen s hs
        · exact hfresh s hs
      obtain ⟨u, rest, hu⟩ := List.exists_cons_of_ne_nil hnone
      have hu : u ∈ fresh next seen := hu ▸ List.mem_cons_self
      have hfewer : U \ (seen ++ fresh next seen).toFinset ⊂ U \ seen.toFinset := by
        refine Finset.ssubset_iff_of_subset (fun v hv => ?_) |>.mpr ⟨u, ?_, fun hmem => ?_⟩
        · simp only [List.toFinset_append, Finset.mem_sdiff, Finset.mem_union, List.mem_toFinset, not_or] at hv ⊢
          exact ⟨hv.1, hv.2.1⟩
        · exact Finset.mem_sdiff.mpr ⟨hfresh u hu, fun h => (mem_fresh_iff.mp hu).2 (List.mem_toFinset.mp h)⟩
        · exact (Finset.mem_sdiff.mp hmem).2 (List.mem_toFinset.mpr (List.mem_append_right _ hu))
      have hcard := Finset.card_lt_card hfewer
      exact ih hseen' (by omega) hs

/-- The exploration finds what can be reached. -/
theorem mem_explore_iff {U : Finset σ} (hclosed : ∀ s ∈ U, ∀ t ∈ next s, t ∈ U) {rounds : Nat} {seen : List σ}
    (hseen : ∀ s ∈ seen, s ∈ U) (hrounds : (U \ seen.toFinset).card ≤ rounds) {t : σ} :
    t ∈ explore next rounds seen ↔ ∃ s ∈ seen, Relation.ReflTransGen (fun s t => t ∈ next s) s t := by
  constructor
  · exact reachable_of_mem_explore
  · rintro ⟨s, hs, hreach⟩
    induction hreach with
    | refl => exact mem_explore_of_mem hs
    | tail _ hstep ih => exact closed_explore hclosed hseen hrounds ih hstep

end

end reach
