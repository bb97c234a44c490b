import Mathlib.Data.List.Nodup
import Mathlib.Data.List.Sort

namespace ranking

/-! The first items of a list that is sorted by a score, the highest first, where items of one score
keep their order. -/

section Pairs

variable {α : Type} [DecidableEq α] {l : List α} {a b : α}

/-- In a list without repetitions a pair is a sublist if its items stand in that order. -/
theorem pair_sublist_iff (h : l.Nodup) : [a, b].Sublist l ↔ a ∈ l ∧ b ∈ l ∧ l.idxOf a < l.idxOf b := by
  induction l with
  | nil => simp
  | cons c l ih =>
    obtain ⟨hnot, hrest⟩ := List.nodup_cons.mp h
    by_cases hac : c = a
    · subst hac
      rw [List.cons_sublist_cons, List.singleton_sublist]
      constructor
      · intro hb
        have hcb : c ≠ b := by
          rintro rfl
          exact hnot hb
        simp [hb, List.idxOf_cons_ne l hcb]
      · rintro ⟨-, hb, hlt⟩
        obtain rfl | hb := List.mem_cons.mp hb
        · exact absurd hlt (lt_irrefl _)
        · exact hb
    · have hsub : [a, b].Sublist (c :: l) ↔ [a, b].Sublist l := by
        refine ⟨fun hs => ?_, fun hs => hs.cons c⟩
        cases hs with
        | cons _ hs => exact hs
        | cons_cons _ _ => exact absurd rfl hac
      rw [hsub, ih hrest, List.mem_cons, List.mem_cons, List.idxOf_cons_ne l hac]
      by_cases hbc : c = b
      · subst hbc
        simp [hnot]
      · simp [List.idxOf_cons_ne l hbc, Ne.symm hac, Ne.symm hbc]

end Pairs

variable {α γ : Type} [LinearOrder γ] (score : α → γ) (l : List α)

def ranked : List α := l.insertionSort fun a b => score b ≤ score a

section

variable {score l} {a : α}

theorem mem_ranked : a ∈ ranked score l ↔ a ∈ l := List.mem_insertionSort _

theorem nodup_ranked (h : l.Nodup) : (ranked score l).Nodup := (List.perm_insertionSort _ _).nodup_iff.mpr h

theorem length_ranked : (ranked score l).length = l.length := List.length_insertionSort _ _

end

variable [DecidableEq α]

/-- An item ranks ahead of another: its score is higher, or it is the same and the item comes first. -/
def Ahead (a b : α) : Prop := score b < score a ∨ score a = score b ∧ l.idxOf a < l.idxOf b

instance (a b : α) : Decidable (Ahead score l a b) := inferInstanceAs (Decidable (_ ∨ _))

variable {score l} {a b : α} {k : Nat}

theorem Ahead.le (h : Ahead score l a b) : score b ≤ score a := h.elim le_of_lt fun h => h.1.ge

theorem Ahead.asymm (h : Ahead score l a b) : ¬ Ahead score l b a := by
  rintro (h' | ⟨heq', hlt'⟩)
  · exact (h'.trans_le h.le).false
  · obtain h | ⟨-, hlt⟩ := h
    · exact h.ne heq'
    · exact (hlt.trans hlt').false

theorem pairwise_ranked (h : l.Nodup) : (ranked score l).Pairwise (Ahead score l) := by
  have htotal : Std.Total fun a b : α => score b ≤ score a := ⟨fun a b => le_total _ _⟩
  have htrans : IsTrans α fun a b => score b ≤ score a := ⟨fun a b c hab hbc => hbc.trans hab⟩
  have hsorted : (ranked score l).Pairwise fun a b => score b ≤ score a := List.pairwise_insertionSort _ _
  rw [List.pairwise_iff_forall_sublist] at hsorted ⊢
  intro a b hab
  obtain ⟨ha, hb, hlt⟩ := (pair_sublist_iff (nodup_ranked h)).mp hab
  obtain hscore | hscore := (hsorted hab).lt_or_eq
  · exact .inl hscore
  · refine .inr ⟨hscore.symm, ?_⟩
    by_contra hnot
    have hne : b ≠ a := by
      rintro rfl
      exact hlt.false
    have hidx : l.idxOf b ≠ l.idxOf a := fun heq => hne ((List.idxOf_inj (mem_ranked.mp hb)).mp heq)
    have hba : [b, a].Sublist l := (pair_sublist_iff h).mpr ⟨mem_ranked.mp hb, mem_ranked.mp ha, by omega⟩
    have hstable := List.pair_sublist_insertionSort (r := fun a b => score b ≤ score a) hscore.ge hba
    have hlt' := ((pair_sublist_iff (nodup_ranked h)).mp hstable).2.2
    omega

/-- What is among the first ranks ahead of what is not. -/
theorem ahead_of_not_mem_take (h : l.Nodup) (ha : a ∈ (ranked score l).take k) (hb : b ∈ l)
    (hnot : b ∉ (ranked score l).take k) : Ahead score l a b := by
  have hsplit : (ranked score l).take k ++ (ranked score l).drop k = ranked score l := List.take_append_drop _ _
  have hpairwise : (ranked score l).Pairwise (Ahead score l) := pairwise_ranked h
  have hmem : b ∈ ranked score l := mem_ranked.mpr hb
  rw [← hsplit] at hpairwise hmem
  obtain hmem | hmem := List.mem_append.mp hmem
  · exact absurd hmem hnot
  · exact (List.pairwise_append.mp hpairwise).2.2 a ha b hmem

/-- An item is not among the first where as many others rank ahead of it. -/
theorem not_mem_take (h : l.Nodup) {others : List α} (hnodup : others.Nodup) (hmem : ∀ a ∈ others, a ∈ l)
    (hahead : ∀ a ∈ others, Ahead score l a b) (hlength : k ≤ others.length) : b ∉ (ranked score l).take k := by
  intro hb
  have hsub : ∀ a ∈ others, a ∈ (ranked score l).take k := by
    intro a ha
    by_contra hnot
    exact (hahead a ha).asymm (ahead_of_not_mem_take h hb (hmem a ha) hnot)
  have hnot : b ∉ others := fun hb' => (hahead b hb').asymm (hahead b hb')
  have hperm : (b :: others).Subperm ((ranked score l).take k) := by
    refine List.subperm_of_subset (List.nodup_cons.mpr ⟨hnot, hnodup⟩) ?_
    intro a ha
    obtain rfl | ha := List.mem_cons.mp ha
    · exact hb
    · exact hsub a ha
  have hle := hperm.length_le
  rw [List.length_cons, List.length_take] at hle
  omega

end ranking
