import Mathlib.Data.List.Basic

namespace pylib

/-! Runs of a step function under a condition on each step. -/

section

variable {σ ω : Type} {step : σ → ω → σ} {allowed : σ → ω → Prop}

/-- Every step of the run meets the condition in the state it is taken from. -/
def Allowed (step : σ → ω → σ) (allowed : σ → ω → Prop) : σ → List ω → Prop
  | _, [] => True
  | s, op :: ops => allowed s op ∧ Allowed step allowed (step s op) ops

instance Allowed.decidable [∀ s op, Decidable (allowed s op)] :
    (s : σ) → (ops : List ω) → Decidable (Allowed step allowed s ops)
  | _, [] => isTrue trivial
  | s, op :: ops =>
    have := Allowed.decidable (step s op) ops
    inferInstanceAs (Decidable (allowed s op ∧ Allowed step allowed (step s op) ops))

theorem allowed_concat_iff {s : σ} {ops : List ω} {op : ω} :
    Allowed step allowed s (ops ++ [op]) ↔ Allowed step allowed s ops ∧ allowed (ops.foldl step s) op := by
  induction ops generalizing s with
  | nil => simp [Allowed]
  | cons op ops ih => simp [Allowed, ih, and_assoc]

/-- What holds at the start and is kept by every allowed step holds after a run. -/
theorem Allowed.invariant {I : σ → Prop} (hstep : ∀ s op, I s → allowed s op → I (step s op)) {s : σ}
    {ops : List ω} (h : Allowed step allowed s ops) (hs : I s) : I (ops.foldl step s) := by
  induction ops generalizing s with
  | nil => exact hs
  | cons op ops ih => exact ih h.2 (hstep s op hs h.1)

/-- A condition that follows from another one wherever an invariant holds follows along the run. -/
theorem Allowed.imp {I : σ → Prop} {weaker : σ → ω → Prop} (himp : ∀ s op, I s → allowed s op → weaker s op)
    (hstep : ∀ s op, I s → allowed s op → I (step s op)) {s : σ} {ops : List ω} (h : Allowed step allowed s ops)
    (hs : I s) : Allowed step weaker s ops := by
  induction ops generalizing s with
  | nil => trivial
  | cons op ops ih => exact ⟨himp s op hs h.1, ih h.2 (hstep s op hs h.1)⟩

/-- A run whose steps are unconditional is allowed where the condition always holds. -/
theorem allowed_of_forall (h : ∀ s op, allowed s op) (s : σ) (ops : List ω) : Allowed step allowed s ops := by
  induction ops generalizing s with
  | nil => trivial
  | cons op ops ih => exact ⟨h s op, ih _⟩

/-- A condition on the steps alone holds along a run where it holds of each of them. -/
theorem allowed_of_forall_mem {p : ω → Prop} {ops : List ω} (h : ∀ op ∈ ops, p op) (s : σ) :
    Allowed step (fun _ op => p op) s ops := by
  induction ops generalizing s with
  | nil => trivial
  | cons op ops ih => exact ⟨h op List.mem_cons_self, ih (fun op' hop' => h op' (List.mem_cons_of_mem op hop')) _⟩

end

end pylib
