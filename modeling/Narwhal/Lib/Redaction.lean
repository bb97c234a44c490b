import Mathlib.Data.List.Forall2

namespace redaction

/-! Functions that do not tell hidden things apart. -/

variable {α β : Type} {visible : α → Bool} {f : α → β}

/-- Two things are one, or both are hidden. -/
inductive SameVisible (visible : α → Bool) : α → α → Prop
  | same (a : α) : SameVisible visible a a
  | hidden {a a' : α} (h : visible a = false) (h' : visible a' = false) : SameVisible visible a a'

/-- All hidden things look like this. -/
def Masks (visible : α → Bool) (f : α → β) (mask : β) : Prop := ∀ a, visible a = false → f a = mask

theorem SameVisible.visible_eq {a a' : α} (h : SameVisible visible a a') : visible a' = visible a := by
  cases h with
  | same => rfl
  | hidden h h' => rw [h, h']

/-- What is masked cannot be told apart. -/
theorem Masks.eq_of_sameVisible {mask : β} (hmasks : Masks visible f mask) {a a' : α} (h : SameVisible visible a a') :
    f a' = f a := by
  cases h with
  | same => rfl
  | hidden h h' => rw [hmasks a h, hmasks a' h']

theorem Masks.map_eq {mask : β} (hmasks : Masks visible f mask) {as as' : List α}
    (h : List.Forall₂ (SameVisible visible) as as') : as'.map f = as.map f := by
  induction h with
  | nil => rfl
  | cons hhead _ ih => rw [List.map_cons, List.map_cons, hmasks.eq_of_sameVisible hhead, ih]

end redaction
