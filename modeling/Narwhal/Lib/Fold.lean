import Mathlib.Data.List.Basic

namespace pylib

/-! Passes over a list that stop at the first error (`List.foldlM` in `Except`, `List.mapM` in
`Option`), and passes that collect the errors and go on. -/

theorem exists_ok_of_isOk {α ε : Type} {x : Except ε α} (h : x.isOk = true) : ∃ a, x = .ok a := by
  cases x with
  | error e => cases h
  | ok a => exact ⟨a, rfl⟩

/-- A computation that goes on after another has a result only where that one has. -/
theorem bind_ok_iff {α β ε : Type} {x : Except ε α} {f : α → Except ε β} {b : β} :
    (x >>= f) = .ok b ↔ ∃ a, x = .ok a ∧ f a = .ok b := by
  cases x with
  | error e => simp [bind, Except.bind]
  | ok a => simp [bind, Except.bind]

section StopAtFirst

variable {σ α ε : Type} {step : σ → α → Except ε σ} {s s' : σ}

theorem foldlM_cons_ok_iff {a : α} {as : List α} :
    (a :: as).foldlM step s = .ok s' ↔ ∃ u, step s a = .ok u ∧ as.foldlM step u = .ok s' := by
  rw [List.foldlM_cons]
  cases h : step s a with
  | error e => simp [bind, Except.bind]
  | ok u => simp [bind, Except.bind]

theorem foldlM_append_ok_iff {as bs : List α} :
    (as ++ bs).foldlM step s = .ok s' ↔ ∃ u, as.foldlM step s = .ok u ∧ bs.foldlM step u = .ok s' := by
  induction as generalizing s with
  | nil => simp [pure, Except.pure]
  | cons a as ih =>
    simp only [List.cons_append, foldlM_cons_ok_iff, ih]
    constructor
    · rintro ⟨u, hu, v, hv, hs⟩
      exact ⟨v, ⟨u, hu, hv⟩, hs⟩
    · rintro ⟨v, ⟨u, hu, hv⟩, hs⟩
      exact ⟨u, hu, v, hv, hs⟩

theorem foldlM_concat_ok_iff {as : List α} {a : α} :
    (as ++ [a]).foldlM step s = .ok s' ↔ ∃ u, as.foldlM step s = .ok u ∧ step u a = .ok s' := by
  rw [foldlM_append_ok_iff]
  simp only [foldlM_cons_ok_iff, List.foldlM_nil, pure, Except.pure, Except.ok.injEq, exists_eq_right]

/-- A pass whose accepted steps compute `next` computes the plain fold of `next`. -/
theorem foldlM_ok_eq_foldl {next : σ → α → σ} (h : ∀ s a s', step s a = .ok s' → s' = next s a) {as : List α}
    (hok : as.foldlM step s = .ok s') : s' = as.foldl next s := by
  induction as generalizing s with
  | nil =>
    cases hok
    rfl
  | cons a as ih =>
    obtain ⟨u, hu, hrest⟩ := foldlM_cons_ok_iff.mp hok
    obtain rfl := h s a u hu
    exact ih hrest

end StopAtFirst

section Collecting

variable {σ τ α ε E : Type}

/-- A pass that collects the errors of every item. -/
def collect (scan : τ → α → List E × τ) (t : τ) : List α → List E × τ
  | [] => ([], t)
  | a :: as =>
    let (errors, t) := scan t a
    let (rest, t) := collect scan t as
    (errors ++ rest, t)

section Agreement

variable {scan : τ → α → List E × τ} {step : σ → α → Except ε σ} {R : σ → τ → Prop} {Q : α → Prop}

/-- Where the collecting step is silent exactly when the stopping step accepts and the
    item has a further property, and the states then stay related, the same holds of
    the whole passes. -/
theorem collect_eq_nil_iff
    (hstep : ∀ s t a, R s t → ((scan t a).1 = [] ↔ (∃ s', step s a = .ok s') ∧ Q a))
    (hnext : ∀ s t a s', R s t → step s a = .ok s' → Q a → R s' (scan t a).2)
    {s : σ} {t : τ} (hR : R s t) (as : List α) :
    (collect scan t as).1 = [] ↔ (∃ s', as.foldlM step s = .ok s') ∧ ∀ a ∈ as, Q a := by
  induction as generalizing s t with
  | nil => simp [collect, pure, Except.pure]
  | cons a as ih =>
    simp only [collect, List.append_eq_nil_iff, List.forall_mem_cons]
    rw [hstep s t a hR]
    constructor
    · rintro ⟨⟨⟨u, hu⟩, hQ⟩, hrest⟩
      obtain ⟨⟨s', hs'⟩, hQs⟩ := (ih (hnext s t a u hR hu hQ)).mp hrest
      exact ⟨⟨s', foldlM_cons_ok_iff.mpr ⟨u, hu, hs'⟩⟩, hQ, hQs⟩
    · rintro ⟨⟨s', hs'⟩, hQ, hQs⟩
      obtain ⟨u, hu, hrest⟩ := foldlM_cons_ok_iff.mp hs'
      exact ⟨⟨⟨u, hu⟩, hQ⟩, (ih (hnext s t a u hR hu hQ)).mpr ⟨⟨s', hrest⟩, hQs⟩⟩

theorem collect_related (hnext : ∀ s t a s', R s t → step s a = .ok s' → Q a → R s' (scan t a).2)
    {s s' : σ} {t : τ} (hR : R s t) {as : List α} (hok : as.foldlM step s = .ok s') (hQ : ∀ a ∈ as, Q a) :
    R s' (collect scan t as).2 := by
  induction as generalizing s t with
  | nil =>
    cases hok
    exact hR
  | cons a as ih =>
    obtain ⟨u, hu, hrest⟩ := foldlM_cons_ok_iff.mp hok
    obtain ⟨hQa, hQs⟩ := List.forall_mem_cons.mp hQ
    exact ih (hnext s t a u hR hu hQa) hrest hQs

end Agreement

end Collecting

/-! ### Lists of options -/

section

variable {α β : Type} {f : α → Option β} {l : List α} {r : List β}

theorem mapM_eq_some_iff : l.mapM f = some r ↔ l.map f = r.map some := by
  induction l generalizing r with
  | nil => cases r <;> simp
  | cons a l ih =>
    simp only [List.mapM_cons, Option.bind_eq_bind, Option.bind_eq_some_iff, Option.pure_def, Option.some.injEq,
      List.map_cons]
    constructor
    · rintro ⟨b, hb, rest, hrest, rfl⟩
      rw [hb, ih.mp hrest, List.map_cons]
    · intro h
      cases r with
      | nil => cases h
      | cons b rest =>
        obtain ⟨hb, hrest⟩ := List.cons.inj h
        exact ⟨b, hb, rest, ih.mpr hrest, rfl⟩

theorem exists_mapM (h : ∀ a ∈ l, ∃ b, f a = some b) : ∃ r, l.mapM f = some r := by
  induction l with
  | nil => exact ⟨[], rfl⟩
  | cons a l ih =>
    obtain ⟨b, hb⟩ := h a List.mem_cons_self
    obtain ⟨rest, hrest⟩ := ih fun a' ha' => h a' (List.mem_cons_of_mem a ha')
    exact ⟨b :: rest, by rw [List.mapM_cons, hb, hrest]; rfl⟩

/-- The results have a property, each beside its item, where every item has a result with it. -/
theorem exists_mapM_forall₂_iff {P : α → β → Prop} :
    (∃ r, l.mapM f = some r ∧ List.Forall₂ P l r) ↔ ∀ a ∈ l, ∃ b, f a = some b ∧ P a b := by
  induction l with
  | nil => simp [List.mapM_nil]
  | cons a as ih =>
    rw [List.forall_mem_cons, ← ih]
    constructor
    · rintro ⟨r, hr, hP⟩
      simp only [List.mapM_cons, Option.bind_eq_bind, Option.bind_eq_some_iff, Option.pure_def, Option.some.injEq] at hr
      obtain ⟨b, hb, rest, hrest, rfl⟩ := hr
      obtain ⟨hPb, hPrest⟩ := List.forall₂_cons.mp hP
      exact ⟨⟨b, hb, hPb⟩, rest, hrest, hPrest⟩
    · rintro ⟨⟨b, hb, hPb⟩, rest, hrest, hPrest⟩
      exact ⟨b :: rest, by rw [List.mapM_cons, hb, hrest]; rfl, .cons hPb hPrest⟩

end

section

variable {α β ε : Type} {f : α → Except ε β} {l : List α} {r : List β}

theorem mapM_eq_ok_iff : l.mapM f = .ok r ↔ l.map f = r.map .ok := by
  induction l generalizing r with
  | nil => cases r <;> simp [pure, Except.pure]
  | cons a l ih =>
    rw [List.mapM_cons, bind_ok_iff, List.map_cons]
    constructor
    · rintro ⟨b, hb, hrest⟩
      obtain ⟨rest, hmap, hr⟩ := bind_ok_iff.mp hrest
      rw [← Except.ok.inj hr, hb, ih.mp hmap, List.map_cons]
    · intro h
      cases r with
      | nil => cases h
      | cons b rest =>
        obtain ⟨hb, hmap⟩ := List.cons.inj h
        exact ⟨b, hb, bind_ok_iff.mpr ⟨rest, ih.mpr hmap, rfl⟩⟩

theorem exists_of_mem_mapM_ok (h : l.mapM f = .ok r) {b : β} (hb : b ∈ r) : ∃ a ∈ l, f a = .ok b := by
  have hmem : .ok b ∈ l.map f := mapM_eq_ok_iff.mp h ▸ List.mem_map_of_mem hb
  exact List.mem_map.mp hmem

theorem exists_mem_of_mapM_ok (h : l.mapM f = .ok r) {a : α} (ha : a ∈ l) : ∃ b ∈ r, f a = .ok b := by
  have hmem : f a ∈ r.map .ok := mapM_eq_ok_iff.mp h ▸ List.mem_map_of_mem ha
  obtain ⟨b, hb, hf⟩ := List.mem_map.mp hmem
  exact ⟨b, hb, hf.symm⟩

theorem exists_mapM_ok (h : ∀ a ∈ l, ∃ b, f a = .ok b) : ∃ r, l.mapM f = .ok r := by
  induction l with
  | nil => exact ⟨[], rfl⟩
  | cons a l ih =>
    obtain ⟨⟨b, hb⟩, hl⟩ := List.forall_mem_cons.mp h
    obtain ⟨rest, hrest⟩ := ih hl
    exact ⟨b :: rest, by rw [List.mapM_cons, hb, hrest]; rfl⟩

end

theorem foldlM_cons_some_iff {α β : Type} {step : β → α → Option β} {a : α} {as : List α} {b b' : β} :
    (a :: as).foldlM step b = some b' ↔ ∃ c, step b a = some c ∧ as.foldlM step c = some b' := by
  rw [List.foldlM_cons]
  exact Option.bind_eq_some_iff

/-- A fold that rejects some elements, and else adds what each of the others contributes. -/
theorem foldlM_eq_some_iff {α β γ : Type} {step : β → α → Option β} {part : α → Option (List γ)} {add : β → γ → β}
    (h : ∀ b a, step b a = (part a).map fun cs => cs.foldl add b) {as : List α} {b b' : β} :
    as.foldlM step b = some b' ↔
      (∀ a ∈ as, part a ≠ none) ∧ (as.flatMap fun a => (part a).getD []).foldl add b = b' := by
  induction as generalizing b with
  | nil => simp
  | cons a as ih =>
    cases hpart : part a with
    | none => simp [h, hpart]
    | some cs => simp [h, hpart, ih, List.foldl_append]

end pylib
