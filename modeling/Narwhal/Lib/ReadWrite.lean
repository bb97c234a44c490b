import Mathlib.Data.List.Induction
import Mathlib.Logic.Function.Basic
import Narwhal.Lib.Run

namespace readwrite

/-! Calls that read a store, change what they read and write it back, each in two steps, with the
steps of any number of calls interleaved. -/

open pylib

/-- A store of type `σ` whose content is read as an `α`, and what each call makes of it. -/
structure Access (σ α ι : Type) where
  read : σ → α
  write : α → σ → σ
  update : ι → α → α

/-- How far a call is. `seen` lists the calls that what it read goes back to; no step looks at it. -/
inductive Phase (α ι : Type) where
  | ready
  | holding (value : α) (seen : List ι)
  | returned
  | failed (landed : Bool)
deriving DecidableEq

/-- The store, the calls, and the calls that the content goes back to, the last first. -/
structure World (σ α ι : Type) where
  store : σ
  calls : ι → Phase α ι
  carried : List ι

/-- A step of a call: its read, answered or refused; its write, answered, or reported as failed
    with the content written or not. -/
inductive Op (ι : Type) where
  | read (i : ι) (answered : Bool)
  | write (i : ι)
  | writeFails (i : ι) (landed : Bool)

variable {σ α ι : Type}

namespace World

def start (store : σ) : World σ α ι := ⟨store, fun _ => .ready, []⟩

/-- The content is written. -/
def land (access : Access σ α ι) (s : World σ α ι) (i : ι) (value : α) (seen : List ι) : World σ α ι :=
  { s with store := access.write (access.update i value) s.store, carried := i :: seen }

/-- The call's content reached the store. -/
def Landed (s : World σ α ι) (i : ι) : Prop := s.calls i = .returned ∨ s.calls i = .failed true

/-- The call writes while the store is as it read it: no other write has landed since. -/
def Undisturbed (s : World σ α ι) : Op ι → Prop
  | .write i | .writeFails i true => ∀ value seen, s.calls i = .holding value seen → seen = s.carried
  | _ => True

@[simp] theorem land_calls (access : Access σ α ι) (s : World σ α ι) (i : ι) (value : α) (seen : List ι) :
    (s.land access i value seen).calls = s.calls := rfl

theorem not_landed_of_ready {s : World σ α ι} {i : ι} (h : s.calls i = .ready) : ¬ s.Landed i := by
  simp [Landed, h]

theorem not_landed_of_holding {s : World σ α ι} {i : ι} {value : α} {seen : List ι}
    (h : s.calls i = .holding value seen) : ¬ s.Landed i := by
  simp [Landed, h]

variable [DecidableEq ι]

def setPhase (s : World σ α ι) (i : ι) (phase : Phase α ι) : World σ α ι :=
  { s with calls := Function.update s.calls i phase }

/-- A step that the call is not at changes nothing. -/
def step (access : Access σ α ι) (s : World σ α ι) : Op ι → World σ α ι
  | .read i answered =>
    match s.calls i with
    | .ready => s.setPhase i (if answered then .holding (access.read s.store) s.carried else .failed false)
    | _ => s
  | .write i =>
    match s.calls i with
    | .holding value seen => (s.land access i value seen).setPhase i .returned
    | _ => s
  | .writeFails i landed =>
    match s.calls i with
    | .holding value seen => (if landed then s.land access i value seen else s).setPhase i (.failed landed)
    | _ => s

def run (access : Access σ α ι) (s : World σ α ι) (ops : List (Op ι)) : World σ α ι := ops.foldl (step access) s

@[simp] theorem setPhase_store (s : World σ α ι) (i : ι) (phase : Phase α ι) : (s.setPhase i phase).store = s.store :=
  rfl

@[simp] theorem setPhase_carried (s : World σ α ι) (i : ι) (phase : Phase α ι) :
    (s.setPhase i phase).carried = s.carried := rfl

theorem setPhase_calls (s : World σ α ι) (i j : ι) (phase : Phase α ι) :
    (s.setPhase i phase).calls j = if j = i then phase else s.calls j := by
  simp [setPhase, Function.update_apply]

theorem landed_setPhase (s : World σ α ι) (i j : ι) (phase : Phase α ι) :
    (s.setPhase i phase).Landed j ↔ if j = i then phase = .returned ∨ phase = .failed true else s.Landed j := by
  by_cases hj : j = i <;> simp [Landed, setPhase_calls, hj]

section

variable (access : Access σ α ι) (s : World σ α ι)

/-- What a step can do: nothing, let a call read or fail, or let a write land. -/
theorem step_cases (op : Op ι) :
    (s.Undisturbed op ∧ s.step access op = s) ∨
    (∃ i, s.Undisturbed op ∧ s.calls i = .ready ∧
      s.step access op = s.setPhase i (.holding (access.read s.store) s.carried)) ∨
    (∃ i, s.Undisturbed op ∧ ¬ s.Landed i ∧ s.step access op = s.setPhase i (.failed false)) ∨
    ∃ i value seen phase, s.calls i = .holding value seen ∧ (phase = .returned ∨ phase = .failed true) ∧
      (s.Undisturbed op ↔ seen = s.carried) ∧
      s.step access op = (s.land access i value seen).setPhase i phase := by
  cases op with
  | read i answered =>
    by_cases hready : s.calls i = .ready
    · have hlanded : ¬ s.Landed i := not_landed_of_ready hready
      cases answered with
      | true => exact .inr (.inl ⟨i, trivial, hready, by simp [step, hready]⟩)
      | false => exact .inr (.inr (.inl ⟨i, trivial, hlanded, by simp [step, hready]⟩))
    · refine .inl ⟨trivial, ?_⟩
      cases hphase : s.calls i <;> simp_all [step]
  | write i =>
    cases hphase : s.calls i with
    | holding value seen =>
      exact .inr (.inr (.inr ⟨i, value, seen, .returned, hphase, .inl rfl, by simp [Undisturbed, hphase],
        by simp [step, hphase]⟩))
    | ready | returned | failed => exact .inl (by simp [step, Undisturbed, hphase])
  | writeFails i landed =>
    cases hphase : s.calls i with
    | holding value seen =>
      have hlanded : ¬ s.Landed i := not_landed_of_holding hphase
      cases landed with
      | true =>
        exact .inr (.inr (.inr ⟨i, value, seen, .failed true, hphase, .inr rfl, by simp [Undisturbed, hphase],
          by simp [step, hphase]⟩))
      | false => exact .inr (.inr (.inl ⟨i, trivial, hlanded, by simp [step, hphase]⟩))
    | ready | returned | failed => cases landed <;> exact .inl (by simp [step, Undisturbed, hphase])

end

/-! ### What the content goes back to -/

/-- The content of the store, and what each call holds, is related to the calls it goes back to. -/
structure Lineage (access : Access σ α ι) (P : List ι → α → Prop) (s : World σ α ι) : Prop where
  content : P s.carried (access.read s.store)
  held : ∀ i value seen, s.calls i = .holding value seen → P seen value

variable {access : Access σ α ι} {s : World σ α ι}

/-- A property of lineages that one call's update and write extend is kept by every step. -/
theorem Lineage.step {P : List ι → α → Prop}
    (hextend : ∀ i value seen store, P seen value → P (i :: seen) (access.read (access.write (access.update i value) store)))
    (h : Lineage access P s) (op : Op ι) : Lineage access P (s.step access op) := by
  obtain ⟨-, heq⟩ | ⟨i, -, -, heq⟩ | ⟨i, -, -, heq⟩ | ⟨i, value, seen, phase, hheld, hphase, -, heq⟩ :=
    step_cases access s op
  · rwa [heq]
  · refine heq ▸ ⟨h.content, fun j value seen hj => ?_⟩
    rw [setPhase_calls] at hj
    split at hj
    · obtain ⟨rfl, rfl⟩ := Phase.holding.inj hj
      exact h.content
    · exact h.held j value seen hj
  · refine heq ▸ ⟨h.content, fun j value seen hj => ?_⟩
    rw [setPhase_calls] at hj
    split at hj
    · cases hj
    · exact h.held j value seen hj
  · refine heq ▸ ⟨hextend i value seen s.store (h.held i value seen hheld), fun j value' seen' hj => ?_⟩
    rw [setPhase_calls] at hj
    split at hj
    · obtain rfl | rfl := hphase <;> cases hj
    · exact h.held j value' seen' hj

variable (access) in
/-- A property of lineages that one call's update and write extend holds after every run. -/
theorem lineage_run (P : List ι → α → Prop) (store : σ) (hstart : P [] (access.read store))
    (hextend : ∀ i value seen store, P seen value → P (i :: seen) (access.read (access.write (access.update i value) store)))
    (ops : List (Op ι)) :
    P ((start store).run access ops).carried (access.read ((start store).run access ops).store) := by
  have h : Lineage access P (start store) := ⟨hstart, fun i value seen hi => by cases hi⟩
  have hallowed : Allowed (World.step access) (fun _ _ => True) (start store) ops :=
    allowed_of_forall (fun _ _ => trivial) (start store) ops
  have hrun : Lineage access P ((start store).run access ops) := hallowed.invariant (fun t op ht _ => ht.step hextend op) h
  exact hrun.content

/-! ### When every write is carried -/

/-- Only writes that landed are carried, and a call that has seen them all holds the content. -/
structure Tracked (s : World σ α ι) : Prop where
  carried : ∀ i ∈ s.carried, s.Landed i
  seen : ∀ i value seen, s.calls i = .holding value seen → ∀ j ∈ seen, s.Landed j
  current : ∀ i value seen, s.calls i = .holding value seen → (∀ j, s.Landed j → j ∈ seen) → seen = s.carried

/-- The content goes back to every write that landed. -/
def Complete (s : World σ α ι) : Prop := ∀ i, s.Landed i → i ∈ s.carried

omit [DecidableEq ι] in
theorem tracked_start (store : σ) : Tracked (start store : World σ α ι) where
  carried i hi := by cases hi
  seen i value seen hi := by cases hi
  current i value seen hi := by cases hi

/-- Where the landed writes stay the same, so does all that is known of them. -/
theorem Tracked.setPhase (h : Tracked s) {i : ι} (hi : ¬ s.Landed i) {phase : Phase α ι}
    (hphase : phase = .failed false ∨ ∃ value, phase = .holding value s.carried) :
    Tracked (s.setPhase i phase) ∧ ((s.setPhase i phase).Complete ↔ s.Complete) := by
  have hlanded : ∀ j, (s.setPhase i phase).Landed j ↔ s.Landed j := by
    intro j
    rw [landed_setPhase]
    split
    · next hj =>
      subst hj
      obtain rfl | ⟨value, rfl⟩ := hphase <;> simp [hi]
    · rfl
  have hcalls : ∀ j value seen, (s.setPhase i phase).calls j = .holding value seen →
      seen = s.carried ∨ s.calls j = .holding value seen := by
    intro j value seen hj
    rw [setPhase_calls] at hj
    split at hj
    · obtain rfl | ⟨value, rfl⟩ := hphase
      · cases hj
      · exact .inl (Phase.holding.inj hj).2.symm
    · exact .inr hj
  refine ⟨⟨fun j hj => (hlanded j).mpr (h.carried j hj), fun j value seen hj k hk => ?_,
    fun j value seen hj hall => ?_⟩, by simp [Complete, hlanded]⟩
  · obtain rfl | hj := hcalls j value seen hj
    · exact (hlanded k).mpr (h.carried k hk)
    · exact (hlanded k).mpr (h.seen j value seen hj k hk)
  · obtain heq | hj := hcalls j value seen hj
    · exact heq
    · exact h.current j value seen hj fun k hk => hall k ((hlanded k).mpr hk)

theorem Tracked.land (h : Tracked s) {i : ι} {value : α} {seen : List ι} (hheld : s.calls i = .holding value seen)
    {phase : Phase α ι} (hphase : phase = .returned ∨ phase = .failed true) :
    Tracked ((s.land access i value seen).setPhase i phase) ∧
      (((s.land access i value seen).setPhase i phase).Complete ↔ s.Complete ∧ seen = s.carried) := by
  have hi := not_landed_of_holding hheld
  have hlanded : ∀ j, ((s.land access i value seen).setPhase i phase).Landed j ↔ j = i ∨ s.Landed j := by
    intro j
    rw [landed_setPhase]
    split
    · next hj => simp [hj, hphase]
    · next hj => simp [hj, Landed, land_calls]
  have hcalls : ∀ j value' seen', ((s.land access i value seen).setPhase i phase).calls j = .holding value' seen' →
      s.calls j = .holding value' seen' := by
    intro j value' seen' hj
    rw [setPhase_calls] at hj
    split at hj
    · obtain rfl | rfl := hphase <;> cases hj
    · exact hj
  constructor
  · refine ⟨fun j hj => ?_, fun j value' seen' hj k hk => ?_, fun j value' seen' hj hall => ?_⟩
    · rw [hlanded]
      exact (List.mem_cons.mp hj).imp_right (h.seen i value seen hheld j)
    · exact (hlanded k).mpr (.inr (h.seen j value' seen' (hcalls j value' seen' hj) k hk))
    · -- a call that read before this write landed has not seen it
      exact absurd (h.seen j value' seen' (hcalls j value' seen' hj) i (hall i ((hlanded i).mpr (.inl rfl)))) hi
  · constructor
    · intro hcomplete
      have hseen : ∀ j, s.Landed j → j ∈ seen := by
        intro j hj
        have hmem := hcomplete j ((hlanded j).mpr (.inr hj))
        obtain rfl | hmem := List.mem_cons.mp hmem
        · exact absurd hj hi
        · exact hmem
      have heq := h.current i value seen hheld hseen
      exact ⟨fun j hj => heq ▸ hseen j hj, heq⟩
    · rintro ⟨hcomplete, rfl⟩ j hj
      obtain rfl | hj := (hlanded j).mp hj
      · exact List.mem_cons_self
      · exact List.mem_cons_of_mem i (hcomplete j hj)

/-- A step keeps the content complete exactly if it is no write, or an undisturbed one. -/
theorem Tracked.step (h : Tracked s) (op : Op ι) :
    Tracked (s.step access op) ∧ ((s.step access op).Complete ↔ s.Complete ∧ s.Undisturbed op) := by
  obtain ⟨hop, heq⟩ | ⟨i, hop, hready, heq⟩ | ⟨i, hop, hi, heq⟩ | ⟨i, value, seen, phase, hheld, hphase, hop, heq⟩ :=
    step_cases access s op
  · simp [heq, h, hop]
  · have hset := h.setPhase (not_landed_of_ready hready) (.inr ⟨access.read s.store, rfl⟩)
    simp [heq, hset, hop]
  · have hset := h.setPhase hi (.inl rfl)
    simp [heq, hset, hop]
  · rw [heq, hop]
    exact h.land hheld hphase

variable (access) in
/-- After a run the content goes back to every write that landed exactly if no write landed
    between the read and the write of another call. -/
theorem complete_run_iff (h : Tracked s) (ops : List (Op ι)) (hs : s.Complete) :
    (s.run access ops).Complete ↔ Allowed (World.step access) Undisturbed s ops := by
  induction ops using List.reverseRecOn with
  | nil => exact iff_of_true hs trivial
  | append_singleton ops op ih =>
    have hallowed : Allowed (World.step access) (fun _ _ => True) s ops := allowed_of_forall (fun _ _ => trivial) s ops
    have hreached : Tracked (s.run access ops) := hallowed.invariant (fun t op ht _ => (ht.step op).1) h
    rw [allowed_concat_iff, ← ih]
    simp only [run, List.foldl_append, List.foldl_cons, List.foldl_nil]
    exact (hreached.step op).2

end World

end readwrite
