import Mathlib.Logic.Function.Basic
import Mathlib.Order.Nat

namespace singleflight

/-! Calls that share the run of a task that is in flight, and a store for what the runs make. Each
process has a slot for its run; the store is common to the processes. -/

/-- Who writes a result to the store. -/
inductive Writer where
  | run
  | leader
  | waiter
deriving DecidableEq

/-- Either the calls look in the store before the slot, or the run itself looks in it. -/
inductive Place where
  | around (writer : Writer)
  | inside
deriving DecidableEq

structure Scheme (ι ω α : Type) where
  place : Place
  /-- Whether a call looks in the store. -/
  looks : ι → Bool
  /-- What the task makes of what it meets, at a time; it may fail. -/
  work : ω → Nat → Option α
  accepts : α → Bool
  keeps : α → Bool
  /-- Whether what was made and written at these times is still given out at the third. -/
  live : α → Nat → Nat → Nat → Bool

/-- What a run has made. -/
structure Made (ι ω α : Type) where
  run : ι
  input : ω
  time : Nat
  value : α

structure Entry (ι ω α : Type) extends Made ι ω α where
  written : Nat

variable {ι π ω α : Type}

/-- A result that was made, or one that was found in the store at a time. -/
inductive Result (ι ω α : Type) where
  | made (m : Made ι ω α)
  | held (entry : Entry ι ω α) (time : Nat)

def Result.value : Result ι ω α → α
  | .made m => m.value
  | .held entry _ => entry.value

/-- What a look in the store finds, and when. -/
abbrev Found (ι ω α : Type) := Option (Entry ι ω α × Nat)

inductive RunPhase (ι ω α : Type) where
  | reading
  | answered (found : Found ι ω α)
  | working
  | writing (m : Made ι ω α)
  /-- The result is there, and the slot is not cleared yet. -/
  | ended (result : Option (Result ι ω α))
  | settled (time : Nat) (result : Option (Result ι ω α))

structure Run (ι π ω α : Type) where
  process : π
  since : Nat
  phase : RunPhase ι ω α

def Run.settlement (run : Run ι π ω α) : Option (Nat × Option (Result ι ω α)) :=
  match run.phase with
  | .settled time result => some (time, result)
  | _ => none

inductive CallPhase (ι ω α : Type) where
  | reading
  | answered (found : Found ι ω α)
  | waiting (run : ι)
  | writing (m : Made ι ω α)
  | served (entry : Entry ι ω α) (time : Nat)
  | shared (run : ι) (result : Result ι ω α)
  | failed

structure Call (ι π ω α : Type) where
  process : π
  since : Nat
  phase : CallPhase ι ω α

/-- What the call has returned. -/
def Call.result (call : Call ι π ω α) : Option α :=
  match call.phase with
  | .served entry _ => some entry.value
  | .shared _ result => some result.value
  | _ => none

/-- The call has passed the slot, or has no need of it. -/
def Call.Arrived (call : Call ι π ω α) : Prop :=
  match call.phase with
  | .reading => False
  | .answered _ => False
  | _ => True

structure State (ι π ω α : Type) where
  now : Nat
  held : Option (Entry ι ω α)
  slot : π → Option ι
  calls : ι → Option (Call ι π ω α)
  /-- A run has the name of the call that leads it. -/
  runs : ι → Option (Run ι π ω α)
  /-- All that was made so far. -/
  made : List (Made ι ω α)

def State.initial (ι π ω α : Type) : State ι π ω α := ⟨0, none, fun _ => none, fun _ => none, fun _ => none, []⟩

inductive Event (ι π ω : Type) where
  | tick (duration : Nat)
  | call (c : ι) (process : π)
  /-- The store answers the look of a call, or the look fails. -/
  | read (c : ι) (answered : Bool)
  | arrive (c : ι)
  | readRun (r : ι) (answered : Bool)
  | resume (r : ι)
  | work (r : ι) (input : ω)
  /-- The write of a run comes to its end; it may be lost. -/
  | writeRun (r : ι) (applied : Bool)
  | settle (r : ι)
  | wake (c : ι)
  | write (c : ι) (applied : Bool)
  | lose

section

variable [DecidableEq ι] [DecidableEq π]

namespace State

def setCall (s : State ι π ω α) (c : ι) (call : Call ι π ω α) (phase : CallPhase ι ω α) : State ι π ω α :=
  { s with calls := Function.update s.calls c (some { call with phase := phase }) }

def setRun (s : State ι π ω α) (r : ι) (run : Run ι π ω α) (phase : RunPhase ι ω α) : State ι π ω α :=
  { s with runs := Function.update s.runs r (some { run with phase := phase }) }

/-- What a look finds now. -/
def look (σ : Scheme ι ω α) (s : State ι π ω α) (answered : Bool) : Found ι ω α :=
  match s.held with
  | some entry =>
    if answered ∧ σ.live entry.value entry.time entry.written s.now ∧ σ.accepts entry.value then some (entry, s.now) else none
  | none => none

def put (s : State ι π ω α) (m : Made ι ω α) (applied : Bool) : State ι π ω α :=
  if applied then { s with held := some ⟨m, s.now⟩ } else s

end State

/-- Whether a call of a run writes its result. -/
def Scheme.callWrites (σ : Scheme ι ω α) (c r : ι) : Bool :=
  match σ.place with
  | .around .leader => c = r
  | .around .waiter => true
  | _ => false

/-- Where a call and a run begin. -/
def Scheme.callStart (σ : Scheme ι ω α) (c : ι) : CallPhase ι ω α :=
  if σ.place ≠ .inside ∧ σ.looks c then .reading else .answered none

def Scheme.runStart (σ : Scheme ι ω α) : RunPhase ι ω α :=
  if σ.place = .inside then .reading else .working

def Scheme.runWrites (σ : Scheme ι ω α) : Bool := σ.place = .inside ∨ σ.place = .around .run

namespace State

/-- The call starts a run, and waits for it. -/
def lead (σ : Scheme ι ω α) (s : State ι π ω α) (c : ι) (call : Call ι π ω α) : State ι π ω α :=
  { s with
    slot := Function.update s.slot call.process (some c)
    calls := Function.update s.calls c (some { call with phase := .waiting c })
    runs := Function.update s.runs c (some ⟨call.process, s.now, σ.runStart⟩) }

/-- The run clears the slot, and is settled. -/
def settle (s : State ι π ω α) (r : ι) (process : π) (since : Nat) (result : Option (Result ι ω α)) : State ι π ω α :=
  { s with
    slot := Function.update s.slot process none
    runs := Function.update s.runs r (some ⟨process, since, .settled s.now result⟩) }

/-- The call passes the slot: it joins the run in flight, or leads one. -/
def enter (σ : Scheme ι ω α) (s : State ι π ω α) (c : ι) (call : Call ι π ω α) : State ι π ω α :=
  match s.slot call.process with
  | some r => s.setCall c call (.waiting r)
  | none => s.lead σ c call

/-- The task of a run has come to its end. -/
def finish (σ : Scheme ι ω α) (s : State ι π ω α) (r : ι) (run : Run ι π ω α) (input : ω) : State ι π ω α :=
  match σ.work input s.now with
  | none => s.setRun r run (.ended none)
  | some a =>
    let m : Made ι ω α := ⟨r, input, s.now, a⟩
    { s.setRun r run (if σ.runWrites && σ.keeps a then .writing m else .ended (some (.made m))) with made := m :: s.made }

/-- A call goes on with the result of its run. -/
def receive (σ : Scheme ι ω α) (s : State ι π ω α) (c : ι) (call : Call ι π ω α) (r : ι)
    (result : Option (Result ι ω α)) : State ι π ω α :=
  match result with
  | none => s.setCall c call .failed
  | some (.made m) =>
    s.setCall c call (if σ.callWrites c r && σ.keeps m.value then .writing m else .shared r (.made m))
  | some (.held entry time) => s.setCall c call (.shared r (.held entry time))

def step (σ : Scheme ι ω α) (s : State ι π ω α) : Event ι π ω → Option (State ι π ω α)
  | .tick duration => some { s with now := s.now + duration }
  | .call c process =>
    match s.calls c with
    | none => some { s with calls := Function.update s.calls c (some ⟨process, s.now, σ.callStart c⟩) }
    | some _ => none
  | .read c answered =>
    match s.calls c with
    | some ⟨process, since, .reading⟩ => some (s.setCall c ⟨process, since, .reading⟩ (.answered (s.look σ answered)))
    | _ => none
  | .arrive c =>
    match s.calls c with
    | some ⟨process, since, .answered (some (entry, time))⟩ =>
      some (s.setCall c ⟨process, since, .answered (some (entry, time))⟩ (.served entry time))
    | some ⟨process, since, .answered none⟩ => some (s.enter σ c ⟨process, since, .answered none⟩)
    | _ => none
  | .readRun r answered =>
    match s.runs r with
    | some ⟨process, since, .reading⟩ => some (s.setRun r ⟨process, since, .reading⟩ (.answered (s.look σ answered)))
    | _ => none
  | .resume r =>
    match s.runs r with
    | some ⟨process, since, .answered found⟩ =>
      some (s.setRun r ⟨process, since, .answered found⟩
        (match found with
          | some (entry, time) => .ended (some (.held entry time))
          | none => .working))
    | _ => none
  | .work r input =>
    match s.runs r with
    | some ⟨process, since, .working⟩ => some (s.finish σ r ⟨process, since, .working⟩ input)
    | _ => none
  | .writeRun r applied =>
    match s.runs r with
    | some ⟨process, since, .writing m⟩ =>
      some ((s.setRun r ⟨process, since, .writing m⟩ (.ended (some (.made m)))).put m applied)
    | _ => none
  | .settle r =>
    match s.runs r with
    | some ⟨process, since, .ended result⟩ => some (s.settle r process since result)
    | _ => none
  | .wake c =>
    match s.calls c with
    | some ⟨process, since, .waiting r⟩ =>
      match (s.runs r).bind Run.settlement with
      | some (_, result) => some (s.receive σ c ⟨process, since, .waiting r⟩ r result)
      | none => none
    | _ => none
  | .write c applied =>
    match s.calls c with
    | some ⟨process, since, .writing m⟩ =>
      some ((s.setCall c ⟨process, since, .writing m⟩ (.shared m.run (.made m))).put m applied)
    | _ => none
  | .lose => some { s with held := none }

/-- The state after these events, where each of them is possible. -/
def run (σ : Scheme ι ω α) (s : State ι π ω α) (events : List (Event ι π ω)) : Option (State ι π ω α) :=
  events.foldlM (step σ) s

end State

/-- The states that some order of events leads to. -/
def Reachable (σ : Scheme ι ω α) (s : State ι π ω α) : Prop :=
  ∃ events, (State.initial ι π ω α).run σ events = some s

theorem Reachable.induction {σ : Scheme ι ω α} {P : State ι π ω α → Prop} (hinit : P (State.initial ι π ω α))
    (hstep : ∀ s s' event, P s → s.step σ event = some s' → P s') {s : State ι π ω α} (h : Reachable σ s) : P s := by
  obtain ⟨events, h⟩ := h
  suffices ∀ s', P s' → s'.run σ events = some s → P s from this _ hinit h
  clear h
  induction events with
  | nil =>
    intro s' hs' h
    cases h
    exact hs'
  | cons event events ih =>
    intro s' hs' h
    rw [State.run, List.foldlM_cons, Option.bind_eq_bind, Option.bind_eq_some_iff] at h
    obtain ⟨t, ht, h⟩ := h
    exact ih t (hstep s' t event hs' ht) h

end

/-! ### What holds of the parts of a state -/

section

variable {σ : Scheme ι ω α} {s s' : State ι π ω α}

/-- The result is what the task made of this input at this time, in a run that had begun. -/
def MadeOk (σ : Scheme ι ω α) (s : State ι π ω α) (m : Made ι ω α) : Prop :=
  m ∈ s.made ∧ σ.work m.input m.time = some m.value ∧ m.time ≤ s.now ∧ ∃ run, s.runs m.run = some run ∧ run.since ≤ m.time

structure EntryOk (σ : Scheme ι ω α) (s : State ι π ω α) (entry : Entry ι ω α) : Prop where
  made : MadeOk σ s entry.toMade
  keeps : σ.keeps entry.value = true
  written : entry.time ≤ entry.written ∧ entry.written ≤ s.now

/-- The entry was found at a time not before the given one. -/
structure FoundOk (σ : Scheme ι ω α) (s : State ι π ω α) (since : Nat) (entry : Entry ι ω α) (time : Nat) : Prop where
  sound : EntryOk σ s entry
  live : σ.live entry.value entry.time entry.written time = true
  accepted : σ.accepts entry.value = true
  after : since ≤ time ∧ entry.written ≤ time
  past : time ≤ s.now

/-- A result that a run has at a time. -/
def ResultOk (σ : Scheme ι ω α) (s : State ι π ω α) (r : ι) (since upTo : Nat) : Result ι ω α → Prop
  | .made m => MadeOk σ s m ∧ m.run = r ∧ m.time ≤ upTo
  | .held entry time => σ.place = .inside ∧ FoundOk σ s since entry time ∧ time ≤ upTo

/-- The run was not settled before the call. -/
def Joined (s : State ι π ω α) (call : Call ι π ω α) (r : ι) : Prop :=
  ∃ run, s.runs r = some run ∧ run.process = call.process ∧
    ∀ settlement, run.settlement = some settlement → call.since ≤ settlement.1

/-- The call was settled with the run, which had this result. -/
def Shared (s : State ι π ω α) (call : Call ι π ω α) (r : ι) (result : Result ι ω α) : Prop :=
  ∃ run time, s.runs r = some run ∧ run.process = call.process ∧ run.settlement = some (time, some result) ∧
    call.since ≤ time

def CallOk (σ : Scheme ι ω α) (s : State ι π ω α) (call : Call ι π ω α) : Prop :=
  call.since ≤ s.now ∧
    match call.phase with
    | .reading => σ.place ≠ .inside
    | .answered found => ∀ entry time, found = some (entry, time) → σ.place ≠ .inside ∧ FoundOk σ s call.since entry time
    | .waiting r => Joined s call r
    | .writing m => σ.keeps m.value = true ∧ Shared s call m.run (.made m)
    | .served entry time => σ.place ≠ .inside ∧ FoundOk σ s call.since entry time
    | .shared r result => Shared s call r result
    | .failed => True

def RunOk (σ : Scheme ι ω α) (s : State ι π ω α) (r : ι) (run : Run ι π ω α) : Prop :=
  run.since ≤ s.now ∧
    match run.phase with
    | .reading => σ.place = .inside
    | .answered found => σ.place = .inside ∧ ∀ entry time, found = some (entry, time) → FoundOk σ s run.since entry time
    | .working => True
    | .writing m => σ.keeps m.value = true ∧ MadeOk σ s m ∧ m.run = r
    | .ended result => ∀ found, result = some found → ResultOk σ s r run.since s.now found
    | .settled time result => time ≤ s.now ∧ ∀ found, result = some found → ResultOk σ s r run.since time found

/-- The invariant: the slot of a process holds its run that is not settled, where it has one. -/
structure Sound (σ : Scheme ι ω α) (s : State ι π ω α) : Prop where
  held : ∀ entry, s.held = some entry → EntryOk σ s entry
  slot : ∀ p r, s.slot p = some r ↔ ∃ run, s.runs r = some run ∧ run.process = p ∧ run.settlement = none
  arrived : ∀ r run, s.runs r = some run → ∃ call, s.calls r = some call ∧ call.Arrived
  calls : ∀ c call, s.calls c = some call → CallOk σ s call
  runs : ∀ r run, s.runs r = some run → RunOk σ s r run

/-! ### What a later state keeps -/

/-- Time goes on, and a run that is settled stays so. -/
structure Grows (s s' : State ι π ω α) : Prop where
  now : s.now ≤ s'.now
  made : s.made ⊆ s'.made
  runs : ∀ r run, s.runs r = some run → ∃ run', s'.runs r = some run' ∧ run'.process = run.process ∧
    run'.since = run.since ∧ (run'.settlement = run.settlement ∨
      run.settlement = none ∧ ∀ settlement, run'.settlement = some settlement → s.now ≤ settlement.1)

theorem Grows.of_runs (hnow : s.now ≤ s'.now) (hmade : s.made ⊆ s'.made) (hruns : s'.runs = s.runs) : Grows s s' := by
  refine ⟨hnow, hmade, fun r run hrun => ⟨run, ?_, rfl, rfl, .inl rfl⟩⟩
  rw [hruns]
  exact hrun

theorem MadeOk.grows {m : Made ι ω α} (h : MadeOk σ s m) (hgrows : Grows s s') : MadeOk σ s' m := by
  obtain ⟨hmem, hwork, htime, run, hrun, hsince⟩ := h
  obtain ⟨run', hrun', _, hsince', _⟩ := hgrows.runs m.run run hrun
  exact ⟨hgrows.made hmem, hwork, htime.trans hgrows.now, run', hrun', hsince' ▸ hsince⟩

theorem EntryOk.grows {entry : Entry ι ω α} (h : EntryOk σ s entry) (hgrows : Grows s s') : EntryOk σ s' entry :=
  ⟨h.made.grows hgrows, h.keeps, h.written.1, h.written.2.trans hgrows.now⟩

theorem FoundOk.grows {since time : Nat} {entry : Entry ι ω α} (h : FoundOk σ s since entry time) (hgrows : Grows s s') :
    FoundOk σ s' since entry time :=
  ⟨h.sound.grows hgrows, h.live, h.accepted, h.after, h.past.trans hgrows.now⟩

theorem ResultOk.grows {r : ι} {since upTo upTo' : Nat} {result : Result ι ω α} (h : ResultOk σ s r since upTo result)
    (hgrows : Grows s s') (hupTo : upTo ≤ upTo') : ResultOk σ s' r since upTo' result := by
  cases result with
  | made m => exact ⟨h.1.grows hgrows, h.2.1, h.2.2.trans hupTo⟩
  | held entry time => exact ⟨h.1, h.2.1.grows hgrows, h.2.2.trans hupTo⟩

theorem Joined.grows {call : Call ι π ω α} {r : ι} (h : Joined s call r) (hsince : call.since ≤ s.now)
    (hgrows : Grows s s') : Joined s' call r := by
  obtain ⟨run, hrun, hprocess, hjoined⟩ := h
  obtain ⟨run', hrun', hprocess', _, hsettlement⟩ := hgrows.runs r run hrun
  refine ⟨run', hrun', hprocess'.trans hprocess, fun settlement hsettled => ?_⟩
  obtain hsame | ⟨_, hlater⟩ := hsettlement
  · exact hjoined settlement (hsame ▸ hsettled)
  · exact hsince.trans (hlater settlement hsettled)

theorem Shared.grows {call : Call ι π ω α} {r : ι} {result : Result ι ω α} (h : Shared s call r result)
    (hgrows : Grows s s') : Shared s' call r result := by
  obtain ⟨run, time, hrun, hprocess, hsettled, hsince⟩ := h
  obtain ⟨run', hrun', hprocess', _, hsettlement⟩ := hgrows.runs r run hrun
  obtain hsame | ⟨hnone, _⟩ := hsettlement
  · exact ⟨run', time, hrun', hprocess'.trans hprocess, hsame.trans hsettled, hsince⟩
  · rw [hnone] at hsettled
    cases hsettled

theorem CallOk.grows {call : Call ι π ω α} (h : CallOk σ s call) (hgrows : Grows s s') : CallOk σ s' call := by
  obtain ⟨process, since, phase⟩ := call
  refine ⟨h.1.trans hgrows.now, ?_⟩
  cases phase with
  | reading => exact h.2
  | answered found =>
    exact fun entry time hfound => ⟨(h.2 entry time hfound).1, (h.2 entry time hfound).2.grows hgrows⟩
  | waiting r => exact Joined.grows h.2 h.1 hgrows
  | writing m => exact ⟨h.2.1, Shared.grows h.2.2 hgrows⟩
  | served entry time => exact ⟨h.2.1, h.2.2.grows hgrows⟩
  | shared r result => exact Shared.grows h.2 hgrows
  | failed => trivial

theorem RunOk.grows {r : ι} {run : Run ι π ω α} (h : RunOk σ s r run) (hgrows : Grows s s') : RunOk σ s' r run := by
  obtain ⟨process, since, phase⟩ := run
  refine ⟨h.1.trans hgrows.now, ?_⟩
  cases phase with
  | reading => exact h.2
  | answered found => exact ⟨h.2.1, fun entry time hfound => (h.2.2 entry time hfound).grows hgrows⟩
  | working => trivial
  | writing m => exact ⟨h.2.1, h.2.2.1.grows hgrows, h.2.2.2⟩
  | ended result => exact fun found hfound => (h.2 found hfound).grows hgrows hgrows.now
  | settled time result => exact ⟨h.2.1.trans hgrows.now, fun found hfound => (h.2.2 found hfound).grows hgrows le_rfl⟩

end

/-! ### Steps -/

theorem update_eq_some_iff {β : Type} [DecidableEq ι] {f : ι → Option β} {a b : ι} {x y : β} :
    Function.update f a (some x) b = some y ↔ b = a ∧ x = y ∨ b ≠ a ∧ f b = some y := by
  by_cases h : b = a
  · subst h
    simp
  · simp [h]

theorem Sound.look {σ : Scheme ι ω α} {s : State ι π ω α} (h : Sound σ s) {since : Nat} (hsince : since ≤ s.now)
    {answered : Bool} {entry : Entry ι ω α} {time : Nat} (hfound : s.look σ answered = some (entry, time)) :
    FoundOk σ s since entry time := by
  rw [State.look] at hfound
  cases hheld : s.held with
  | none =>
    rw [hheld] at hfound
    cases hfound
  | some kept =>
    rw [hheld] at hfound
    simp only [Option.ite_none_right_eq_some, Option.some.injEq, Prod.mk.injEq] at hfound
    obtain ⟨⟨_, hlive, haccepts⟩, rfl, rfl⟩ := hfound
    have hentry : EntryOk σ s kept := h.held kept hheld
    exact ⟨hentry, hlive, haccepts, ⟨hsince, hentry.written.2⟩, le_rfl⟩

theorem Sound.settled_le {σ : Scheme ι ω α} {s : State ι π ω α} (h : Sound σ s) {r : ι} {run : Run ι π ω α} (hrun : s.runs r = some run)
    {settlement : Nat × Option (Result ι ω α)} (hsettled : run.settlement = some settlement) : settlement.1 ≤ s.now := by
  obtain ⟨_, hok⟩ := h.runs r run hrun
  obtain ⟨_, _, phase⟩ := run
  cases phase with
  | settled =>
    cases hsettled
    exact hok.1
  | _ => cases hsettled

/-- What a call shares was made by the run that it waited for. -/
theorem Sound.made_of_shared {σ : Scheme ι ω α} {s : State ι π ω α} (h : Sound σ s) {call : Call ι π ω α} {r : ι} {result : Result ι ω α}
    (hshared : Shared s call r result) : ∃ run time, s.runs r = some run ∧ run.process = call.process ∧
      run.settlement = some (time, some result) ∧ call.since ≤ time ∧ time ≤ s.now ∧
      ResultOk σ s r run.since time result := by
  obtain ⟨run, time, hrun, hprocess, hsettled, hsince⟩ := hshared
  refine ⟨run, time, hrun, hprocess, hsettled, hsince, ?_⟩
  obtain ⟨_, hok⟩ := h.runs r run hrun
  obtain ⟨_, _, phase⟩ := run
  cases phase with
  | settled =>
    cases hsettled
    exact ⟨hok.1, hok.2 _ rfl⟩
  | _ => cases hsettled

theorem sound_initial {σ : Scheme ι ω α} : Sound σ (State.initial ι π ω α) where
  held _ hentry := by cases hentry
  slot _ _ := by
    refine iff_of_false (fun hslot => by cases hslot) ?_
    rintro ⟨_, hrun, _⟩
    cases hrun
  arrived _ _ hrun := by cases hrun
  calls _ _ hcall := by cases hcall
  runs _ _ hrun := by cases hrun

theorem Sound.log {σ : Scheme ι ω α} {s : State ι π ω α} (h : Sound σ s) (m : Made ι ω α) :
    Sound σ { s with made := m :: s.made } := by
  have hgrows : Grows s { s with made := m :: s.made } := Grows.of_runs le_rfl (List.subset_cons_self m s.made) rfl
  exact ⟨fun entry hentry => (h.held entry hentry).grows hgrows, h.slot, h.arrived,
    fun c call hcall => (h.calls c call hcall).grows hgrows, fun r run hrun => (h.runs r run hrun).grows hgrows⟩

theorem Sound.put {σ : Scheme ι ω α} {s : State ι π ω α} {m : Made ι ω α} (h : Sound σ s) (hm : MadeOk σ s m)
    (hkeeps : σ.keeps m.value = true) (applied : Bool) : Sound σ (s.put m applied) := by
  cases applied with
  | false => exact h
  | true =>
    have hgrows : Grows s (s.put m true) := Grows.of_runs le_rfl (List.Subset.refl _) rfl
    refine ⟨fun entry hentry => ?_, h.slot, h.arrived, fun c call hcall => (h.calls c call hcall).grows hgrows,
      fun r run hrun => (h.runs r run hrun).grows hgrows⟩
    cases hentry
    exact ⟨hm.grows hgrows, hkeeps, hm.2.2.1, le_rfl⟩

section

variable [DecidableEq ι] {σ : Scheme ι ω α} {s s' : State ι π ω α}

/-- The run of a later state has this name and is not settled before. -/
theorem Grows.of_update {r : ι} {run run' : Run ι π ω α} (hrun : s.runs r = some run) (hunsettled : run.settlement = none)
    (hprocess : run'.process = run.process) (hsince : run'.since = run.since)
    (hlater : ∀ settlement, run'.settlement = some settlement → s.now ≤ settlement.1) (hnow : s.now ≤ s'.now)
    (hmade : s.made ⊆ s'.made) (hruns : s'.runs = Function.update s.runs r (some run')) : Grows s s' := by
  refine ⟨hnow, hmade, fun r' old hold => ?_⟩
  rw [hruns]
  by_cases hr : r' = r
  · subst hr
    rw [hrun] at hold
    cases hold
    exact ⟨run', Function.update_self .., hprocess, hsince, .inr ⟨hunsettled, hlater⟩⟩
  · exact ⟨old, (Function.update_of_ne hr _ _).trans hold, rfl, rfl, .inl rfl⟩

/-- A call goes on to another phase. -/
theorem Sound.setCall {c : ι} {call : Call ι π ω α} {phase : CallPhase ι ω α} (h : Sound σ s)
    (hcall : s.calls c = some call) (harrived : call.Arrived → Call.Arrived { call with phase := phase })
    (hok : CallOk σ s { call with phase := phase }) : Sound σ (s.setCall c call phase) := by
  have hgrows : Grows s (s.setCall c call phase) := Grows.of_runs le_rfl (List.Subset.refl _) rfl
  refine ⟨fun entry hentry => (h.held entry hentry).grows hgrows, h.slot, fun r run hrun => ?_,
    fun c' call' hcall' => ?_, fun r run hrun => (h.runs r run hrun).grows hgrows⟩
  · obtain ⟨call', hcall', hdone⟩ := h.arrived r run hrun
    by_cases hr : r = c
    · subst hr
      rw [hcall] at hcall'
      cases hcall'
      exact ⟨_, Function.update_self .., harrived hdone⟩
    · exact ⟨call', (Function.update_of_ne hr _ _).trans hcall', hdone⟩
  · obtain ⟨rfl, rfl⟩ | ⟨_, hold⟩ := update_eq_some_iff.mp hcall'
    · exact hok.grows hgrows
    · exact (h.calls c' call' hold).grows hgrows

/-- A run that is not settled goes on to another phase before it. -/
theorem Sound.setRun {r : ι} {run : Run ι π ω α} {phase : RunPhase ι ω α} (h : Sound σ s)
    (hrun : s.runs r = some run) (hunsettled : run.settlement = none)
    (hphase : Run.settlement { run with phase := phase } = none) (hok : RunOk σ s r { run with phase := phase }) :
    Sound σ (s.setRun r run phase) := by
  have hgrows : Grows s (s.setRun r run phase) := by
    refine @Grows.of_update _ _ _ _ _ _ _ _ run { run with phase := phase } hrun hunsettled rfl rfl
      (fun settlement hsettlement => ?_) le_rfl (List.Subset.refl _) rfl
    rw [hphase] at hsettlement
    cases hsettlement
  refine ⟨fun entry hentry => (h.held entry hentry).grows hgrows, fun p r' => (h.slot p r').trans ?_,
    fun r' run' hrun' => ?_, fun c call hcall => (h.calls c call hcall).grows hgrows, fun r' run' hrun' => ?_⟩
  · by_cases hr : r' = r
    · subst hr
      simp only [State.setRun, Function.update_self, Option.some.injEq, exists_eq_left', hrun, hunsettled, hphase]
    · simp only [State.setRun, Function.update_of_ne hr]
  · obtain ⟨rfl, _⟩ | ⟨_, hold⟩ := update_eq_some_iff.mp hrun'
    · exact h.arrived r' run hrun
    · exact h.arrived r' run' hold
  · obtain ⟨rfl, rfl⟩ | ⟨_, hold⟩ := update_eq_some_iff.mp hrun'
    · exact hok.grows hgrows
    · exact (h.runs r' run' hold).grows hgrows

/-- A call that is new is after every run. -/
theorem Sound.call (h : Sound σ s) {c : ι} (hc : s.calls c = none) (process : π) :
    Sound σ { s with calls := Function.update s.calls c (some ⟨process, s.now, σ.callStart c⟩) } := by
  have hgrows : Grows s { s with calls := Function.update s.calls c (some ⟨process, s.now, σ.callStart c⟩) } :=
    Grows.of_runs le_rfl (List.Subset.refl _) rfl
  refine ⟨fun entry hentry => (h.held entry hentry).grows hgrows, h.slot, fun r run hrun => ?_,
    fun c' call' hcall' => ?_, fun r run hrun => (h.runs r run hrun).grows hgrows⟩
  · obtain ⟨call, hcall, hdone⟩ := h.arrived r run hrun
    have hr : r ≠ c := by
      rintro rfl
      rw [hc] at hcall
      cases hcall
    exact ⟨call, (Function.update_of_ne hr _ _).trans hcall, hdone⟩
  · obtain ⟨_, rfl⟩ | ⟨_, hold⟩ := update_eq_some_iff.mp hcall'
    · refine ⟨le_rfl, ?_⟩
      unfold Scheme.callStart
      split_ifs with hlooks
      · exact hlooks.1
      · exact fun _ _ hfound => by cases hfound
    · exact (h.calls c' call' hold).grows hgrows

theorem Sound.finish (h : Sound σ s) {r : ι} {process : π} {since : Nat}
    (hrun : s.runs r = some ⟨process, since, .working⟩) (input : ω) :
    Sound σ (s.finish σ r ⟨process, since, .working⟩ input) := by
  have hsince : since ≤ s.now := (h.runs r _ hrun).1
  rw [State.finish]
  cases hwork : σ.work input s.now with
  | none => exact h.setRun hrun rfl rfl ⟨hsince, fun _ hfound => by cases hfound⟩
  | some a =>
    have hlog : Sound σ { s with made := ⟨r, input, s.now, a⟩ :: s.made } := h.log _
    have hm : MadeOk σ { s with made := ⟨r, input, s.now, a⟩ :: s.made } ⟨r, input, s.now, a⟩ :=
      ⟨List.mem_cons_self, hwork, le_rfl, _, hrun, hsince⟩
    dsimp only
    split_ifs with hwrites
    · rw [Bool.and_eq_true] at hwrites
      exact hlog.setRun hrun rfl rfl ⟨hsince, hwrites.2, hm, rfl⟩
    · refine hlog.setRun hrun rfl rfl ⟨hsince, fun _ hfound => ?_⟩
      cases hfound
      exact ⟨hm, rfl, le_rfl⟩

theorem Sound.receive (h : Sound σ s) {c r : ι} {process : π} {since time : Nat} {result : Option (Result ι ω α)}
    (hcall : s.calls c = some ⟨process, since, .waiting r⟩)
    (hsettled : (s.runs r).bind Run.settlement = some (time, result)) :
    Sound σ (s.receive σ c ⟨process, since, .waiting r⟩ r result) := by
  obtain ⟨hsince, hjoined⟩ := h.calls c _ hcall
  obtain ⟨run, hrun, hprocess, hlater⟩ := hjoined
  rw [hrun, Option.bind_some] at hsettled
  have hshared : ∀ found, result = some found → Shared s ⟨process, since, .waiting r⟩ r found := by
    rintro found rfl
    exact ⟨run, time, hrun, hprocess, hsettled, hlater _ hsettled⟩
  unfold State.receive
  cases result with
  | none => exact h.setCall hcall (fun _ => trivial) ⟨hsince, trivial⟩
  | some found =>
    cases found with
    | held entry found => exact h.setCall hcall (fun _ => trivial) ⟨hsince, hshared _ rfl⟩
    | made m =>
      dsimp only
      split_ifs with hwrites
      · rw [Bool.and_eq_true] at hwrites
        have hmade : m.run = r := by
          obtain ⟨_, hok⟩ := h.runs r run hrun
          obtain ⟨_, _, phase⟩ := run
          cases phase with
          | settled =>
            cases hsettled
            exact (hok.2 _ rfl).2.1
          | _ => cases hsettled
        exact h.setCall hcall (fun _ => trivial) ⟨hsince, hwrites.2, hmade ▸ hshared _ rfl⟩
      · exact h.setCall hcall (fun _ => trivial) ⟨hsince, hshared _ rfl⟩

variable [DecidableEq π]

/-- A call that finds the slot of its process empty leads a run. -/
theorem Sound.lead (h : Sound σ s) {c : ι} {call : Call ι π ω α} (hcall : s.calls c = some call)
    (hnot : ¬ call.Arrived) (hslot : s.slot call.process = none) :
    Sound σ (s.lead σ c call) := by
  have hruns : s.runs c = none := by
    cases hrun : s.runs c with
    | none => rfl
    | some run =>
      obtain ⟨call', hcall', hdone⟩ := h.arrived c run hrun
      rw [hcall] at hcall'
      cases hcall'
      exact absurd hdone hnot
  have hstart : Run.settlement (⟨call.process, s.now, σ.runStart⟩ : Run ι π ω α) = none := by
    unfold Scheme.runStart
    split_ifs <;> rfl
  have hgrows : Grows s (s.lead σ c call) := by
    refine ⟨le_rfl, List.Subset.refl _, fun r run hrun => ⟨run, update_eq_some_iff.mpr (.inr ⟨?_, hrun⟩), rfl, rfl, .inl rfl⟩⟩
    rintro rfl
    rw [hruns] at hrun
    cases hrun
  refine ⟨fun entry hentry => (h.held entry hentry).grows hgrows, fun p r => ?_, fun r run hrun => ?_,
    fun c' call' hcall' => ?_, fun r run hrun => ?_⟩
  · simp only [State.lead, update_eq_some_iff]
    rw [h.slot p r]
    constructor
    · rintro (⟨rfl, rfl⟩ | ⟨hp, run, hrun, hprocess, hunsettled⟩)
      · exact ⟨_, .inl ⟨rfl, rfl⟩, rfl, hstart⟩
      · refine ⟨run, .inr ⟨?_, hrun⟩, hprocess, hunsettled⟩
        rintro rfl
        rw [hruns] at hrun
        cases hrun
    · rintro ⟨run, ⟨rfl, rfl⟩ | ⟨hr, hrun⟩, hprocess, hunsettled⟩
      · exact .inl ⟨hprocess.symm, rfl⟩
      · refine .inr ⟨?_, run, hrun, hprocess, hunsettled⟩
        rintro rfl
        have hfull := (h.slot call.process r).mpr ⟨run, hrun, hprocess, hunsettled⟩
        rw [hslot] at hfull
        cases hfull
  · obtain ⟨rfl, _⟩ | ⟨hr, hold⟩ := update_eq_some_iff.mp hrun
    · exact ⟨_, Function.update_self .., trivial⟩
    · obtain ⟨call', hcall', hdone⟩ := h.arrived r run hold
      exact ⟨call', update_eq_some_iff.mpr (.inr ⟨hr, hcall'⟩), hdone⟩
  · obtain ⟨rfl, rfl⟩ | ⟨_, hold⟩ := update_eq_some_iff.mp hcall'
    · refine ⟨(h.calls c' call hcall).1, _, Function.update_self .., rfl, fun settlement hsettled => ?_⟩
      rw [hstart] at hsettled
      cases hsettled
    · exact (h.calls c' call' hold).grows hgrows
  · obtain ⟨rfl, rfl⟩ | ⟨_, hold⟩ := update_eq_some_iff.mp hrun
    · refine ⟨le_rfl, ?_⟩
      unfold Scheme.runStart
      split_ifs with hplace
      · exact hplace
      · trivial
    · exact (h.runs r run hold).grows hgrows

/-- A run is settled when its slot is cleared. -/
theorem Sound.settle (h : Sound σ s) {r : ι} {process : π} {since : Nat} {result : Option (Result ι ω α)}
    (hrun : s.runs r = some ⟨process, since, .ended result⟩) :
    Sound σ (s.settle r process since result) := by
  have hgrows : Grows s (s.settle r process since result) := by
    refine @Grows.of_update _ _ _ _ _ _ _ _ ⟨process, since, .ended result⟩ ⟨process, since, .settled s.now result⟩ hrun
      rfl rfl rfl (fun settlement hsettled => ?_) le_rfl (List.Subset.refl _) rfl
    cases hsettled
    exact le_rfl
  have hheld : s.slot process = some r := (h.slot process r).mpr ⟨_, hrun, rfl, rfl⟩
  refine ⟨fun entry hentry => (h.held entry hentry).grows hgrows, fun p r' => ?_, fun r' run' hrun' => ?_,
    fun c call hcall => (h.calls c call hcall).grows hgrows, fun r' run' hrun' => ?_⟩
  · by_cases hp : p = process
    · subst hp
      simp only [State.settle, Function.update_self, update_eq_some_iff, reduceCtorEq, false_iff]
      rintro ⟨run', ⟨rfl, rfl⟩ | ⟨hr, hold⟩, hprocess, hunsettled⟩
      · cases hunsettled
      · have hslot := (h.slot p r').mpr ⟨run', hold, hprocess, hunsettled⟩
        rw [hheld] at hslot
        exact hr (Option.some.inj hslot).symm
    · simp only [State.settle, Function.update_of_ne hp, update_eq_some_iff]
      rw [h.slot p r']
      constructor
      · rintro ⟨run', hold, hprocess, hunsettled⟩
        refine ⟨run', .inr ⟨?_, hold⟩, hprocess, hunsettled⟩
        rintro rfl
        rw [hrun] at hold
        cases hold
        exact hp hprocess.symm
      · rintro ⟨run', ⟨rfl, rfl⟩ | ⟨_, hold⟩, hprocess, hunsettled⟩
        · cases hunsettled
        · exact ⟨run', hold, hprocess, hunsettled⟩
  · obtain ⟨rfl, _⟩ | ⟨_, hold⟩ := update_eq_some_iff.mp hrun'
    · exact h.arrived r' _ hrun
    · exact h.arrived r' run' hold
  · obtain ⟨rfl, rfl⟩ | ⟨_, hold⟩ := update_eq_some_iff.mp hrun'
    · obtain ⟨hsince, hended⟩ := h.runs r' _ hrun
      exact ⟨hsince, le_rfl, fun found hfound => (hended found hfound).grows hgrows le_rfl⟩
    · exact (h.runs r' run' hold).grows hgrows

/-! ### Runs of the system -/

theorem Sound.enter (h : Sound σ s) {c : ι} {call : Call ι π ω α} (hcall : s.calls c = some call)
    (hnot : ¬ call.Arrived) : Sound σ (s.enter σ c call) := by
  rw [State.enter]
  cases hslot : s.slot call.process with
  | none => exact h.lead hcall hnot hslot
  | some r =>
    obtain ⟨run, hrun, hprocess, hunsettled⟩ := (h.slot call.process r).mp hslot
    refine h.setCall hcall (fun _ => trivial) ⟨(h.calls c call hcall).1, run, hrun, hprocess, fun settlement hsettled => ?_⟩
    rw [hunsettled] at hsettled
    cases hsettled

theorem Sound.step (h : Sound σ s) {event : Event ι π ω} (hstep : s.step σ event = some s') : Sound σ s' := by
  cases event with
  | tick duration =>
    cases hstep
    have hgrows : Grows s { s with now := s.now + duration } := Grows.of_runs (Nat.le_add_right _ _) (List.Subset.refl _) rfl
    exact ⟨fun entry hentry => (h.held entry hentry).grows hgrows, h.slot, h.arrived,
      fun c call hcall => (h.calls c call hcall).grows hgrows, fun r run hrun => (h.runs r run hrun).grows hgrows⟩
  | call c process =>
    simp only [State.step] at hstep
    split at hstep
    · rename_i hc
      cases hstep
      exact h.call hc process
    · cases hstep
  | read c answered =>
    simp only [State.step] at hstep
    split at hstep
    · rename_i process since hcall
      cases hstep
      obtain ⟨hsince, hplace⟩ := h.calls c _ hcall
      exact h.setCall hcall False.elim ⟨hsince, fun _ _ hfound => ⟨hplace, h.look hsince hfound⟩⟩
    · cases hstep
  | arrive c =>
    simp only [State.step] at hstep
    split at hstep
    · rename_i process since entry time hcall
      cases hstep
      obtain ⟨hsince, hfound⟩ := h.calls c _ hcall
      exact h.setCall hcall (fun _ => trivial) ⟨hsince, hfound entry time rfl⟩
    · rename_i hcall
      cases hstep
      exact h.enter hcall id
    · cases hstep
  | readRun r answered =>
    simp only [State.step] at hstep
    split at hstep
    · rename_i process since hrun
      cases hstep
      obtain ⟨hsince, hplace⟩ := h.runs r _ hrun
      exact h.setRun hrun rfl rfl ⟨hsince, hplace, fun _ _ hfound => h.look hsince hfound⟩
    · cases hstep
  | resume r =>
    simp only [State.step] at hstep
    split at hstep
    · rename_i process since found hrun
      cases hstep
      obtain ⟨hsince, hplace, hfound⟩ := h.runs r _ hrun
      cases found with
      | none => exact h.setRun hrun rfl rfl ⟨hsince, trivial⟩
      | some found =>
        have hok : FoundOk σ s since found.1 found.2 := hfound found.1 found.2 rfl
        refine h.setRun hrun rfl rfl ⟨hsince, fun _ heq => ?_⟩
        cases heq
        exact ⟨hplace, hok, hok.past⟩
    · cases hstep
  | work r input =>
    simp only [State.step] at hstep
    split at hstep
    · rename_i hrun
      cases hstep
      exact h.finish hrun input
    · cases hstep
  | writeRun r applied =>
    simp only [State.step] at hstep
    split at hstep
    · rename_i process since m hrun
      cases hstep
      obtain ⟨hsince, hkeeps, hm, hr⟩ := h.runs r _ hrun
      have hended : Sound σ (s.setRun r ⟨process, since, .writing m⟩ (.ended (some (.made m)))) := by
        refine h.setRun hrun rfl rfl ⟨hsince, fun _ heq => ?_⟩
        cases heq
        exact ⟨hm, hr, hm.2.2.1⟩
      refine hended.put (hm.grows ?_) hkeeps applied
      exact @Grows.of_update _ _ _ _ _ _ _ _ ⟨process, since, .writing m⟩ ⟨process, since, .ended (some (.made m))⟩ hrun
        rfl rfl rfl (fun _ hsettled => by cases hsettled) le_rfl (List.Subset.refl _) rfl
    · cases hstep
  | settle r =>
    simp only [State.step] at hstep
    split at hstep
    · rename_i hrun
      cases hstep
      exact h.settle hrun
    · cases hstep
  | wake c =>
    simp only [State.step] at hstep
    split at hstep
    · rename_i process since r hcall
      split at hstep
      · rename_i time result hsettled
        cases hstep
        exact h.receive hcall hsettled
      · cases hstep
    · cases hstep
  | write c applied =>
    simp only [State.step] at hstep
    split at hstep
    · rename_i process since m hcall
      cases hstep
      obtain ⟨hsince, hkeeps, hshared⟩ := h.calls c _ hcall
      obtain ⟨run, time, _, _, _, _, _, hm, _⟩ := h.made_of_shared hshared
      have hdone : Sound σ (s.setCall c ⟨process, since, .writing m⟩ (.shared m.run (.made m))) :=
        h.setCall hcall (fun _ => trivial) ⟨hsince, hshared⟩
      exact hdone.put (hm.grows (Grows.of_runs le_rfl (List.Subset.refl _) rfl)) hkeeps applied
    · cases hstep
  | lose =>
    cases hstep
    have hgrows : Grows s { s with held := none } := Grows.of_runs le_rfl (List.Subset.refl _) rfl
    exact ⟨fun _ hentry => (by cases hentry), h.slot, h.arrived,
      fun c call hcall => (h.calls c call hcall).grows hgrows, fun r run hrun => (h.runs r run hrun).grows hgrows⟩

theorem Reachable.sound (h : Reachable σ s) : Sound σ s :=
  h.induction sound_initial fun _ _ _ hsound hstep => hsound.step hstep

/-- What a step does to the calls: nothing, one goes on that had not returned, or a new one begins. -/
def CallsMove (σ : Scheme ι ω α) (s : State ι π ω α) (event : Event ι π ω) (s' : State ι π ω α) : Prop :=
  s'.calls = s.calls ∨
    (∃ c call phase, s.calls c = some call ∧ call.result = none ∧
      s'.calls = Function.update s.calls c (some { call with phase := phase })) ∨
    ∃ c process, event = .call c process ∧ s.calls c = none ∧
      s'.calls = Function.update s.calls c (some ⟨process, s.now, σ.callStart c⟩)

/-- What it does to the runs: nothing, one goes on that was not settled, or one begins for its call. -/
def RunsMove (σ : Scheme ι ω α) (s s' : State ι π ω α) : Prop :=
  s'.runs = s.runs ∨
    (∃ r run phase, s.runs r = some run ∧ run.settlement = none ∧
      s'.runs = Function.update s.runs r (some { run with phase := phase })) ∨
    ∃ c call, s.calls c = some call ∧ ¬ call.Arrived ∧ s.slot call.process = none ∧
      s'.runs = Function.update s.runs c (some ⟨call.process, s.now, σ.runStart⟩)

/-- Only the end of a task makes something, and only a tick is felt by the clock. -/
def LogMove (s : State ι π ω α) (event : Event ι π ω) (s' : State ι π ω α) : Prop :=
  (s'.made = s.made ∨ ∃ r input a, event = .work r input ∧ s'.made = ⟨r, input, s.now, a⟩ :: s.made) ∧
    (s'.now = s.now ∨ ∃ duration, event = .tick duration ∧ s'.now = s.now + duration)

theorem step_moves {event : Event ι π ω} (hstep : s.step σ event = some s') :
    CallsMove σ s event s' ∧ RunsMove σ s s' ∧ LogMove s event s' := by
  cases event with
  | tick duration =>
    cases hstep
    exact ⟨.inl rfl, .inl rfl, .inl rfl, .inr ⟨duration, rfl, rfl⟩⟩
  | call c process =>
    simp only [State.step] at hstep
    split at hstep
    · rename_i hc
      cases hstep
      exact ⟨.inr (.inr ⟨c, process, rfl, hc, rfl⟩), .inl rfl, .inl rfl, .inl rfl⟩
    · cases hstep
  | read c answered =>
    simp only [State.step] at hstep
    split at hstep
    · rename_i hcall
      cases hstep
      exact ⟨.inr (.inl ⟨c, _, _, hcall, rfl, rfl⟩), .inl rfl, .inl rfl, .inl rfl⟩
    · cases hstep
  | arrive c =>
    simp only [State.step] at hstep
    split at hstep
    · rename_i hcall
      cases hstep
      exact ⟨.inr (.inl ⟨c, _, _, hcall, rfl, rfl⟩), .inl rfl, .inl rfl, .inl rfl⟩
    · rename_i process since hcall
      cases hstep
      unfold State.enter
      cases hslot : s.slot process with
      | none =>
        exact ⟨.inr (.inl ⟨c, _, _, hcall, rfl, rfl⟩), .inr (.inr ⟨c, _, hcall, id, hslot, rfl⟩), .inl rfl, .inl rfl⟩
      | some r => exact ⟨.inr (.inl ⟨c, _, _, hcall, rfl, rfl⟩), .inl rfl, .inl rfl, .inl rfl⟩
    · cases hstep
  | readRun r answered =>
    simp only [State.step] at hstep
    split at hstep
    · rename_i hrun
      cases hstep
      exact ⟨.inl rfl, .inr (.inl ⟨r, _, _, hrun, rfl, rfl⟩), .inl rfl, .inl rfl⟩
    · cases hstep
  | resume r =>
    simp only [State.step] at hstep
    split at hstep
    · rename_i hrun
      cases hstep
      exact ⟨.inl rfl, .inr (.inl ⟨r, _, _, hrun, rfl, rfl⟩), .inl rfl, .inl rfl⟩
    · cases hstep
  | work r input =>
    simp only [State.step] at hstep
    split at hstep
    · rename_i hrun
      cases hstep
      unfold State.finish
      cases σ.work input s.now with
      | none => exact ⟨.inl rfl, .inr (.inl ⟨r, _, _, hrun, rfl, rfl⟩), .inl rfl, .inl rfl⟩
      | some a => exact ⟨.inl rfl, .inr (.inl ⟨r, _, _, hrun, rfl, rfl⟩), .inr ⟨r, input, a, rfl, rfl⟩, .inl rfl⟩
    · cases hstep
  | writeRun r applied =>
    simp only [State.step] at hstep
    split at hstep
    · rename_i hrun
      cases hstep
      cases applied <;> exact ⟨.inl rfl, .inr (.inl ⟨r, _, _, hrun, rfl, rfl⟩), .inl rfl, .inl rfl⟩
    · cases hstep
  | settle r =>
    simp only [State.step] at hstep
    split at hstep
    · rename_i hrun
      cases hstep
      exact ⟨.inl rfl, .inr (.inl ⟨r, _, _, hrun, rfl, rfl⟩), .inl rfl, .inl rfl⟩
    · cases hstep
  | wake c =>
    simp only [State.step] at hstep
    split at hstep
    · rename_i hcall
      split at hstep
      · rename_i result hsettled
        cases hstep
        unfold State.receive
        cases result with
        | none => exact ⟨.inr (.inl ⟨c, _, _, hcall, rfl, rfl⟩), .inl rfl, .inl rfl, .inl rfl⟩
        | some found =>
          cases found <;> exact ⟨.inr (.inl ⟨c, _, _, hcall, rfl, rfl⟩), .inl rfl, .inl rfl, .inl rfl⟩
      · cases hstep
    · cases hstep
  | write c applied =>
    simp only [State.step] at hstep
    split at hstep
    · rename_i hcall
      cases hstep
      cases applied <;> exact ⟨.inr (.inl ⟨c, _, _, hcall, rfl, rfl⟩), .inl rfl, .inl rfl, .inl rfl⟩
    · cases hstep
  | lose =>
    cases hstep
    exact ⟨.inl rfl, .inl rfl, .inl rfl, .inl rfl⟩

/-- A call keeps its process, the time of its beginning and what it has returned. -/
theorem step_call {event : Event ι π ω} (hstep : s.step σ event = some s') {c : ι} {call : Call ι π ω α}
    (hcall : s.calls c = some call) : ∃ call', s'.calls c = some call' ∧ call'.process = call.process ∧
      call'.since = call.since ∧ ∀ a, call.result = some a → call'.result = some a := by
  obtain hsame | ⟨c', old, phase, hold, hresult, hnew⟩ | ⟨c', process, _, hnone, hnew⟩ := (step_moves hstep).1
  · exact ⟨call, hsame ▸ hcall, rfl, rfl, fun _ h => h⟩
  · by_cases hc : c = c'
    · subst hc
      rw [hcall] at hold
      cases hold
      refine ⟨{ call with phase := phase }, by rw [hnew, Function.update_self], rfl, rfl, fun a h => ?_⟩
      rw [hresult] at h
      cases h
    · exact ⟨call, hnew ▸ (Function.update_of_ne hc _ _).trans hcall, rfl, rfl, fun _ h => h⟩
  · have hc : c ≠ c' := by
      rintro rfl
      rw [hcall] at hnone
      cases hnone
    exact ⟨call, hnew ▸ (Function.update_of_ne hc _ _).trans hcall, rfl, rfl, fun _ h => h⟩

/-- Only its own event begins a call. -/
theorem calls_of_step {event : Event ι π ω} (hstep : s.step σ event = some s') {c : ι} {call' : Call ι π ω α}
    (hcall' : s'.calls c = some call') :
    (∃ call, s.calls c = some call ∧ call'.process = call.process ∧ call'.since = call.since) ∨
      event = .call c call'.process ∧ call'.since = s.now := by
  obtain hsame | ⟨c', old, phase, hold, hresult, hnew⟩ | ⟨c', process, hevent, hnone, hnew⟩ := (step_moves hstep).1
  · exact .inl ⟨call', hsame ▸ hcall', rfl, rfl⟩
  · rw [hnew] at hcall'
    obtain ⟨rfl, rfl⟩ | ⟨_, hcall⟩ := update_eq_some_iff.mp hcall'
    · exact .inl ⟨old, hold, rfl, rfl⟩
    · exact .inl ⟨call', hcall, rfl, rfl⟩
  · rw [hnew] at hcall'
    obtain ⟨rfl, rfl⟩ | ⟨_, hcall⟩ := update_eq_some_iff.mp hcall'
    · exact .inr ⟨hevent, rfl⟩
    · exact .inl ⟨call', hcall, rfl, rfl⟩

/-- A run keeps its process and the time of its beginning. -/
theorem Sound.step_run (h : Sound σ s) {event : Event ι π ω} (hstep : s.step σ event = some s') {r : ι}
    {run : Run ι π ω α} (hrun : s.runs r = some run) :
    ∃ run', s'.runs r = some run' ∧ run'.process = run.process ∧ run'.since = run.since := by
  obtain hsame | ⟨r', old, phase, hold, _, hnew⟩ | ⟨c, call, hcall, hnot, _, hnew⟩ := (step_moves hstep).2.1
  · exact ⟨run, hsame ▸ hrun, rfl, rfl⟩
  · by_cases hr : r = r'
    · subst hr
      rw [hrun] at hold
      cases hold
      exact ⟨{ run with phase := phase }, by rw [hnew, Function.update_self], rfl, rfl⟩
    · exact ⟨run, hnew ▸ (Function.update_of_ne hr _ _).trans hrun, rfl, rfl⟩
  · have hr : r ≠ c := by
      rintro rfl
      obtain ⟨call', hcall', hdone⟩ := h.arrived r run hrun
      rw [hcall] at hcall'
      cases hcall'
      exact hnot hdone
    exact ⟨run, hnew ▸ (Function.update_of_ne hr _ _).trans hrun, rfl, rfl⟩

theorem Reachable.step (h : Reachable σ s) {event : Event ι π ω} (hstep : s.step σ event = some s') : Reachable σ s' := by
  obtain ⟨events, hevents⟩ := h
  refine ⟨events ++ [event], ?_⟩
  rw [State.run] at hevents ⊢
  rw [List.foldlM_append, hevents]
  simp [hstep]

/-- The one run had ended when the other one began. -/
def Before (run run' : Run ι π ω α) : Prop := ∃ settlement, run.settlement = some settlement ∧ settlement.1 ≤ run'.since

/-- A process never has two runs at a time. -/
def Apart (s : State ι π ω α) : Prop :=
  ∀ r r' run run', s.runs r = some run → s.runs r' = some run' → r ≠ r' → run.process = run'.process →
    Before run run' ∨ Before run' run

theorem Sound.apart_step (hsound : Sound σ s) (hapart : Apart s) {event : Event ι π ω}
    (hstep : s.step σ event = some s') : Apart s' := by
  obtain hsame | ⟨q, old, phase, hold, hunsettled, hnew⟩ | ⟨c, call, _, _, hslot, hnew⟩ := (step_moves hstep).2.1
  · unfold Apart
    rw [hsame]
    exact hapart
  · have hgone : ∀ r' run', s.runs r' = some run' → q ≠ r' → old.process = run'.process → Before run' old := by
      intro r' run' hrun' hne hprocess
      refine (hapart q r' old run' hold hrun' hne hprocess).resolve_left ?_
      rintro ⟨settlement, hsettled, _⟩
      rw [hunsettled] at hsettled
      cases hsettled
    unfold Apart
    rw [hnew]
    intro r r' run run' hrun hrun' hne hprocess
    obtain ⟨rfl, rfl⟩ | ⟨hr, hbefore⟩ := update_eq_some_iff.mp hrun
    · obtain ⟨rfl, _⟩ | ⟨_, hrun'⟩ := update_eq_some_iff.mp hrun'
      · exact absurd rfl hne
      · exact .inr (hgone r' run' hrun' hne hprocess)
    · obtain ⟨rfl, rfl⟩ | ⟨_, hrun'⟩ := update_eq_some_iff.mp hrun'
      · exact .inl (hgone r run hbefore (Ne.symm hr) hprocess.symm)
      · exact hapart r r' run run' hbefore hrun' hne hprocess
  · have hgone : ∀ r run, s.runs r = some run → run.process = call.process →
        Before run (⟨call.process, s.now, σ.runStart⟩ : Run ι π ω α) := by
      intro r run hrun hprocess
      cases hsettled : run.settlement with
      | none =>
        have hfull : s.slot call.process = some r := (hsound.slot _ r).mpr ⟨run, hrun, hprocess, hsettled⟩
        rw [hslot] at hfull
        cases hfull
      | some settlement => exact ⟨settlement, hsettled, hsound.settled_le hrun hsettled⟩
    unfold Apart
    rw [hnew]
    intro r r' run run' hrun hrun' hne hprocess
    obtain ⟨rfl, rfl⟩ | ⟨hr, hbefore⟩ := update_eq_some_iff.mp hrun
    · obtain ⟨rfl, _⟩ | ⟨_, hrun'⟩ := update_eq_some_iff.mp hrun'
      · exact absurd rfl hne
      · exact .inr (hgone r' run' hrun' hprocess.symm)
    · obtain ⟨rfl, rfl⟩ | ⟨_, hrun'⟩ := update_eq_some_iff.mp hrun'
      · exact .inl (hgone r run hbefore hprocess)
      · exact hapart r r' run run' hbefore hrun' hne hprocess

theorem Reachable.apart (h : Reachable σ s) : Apart s := by
  have hboth : Sound σ s ∧ Apart s := @Reachable.induction ι π ω α _ _ σ (fun s => Sound σ s ∧ Apart s)
    ⟨sound_initial, fun _ _ _ _ hrun => by cases hrun⟩
    (fun _ _ _ hboth hstep => ⟨hboth.1.step hstep, hboth.1.apart_step hboth.2 hstep⟩) s h
  exact hboth.2

/-- A call waits for a run that is settled, or for the one in the slot of its process. -/
theorem Reachable.waiting (h : Reachable σ s) {c r : ι} {process : π} {since : Nat}
    (hcall : s.calls c = some ⟨process, since, .waiting r⟩) :
    s.slot process = some r ∨ ∃ run settlement, s.runs r = some run ∧ run.process = process ∧
      run.settlement = some settlement ∧ since ≤ settlement.1 := by
  obtain ⟨_, run, hrun, hprocess, hlater⟩ := h.sound.calls c _ hcall
  cases hsettlement : run.settlement with
  | none => exact .inl ((h.sound.slot process r).mpr ⟨run, hrun, hprocess, hsettlement⟩)
  | some settlement => exact .inr ⟨run, settlement, hrun, hprocess, hsettlement, hlater settlement hsettlement⟩

/-- The run of the call's process that made this was not settled before the call. -/
def Fresh (s : State ι π ω α) (call : Call ι π ω α) (m : Made ι ω α) : Prop :=
  ∃ run time, s.runs m.run = some run ∧ run.process = call.process ∧ run.settlement = some (time, some (.made m)) ∧
    run.since ≤ m.time ∧ m.time ≤ time ∧ call.since ≤ time

/-- What a call returns was made by a run that had not ended when the call began, or was found in the
    store: by the call itself or, where the runs look in the store, by such a run. -/
theorem Reachable.result (h : Reachable σ s) {c : ι} {call : Call ι π ω α} {a : α} (hcall : s.calls c = some call)
    (hresult : call.result = some a) :
    (∃ m, MadeOk σ s m ∧ m.value = a ∧ Fresh s call m) ∨
      ∃ entry time since, FoundOk σ s since entry time ∧ entry.value = a ∧
        (σ.place ≠ .inside ∧ since = call.since ∨
          σ.place = .inside ∧ ∃ r run settled, s.runs r = some run ∧ run.process = call.process ∧ run.since = since ∧
            run.settlement = some (settled, some (.held entry time)) ∧ call.since ≤ settled) := by
  obtain ⟨_, hok⟩ := h.sound.calls c call hcall
  obtain ⟨process, since, phase⟩ := call
  cases phase with
  | served entry time =>
    cases hresult
    exact .inr ⟨entry, time, since, hok.2, rfl, .inl ⟨hok.1, rfl⟩⟩
  | shared r result =>
    cases hresult
    obtain ⟨run, time, hrun, hprocess, hsettled, hsince, _, hresult⟩ := h.sound.made_of_shared hok
    cases result with
    | made m =>
      obtain ⟨hm, rfl, htime⟩ := hresult
      have hbegan : run.since ≤ m.time := by
        obtain ⟨_, _, _, run', hrun', hbegan⟩ := hm
        rw [hrun] at hrun'
        cases hrun'
        exact hbegan
      exact .inl ⟨m, hm, rfl, run, time, hrun, hprocess, hsettled, hbegan, htime, hsince⟩
    | held entry found =>
      exact .inr ⟨entry, found, run.since, hresult.2.1, rfl,
        .inr ⟨hresult.1, r, run, time, hrun, hprocess, rfl, hsettled, hsince⟩⟩
  | _ => cases hresult

/-- Whether it was found or not, some run made it. -/
theorem Reachable.exists_made (h : Reachable σ s) {c : ι} {call : Call ι π ω α} {a : α} (hcall : s.calls c = some call)
    (hresult : call.result = some a) : ∃ m, MadeOk σ s m ∧ m.value = a := by
  obtain ⟨m, hm, hvalue, _⟩ | ⟨entry, _, _, hfound, hvalue, _⟩ := h.result hcall hresult
  · exact ⟨m, hm, hvalue⟩
  · exact ⟨entry.toMade, hfound.sound.made, hvalue⟩

end

end singleflight
