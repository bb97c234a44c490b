import Mathlib.Data.List.Nodup
import Mathlib.Data.List.Perm.Subperm
import Mathlib.Data.List.Range
import Narwhal.Lib.Run
import Narwhal.Portal.LiveStream

open jslib pylib

namespace narwhal.portal.live_stream

/-! ### Runs of several processes -/

/-- The processes that share one Valkey, and the pushes between their two steps. -/
structure World where
  valkey : Valkey
  process : Nat → Process
  inFlight : List (Nat × LiveEvent)

/-- A step of a push while Valkey answers: a process takes an id, or the pipeline of a push in
    flight runs. -/
inductive PushStep where
  | take (process : Nat) (ingest : LiveEventIngest) (now : Nat)
  | pipeline (index : Nat)

def World.setProcess (w : World) (i : Nat) (p : Process) : Nat → Process := fun j => if j = i then p else w.process j

def World.push (w : World) : PushStep → World
  | .take i ingest now =>
    let (event, p, v) := beginPush (w.process i) w.valkey ingest now true
    ⟨v, w.setProcess i p, w.inFlight ++ [(i, event)]⟩
  | .pipeline index =>
    match w.inFlight[index]? with
    | none => w
    | some (i, event) =>
      let (p, v) := finishPush (w.process i) w.valkey event .ok
      ⟨v, w.setProcess i p, w.inFlight.eraseIdx index⟩

def World.start : World := ⟨⟨0, [], []⟩, fun _ => ⟨0, [], none⟩, []⟩

/-- The pushes that have begun, by their ids where the pipelines run in turn. -/
def World.begun (w : World) : List LiveEvent := w.valkey.channel ++ w.inFlight.map Prod.snd

/-! ### Numbered events -/

/-- The ids of the events are the numbers from `m` on. -/
def Numbered (m : Nat) (events : List LiveEvent) : Prop :=
  ∀ i event, events[i]? = some event → event.id = natText (m + i)

theorem numbered_nil (m : Nat) : Numbered m [] := by
  intro i event h
  simp at h

theorem Numbered.concat {m : Nat} {events : List LiveEvent} (h : Numbered m events) {event : LiveEvent}
    (hid : event.id = natText (m + events.length)) : Numbered m (events ++ [event]) := by
  intro i e hget
  by_cases hi : i < events.length
  · rw [List.getElem?_append_left hi] at hget
    exact h i e hget
  · rw [List.getElem?_append_right (by omega), List.getElem?_singleton] at hget
    split at hget
    · cases hget
      rw [hid, show i = events.length by omega]
    · cases hget

theorem Numbered.of_append {m : Nat} {a b : List LiveEvent} (h : Numbered m (a ++ b)) : Numbered m a := by
  intro i event hget
  have hi : i < a.length := (List.getElem?_eq_some_iff.mp hget).1
  exact h i event (by rw [List.getElem?_append_left hi, hget])

theorem Numbered.drop {m : Nat} {events : List LiveEvent} (h : Numbered m events) (k : Nat) :
    Numbered (m + k) (events.drop k) := by
  intro i event hget
  rw [List.getElem?_drop] at hget
  rw [h (k + i) event hget, Nat.add_assoc]

theorem Numbered.isNumericId {m : Nat} {events : List LiveEvent} (h : Numbered m events) {event : LiveEvent}
    (hmem : event ∈ events) : isNumericId event.id = true := by
  obtain ⟨i, hi⟩ := List.getElem?_of_mem hmem
  rw [h i event hi]
  exact isNumericId_natText _

/-- The events after a number are those from its place on. -/
theorem Numbered.filter_lt {m : Nat} {events : List LiveEvent} (h : Numbered m events) (k : Nat) :
    events.filter (fun event => k < idValue event.id) = events.drop (k + 1 - m) := by
  induction events generalizing m with
  | nil => simp
  | cons event events ih =>
    have hid : event.id = natText m := h 0 event rfl
    have hrest : Numbered (m + 1) events := h.drop 1
    rw [List.filter_cons, ih hrest, hid, idValue_natText]
    by_cases hk : k < m
    · have h1 : k + 1 - m = 0 := by omega
      have h2 : k + 1 - (m + 1) = 0 := by omega
      simp [hk, h1, h2]
    · have h1 : k + 1 - m = (k + 1 - (m + 1)) + 1 := by omega
      simp [hk, h1]

theorem Numbered.nodup {m : Nat} {events : List LiveEvent} (h : Numbered m events) :
    (events.map LiveEvent.id).Nodup := by
  induction events generalizing m with
  | nil => exact List.nodup_nil
  | cons event events ih =>
    have hid : event.id = natText m := h 0 event rfl
    have hrest : Numbered (m + 1) events := h.drop 1
    rw [List.map_cons, List.nodup_cons]
    refine ⟨fun hmem => ?_, ih hrest⟩
    obtain ⟨other, hother, heq⟩ := List.mem_map.mp hmem
    obtain ⟨i, hi⟩ := List.getElem?_of_mem hother
    rw [hrest i other hi, hid] at heq
    have := natText_inj heq
    omega

/-- Numbered events are in the order of their ids. -/
theorem Numbered.pairwise {m : Nat} {events : List LiveEvent} (h : Numbered m events) :
    events.Pairwise (fun a b => idValue a.id < idValue b.id) := by
  induction events generalizing m with
  | nil => exact List.Pairwise.nil
  | cons event events ih =>
    have hid : event.id = natText m := h 0 event rfl
    have hrest : Numbered (m + 1) events := h.drop 1
    refine List.Pairwise.cons (fun other hother => ?_) (ih hrest)
    obtain ⟨i, hi⟩ := List.getElem?_of_mem hother
    rw [hrest i other hi, hid, idValue_natText, idValue_natText]
    omega

/-! ### Pipelines in turn -/

/-- The pipelines run in the order in which the ids were taken. -/
def InTurn (_ : World) : PushStep → Prop
  | .take .. => True
  | .pipeline index => index = 0

/-- What holds while the pipelines run in turn. -/
structure Sequenced (w : World) : Prop where
  counter : w.begun.length = w.valkey.counter
  numbered : Numbered 1 w.begun
  /-- the shared ring has the newest of what was published -/
  ring : w.valkey.ring = w.valkey.channel.reverse.take LIVE_EVENT_RETENTION
  /-- a process's ring has its own pushes, in the order of their ids -/
  own : ∀ i, (w.process i).memoryRing.reverse.Sublist w.begun
  bounded : ∀ i, (w.process i).memoryRing.length ≤ LIVE_EVENT_RETENTION

theorem Sequenced.start : Sequenced World.start where
  counter := rfl
  numbered := numbered_nil 1
  ring := rfl
  own := fun _ => List.nil_sublist _
  bounded := fun _ => Nat.zero_le _

theorem reverse_retain_sublist {event : LiveEvent} {ring events : List LiveEvent} (h : ring.reverse.Sublist events) :
    (retain event ring).reverse.Sublist (events ++ [event]) := by
  have htake : (retain event ring).Sublist (event :: ring) := List.take_sublist _ _
  have hreverse : (retain event ring).reverse.Sublist (event :: ring).reverse := htake.reverse
  rw [List.reverse_cons] at hreverse
  exact hreverse.trans (h.append (List.Sublist.refl _))

theorem memoryRing_finishPush (p : Process) (v : Valkey) (event : LiveEvent) (pipeline : Pipeline) :
    (finishPush p v event pipeline).1.memoryRing = p.memoryRing := by
  simp only [finishPush]
  split
  · split <;> rfl
  · rfl

/-- A pipeline changes no process's ring. -/
theorem memoryRing_pipeline (w : World) (index i : Nat) :
    ((w.push (.pipeline index)).process i).memoryRing = (w.process i).memoryRing := by
  simp only [World.push]
  split
  · rfl
  next j event hget =>
  simp only [World.setProcess]
  split
  · next hij => rw [memoryRing_finishPush, hij]
  · rfl

theorem take_cons_take (n : Nat) (event : LiveEvent) (events : List LiveEvent) :
    (event :: events.take n).take n = (event :: events).take n := by
  cases n with
  | zero => rfl
  | succ n => simp [List.take_take]

theorem Sequenced.push {w : World} (h : Sequenced w) {s : PushStep} (hs : InTurn w s) : Sequenced (w.push s) := by
  cases s with
  | take i ingest now =>
    have hbegun : (w.push (.take i ingest now)).begun =
        w.begun ++ [⟨ingest.toEnvelope, natText (w.valkey.counter + 1), now⟩] := by
      simp [World.push, beginPush, World.begun]
    refine ⟨?_, ?_, h.ring, fun j => ?_, fun j => ?_⟩
    · rw [hbegun, List.length_append, h.counter]
      rfl
    · rw [hbegun]
      apply h.numbered.concat
      rw [h.counter, Nat.add_comm]
    · rw [hbegun]
      by_cases hj : j = i
      · subst hj
        simp only [World.push, beginPush, World.setProcess, if_true]
        exact reverse_retain_sublist (h.own j)
      · simp only [World.push, beginPush, World.setProcess, hj, if_false, if_true]
        exact (h.own j).trans (List.sublist_append_left _ _)
    · by_cases hj : j = i
      · subst hj
        simp only [World.push, beginPush, World.setProcess, if_true, retain]
        exact List.length_take_le _ _
      · simp only [World.push, beginPush, World.setProcess, hj, if_false, if_true]
        exact h.bounded j
  | pipeline index =>
    cases hs
    have hbegun : (w.push (.pipeline 0)).begun = w.begun := by
      cases hflight : w.inFlight with
      | nil => simp [World.push, hflight]
      | cons first rest => simp [World.push, World.begun, finishPush, hflight, Pipeline.ok]
    have hcounter : (w.push (.pipeline 0)).valkey.counter = w.valkey.counter := by
      cases hflight : w.inFlight with
      | nil => simp [World.push, hflight]
      | cons first rest => simp [World.push, finishPush, hflight]
    refine ⟨?_, ?_, ?_, fun i => ?_, fun i => ?_⟩
    · rw [hbegun, hcounter, h.counter]
    · rw [hbegun]
      exact h.numbered
    · cases hflight : w.inFlight with
      | nil => simpa [World.push, hflight] using h.ring
      | cons first rest => simp [World.push, finishPush, hflight, Pipeline.ok, h.ring, take_cons_take]
    · rw [hbegun, memoryRing_pipeline]
      exact h.own i
    · rw [memoryRing_pipeline]
      exact h.bounded i

/-- After any run whose pipelines run in turn. -/
theorem sequenced_of_inTurn {steps : List PushStep} (h : Allowed World.push InTurn World.start steps) :
    Sequenced (steps.foldl World.push World.start) :=
  h.invariant (fun _ _ hw hs => hw.push hs) Sequenced.start

end narwhal.portal.live_stream
