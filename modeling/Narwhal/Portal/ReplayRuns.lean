import Narwhal.Portal.LiveRuns

open jslib pylib

namespace narwhal.portal.live_stream

/-! ### Events after an id -/

/-- The events with a greater id. -/
def eventsAfter (lastId : Text) (events : List LiveEvent) : List LiveEvent :=
  events.filter fun event => idValue lastId < idValue event.id

/-- In a list in the order of the ids, the events after one are those behind it. -/
theorem eventsAfter_eq_drop {events : List LiveEvent}
    (h : events.Pairwise fun a b => idValue a.id < idValue b.id) {j : Nat} {event : LiveEvent}
    (hget : events[j]? = some event) : eventsAfter event.id events = events.drop (j + 1) := by
  induction events generalizing j with
  | nil => simp at hget
  | cons first rest ih =>
    obtain ⟨hfirst, hrest⟩ := List.pairwise_cons.mp h
    cases j with
    | zero =>
      obtain rfl : first = event := by simpa using hget
      have hall : ∀ other ∈ rest, (decide (idValue first.id < idValue other.id)) = true := by
        intro other hother
        exact decide_eq_true (hfirst other hother)
      simp [eventsAfter, List.filter_eq_self.mpr hall]
    | succ j =>
      rw [List.getElem?_cons_succ] at hget
      have hnot : ¬ idValue event.id < idValue first.id := by
        have := hfirst event (List.mem_of_getElem? hget)
        omega
      have hrest' := ih hrest hget
      simpa [eventsAfter, hnot] using hrest'

theorem eq_of_sublist_of_subset {a b : List LiveEvent} (h : a.Sublist b) (hb : b.Nodup) (hsub : b ⊆ a) : a = b :=
  h.eq_of_length_le (hb.subperm hsub).length_le

theorem Numbered.nodup_events {m : Nat} {events : List LiveEvent} (h : Numbered m events) : events.Nodup :=
  List.Nodup.of_map _ h.nodup

/-- What `findIdx?` finds. -/
theorem get_of_findIdx {events : List LiveEvent} {lastId : Text} {j : Nat}
    (h : events.findIdx? (·.id = lastId) = some j) : ∃ event, events[j]? = some event ∧ event.id = lastId := by
  obtain ⟨hlt, hid, -⟩ := List.findIdx?_eq_some_iff_getElem.mp h
  exact ⟨events[j], List.getElem?_eq_getElem hlt, of_decide_eq_true hid⟩

section

variable {w : World} {i : Nat} {lastId : Text}

/-! ### The shared ring -/

/-- The retained events, the oldest first. -/
theorem Sequenced.reverse_ring (h : Sequenced w) :
    w.valkey.ring.reverse = w.valkey.channel.drop (w.valkey.channel.length - LIVE_EVENT_RETENTION) := by
  rw [h.ring, List.reverse_take, List.reverse_reverse, List.length_reverse]

theorem Sequenced.numbered_channel (h : Sequenced w) : Numbered 1 w.valkey.channel :=
  h.numbered.of_append

theorem Sequenced.numbered_ring (h : Sequenced w) :
    Numbered (1 + (w.valkey.channel.length - LIVE_EVENT_RETENTION)) w.valkey.ring.reverse := by
  rw [h.reverse_ring]
  exact h.numbered_channel.drop _

/-- What is read from the shared ring has only ids of the counter. -/
theorem Sequenced.filter_recent (h : Sequenced w) :
    (((getRecentEvents (w.process i) w.valkey LIVE_EVENT_RETENTION true).1.filter
      fun event => isNumericId event.id).reverse) = w.valkey.ring.reverse := by
  have htake : w.valkey.ring.take LIVE_EVENT_RETENTION = w.valkey.ring := by
    rw [h.ring, List.take_take, Nat.min_self]
  have hnumeric : ∀ event ∈ w.valkey.ring, isNumericId event.id = true := by
    intro event hevent
    exact h.numbered_ring.isNumericId (List.mem_reverse.mpr hevent)
  simp only [getRecentEvents, if_true, htake, List.filter_eq_self.mpr hnumeric]

/-- All events after an id of the shared ring are in it, unless more than it holds came after. -/
theorem Sequenced.eventsAfter_ring (h : Sequenced w) {k : Nat}
    (hk : w.valkey.channel.length ≤ k + LIVE_EVENT_RETENTION) :
    eventsAfter (natText k) w.valkey.ring.reverse = eventsAfter (natText k) w.valkey.channel := by
  have hring := h.numbered_ring.filter_lt k
  have hchannel := h.numbered_channel.filter_lt k
  simp only [eventsAfter, idValue_natText]
  have hplace : w.valkey.channel.length - LIVE_EVENT_RETENTION +
      (k + 1 - (1 + (w.valkey.channel.length - LIVE_EVENT_RETENTION))) = k + 1 - 1 := by omega
  rw [hring, hchannel, h.reverse_ring, List.drop_drop, hplace]

/-- An event that was trimmed is older than all that is retained. -/
theorem Sequenced.trimmed_lt (h : Sequenced w) {event : LiveEvent} (hmem : event ∈ w.valkey.channel)
    (hring : event ∉ w.valkey.ring) :
    ∃ oldest, w.valkey.ring.getLast? = some oldest ∧ idValue event.id < idValue oldest.id := by
  have hpairwise := h.numbered_channel.pairwise
  have hreverse := h.reverse_ring
  have hretention : 0 < LIVE_EVENT_RETENTION := by decide
  generalize LIVE_EVENT_RETENTION = retention at hreverse hretention
  rw [← List.take_append_drop (w.valkey.channel.length - retention) w.valkey.channel] at hmem hpairwise
  rw [← hreverse] at hmem hpairwise
  obtain hold | hkept := List.mem_append.mp hmem
  · have hlength : 0 < w.valkey.ring.reverse.length := by
      have hpos := List.length_pos_of_mem hold
      rw [List.length_take] at hpos
      rw [hreverse, List.length_drop]
      omega
    obtain ⟨-, -, hlt⟩ := List.pairwise_append.mp hpairwise
    rw [← List.head?_reverse]
    cases hcase : w.valkey.ring.reverse with
    | nil =>
      rw [hcase] at hlength
      cases hlength
    | cons oldest rest => exact ⟨oldest, rfl, hlt event hold oldest (by simp [hcase])⟩
  · exact absurd (List.mem_reverse.mp hkept) hring

/-! ### The process's own ring -/

/-- Where the process's ring holds the id, it holds all later events, and none is in flight. -/
def OwnComplete (w : World) (i : Nat) (lastId : Text) : Prop :=
  (∃ event ∈ (w.process i).memoryRing, event.id = lastId) →
    w.inFlight = [] ∧ ∀ event ∈ w.begun, idValue lastId < idValue event.id → event ∈ (w.process i).memoryRing

/-- The part of the own ring behind an id is all that came after it. -/
theorem Sequenced.drop_own (h : Sequenced w) {j : Nat}
    (hfind : (w.process i).memoryRing.reverse.findIdx? (·.id = lastId) = some j)
    (hown : ∀ event ∈ w.begun, idValue lastId < idValue event.id → event ∈ (w.process i).memoryRing) :
    (w.process i).memoryRing.reverse.drop (j + 1) = eventsAfter lastId w.begun := by
  obtain ⟨event, hget, rfl⟩ := get_of_findIdx hfind
  have hsub := h.own i
  rw [← eventsAfter_eq_drop (h.numbered.pairwise.sublist hsub) hget]
  apply eq_of_sublist_of_subset (hsub.filter _) (h.numbered.nodup_events.filter _)
  intro other hother
  obtain ⟨hmem, hlt⟩ := List.mem_filter.mp hother
  exact List.mem_filter.mpr ⟨List.mem_reverse.mpr (hown other hmem (of_decide_eq_true hlt)), hlt⟩

/-- What came after an id that the own ring holds is still in the shared ring. -/
theorem Sequenced.eventsAfter_of_own (h : Sequenced w) {j : Nat}
    (hfind : (w.process i).memoryRing.reverse.findIdx? (·.id = lastId) = some j) (hflight : w.inFlight = [])
    (hown : ∀ event ∈ w.begun, idValue lastId < idValue event.id → event ∈ (w.process i).memoryRing) :
    eventsAfter lastId w.valkey.ring.reverse = eventsAfter lastId w.valkey.channel := by
  have hafter := h.drop_own hfind hown
  have hchannel : w.begun = w.valkey.channel := by simp [World.begun, hflight]
  obtain ⟨event, hget, rfl⟩ := get_of_findIdx hfind
  obtain ⟨k, hk⟩ := List.getElem?_of_mem ((h.own i).subset (List.mem_of_getElem? hget))
  rw [h.numbered k event hk] at hafter ⊢
  apply h.eventsAfter_ring
  -- at most 999 events stand behind the id in the own ring
  have hlength := congrArg List.length hafter
  have hnumbered := h.numbered.filter_lt (1 + k)
  simp only [eventsAfter, idValue_natText] at hlength
  rw [hnumbered, hchannel, List.length_drop, List.length_drop, List.length_reverse] at hlength
  have hbound := h.bounded i
  omega

/-! ### Replay -/

/-- An answer without gap is all that the shared ring retains after the id, in the order of the
    ids; a gap is told exactly where the id is below all that is retained. -/
structure ReplayComplete (w : World) (i : Nat) (lastId : Text) (result : ReplayResult) : Prop where
  events : result.gap = false → result.unknown = false →
    result.events = eventsAfter lastId w.valkey.ring.reverse ∧
      result.events.Pairwise fun a b => idValue a.id < idValue b.id
  gap : isNumericId lastId = true →
    (result.gap = true ↔ (∀ event ∈ (w.process i).memoryRing, event.id ≠ lastId) ∧
      ∃ oldest, w.valkey.ring.getLast? = some oldest ∧ idValue lastId < idValue oldest.id)
  trimmed : isNumericId lastId = true →
    (∃ event ∈ w.valkey.channel, event ∉ w.valkey.ring ∧ idValue lastId < idValue event.id) → result.gap = true

/-- The answer from the process's own ring. -/
theorem replayAfter_own {p : Process} {v : Valkey} {j : Nat} (readOk : Bool)
    (hfind : p.memoryRing.reverse.findIdx? (·.id = lastId) = some j) :
    (replayAfter p v lastId readOk).1 = ⟨p.memoryRing.reverse.drop (j + 1), false, false⟩ := by
  simp only [replayAfter, hfind]

/-- What the shared ring can answer. -/
inductive SharedReplay (ordered : List LiveEvent) (lastId : Text) : ReplayResult → Prop
  | unknown (hmissing : ∀ event ∈ ordered, event.id ≠ lastId)
      (hnot : ∀ oldest, ordered.head? = some oldest → isNumericId lastId = true → ¬ idValue lastId < idValue oldest.id) :
    SharedReplay ordered lastId ⟨[], false, true⟩
  | gap {oldest : LiveEvent} (holdest : ordered.head? = some oldest) (hlt : idValue lastId < idValue oldest.id) :
    SharedReplay ordered lastId ⟨[], true, false⟩
  | found {j : Nat} (hfind : ordered.findIdx? (·.id = lastId) = some j)
      (hnot : ∀ oldest, ordered.head? = some oldest → ¬ idValue lastId < idValue oldest.id) :
    SharedReplay ordered lastId ⟨ordered.drop (j + 1), false, false⟩

theorem not_numeric_of_degraded (h : "d-".toList.isPrefixOf lastId = true) : isNumericId lastId = false := by
  obtain ⟨rest, rfl⟩ := List.isPrefixOf_iff_prefix.mp h
  rfl

theorem le_getLast {events : List LiveEvent} (h : events.Pairwise fun a b => idValue a.id < idValue b.id)
    {event newest : LiveEvent} (hevent : event ∈ events) (hnewest : events.getLast? = some newest) :
    idValue event.id ≤ idValue newest.id := by
  obtain ⟨before, rfl⟩ := List.getLast?_eq_some_iff.mp hnewest
  obtain ⟨-, -, hlt⟩ := List.pairwise_append.mp h
  obtain hbefore | hlast := List.mem_append.mp hevent
  · exact Nat.le_of_lt (hlt event hbefore newest (List.mem_singleton_self newest))
  · rw [List.mem_singleton.mp hlast]

theorem head_le {events : List LiveEvent} (h : events.Pairwise fun a b => idValue a.id < idValue b.id)
    {event oldest : LiveEvent} (hevent : event ∈ events) (holdest : events.head? = some oldest) :
    idValue oldest.id ≤ idValue event.id := by
  obtain ⟨rest, rfl⟩ := List.head?_eq_some_iff.mp holdest
  obtain rfl | hrest := List.mem_cons.mp hevent
  · exact Nat.le_refl _
  · exact Nat.le_of_lt ((List.pairwise_cons.mp h).1 event hrest)

/-- The answer where the process's own ring does not hold the id. -/
theorem Sequenced.replayAfter_shared (h : Sequenced w)
    (hfind : (w.process i).memoryRing.reverse.findIdx? (·.id = lastId) = none) :
    SharedReplay w.valkey.ring.reverse lastId (replayAfter (w.process i) w.valkey lastId true).1 := by
  have hpairwise := h.numbered_ring.pairwise
  have hids : ∀ event ∈ w.valkey.ring.reverse, isNumericId event.id = true :=
    fun _ hevent => h.numbered_ring.isNumericId hevent
  simp only [replayAfter, hfind]
  split
  · next hdegraded =>
    have hfalse := not_numeric_of_degraded hdegraded
    refine .unknown (fun event hevent hid => ?_) fun _ _ hnumeric => absurd hfalse (by simp [hnumeric])
    rw [← hid, hids event hevent] at hfalse
    cases hfalse
  rw [h.filter_recent]
  generalize w.valkey.ring.reverse = ordered at hpairwise hids ⊢
  split
  · next newest oldest hnewest holdest =>
    split
    · next newestComparison oldestComparison hcompareNewest hcompareOldest =>
      simp only [compareLiveEventIds, Option.ite_none_right_eq_some, Option.some.injEq] at hcompareNewest hcompareOldest
      obtain ⟨-, rfl⟩ := hcompareNewest
      obtain ⟨-, rfl⟩ := hcompareOldest
      have hle := le_getLast hpairwise (List.mem_of_head? holdest) hnewest
      split
      · next hgt =>
        rw [Nat.compare_eq_gt] at hgt
        refine .unknown (fun event hevent hid => ?_) fun other hother _ => ?_
        · have := le_getLast hpairwise hevent hnewest
          rw [hid] at this
          omega
        · rw [holdest, Option.some.injEq] at hother
          subst hother
          omega
      split
      · next hlt => exact .gap holdest (Nat.compare_eq_lt.mp hlt)
      · next hnotlt =>
        have hnot : ∀ other, ordered.head? = some other → ¬ idValue lastId < idValue other.id := by
          intro other hother hlt
          rw [holdest, Option.some.injEq] at hother
          subst hother
          exact hnotlt (Nat.compare_eq_lt.mpr hlt)
        split
        · next j hj => exact .found hj hnot
        · next hj =>
          refine .unknown (fun event hevent => ?_) fun other hother _ => hnot other hother
          exact of_decide_eq_false (List.findIdx?_eq_none_iff.mp hj event hevent)
    · next hnone =>
      have hnewest' := hids newest (List.mem_of_getLast? hnewest)
      have holdest' := hids oldest (List.mem_of_head? holdest)
      have hfalse : isNumericId lastId ≠ true := by
        intro hnumeric
        exact absurd (if_pos ⟨hnumeric, holdest'⟩) (hnone _ _ (if_pos ⟨hnumeric, hnewest'⟩))
      refine .unknown (fun event hevent hid => ?_) fun _ _ hnumeric => absurd hnumeric hfalse
      rw [← hid] at hfalse
      exact hfalse (hids event hevent)
  · next hnone =>
    have hempty : ordered = [] := by
      cases ordered with
      | nil => rfl
      | cons first rest => exact absurd rfl (hnone _ first List.getLast?_cons)
    refine .unknown (by simp [hempty]) (by simp [hempty])

theorem findIdx_reverse_eq_none {ring : List LiveEvent} (h : ring.reverse.findIdx? (·.id = lastId) = none) :
    ∀ event ∈ ring, event.id ≠ lastId := by
  intro event hevent hid
  have := List.findIdx?_eq_none_iff.mp h event (List.mem_reverse.mpr hevent)
  exact absurd hid (of_decide_eq_false this)

theorem Sequenced.replayComplete (h : Sequenced w) (hown : OwnComplete w i lastId) :
    ReplayComplete w i lastId (replayAfter (w.process i) w.valkey lastId true).1 := by
  cases hfind : (w.process i).memoryRing.reverse.findIdx? (·.id = lastId) with
  | some j =>
    obtain ⟨event, hget, hid⟩ := get_of_findIdx hfind
    have hheld : event ∈ (w.process i).memoryRing := List.mem_reverse.mp (List.mem_of_getElem? hget)
    obtain ⟨hflight, hcomplete⟩ := hown ⟨event, hheld, hid⟩
    have hresult : (replayAfter (w.process i) w.valkey lastId true).1 = ⟨(w.process i).memoryRing.reverse.drop (j + 1), false, false⟩ := replayAfter_own true hfind
    have hchannel : w.begun = w.valkey.channel := by simp [World.begun, hflight]
    have hafter := h.drop_own hfind hcomplete
    have hkept := h.eventsAfter_of_own hfind hflight hcomplete
    have hevents : (replayAfter (w.process i) w.valkey lastId true).1.events =
        eventsAfter lastId w.valkey.ring.reverse := by
      rw [hresult, hkept, ← hchannel]
      exact hafter
    refine ⟨fun _ _ => ⟨hevents, ?_⟩, fun _ => ?_, fun _ => ?_⟩
    · rw [hevents]
      exact h.numbered_ring.pairwise.filter _
    · rw [hresult]
      simp only [Bool.false_eq_true, false_iff, not_and]
      intro hnone
      exact absurd hid (hnone event hheld)
    · rintro ⟨other, hother, hnot, hlt⟩
      have hmem : other ∈ eventsAfter lastId w.valkey.channel := List.mem_filter.mpr ⟨hother, decide_eq_true hlt⟩
      rw [← hkept] at hmem
      exact absurd (List.mem_reverse.mp (List.mem_filter.mp hmem).1) hnot
  | none =>
    have hnone := findIdx_reverse_eq_none hfind
    have hshared := h.replayAfter_shared hfind
    have hoverrun : (∃ event ∈ w.valkey.channel, event ∉ w.valkey.ring ∧ idValue lastId < idValue event.id) →
        ∃ oldest, w.valkey.ring.reverse.head? = some oldest ∧ idValue lastId < idValue oldest.id := by
      rintro ⟨event, hevent, hnot, hlt⟩
      obtain ⟨oldest, holdest, hlt'⟩ := h.trimmed_lt hevent hnot
      exact ⟨oldest, by rw [List.head?_reverse, holdest], by omega⟩
    generalize (replayAfter (w.process i) w.valkey lastId true).1 = result at hshared ⊢
    cases hshared with
    | unknown _ hnot =>
      refine ⟨by simp, fun hnumeric => ?_, fun hnumeric htrimmed => ?_⟩
      · simp only [Bool.false_eq_true, false_iff, not_and, not_exists, ← List.head?_reverse]
        exact fun _ oldest holdest => hnot oldest holdest hnumeric
      · obtain ⟨oldest, holdest, hlt⟩ := hoverrun htrimmed
        exact absurd hlt (hnot oldest holdest hnumeric)
    | gap holdest hlt =>
      rw [List.head?_reverse] at holdest
      exact ⟨by simp, fun _ => ⟨fun _ => ⟨hnone, _, holdest, hlt⟩, fun _ => rfl⟩, fun _ _ => rfl⟩
    | found hj hnot =>
      obtain ⟨event, hget, rfl⟩ := get_of_findIdx hj
      refine ⟨fun _ _ => ⟨(eventsAfter_eq_drop h.numbered_ring.pairwise hget).symm, ?_⟩, fun _ => ?_, fun _ htrimmed => ?_⟩
      · exact h.numbered_ring.pairwise.drop
      · simp only [Bool.false_eq_true, false_iff, not_and, not_exists, ← List.head?_reverse]
        exact fun _ oldest holdest => hnot oldest holdest
      · obtain ⟨oldest, holdest, hlt⟩ := hoverrun htrimmed
        exact absurd hlt (hnot oldest holdest)

end

/-! ### Runs -/

/-- Replay after any run whose pipelines run in turn, on a process whose own ring either does
    not hold the id or holds all that came after it. -/
theorem replay_complete_in_turn {steps : List PushStep} (hturn : Allowed World.push InTurn World.start steps)
    {i : Nat} {lastId : Text} (hown : OwnComplete (steps.foldl World.push World.start) i lastId) :
    ReplayComplete (steps.foldl World.push World.start) i lastId
      (replayAfter ((steps.foldl World.push World.start).process i)
        (steps.foldl World.push World.start).valkey lastId true).1 :=
  (sequenced_of_inTurn hturn).replayComplete hown

/-- An event without any optional field. -/
def sampleIngest : LiveEventIngest :=
  { type := .alert, severity := .info, title := "disk".toList, description := [], source := .manual, links := none,
    resource := none, actor := none, operation_id := none, correlation_id := none, causation_id := none,
    request_id := none, idempotency_key := none, source_event_id := none, event_type := none, visibility := none,
    producer := none, credential_scope := none, id := none }

/-- A push by a process, both steps. -/
def wholePush (i : Nat) : List PushStep := [.take i sampleIngest 0, .pipeline 0]

/-- Three pushes by two processes, read by a third after the first event. -/
theorem replay_complete_in_turn_sample :
    ReplayComplete ((wholePush 0 ++ wholePush 1 ++ wholePush 0).foldl World.push World.start) 2 (natText 1)
      (replayAfter (((wholePush 0 ++ wholePush 1 ++ wholePush 0).foldl World.push World.start).process 2)
        ((wholePush 0 ++ wholePush 1 ++ wholePush 0).foldl World.push World.start).valkey (natText 1) true).1 := by
  apply replay_complete_in_turn
  · simp [wholePush, Allowed, InTurn]
  · rintro ⟨event, hevent, -⟩
    cases hevent

/-- What every replay in every run would have to answer, were the rings always complete and a
    gap told only of trimmed events. -/
def ReplayExact (w : World) (lastId : Text) (result : ReplayResult) : Prop :=
  (result.gap = false → result.unknown = false →
    result.events = eventsAfter lastId w.valkey.ring.reverse ∧
      result.events.Pairwise fun a b => idValue a.id < idValue b.id) ∧
    (isNumericId lastId = true →
      (result.gap = true ↔
        ∃ event ∈ w.valkey.channel, event ∉ w.valkey.ring ∧ idValue lastId < idValue event.id))

def replayAt (steps : List PushStep) (i : Nat) (lastId : Text) : ReplayResult :=
  (replayAfter ((steps.foldl World.push World.start).process i) (steps.foldl World.push World.start).valkey lastId true).1

/-- The third id is published before the second. -/
def crossedPushes : List PushStep :=
  [.take 0 sampleIngest 0, .take 0 sampleIngest 0, .take 0 sampleIngest 0, .pipeline 0, .pipeline 1, .pipeline 0]

/-- A gap is told though nothing was trimmed, a process answers from its own ring without the
    other's events, and events are replayed in the order of their pipelines. -/
theorem replay_not_exact :
    ¬ ReplayExact ((wholePush 0).foldl World.push World.start) (natText 0) (replayAt (wholePush 0) 1 (natText 0)) ∧
      ¬ ReplayExact ((wholePush 0 ++ wholePush 1).foldl World.push World.start) (natText 1)
        (replayAt (wholePush 0 ++ wholePush 1) 0 (natText 1)) ∧
      ¬ ReplayExact (crossedPushes.foldl World.push World.start) (natText 1) (replayAt crossedPushes 1 (natText 1)) := by
  refine ⟨fun h => ?_, fun h => ?_, fun h => ?_⟩
  · have hgap : (replayAt (wholePush 0) 1 (natText 0)).gap = true := by decide +kernel
    obtain ⟨event, hevent, hnot, -⟩ := (h.2 (isNumericId_natText 0)).mp hgap
    exact hnot (List.mem_reverse.mp hevent)
  · have hanswer : (replayAt (wholePush 0 ++ wholePush 1) 0 (natText 1)).gap = false ∧
        (replayAt (wholePush 0 ++ wholePush 1) 0 (natText 1)).unknown = false ∧
        (replayAt (wholePush 0 ++ wholePush 1) 0 (natText 1)).events.length = 0 := by decide +kernel
    have hafter : (eventsAfter (natText 1)
        ((wholePush 0 ++ wholePush 1).foldl World.push World.start).valkey.ring.reverse).length = 1 := by decide +kernel
    have hlength := congrArg List.length (h.1 hanswer.1 hanswer.2.1).1
    rw [hanswer.2.2, hafter] at hlength
    cases hlength
  · have hanswer : (replayAt crossedPushes 1 (natText 1)).gap = false ∧
        (replayAt crossedPushes 1 (natText 1)).unknown = false ∧
        (replayAt crossedPushes 1 (natText 1)).events.map (fun event => idValue event.id) = [3, 2] := by decide +kernel
    have hpairwise := List.pairwise_map.mpr (h.1 hanswer.1 hanswer.2.1).2
    rw [hanswer.2.2] at hpairwise
    simp at hpairwise

end narwhal.portal.live_stream
