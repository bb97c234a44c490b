import Narwhal.Portal.ReplayRuns

open jslib pylib

namespace narwhal.portal.live_stream

/-! ### One connection -/

/-- A client at a process: the header it sends, and the events that its role and scope let
    through. -/
structure Connection where
  process : Nat
  lastEventId : Option Text
  visible : LiveEvent → Bool

/-- What the route holds for the client. -/
structure Client where
  replay : Option ReplayResult
  /-- the number of messages that were published when the replay was read -/
  seen : Nat
  subscribed : Bool
  queue : List LiveEvent
  enqueued : List LiveEvent

structure Stream where
  world : World
  client : Client

inductive StreamStep where
  | push (s : PushStep)
  | snapshot
  | subscribe
  | deliver

/-- An empty header is as good as none. -/
def Connection.afterId (c : Connection) : Option Text := c.lastEventId.filter (· ≠ [])

/-- The replay of `subscribeLiveWithReplay`. -/
def Connection.snapshot (c : Connection) (w : World) : ReplayResult :=
  match c.afterId with
  | some id => (replayAfter (w.process c.process) w.valkey id true).1
  | none => ⟨(getRecentEvents (w.process c.process) w.valkey 50 true).1.reverse, false, false⟩

def replayHighWaterId (replay : List LiveEvent) : Option Text := ((replay.map LiveEvent.id).filter isNumericId).getLast?

/-- Whether the route takes an event of the subscription as one that was not replayed. -/
def isNew (replay : List LiveEvent) (event : LiveEvent) : Bool :=
  if isNumericId event.id then
    match replayHighWaterId replay with
    | some high => compareLiveEventIds event.id high == some .gt
    | none => true
  else !(replay.map LiveEvent.id).contains event.id

def Stream.step (c : Connection) (s : Stream) : StreamStep → Stream
  | .push p =>
    let world := s.world.push p
    let published := world.valkey.channel.drop s.world.valkey.channel.length
    ⟨world, if s.client.subscribed then { s.client with queue := s.client.queue ++ published } else s.client⟩
  | .snapshot =>
    match s.client.replay with
    | some _ => s
    | none =>
      let replay := c.snapshot s.world
      { s with client :=
        { s.client with
          replay := some replay
          seen := s.world.valkey.channel.length
          enqueued := replay.events.filter c.visible } }
  | .subscribe =>
    -- the subscription starts when the route first asks for an event, after the replay
    if s.client.replay.isSome then { s with client := { s.client with subscribed := true } } else s
  | .deliver =>
    match s.client.replay, s.client.queue with
    | some replay, event :: queue =>
      let enqueued := if isNew replay.events event && c.visible event then s.client.enqueued ++ [event] else s.client.enqueued
      { s with client := { s.client with queue, enqueued } }
    | _, _ => s

def Stream.start : Stream := ⟨World.start, ⟨none, 0, false, [], []⟩⟩

def Stream.run (c : Connection) (steps : List StreamStep) : Stream := steps.foldl (Stream.step c) Stream.start

/-- How often an event was enqueued to the client. -/
def Client.timesEnqueued (client : Client) (event : LiveEvent) : Nat :=
  client.enqueued.countP fun other => other.id == event.id

/-- The event's pipeline ran after that of the event the client names, or after the snapshot if
    it names none. -/
def AfterCursor (c : Connection) (s : Stream) (event : LiveEvent) : Prop :=
  match c.afterId with
  | some id => ∃ j cursor, s.world.valkey.channel[j]? = some cursor ∧ cursor.id = id ∧
      event ∈ s.world.valkey.channel.drop (j + 1)
  | none => event ∈ s.world.valkey.channel.drop s.client.seen

/-- The steps in which nothing goes wrong: pipelines run in turn, and none between the snapshot
    and the start of the subscription; the client names a published event after which fewer
    events were pushed than the rings hold; and a process whose own ring holds that event has
    all later ones in it. -/
def Undisturbed (c : Connection) (s : Stream) : StreamStep → Prop
  | .push (.take ..) => True
  | .push (.pipeline index) => index = 0 ∧ (s.client.replay.isSome = true → s.client.subscribed = true)
  | .snapshot => ∀ id, c.afterId = some id →
      (∃ event ∈ s.world.valkey.channel, event.id = id) ∧
        s.world.valkey.counter < idValue id + LIVE_EVENT_RETENTION ∧
        ((∃ event ∈ (s.world.process c.process).memoryRing, event.id = id) →
          ∀ event ∈ s.world.begun, idValue id < idValue event.id → event ∈ (s.world.process c.process).memoryRing)
  | .subscribe | .deliver => True

/-! ### The snapshot -/

/-- A replay has the events with the numbers from `lo` to `hi`, and all that was published up
    to now is among them or before. -/
structure Window (c : Connection) (w : World) (replay : List LiveEvent) (lo hi : Nat) : Prop where
  events : replay = (w.begun.take hi).drop lo
  low : lo ≤ w.valkey.channel.length
  published : w.valkey.channel.length ≤ hi
  high : hi ≤ w.begun.length
  cursor : ∀ id, c.afterId = some id → id = natText lo

theorem channel_eq_take_begun (w : World) : w.begun.take w.valkey.channel.length = w.valkey.channel := by
  simp [World.begun]

section

variable {c : Connection} {w : World}

theorem Sequenced.length_channel_le (h : Sequenced w) : w.valkey.channel.length ≤ w.valkey.counter := by
  rw [← h.counter]
  simp [World.begun]

/-- Without a cursor the newest events are replayed. -/
theorem Sequenced.window_recent (h : Sequenced w) (hnone : c.afterId = none) :
    Window c w (c.snapshot w).events (w.valkey.channel.length - 50) w.valkey.channel.length := by
  refine ⟨?_, Nat.sub_le _ _, Nat.le_refl _, by simp [World.begun], by simp [hnone]⟩
  have hmin : min 50 LIVE_EVENT_RETENTION = 50 := by decide
  simp only [Connection.snapshot, hnone, getRecentEvents, if_true]
  rw [channel_eq_take_begun, h.ring, List.take_take, hmin, List.reverse_take, List.reverse_reverse,
    List.length_reverse]

/-- A published id is that of its place. -/
theorem Sequenced.published_id (h : Sequenced w) {event : LiveEvent} (hevent : event ∈ w.valkey.channel) :
    ∃ k, k < w.valkey.channel.length ∧ w.valkey.channel[k]? = some event ∧ event.id = natText (k + 1) := by
  obtain ⟨k, hk⟩ := List.getElem?_of_mem hevent
  refine ⟨k, (List.getElem?_eq_some_iff.mp hk).1, hk, ?_⟩
  rw [h.numbered_channel k event hk, Nat.add_comm]

theorem Sequenced.window_cursor (h : Sequenced w) {id : Text} (hid : c.afterId = some id)
    (hpublished : ∃ event ∈ w.valkey.channel, event.id = id)
    (hfew : w.valkey.counter < idValue id + LIVE_EVENT_RETENTION)
    (hown : (∃ event ∈ (w.process c.process).memoryRing, event.id = id) →
      ∀ event ∈ w.begun, idValue id < idValue event.id → event ∈ (w.process c.process).memoryRing) :
    ∃ lo hi, Window c w (c.snapshot w).events lo hi := by
  obtain ⟨event, hevent, rfl⟩ := hpublished
  obtain ⟨k, hk, hget, hnat⟩ := h.published_id hevent
  have hcursor : ∀ id, c.afterId = some id → id = natText (k + 1) := by
    intro id' hid'
    rw [hid, Option.some.injEq] at hid'
    rw [← hid', hnat]
  simp only [Connection.snapshot, hid]
  cases hfind : (w.process c.process).memoryRing.reverse.findIdx? (·.id = event.id) with
  | some j =>
    obtain ⟨held, hheld, hheldId⟩ := get_of_findIdx hfind
    have hcomplete := hown ⟨held, List.mem_reverse.mp (List.mem_of_getElem? hheld), hheldId⟩
    refine ⟨k + 1, w.begun.length, ?_, by omega, by simp [World.begun], Nat.le_refl _, hcursor⟩
    rw [replayAfter_own true hfind, List.take_length]
    have hafter := h.drop_own hfind hcomplete
    rw [hafter, hnat, eventsAfter, idValue_natText]
    exact h.numbered.filter_lt (k + 1)
  | none =>
    have hlength := h.length_channel_le
    rw [hnat, idValue_natText] at hfew
    have hretained : event ∈ w.valkey.ring.reverse := by
      have hplace : w.valkey.channel.length - LIVE_EVENT_RETENTION +
          (k - (w.valkey.channel.length - LIVE_EVENT_RETENTION)) = k := by omega
      rw [h.reverse_ring]
      apply List.mem_of_getElem? (i := k - (w.valkey.channel.length - LIVE_EVENT_RETENTION))
      rw [List.getElem?_drop, hplace, hget]
    have hpairwise := h.numbered_ring.pairwise
    have hafter : eventsAfter event.id w.valkey.ring.reverse = w.valkey.channel.drop (k + 1) := by
      rw [hnat, h.eventsAfter_ring (by omega), eventsAfter, idValue_natText]
      exact h.numbered_channel.filter_lt (k + 1)
    refine ⟨k + 1, w.valkey.channel.length, ?_, hk, Nat.le_refl _, by simp [World.begun], hcursor⟩
    rw [channel_eq_take_begun, ← hafter]
    have hshared := h.replayAfter_shared hfind
    generalize (replayAfter (w.process c.process) w.valkey event.id true).1 = result at hshared ⊢
    cases hshared with
    | unknown hmissing _ => exact absurd rfl (hmissing event hretained)
    | gap holdest hlt => exact absurd hlt (Nat.not_lt.mpr (head_le hpairwise hretained holdest))
    | found hj _ =>
      obtain ⟨found, hfound, hfoundId⟩ := get_of_findIdx hj
      rw [← hfoundId]
      exact (eventsAfter_eq_drop hpairwise hfound).symm

end

/-! ### Delivery -/

/-- The state of a connection after its snapshot: the events up to `hi` were replayed, and the
    messages up to `done` were taken from the subscription or were published before it. -/
structure Delivering (c : Connection) (s : Stream) (replay : ReplayResult) (lo hi done : Nat) : Prop where
  replayed : replay.events = (s.world.begun.take hi).drop lo
  cursor : ∀ id, c.afterId = some id → id = natText lo
  seen : lo ≤ s.client.seen
  low : lo ≤ hi
  high : hi ≤ s.world.begun.length
  started : s.client.seen ≤ done
  bound : done ≤ s.world.valkey.channel.length
  enqueued : s.client.enqueued = ((s.world.begun.take (max hi done)).drop lo).filter c.visible
  queue : s.client.queue = s.world.valkey.channel.drop done
  unsubscribed : s.client.subscribed = false → done = s.world.valkey.channel.length

/-- What holds along an undisturbed run. -/
structure Delivered (c : Connection) (s : Stream) : Prop where
  world : Sequenced s.world
  before : s.client.replay = none → s.client.subscribed = false ∧ s.client.queue = [] ∧ s.client.enqueued = []
  after : ∀ replay, s.client.replay = some replay → ∃ lo hi done, Delivering c s replay lo hi done

theorem Delivered.start (c : Connection) : Delivered c Stream.start where
  world := Sequenced.start
  before := fun _ => ⟨rfl, rfl, rfl⟩
  after := by
    intro replay h
    cases h

/-- The high-water mark is the number of the last replayed event. -/
theorem replayHighWaterId_window {w : World} (h : Sequenced w) {lo hi : Nat} (hlow : lo ≤ hi)
    (hhigh : hi ≤ w.begun.length) :
    replayHighWaterId ((w.begun.take hi).drop lo) = if lo = hi then none else some (natText hi) := by
  have hnumeric : ∀ id ∈ ((w.begun.take hi).drop lo).map LiveEvent.id, isNumericId id = true := by
    intro id hid
    obtain ⟨event, hevent, rfl⟩ := List.mem_map.mp hid
    exact h.numbered.isNumericId (List.mem_of_mem_take (List.mem_of_mem_drop hevent))
  have hlength : ((w.begun.take hi).drop lo).length = hi - lo := by
    rw [List.length_drop, List.length_take, Nat.min_eq_left hhigh]
  rw [replayHighWaterId, List.filter_eq_self.mpr hnumeric, List.getLast?_map, List.getLast?_eq_getElem?, hlength,
    List.getElem?_drop]
  split
  · next heq =>
    subst heq
    simp
  · next hne =>
    have hplace : lo + (hi - lo - 1) = hi - 1 := by omega
    have hlt : hi - 1 < w.begun.length := by omega
    rw [hplace, List.getElem?_take_of_lt (by omega), List.getElem?_eq_getElem hlt, Option.map_some,
      h.numbered (hi - 1) _ (List.getElem?_eq_getElem hlt)]
    congr 2
    omega

/-- Exactly the events above the replayed ones are new. -/
theorem isNew_iff {w : World} (h : Sequenced w) {lo hi done : Nat} {event : LiveEvent} (hlow : lo ≤ hi)
    (hhigh : hi ≤ w.begun.length) (hdone : lo ≤ done) (hget : w.valkey.channel[done]? = some event) :
    isNew ((w.begun.take hi).drop lo) event = true ↔ hi ≤ done := by
  have hid : event.id = natText (1 + done) := h.numbered_channel done event hget
  simp only [isNew, hid, isNumericId_natText, if_true, replayHighWaterId_window h hlow hhigh]
  split
  · next high hhighId =>
    split at hhighId
    · cases hhighId
    · cases hhighId
      simp only [compareLiveEventIds, isNumericId_natText, and_self, if_true, idValue_natText, beq_iff_eq,
        Option.some.injEq, Nat.compare_eq_gt]
      omega
  · next hnone =>
    split at hnone
    · next heq => simp [← heq, hdone]
    · cases hnone

/-- A push in turn adds to what has begun, and a pipeline to what was published. -/
theorem push_grows {w : World} {p : PushStep} (hp : InTurn w p) :
    (∃ more, (w.push p).begun = w.begun ++ more) ∧
      ∃ published, (w.push p).valkey.channel = w.valkey.channel ++ published ∧
        ((∃ i ingest now, p = .take i ingest now) → published = []) := by
  cases p with
  | take i ingest now =>
    refine ⟨⟨[⟨ingest.toEnvelope, natText (w.valkey.counter + 1), now⟩], ?_⟩, [], ?_, fun _ => rfl⟩
    · simp [World.push, beginPush, World.begun]
    · simp [World.push, beginPush]
  | pipeline index =>
    cases hp
    cases hflight : w.inFlight with
    | nil => exact ⟨⟨[], by simp [World.push, hflight]⟩, [], by simp [World.push, hflight], fun _ => rfl⟩
    | cons first rest =>
      refine ⟨⟨[], ?_⟩, [first.2], ?_, ?_⟩
      · simp [World.push, World.begun, finishPush, hflight, Pipeline.ok]
      · simp [World.push, finishPush, hflight, Pipeline.ok]
      · rintro ⟨i, ingest, now, hp⟩
        cases hp

section

variable {c : Connection} {s : Stream}

/-- What a push does to a connection: its queue gets what was published. -/
theorem step_push_eq {p : PushStep} {published : List LiveEvent}
    (hpublished : (s.world.push p).valkey.channel = s.world.valkey.channel ++ published)
    (hquiet : s.client.subscribed = false → published = []) :
    s.step c (.push p) = ⟨s.world.push p, { s.client with queue := s.client.queue ++ published }⟩ := by
  simp only [Stream.step, hpublished, List.drop_left]
  split
  · rfl
  · next hsub => rw [hquiet (by simpa using hsub), List.append_nil]

theorem Delivering.push {replay : ReplayResult} {lo hi done : Nat} (h : Delivering c s replay lo hi done)
    {p : PushStep} {more published : List LiveEvent} (hmore : (s.world.push p).begun = s.world.begun ++ more)
    (hpublished : (s.world.push p).valkey.channel = s.world.valkey.channel ++ published)
    (hquiet : s.client.subscribed = false → published = []) :
    Delivering c (s.step c (.push p)) replay lo hi done := by
  have hlength : s.world.valkey.channel.length ≤ s.world.begun.length := by simp [World.begun]
  have hbound := h.bound
  have hhigh := h.high
  have htake : ∀ n ≤ s.world.begun.length, (s.world.push p).begun.take n = s.world.begun.take n := by
    intro n hn
    rw [hmore, List.take_append_of_le_length hn]
  rw [step_push_eq hpublished hquiet]
  refine ⟨?_, h.cursor, h.seen, h.low, ?_, h.started, ?_, ?_, ?_, fun hsub => ?_⟩
  · rw [htake hi hhigh, h.replayed]
  · rw [hmore, List.length_append]
    omega
  · rw [hpublished, List.length_append]
    omega
  · rw [htake (max hi done) (by omega)]
    exact h.enqueued
  · rw [hpublished, List.drop_append_of_le_length hbound, h.queue]
  · rw [hpublished, hquiet hsub, List.append_nil]
    exact h.unsubscribed hsub

/-- The next message of the subscription. -/
theorem Delivering.deliver {replay : ReplayResult} {lo hi done : Nat} (h : Delivering c s replay lo hi done)
    (hworld : Sequenced s.world) (hreplay : s.client.replay = some replay) {event : LiveEvent} {queue : List LiveEvent}
    (hqueue : s.client.queue = event :: queue) : Delivering c (s.step c .deliver) replay lo hi (done + 1) := by
  have hdrop : s.world.valkey.channel.drop done = event :: queue := by rw [← h.queue, hqueue]
  have hget : s.world.valkey.channel[done]? = some event := by
    rw [← Nat.add_zero done, ← List.getElem?_drop, hdrop]
    rfl
  have hlt : done < s.world.valkey.channel.length := (List.getElem?_eq_some_iff.mp hget).1
  have hrest : s.world.valkey.channel.drop (done + 1) = queue := by
    rw [← List.drop_drop, hdrop]
    rfl
  have hnew : isNew replay.events event = true ↔ hi ≤ done := by
    rw [h.replayed]
    exact isNew_iff hworld h.low h.high (Nat.le_trans h.seen h.started) hget
  have hstep : s.step c .deliver = { s with client :=
      { s.client with
        queue
        enqueued := if isNew replay.events event && c.visible event then s.client.enqueued ++ [event]
          else s.client.enqueued } } := by
    simp only [Stream.step, hreplay, hqueue]
  have hbegun : s.world.begun[done]? = some event := by
    rw [World.begun, List.getElem?_append_left hlt, hget]
  have hstarted := h.started
  rw [hstep]
  refine ⟨h.replayed, h.cursor, h.seen, h.low, h.high, Nat.le_succ_of_le hstarted, hlt, ?_, hrest.symm, fun hsub => ?_⟩
  · by_cases hle : hi ≤ done
    · have hlow := h.low
      have hmax : max hi done = done := Nat.max_eq_right hle
      have hmax' : max hi (done + 1) = done + 1 := Nat.max_eq_right (by omega)
      have htake : s.world.begun.take (done + 1) = s.world.begun.take done ++ [event] := by
        rw [List.take_add_one, hbegun]
        rfl
      have hfit : lo ≤ (s.world.begun.take done).length := by
        rw [List.length_take, World.begun, List.length_append]
        omega
      rw [h.enqueued, hmax, hmax', htake, List.drop_append_of_le_length hfit, List.filter_append, hnew.mpr hle]
      cases hvisible : c.visible event with
      | true => simp [hvisible]
      | false => simp [hvisible]
    · have hold : isNew replay.events event = false := by
        rw [← Bool.not_eq_true, hnew]
        exact hle
      have hmax : max hi (done + 1) = max hi done := by omega
      rw [hold, hmax]
      exact h.enqueued
  · have := h.unsubscribed hsub
    omega

theorem Delivered.push (h : Delivered c s) {p : PushStep} (hp : InTurn s.world p)
    (hquiet : s.client.replay.isSome = true → s.client.subscribed = false → ∃ i ingest now, p = .take i ingest now) :
    Delivered c (s.step c (.push p)) := by
  obtain ⟨⟨more, hmore⟩, published, hpublished, hnone⟩ := push_grows hp
  have hkeep : (s.step c (.push p)).client.replay = s.client.replay := by
    simp only [Stream.step]
    split <;> rfl
  refine ⟨h.world.push hp, fun hreplay => ?_, fun replay hreplay => ?_⟩
  · rw [hkeep] at hreplay
    have hbefore := h.before hreplay
    simpa [Stream.step, hbefore.1] using hbefore
  · rw [hkeep] at hreplay
    have hsome : s.client.replay.isSome = true := by
      rw [hreplay]
      rfl
    obtain ⟨lo, hi, done, hdelivering⟩ := h.after replay hreplay
    exact ⟨lo, hi, done, hdelivering.push hmore hpublished fun hsub => hnone (hquiet hsome hsub)⟩

theorem Delivered.snapshot (h : Delivered c s) (hstep : Undisturbed c s .snapshot) :
    Delivered c (s.step c .snapshot) := by
  cases hreplay : s.client.replay with
  | some replay =>
    have hsame : s.step c .snapshot = s := by simp only [Stream.step, hreplay]
    rw [hsame]
    exact h
  | none =>
    obtain ⟨hsub, hqueue, -⟩ := h.before hreplay
    obtain ⟨lo, hi, hwindow⟩ : ∃ lo hi, Window c s.world (c.snapshot s.world).events lo hi := by
      cases hid : c.afterId with
      | none => exact ⟨_, _, h.world.window_recent hid⟩
      | some id =>
        obtain ⟨hpublished, hfew, hown⟩ := hstep id hid
        exact h.world.window_cursor hid hpublished hfew hown
    have hlow := Nat.le_trans hwindow.low hwindow.published
    refine ⟨by simpa only [Stream.step, hreplay] using h.world, fun hnone => ?_, fun replay hsome => ?_⟩
    · simp [Stream.step, hreplay] at hnone
    · have heq : c.snapshot s.world = replay := by simpa [Stream.step, hreplay] using hsome
      refine ⟨lo, hi, s.world.valkey.channel.length, ?_⟩
      simp only [Stream.step, hreplay]
      refine ⟨?_, hwindow.cursor, hwindow.low, hlow, hwindow.high, Nat.le_refl _, Nat.le_refl _, ?_, ?_, fun _ => rfl⟩
      · rw [← heq]
        exact hwindow.events
      · rw [hwindow.events, Nat.max_eq_left hwindow.published]
      · rw [hqueue, List.drop_length]

theorem Delivered.subscribe (h : Delivered c s) : Delivered c (s.step c .subscribe) := by
  cases hreplay : s.client.replay with
  | none =>
    have hsame : s.step c .subscribe = s := by simp [Stream.step, hreplay]
    rw [hsame]
    exact h
  | some replay =>
    obtain ⟨lo, hi, done, hd⟩ := h.after replay hreplay
    have hstep : s.step c .subscribe = { s with client := { s.client with subscribed := true } } := by
      simp [Stream.step, hreplay]
    rw [hstep]
    refine ⟨h.world, fun hnone => absurd (hreplay.symm.trans hnone) (by simp), fun replay' hsome => ?_⟩
    obtain rfl : replay = replay' := Option.some.inj (hreplay.symm.trans hsome)
    exact ⟨lo, hi, done, hd.replayed, hd.cursor, hd.seen, hd.low, hd.high, hd.started, hd.bound, hd.enqueued, hd.queue,
      fun hsub => by cases hsub⟩

theorem Delivered.deliver (h : Delivered c s) : Delivered c (s.step c .deliver) := by
  cases hreplay : s.client.replay with
  | none =>
    have hsame : s.step c .deliver = s := by simp only [Stream.step, hreplay]
    rw [hsame]
    exact h
  | some replay =>
    obtain ⟨lo, hi, done, hd⟩ := h.after replay hreplay
    cases hqueue : s.client.queue with
    | nil =>
      have hsame : s.step c .deliver = s := by simp only [Stream.step, hreplay, hqueue]
      rw [hsame]
      exact h
    | cons event queue =>
      have hnext := hd.deliver h.world hreplay hqueue
      have hkeep : (s.step c .deliver).client.replay = some replay := by
        simp only [Stream.step, hreplay, hqueue]
      have hworld : (s.step c .deliver).world = s.world := by simp only [Stream.step, hreplay, hqueue]
      refine ⟨?_, fun hnone => absurd (hkeep.symm.trans hnone) (by simp), fun replay' hsome => ?_⟩
      · rw [hworld]
        exact h.world
      · obtain rfl : replay = replay' := Option.some.inj (hkeep.symm.trans hsome)
        exact ⟨lo, hi, done + 1, hnext⟩

/-- A step that does not disturb the connection. -/
theorem Delivered.step (h : Delivered c s) {step : StreamStep} (hstep : Undisturbed c s step) :
    Delivered c (s.step c step) := by
  cases step with
  | push p =>
    cases p with
    | take i ingest now => exact h.push trivial fun _ _ => ⟨i, ingest, now, rfl⟩
    | pipeline index =>
      refine h.push hstep.1 fun hsome hsub => ?_
      rw [hstep.2 hsome] at hsub
      cases hsub
  | snapshot => exact h.snapshot hstep
  | subscribe => exact h.subscribe
  | deliver => exact h.deliver

theorem delivered_of_undisturbed {steps : List StreamStep}
    (h : Allowed (Stream.step c) (Undisturbed c) Stream.start steps) :
    Delivered c (Stream.run c steps) :=
  h.invariant (fun _ _ hs hstep => hs.step hstep) (Delivered.start c)

/-! ### Exactly once -/

/-- Where the ids are distinct, no event is enqueued twice. -/
theorem timesEnqueued_le_one {client : Client} (h : (client.enqueued.map LiveEvent.id).Nodup) (event : LiveEvent) :
    client.timesEnqueued event ≤ 1 := by
  have hcount := List.nodup_iff_count_le_one.mp h event.id
  rw [List.count, List.countP_map] at hcount
  exact hcount

/-- What is enqueued has distinct ids. -/
theorem Delivered.nodup_enqueued (h : Delivered c s) : (s.client.enqueued.map LiveEvent.id).Nodup := by
  cases hreplay : s.client.replay with
  | none => simp [(h.before hreplay).2.2]
  | some replay =>
    obtain ⟨lo, hi, done, hd⟩ := h.after replay hreplay
    rw [hd.enqueued]
    apply List.Sublist.nodup _ h.world.numbered.nodup
    apply List.Sublist.map
    exact List.filter_sublist.trans ((List.drop_sublist _ _).trans (List.take_sublist _ _))

/-- Once the queue is empty, all visible events after the cursor are enqueued. -/
theorem Delivered.mem_enqueued (h : Delivered c s) (hsub : s.client.subscribed = true) (hqueue : s.client.queue = [])
    {event : LiveEvent} (hvisible : c.visible event = true) (hafter : AfterCursor c s event) :
    event ∈ s.client.enqueued := by
  cases hreplay : s.client.replay with
  | none =>
    rw [(h.before hreplay).1] at hsub
    cases hsub
  | some replay =>
    obtain ⟨lo, hi, done, hd⟩ := h.after replay hreplay
    have hdone : s.world.valkey.channel.length ≤ done := by
      rw [hd.queue, List.drop_eq_nil_iff] at hqueue
      exact hqueue
    have hmem : event ∈ s.world.valkey.channel.drop lo := by
      unfold AfterCursor at hafter
      split at hafter
      · next id hid =>
        obtain ⟨j, cursor, hget, hcursor, hevent⟩ := hafter
        have hplace : 1 + j = lo := by
          apply natText_inj
          rw [← hd.cursor id hid, ← hcursor, h.world.numbered_channel j cursor hget]
        rwa [← hplace, Nat.add_comm]
      · have hsplit : s.client.seen = lo + (s.client.seen - lo) := by
          have := hd.seen
          omega
        rw [hsplit, ← List.drop_drop] at hafter
        exact List.mem_of_mem_drop hafter
    rw [hd.enqueued, List.mem_filter]
    refine ⟨?_, hvisible⟩
    rw [← channel_eq_take_begun s.world] at hmem
    have hle : s.world.valkey.channel.length ≤ max hi done := Nat.le_trans hdone (Nat.le_max_right hi done)
    apply List.Sublist.subset _ hmem
    exact (List.take_sublist_take_left hle).drop lo

end

/-- Along an undisturbed run no event is enqueued twice, and once the queue is empty each
    visible event after the client's cursor is enqueued. -/
theorem stream_delivers_once {c : Connection} {steps : List StreamStep}
    (h : Allowed (Stream.step c) (Undisturbed c) Stream.start steps) :
    (∀ event, (Stream.run c steps).client.timesEnqueued event ≤ 1) ∧
      ((Stream.run c steps).client.subscribed = true → (Stream.run c steps).client.queue = [] →
        ∀ event, c.visible event = true → AfterCursor c (Stream.run c steps) event →
          event ∈ (Stream.run c steps).client.enqueued ∧ (Stream.run c steps).client.timesEnqueued event = 1) := by
  have hdelivered := delivered_of_undisturbed h
  have honce := timesEnqueued_le_one hdelivered.nodup_enqueued
  refine ⟨honce, fun hsub hqueue event hvisible hafter => ?_⟩
  have hmem := hdelivered.mem_enqueued hsub hqueue hvisible hafter
  refine ⟨hmem, Nat.le_antisymm (honce event) ?_⟩
  exact List.countP_pos_iff.mpr ⟨event, hmem, beq_self_eq_true _⟩

/-- The event with a number of the runs below. -/
def sampleEvent (n : Nat) : LiveEvent := ⟨sampleIngest.toEnvelope, natText n, 0⟩

/-- A client that sees everything. -/
def sampleConnection (process : Nat) (lastEventId : Option Text) : Connection := ⟨process, lastEventId, fun _ => true⟩

/-- A client at another process that names the first of three events, the last of which is
    published while it listens. -/
theorem stream_delivers_once_sample :
    (Stream.run (sampleConnection 2 (some (natText 1)))
        [.push (.take 0 sampleIngest 0), .push (.pipeline 0), .push (.take 1 sampleIngest 0), .push (.pipeline 0),
          .snapshot, .push (.take 0 sampleIngest 0), .subscribe, .push (.pipeline 0), .deliver]).client.timesEnqueued
      (sampleEvent 3) = 1 := by
  refine ((stream_delivers_once ?_).2 rfl rfl (sampleEvent 3) rfl ?_).2
  · refine ⟨trivial, ⟨rfl, by simp [Stream.step, Stream.start]⟩, trivial, ⟨rfl, by simp [Stream.step, Stream.start]⟩,
      ?_, trivial, trivial, ⟨rfl, fun _ => rfl⟩, trivial, trivial⟩
    intro id hid
    cases hid
    refine ⟨⟨sampleEvent 1, ?_, rfl⟩, ?_, ?_⟩
    · exact List.mem_cons_self
    · decide
    · rintro ⟨event, hevent, -⟩
      cases hevent
  · refine ⟨0, sampleEvent 1, rfl, rfl, ?_⟩
    exact List.mem_cons_of_mem _ List.mem_cons_self

/-- A connection with nothing left to deliver that never gave the client an event it had to get. -/
def Missed (c : Connection) (s : Stream) (event : LiveEvent) : Prop :=
  s.client.subscribed = true ∧ s.client.queue = [] ∧ c.visible event = true ∧ AfterCursor c s event ∧
    s.client.timesEnqueued event = 0

/-- Three ways to lose an event: it is published between the snapshot and the start of the
    subscription; its pipeline runs after that of an event with a greater id, which was replayed;
    or the process holds the client's cursor in its own ring and another process pushed the event. -/
theorem stream_loses_events :
    Missed (sampleConnection 0 none)
        (Stream.run (sampleConnection 0 none)
          [.snapshot, .push (.take 0 sampleIngest 0), .push (.pipeline 0), .subscribe])
        (sampleEvent 1) ∧
      Missed (sampleConnection 0 none)
        (Stream.run (sampleConnection 0 none)
          [.push (.take 0 sampleIngest 0), .push (.take 0 sampleIngest 0), .push (.pipeline 1), .snapshot, .subscribe,
            .push (.pipeline 0), .deliver])
        (sampleEvent 1) ∧
      Missed (sampleConnection 0 (some (natText 1)))
        (Stream.run (sampleConnection 0 (some (natText 1)))
          [.push (.take 0 sampleIngest 0), .push (.pipeline 0), .push (.take 1 sampleIngest 0), .push (.pipeline 0),
            .snapshot, .subscribe])
        (sampleEvent 2) := by
  refine ⟨⟨rfl, rfl, rfl, ?_, rfl⟩, ⟨rfl, rfl, rfl, ?_, rfl⟩, rfl, rfl, rfl, ?_, rfl⟩
  · exact List.mem_cons_self
  · exact List.mem_cons_self
  · exact ⟨0, sampleEvent 1, rfl, rfl, List.mem_cons_self⟩

end narwhal.portal.live_stream
