import Mathlib.Data.List.Perm.Basic
import Narwhal.Portal.IngestAttribution

open jslib pylib narwhal.portal.live_stream

namespace narwhal.portal.event_ingest

/-! ### Runs of requests -/

/-- The processes with the keys and the stream they share in Valkey, the requests that have
    claimed their key and not yet an id, and the replies so far, each with the request's source
    and key. -/
structure Ingest where
  claims : idempotency.Valkey
  fallback : Nat → idempotency.InMemoryIdempotencyStore
  stream : World
  claimed : List (Nat × LiveEventIngest)
  replies : List ((LiveSource × DedupKey) × Reply)

/-- A step of a request while Valkey answers: it is checked and claims its key, a claimed one
    takes its id, or the pipeline of one runs and the reply is given. -/
inductive IngestStep where
  | arrive (process : Nat) (s : Server) (r : Request) (eventId : Uuid) (io : idempotency.Io)
  | take (index now : Nat)
  | finish (index : Nat)

def Ingest.setFallback (w : Ingest) (i : Nat) (f : idempotency.InMemoryIdempotencyStore) :
    Nat → idempotency.InMemoryIdempotencyStore := fun j => if j = i then f else w.fallback j

def eventKey (event : LiveEvent) : LiveSource × DedupKey := dedupOf event.toEnvelope

def acceptedReply (event : LiveEvent) : Reply :=
  .accepted event.id (event.producer.getD []) (event.credential_scope.getD [])

def Ingest.step (w : Ingest) : IngestStep → Ingest
  | .arrive i s r eventId io =>
    match validate s r with
    | .error _ => w
    | .ok (auth, envelope) =>
      let key := dedupOf envelope
      let (reply, store) := claimIdempotencyKey ⟨w.fallback i, w.claims⟩ (idempotencyKey key) eventId.val io
      let w := { w with claims := store.valkey, fallback := w.setFallback i store.inMemoryFallback }
      match existingId reply with
      | some existing => { w with replies := w.replies ++ [(key, .duplicate existing auth.producer)] }
      | none => { w with claimed := w.claimed ++ [(i, ⟨envelope, some eventId.val⟩)] }
  | .take index now =>
    match w.claimed[index]? with
    | none => w
    | some (i, ingest) =>
      { w with claimed := w.claimed.eraseIdx index, stream := w.stream.push (.take i ingest now) }
  | .finish index =>
    match w.stream.inFlight[index]? with
    | none => w
    | some (_, event) =>
      { w with
        stream := w.stream.push (.pipeline index)
        replies := w.replies ++ [(eventKey event, acceptedReply event)] }

def Ingest.start : Ingest := ⟨⟨.empty⟩, fun _ => ⟨.empty, 5000⟩, World.start, [], []⟩

def Ingest.run (steps : List IngestStep) : Ingest := steps.foldl Ingest.step Ingest.start

/-- The keys of the requests that claimed one. -/
def Ingest.taken (w : Ingest) : List (LiveSource × DedupKey) :=
  w.claimed.map (fun c => dedupOf c.2.toEnvelope) ++ w.stream.begun.map eventKey

/-- Valkey answers, and no key has expired. -/
def Healthy (w : Ingest) : IngestStep → Prop
  | .arrive _ _ _ _ io =>
    io.set_ok = true ∧ io.get_ok = true ∧
      ∀ key value expiresAt, w.claims.data.get key = some (value, expiresAt) → io.sent < expiresAt ∧ io.now < expiresAt
  | .take .. | .finish _ => True

/-- A request that passes the checks has not the source and key of an earlier one. -/
def Fresh (w : Ingest) : IngestStep → Prop
  | .arrive _ s r _ _ => ∀ auth envelope, validate s r = .ok (auth, envelope) → dedupOf envelope ∉ w.taken
  | .take .. | .finish _ => True

/-- A duplicate is answered with the id of the accepted request, which is that of a published
    event, and no two events are pushed for one key. -/
structure ReportsOriginal (w : Ingest) : Prop where
  same : ∀ key id producer scope id' producer', (key, .accepted id producer scope) ∈ w.replies →
    (key, .duplicate id' producer') ∈ w.replies → id' = id
  pushed : ∀ key id producer scope, (key, .accepted id producer scope) ∈ w.replies →
    ∃ event ∈ w.stream.valkey.channel, event.id = id ∧ eventKey event = key
  once : (w.stream.begun.map eventKey).Nodup

/-! ### One request alone -/

/-- A request whose three steps are taken in a row is answered as `POST` answers it. -/
theorem steps_eq_post {w : Ingest} (hclaimed : w.claimed = []) (hflight : w.stream.inFlight = []) (i : Nat) (s : Server)
    (r : Request) (eventId : Uuid) (io : idempotency.Io) (now : Nat) :
    let w' := ((w.step (.arrive i s r eventId io)).step (.take 0 now)).step (.finish 0)
    let answer := POST s r eventId ⟨io, now, true, .ok⟩ ⟨⟨w.fallback i, w.claims⟩, w.stream.process i, w.stream.valkey⟩
    (⟨⟨w'.fallback i, w'.claims⟩, w'.stream.process i, w'.stream.valkey⟩ : Portal) = answer.2 ∧
      match answer.1 with
      | .refused _ => w'.replies = w.replies
      | reply => ∃ key, w'.replies = w.replies ++ [(key, reply)] := by
  dsimp only
  cases hvalidate : validate s r with
  | error refusal => simp [Ingest.step, POST, hvalidate, hclaimed, hflight]
  | ok checked =>
    obtain ⟨auth, envelope⟩ := checked
    obtain ⟨raw, -, -, -, hbody⟩ := validate_ok_iff.mp hvalidate
    obtain ⟨-, hproducer, hscope⟩ := checkBody_ok hbody
    simp only [Ingest.step, POST, hvalidate]
    generalize claimIdempotencyKey ⟨w.fallback i, w.claims⟩ (idempotencyKey (dedupOf envelope)) eventId.val io = claimed
    obtain ⟨reply, store⟩ := claimed
    dsimp only
    cases existingId reply with
    | some existing =>
      simp [hclaimed, hflight, Ingest.setFallback]
    | none =>
      simp [hclaimed, hflight, Ingest.setFallback, World.push, World.setProcess, beginPush, pushEvent, finishPush,
        acceptedReply, hproducer, hscope]

/-! ### The claim -/

/-- No claim in a process's memory was made without Valkey. -/
def Mirrored (f : idempotency.InMemoryIdempotencyStore) : Prop := ∀ key entry, f.map.get key = some entry → entry.degraded = false

theorem mirrored_filter {f : idempotency.InMemoryIdempotencyStore} (h : Mirrored f)
    (p : String × idempotency.FallbackEntry → Bool) : Mirrored { f with map := f.map.filter p } := by
  intro key entry hget
  exact h key entry (JsMap.get_of_get_filter hget)

theorem mirrored_fulfill {f : idempotency.InMemoryIdempotencyStore} (h : Mirrored f) (key value : String)
    (ttlSeconds now : Nat) : Mirrored (f.fulfill key value ttlSeconds now) := by
  intro k entry hget
  simp only [idempotency.InMemoryIdempotencyStore.fulfill, idempotency.InMemoryIdempotencyStore.setBounded,
    JsMap.get_set] at hget
  split at hget
  · cases hget
    rfl
  have hsweep : Mirrored (f.sweep now) := mirrored_filter h _
  split at hget
  · unfold idempotency.InMemoryIdempotencyStore.evictOldest at hget
    split at hget
    · split at hget
      · exact mirrored_filter hsweep _ k entry hget
      · exact hsweep k entry hget
    · exact hsweep k entry hget
  · exact hsweep k entry hget

/-- What a claim does while Valkey answers. -/
theorem claim_healthy {f : idempotency.InMemoryIdempotencyStore} {v : idempotency.Valkey} {io : idempotency.Io}
    (hf : Mirrored f) (hset : io.set_ok = true) (hget : io.get_ok = true) (key value : String) (ttlSeconds : Nat)
    (hlive : ∀ value expiresAt, v.data.get key = some (value, expiresAt) → io.sent < expiresAt ∧ io.now < expiresAt) :
    (∃ held expiresAt, v.data.get key = some (held, expiresAt) ∧
        (⟨f, v⟩ : idempotency.ValkeyIdempotencyStore).claim key value ttlSeconds io = (some held, ⟨f, v⟩)) ∨
      v.data.get key = none ∧
        (⟨f, v⟩ : idempotency.ValkeyIdempotencyStore).claim key value ttlSeconds io =
          (none, ⟨f.fulfill key value ttlSeconds io.now, v.set key value ttlSeconds io.sent⟩) := by
  have hpeek : f.peekDegraded key io.peeked = none := by
    unfold idempotency.InMemoryIdempotencyStore.peekDegraded
    split
    · next entry hentry => simp [hf key entry hentry]
    · rfl
  unfold idempotency.ValkeyIdempotencyStore.claim
  cases hdata : v.data.get key with
  | none =>
    refine .inr ⟨rfl, ?_⟩
    simp [hpeek, hset, idempotency.Valkey.get, hdata]
  | some entry =>
    obtain ⟨held, expiresAt⟩ := entry
    obtain ⟨hsent, hnow⟩ := hlive held expiresAt hdata
    refine .inl ⟨held, expiresAt, rfl, ?_⟩
    simp [hpeek, hset, hget, idempotency.Valkey.get, hdata, hsent, hnow]

/-! ### Keys -/

theorem colon_not_mem_sourceName (source : LiveSource) : ':' ∉ sourceName source := by
  cases source <;> decide +kernel

theorem sourceName_inj {a b : LiveSource} (h : sourceName a = sourceName b) : a = b := by
  cases a <;> cases b <;> first | rfl | exact absurd h (by decide +kernel)

theorem named_inj {a b : LiveSource} {s t : Text} (h : sourceName a ++ ':' :: s = sourceName b ++ ':' :: t) :
    a = b ∧ s = t := by
  obtain ⟨hname, htext⟩ := append_cons_inj (colon_not_mem_sourceName a) (colon_not_mem_sourceName b) h
  exact ⟨sourceName_inj hname, htext⟩

/-- Two requests have one key in the store only if they have the same source and dedup key. -/
theorem idempotencyKey_inj {a b : LiveSource × DedupKey} (h : idempotencyKey a = idempotencyKey b) : a = b := by
  obtain ⟨source, key⟩ := a
  obtain ⟨source', key'⟩ := b
  have htag : ∀ s t : Text, "idempotency:".toList ++ s ≠ "source-event:".toList ++ t := by
    intro s t h
    have hhead := congrArg List.head? h
    rw [List.head?_append_of_ne_nil _ (by decide), List.head?_append_of_ne_nil _ (by decide)] at hhead
    exact absurd hhead (by decide +kernel)
  cases key with
  | idempotencyKey s =>
    cases key' with
    | idempotencyKey t =>
      obtain ⟨rfl, rfl⟩ := named_inj (List.append_cancel_left h)
      rfl
    | sourceEvent t => exact absurd h (htag _ _)
  | sourceEvent s =>
    cases key' with
    | idempotencyKey t => exact absurd h.symm (htag _ _)
    | sourceEvent t =>
      obtain ⟨rfl, rfl⟩ := named_inj (List.append_cancel_left h)
      rfl

def storeKey (key : LiveSource × DedupKey) : String := idempotencyStoreKey (idempotencyKey key)

theorem storeKey_inj {a b : LiveSource × DedupKey} (h : storeKey a = storeKey b) : a = b := by
  apply idempotencyKey_inj
  apply List.append_cancel_left
  exact String.ofList_injective h

/-- A UUID is not a number. -/
theorem isNumericId_of_isUuid {id : Text} (h : isUuid id = true) : isNumericId id = false := by
  rw [Bool.eq_false_iff]
  intro hnumeric
  simp only [isNumericId, Bool.and_eq_true, List.all_eq_true] at hnumeric
  have hdash : '-' ∉ id := by
    intro hmem
    exact absurd (hnumeric.2 '-' hmem) (by decide)
  simp [isUuid, List.splitOn_eq_singleton hdash] at h

theorem existingId_uuid (id : Uuid) : existingId (some (String.ofList id.val)) = some id.val := by
  apply given_eq_some_iff.mpr
  refine ⟨by simp, fun hnil => ?_⟩
  have huuid := id.property
  rw [hnil] at huuid
  exact absurd huuid (by decide)

/-! ### What a run of requests keeps -/

/-- What holds while Valkey answers and no key expires. -/
structure Kept (w : Ingest) : Prop where
  mirrored : ∀ i, Mirrored (w.fallback i)
  /-- the keys in the store are those of the requests that claimed one, each with a UUID -/
  held : ∀ key ∈ w.taken, ∃ id : Uuid, ∃ expiresAt, w.claims.data.get (storeKey key) = some (String.ofList id.val, expiresAt)
  known : ∀ stored entry, w.claims.data.get stored = some entry → ∃ key ∈ w.taken, stored = storeKey key
  nodup : w.taken.Nodup
  duplicates : ∀ key id producer, (key, .duplicate id producer) ∈ w.replies → isUuid id = true ∧ key ∈ w.taken
  /-- the accepted requests are the published events -/
  replied : ∀ event ∈ w.stream.valkey.channel, (eventKey event, acceptedReply event) ∈ w.replies
  published : ∀ key id producer scope, (key, .accepted id producer scope) ∈ w.replies →
    ∃ event ∈ w.stream.valkey.channel, event.id = id ∧ eventKey event = key
  numeric : ∀ event ∈ w.stream.begun, isNumericId event.id = true

theorem Kept.start : Kept Ingest.start where
  mirrored := fun _ key entry h => by cases h
  held := fun key h => by cases h
  known := fun stored entry h => by cases h
  nodup := List.nodup_nil
  duplicates := fun key id producer h => by cases h
  replied := fun event h => by cases h
  published := fun key id producer scope h => by cases h
  numeric := fun event h => by cases h

/-- What a request does when it arrives: it is refused, or it is a duplicate, or it claims its key. -/
theorem Kept.arrive_cases {w : Ingest} (h : Kept w) {i : Nat} {s : Server} {r : Request} {eventId : Uuid}
    {io : idempotency.Io} (hhealthy : Healthy w (.arrive i s r eventId io)) :
    (∃ refusal, validate s r = .error refusal ∧ w.step (.arrive i s r eventId io) = w) ∨
      ∃ auth envelope, validate s r = .ok (auth, envelope) ∧
        ((∃ id : Uuid, dedupOf envelope ∈ w.taken ∧ w.step (.arrive i s r eventId io) =
            { w with replies := w.replies ++ [(dedupOf envelope, .duplicate id.val auth.producer)] }) ∨
          dedupOf envelope ∉ w.taken ∧ ∃ fallback now, (∀ j, Mirrored (fallback j)) ∧
            w.step (.arrive i s r eventId io) =
              { w with
                claims := w.claims.set (storeKey (dedupOf envelope)) (String.ofList eventId.val) IDEMPOTENCY_TTL_SECONDS now
                fallback
                claimed := w.claimed ++ [(i, ⟨envelope, some eventId.val⟩)] }) := by
  cases hvalidate : validate s r with
  | error refusal =>
    refine .inl ⟨refusal, rfl, ?_⟩
    simp only [Ingest.step, hvalidate]
  | ok checked =>
    obtain ⟨auth, envelope⟩ := checked
    refine .inr ⟨auth, envelope, rfl, ?_⟩
    obtain ⟨hset, hget, hlive⟩ := hhealthy
    have hclaim := claim_healthy (h.mirrored i) hset hget (storeKey (dedupOf envelope)) (String.ofList eventId.val)
      IDEMPOTENCY_TTL_SECONDS (hlive (storeKey (dedupOf envelope)))
    obtain ⟨value, expiresAt, hdata, hclaim⟩ | ⟨hdata, hclaim⟩ := hclaim
    · obtain ⟨key, hkey, hstore⟩ := h.known _ _ hdata
      obtain rfl := storeKey_inj hstore
      obtain ⟨id, expiresAt', hheld⟩ := h.held _ hkey
      rw [hheld] at hdata
      cases hdata
      refine .inl ⟨id, hkey, ?_⟩
      have hsame : w.setFallback i (w.fallback i) = w.fallback := by
        funext j
        simp only [Ingest.setFallback]
        split
        · next hj => rw [hj]
        · rfl
      simp only [Ingest.step, hvalidate, claimIdempotencyKey]
      rw [storeKey] at hclaim
      simp only [hclaim, existingId_uuid, hsame]
    · refine .inr ⟨fun hmem => ?_, ?_⟩
      · obtain ⟨id, expiresAt, hheld⟩ := h.held _ hmem
        rw [hheld] at hdata
        cases hdata
      · refine ⟨w.setFallback i ((w.fallback i).fulfill (storeKey (dedupOf envelope)) (String.ofList eventId.val)
          IDEMPOTENCY_TTL_SECONDS io.now), io.sent, fun j => ?_, ?_⟩
        · simp only [Ingest.setFallback]
          split
          · exact mirrored_fulfill (h.mirrored i) _ _ _ _
          · exact h.mirrored j
        · simp only [Ingest.step, hvalidate, claimIdempotencyKey]
          rw [storeKey] at hclaim ⊢
          simp only [hclaim, existingId]
          rfl

theorem eraseIdx_concat_perm {α : Type} {l : List α} {index : Nat} {a : α} (h : l[index]? = some a) :
    (l.eraseIdx index ++ [a]).Perm l := by
  obtain ⟨hlt, rfl⟩ := List.getElem?_eq_some_iff.mp h
  exact (List.perm_append_singleton _ _).trans (List.getElem_cons_eraseIdx_perm hlt)

/-- A claimed request that takes its id begins its push. -/
theorem begun_take (w : World) (i : Nat) (ingest : LiveEventIngest) (now : Nat) :
    (w.push (.take i ingest now)).begun = w.begun ++ [⟨ingest.toEnvelope, natText (w.valkey.counter + 1), now⟩] := by
  simp [World.push, beginPush, World.begun]

theorem channel_take (w : World) (i : Nat) (ingest : LiveEventIngest) (now : Nat) :
    (w.push (.take i ingest now)).valkey.channel = w.valkey.channel := by
  simp [World.push, beginPush]

/-- A pipeline publishes a push that has begun, whichever it is. -/
theorem channel_pipeline {w : World} {index i : Nat} {event : LiveEvent} (h : w.inFlight[index]? = some (i, event)) :
    (w.push (.pipeline index)).valkey.channel = w.valkey.channel ++ [event] := by
  simp [World.push, h, finishPush, Pipeline.ok]

theorem begun_pipeline_perm {w : World} {index i : Nat} {event : LiveEvent} (h : w.inFlight[index]? = some (i, event)) :
    (w.push (.pipeline index)).begun.Perm w.begun := by
  have hflight : (w.push (.pipeline index)).inFlight = w.inFlight.eraseIdx index := by
    simp [World.push, h]
  rw [World.begun, World.begun, channel_pipeline h, hflight, List.append_assoc]
  apply List.Perm.append_left
  have hperm := (eraseIdx_concat_perm h).map Prod.snd
  rw [List.map_append] at hperm
  exact List.perm_append_comm.trans hperm

section

variable {w : Ingest}

theorem Kept.arrive (h : Kept w) {i : Nat} {s : Server} {r : Request} {eventId : Uuid} {io : idempotency.Io}
    (hhealthy : Healthy w (.arrive i s r eventId io)) : Kept (w.step (.arrive i s r eventId io)) := by
  obtain ⟨_, _, hstep⟩ | ⟨auth, envelope, -, hcase⟩ := h.arrive_cases hhealthy
  · rw [hstep]
    exact h
  obtain ⟨id, hmem, hstep⟩ | ⟨hnew, fallback, now, hmirrored, hstep⟩ := hcase
  · rw [hstep]
    refine { h with duplicates := ?_, replied := ?_, published := ?_ }
    · intro key id' producer hreply
      rw [List.mem_append, List.mem_singleton] at hreply
      cases hreply with
      | inl hold => exact h.duplicates key id' producer hold
      | inr hnew =>
        cases hnew
        exact ⟨id.property, hmem⟩
    · intro event hevent
      exact List.mem_append_left _ (h.replied event hevent)
    · intro key id' producer scope hreply
      rw [List.mem_append, List.mem_singleton] at hreply
      cases hreply with
      | inl hold => exact h.published key id' producer scope hold
      | inr hnew => cases hnew
  · rw [hstep]
    set w' : Ingest := { w with
      claims := w.claims.set (storeKey (dedupOf envelope)) (String.ofList eventId.val) IDEMPOTENCY_TTL_SECONDS now
      fallback
      claimed := w.claimed ++ [(i, ⟨envelope, some eventId.val⟩)] } with hw'
    have htaken : w'.taken.Perm (dedupOf envelope :: w.taken) := by
      simp only [Ingest.taken, hw', List.map_append, List.map_cons, List.map_nil, List.append_assoc]
      exact List.perm_middle
    have hget : ∀ key, w'.claims.data.get (storeKey key) =
        if key = dedupOf envelope then some (String.ofList eventId.val, now + IDEMPOTENCY_TTL_SECONDS * 1000)
        else w.claims.data.get (storeKey key) := by
      intro key
      simp only [hw', idempotency.Valkey.set, JsMap.get_set]
      by_cases hkey : key = dedupOf envelope
      · simp [hkey]
      · simp [hkey, mt storeKey_inj hkey]
    refine { h with mirrored := hmirrored, held := ?_, known := ?_, nodup := ?_, duplicates := ?_ }
    · intro key hkey
      rw [hget]
      split
      · exact ⟨eventId, _, rfl⟩
      · next hne =>
        apply h.held
        exact (List.mem_cons.mp (htaken.mem_iff.mp hkey)).resolve_left hne
    · intro stored entry hentry
      by_cases hstored : stored = storeKey (dedupOf envelope)
      · exact ⟨_, htaken.mem_iff.mpr List.mem_cons_self, hstored⟩
      · simp only [hw', idempotency.Valkey.set, JsMap.get_set, if_neg hstored] at hentry
        obtain ⟨key, hkey, heq⟩ := h.known stored entry hentry
        exact ⟨key, htaken.mem_iff.mpr (List.mem_cons_of_mem _ hkey), heq⟩
    · exact htaken.nodup_iff.mpr (List.nodup_cons.mpr ⟨hnew, h.nodup⟩)
    · intro key id producer hreply
      obtain ⟨huuid, hkey⟩ := h.duplicates key id producer hreply
      exact ⟨huuid, htaken.mem_iff.mpr (List.mem_cons_of_mem _ hkey)⟩

/-- A step of the stream makes no claim and answers no duplicate; the keys only change places. -/
theorem Kept.move (h : Kept w) {w' : Ingest} (hclaims : w'.claims = w.claims) (hfallback : w'.fallback = w.fallback)
    (htaken : w'.taken.Perm w.taken)
    (hduplicates : ∀ key id producer, (key, .duplicate id producer) ∈ w'.replies → (key, .duplicate id producer) ∈ w.replies)
    (hreplied : ∀ event ∈ w'.stream.valkey.channel, (eventKey event, acceptedReply event) ∈ w'.replies)
    (hpublished : ∀ key id producer scope, (key, .accepted id producer scope) ∈ w'.replies →
      ∃ event ∈ w'.stream.valkey.channel, event.id = id ∧ eventKey event = key)
    (hnumeric : ∀ event ∈ w'.stream.begun, isNumericId event.id = true) : Kept w' := by
  refine ⟨?_, ?_, ?_, htaken.nodup_iff.mpr h.nodup, ?_, hreplied, hpublished, hnumeric⟩
  · rw [hfallback]
    exact h.mirrored
  · intro key hkey
    rw [hclaims]
    exact h.held key (htaken.mem_iff.mp hkey)
  · intro stored entry hentry
    rw [hclaims] at hentry
    obtain ⟨key, hkey, heq⟩ := h.known stored entry hentry
    exact ⟨key, htaken.mem_iff.mpr hkey, heq⟩
  · intro key id producer hreply
    obtain ⟨huuid, hkey⟩ := h.duplicates key id producer (hduplicates key id producer hreply)
    exact ⟨huuid, htaken.mem_iff.mpr hkey⟩

theorem Kept.take (h : Kept w) (index now : Nat) : Kept (w.step (.take index now)) := by
  cases hget : w.claimed[index]? with
  | none =>
    have hsame : w.step (.take index now) = w := by simp only [Ingest.step, hget]
    rw [hsame]
    exact h
  | some claimed =>
    obtain ⟨i, ingest⟩ := claimed
    have hstep : w.step (.take index now) =
        { w with claimed := w.claimed.eraseIdx index, stream := w.stream.push (.take i ingest now) } := by
      simp only [Ingest.step, hget]
    rw [hstep]
    refine h.move rfl rfl ?_ ?_ ?_ ?_ ?_
    · have hperm := (eraseIdx_concat_perm hget).map fun c : Nat × LiveEventIngest => dedupOf c.2.toEnvelope
      simp only [Ingest.taken, begun_take, List.map_append, List.map_cons, List.map_nil, eventKey] at hperm ⊢
      refine List.Perm.trans ?_ (hperm.append_right _)
      rw [List.append_assoc]
      exact List.Perm.append_left _ (List.perm_append_singleton _ _)
    · exact fun _ _ _ hreply => hreply
    · rw [channel_take]
      exact h.replied
    · rw [channel_take]
      exact h.published
    · intro event hevent
      rw [begun_take, List.mem_append, List.mem_singleton] at hevent
      cases hevent with
      | inl hold => exact h.numeric event hold
      | inr hnew =>
        rw [hnew]
        exact isNumericId_natText _

theorem Kept.finish (h : Kept w) (index : Nat) : Kept (w.step (.finish index)) := by
  cases hget : w.stream.inFlight[index]? with
  | none =>
    have hsame : w.step (.finish index) = w := by simp only [Ingest.step, hget]
    rw [hsame]
    exact h
  | some flying =>
    obtain ⟨i, event⟩ := flying
    have hstep : w.step (.finish index) =
        { w with
          stream := w.stream.push (.pipeline index)
          replies := w.replies ++ [(eventKey event, acceptedReply event)] } := by
      simp only [Ingest.step, hget]
    have hbegun := begun_pipeline_perm hget
    rw [hstep]
    refine h.move rfl rfl ?_ ?_ ?_ ?_ ?_
    · exact List.Perm.append_left _ (hbegun.map eventKey)
    · intro key id producer hreply
      rw [List.mem_append, List.mem_singleton] at hreply
      cases hreply with
      | inl hold => exact hold
      | inr hnew => cases hnew
    · intro e he
      rw [channel_pipeline hget, List.mem_append, List.mem_singleton] at he
      rw [List.mem_append, List.mem_singleton]
      cases he with
      | inl hold => exact .inl (h.replied e hold)
      | inr hnew => exact .inr (by rw [hnew])
    · intro key id producer scope hreply
      rw [channel_pipeline hget]
      rw [List.mem_append, List.mem_singleton] at hreply
      cases hreply with
      | inl hold =>
        obtain ⟨e, he, heq⟩ := h.published key id producer scope hold
        exact ⟨e, List.mem_append_left _ he, heq⟩
      | inr hnew =>
        cases hnew
        exact ⟨event, by simp, rfl, rfl⟩
    · exact fun e he => h.numeric e (hbegun.mem_iff.mp he)

theorem Kept.step (h : Kept w) {step : IngestStep} (hhealthy : Healthy w step) : Kept (w.step step) := by
  cases step with
  | arrive i s r eventId io => exact h.arrive hhealthy
  | take index now => exact h.take index now
  | finish index => exact h.finish index

end

theorem kept_of_healthy {steps : List IngestStep} (h : Allowed Ingest.step Healthy Ingest.start steps) :
    Kept (Ingest.run steps) :=
  h.invariant (fun _ _ hw hstep => hw.step hstep) Kept.start

/-! ### Duplicates -/

/-- The request of some reply was a duplicate. -/
def Ingest.AnsweredDuplicate (w : Ingest) : Prop := ∃ key id producer, (key, .duplicate id producer) ∈ w.replies

/-- A step answers a duplicate exactly where the request is not fresh. -/
theorem Kept.answeredDuplicate_step {w : Ingest} (h : Kept w) {step : IngestStep} (hhealthy : Healthy w step) :
    (w.step step).AnsweredDuplicate ↔ w.AnsweredDuplicate ∨ ¬ Fresh w step := by
  cases step with
  | arrive i s r eventId io =>
    obtain ⟨refusal, hvalidate, hstep⟩ | ⟨auth, envelope, hvalidate, hcase⟩ := h.arrive_cases hhealthy
    · rw [hstep]
      simp [Fresh, hvalidate]
    obtain ⟨id, hmem, hstep⟩ | ⟨hnew, fallback, now, -, hstep⟩ := hcase
    · have hstale : ¬ Fresh w (.arrive i s r eventId io) := fun hfresh => hfresh auth envelope hvalidate hmem
      have hanswered : (w.step (.arrive i s r eventId io)).AnsweredDuplicate := by
        rw [hstep]
        exact ⟨_, _, _, List.mem_append_right _ List.mem_cons_self⟩
      simp [hstale, hanswered]
    · have hfresh : Fresh w (.arrive i s r eventId io) := by
        intro auth' envelope' hvalidate'
        rw [hvalidate] at hvalidate'
        cases hvalidate'
        exact hnew
      rw [hstep]
      simp [Ingest.AnsweredDuplicate, hfresh]
  | take index now =>
    simp only [Fresh, not_true, or_false, Ingest.step]
    split <;> rfl
  | finish index =>
    simp only [Fresh, not_true, or_false, Ingest.step]
    split
    · rfl
    · simp [Ingest.AnsweredDuplicate, acceptedReply]

/-- A run has answered a duplicate exactly where one of its requests was not fresh. -/
theorem answeredDuplicate_iff {steps : List IngestStep} (h : Allowed Ingest.step Healthy Ingest.start steps) :
    (Ingest.run steps).AnsweredDuplicate ↔ ¬ Allowed Ingest.step Fresh Ingest.start steps := by
  induction steps using List.reverseRecOn with
  | nil => simp [Ingest.run, Ingest.AnsweredDuplicate, Ingest.start, Allowed]
  | append_singleton steps step ih =>
    obtain ⟨hsteps, hstep⟩ := allowed_concat_iff.mp h
    rw [allowed_concat_iff, not_and_or, ← ih hsteps]
    have hrun : Ingest.run (steps ++ [step]) = (Ingest.run steps).step step := by simp [Ingest.run]
    rw [hrun]
    exact (kept_of_healthy hsteps).answeredDuplicate_step hstep

/-- While Valkey answers and no key expires: the duplicates of a run whose requests are all fresh
    report the original, there being none; and once every claimed request is answered, the run
    reports the original only if its requests were fresh. -/
theorem ingest_reports_original_iff {steps : List IngestStep} (h : Allowed Ingest.step Healthy Ingest.start steps) :
    (Allowed Ingest.step Fresh Ingest.start steps → ReportsOriginal (Ingest.run steps)) ∧
      ((Ingest.run steps).claimed = [] → (Ingest.run steps).stream.inFlight = [] →
        (ReportsOriginal (Ingest.run steps) ↔ Allowed Ingest.step Fresh Ingest.start steps)) := by
  have hkept := kept_of_healthy h
  have hfresh : Allowed Ingest.step Fresh Ingest.start steps → ReportsOriginal (Ingest.run steps) := by
    intro hfresh
    refine ⟨fun key id producer scope id' producer' _ hduplicate => ?_, hkept.published, ?_⟩
    · exact absurd hfresh ((answeredDuplicate_iff h).mp ⟨key, id', producer', hduplicate⟩)
    · exact (List.nodup_append.mp hkept.nodup).2.1
  refine ⟨hfresh, fun hclaimed hflight => ⟨fun hreports => ?_, hfresh⟩⟩
  by_contra hstale
  obtain ⟨key, id, producer, hduplicate⟩ := (answeredDuplicate_iff h).mpr hstale
  obtain ⟨huuid, htaken⟩ := hkept.duplicates key id producer hduplicate
  -- the request that claimed the key has been answered with the number of its event
  have hpublished : key ∈ (Ingest.run steps).stream.valkey.channel.map eventKey := by
    simpa [Ingest.taken, World.begun, hclaimed, hflight] using htaken
  obtain ⟨event, hevent, rfl⟩ := List.mem_map.mp hpublished
  have hsame := hreports.same _ _ _ _ id producer (hkept.replied event hevent) hduplicate
  have hnumeric := hkept.numeric event (List.mem_append_left _ hevent)
  rw [← hsame, isNumericId_of_isUuid huuid] at hnumeric
  cases hnumeric

/-- One request, all its steps. -/
def sampleSteps : List IngestStep :=
  [.arrive 0 sampleServer (sampleRequest none) sampleUuid sampleIo.claim, .take 0 0, .finish 0]

theorem sampleSteps_healthy : Allowed Ingest.step Healthy Ingest.start sampleSteps := by
  refine ⟨⟨rfl, rfl, ?_⟩, trivial, trivial, trivial⟩
  intro key value expiresAt hget
  cases hget

/-- The body of another sync. -/
def secondBody : jslib.Json :=
  .obj [("type".toList, .str "sync".toList), ("severity".toList, .str "info".toList), ("title".toList, .str "synced".toList),
    ("source".toList, .str "argocd".toList), ("idempotency_key".toList, .str "rev-2".toList)]

def secondServer : Server :=
  { sampleServer with parseJson := fun text => if text = stringify secondBody then some secondBody else none }

def secondRequest : Request := { sampleRequest none with body := some (stringify secondBody) }

def firstKey : LiveSource × DedupKey := (.argocd, .idempotencyKey "rev-1".toList)

def secondKey : LiveSource × DedupKey := (.argocd, .idempotencyKey "rev-2".toList)

def firstArrives : IngestStep := .arrive 0 sampleServer (sampleRequest none) sampleUuid sampleIo.claim

/-- Two requests to two processes, of which the second is answered first. -/
def crossedSteps : List IngestStep :=
  [firstArrives, .arrive 1 secondServer secondRequest sampleUuid sampleIo.claim, .take 1 0, .take 0 0, .finish 0, .finish 0]

theorem firstArrives_entries : ((Ingest.start).step firstArrives).claims.data.entries =
    [(storeKey firstKey, String.ofList sampleUuid.val, 86400000)] := by
  decide +kernel

theorem crossedSteps_healthy : Allowed Ingest.step Healthy Ingest.start crossedSteps := by
  refine ⟨⟨rfl, rfl, fun key value expiresAt hget => ?_⟩, ⟨rfl, rfl, fun key value expiresAt hget => ?_⟩, trivial, trivial, trivial,
    trivial, trivial⟩
  · cases hget
  · have hmem := JsMap.mem_of_get hget
    rw [firstArrives_entries, List.mem_singleton] at hmem
    cases hmem
    decide

theorem crossedSteps_fresh : Allowed Ingest.step Fresh Ingest.start crossedSteps := by
  refine ⟨fun auth envelope _ => List.not_mem_nil, fun auth envelope hvalidate => ?_, trivial, trivial, trivial, trivial, trivial⟩
  have hkey : (validate secondServer secondRequest).toOption.map (fun checked => dedupOf checked.2) = some secondKey := by
    decide +kernel
  have htaken : ((Ingest.start).step firstArrives).taken = [firstKey] := by decide +kernel
  rw [hvalidate] at hkey
  have hdedup : dedupOf envelope = secondKey := Option.some.inj hkey
  rw [htaken, hdedup]
  decide

theorem ingest_reports_original_crossed :
    (Ingest.run crossedSteps).replies =
        [(secondKey, .accepted "1".toList "argocd".toList "producer:argocd".toList),
          (firstKey, .accepted "2".toList "argocd".toList "producer:argocd".toList)] ∧
      ReportsOriginal (Ingest.run crossedSteps) :=
  ⟨by decide +kernel, (ingest_reports_original_iff crossedSteps_healthy).1 crossedSteps_fresh⟩

/-- The same request again is answered with the UUID of the claim, which no event has. -/
theorem duplicate_reports_claim :
    Allowed Ingest.step Healthy Ingest.start
        (sampleSteps ++ [.arrive 0 sampleServer (sampleRequest none) sampleUuid sampleIo.claim]) ∧
      ¬ ReportsOriginal
        (Ingest.run (sampleSteps ++ [.arrive 0 sampleServer (sampleRequest none) sampleUuid sampleIo.claim])) := by
  constructor
  · apply allowed_concat_iff.mpr
    refine ⟨sampleSteps_healthy, rfl, rfl, ?_⟩
    intro key value expiresAt hget
    have hentries : (sampleSteps.foldl Ingest.step Ingest.start).claims.data.entries =
        [(storeKey (.argocd, .idempotencyKey "rev-1".toList), String.ofList sampleUuid.val, 86400000)] := by
      decide +kernel
    have hmem := JsMap.mem_of_get hget
    rw [hentries, List.mem_singleton] at hmem
    cases hmem
    decide
  · intro h
    have hreplies :
        (Ingest.run (sampleSteps ++ [.arrive 0 sampleServer (sampleRequest none) sampleUuid sampleIo.claim])).replies =
          [((.argocd, .idempotencyKey "rev-1".toList), .accepted "1".toList "argocd".toList "producer:argocd".toList),
            ((.argocd, .idempotencyKey "rev-1".toList), .duplicate sampleUuid.val "argocd".toList)] := by
      decide +kernel
    have hsame := h.same (.argocd, .idempotencyKey "rev-1".toList) "1".toList _ _ sampleUuid.val _
      (by rw [hreplies]; exact List.mem_cons_self) (by rw [hreplies]; exact List.mem_cons_of_mem _ List.mem_cons_self)
    exact absurd hsame (by decide +kernel)

end narwhal.portal.event_ingest
