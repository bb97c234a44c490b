import Narwhal.Lib.Run
import Narwhal.Portal.Idempotency

open jslib pylib

namespace narwhal.portal.idempotency

/-! ### What the calls made so far say of a key -/

/-- The call set its key to its value: a `fulfill`, or a claim that returned `null`. -/
def Event.writes (e : Event) : Bool :=
  match e.op with
  | .claim _ => e.reply.isNone
  | .fulfill _ => true

/-- The call set its key in Valkey too. -/
def Event.reaches (e : Event) : Bool := e.writes && e.op.call.io.set_ok

/-- The call claimed this key. -/
def Event.claims (key : String) (e : Event) : Bool :=
  match e.op with
  | .claim call => decide (call.key = key) && e.reply.isNone
  | .fulfill _ => false

/-- The value of the most recent claim or fulfill of the key that passes the test. -/
def lastWrite (p : Event → Bool) (log : List Event) (key : String) : Option String :=
  (log.find? fun e => p e && decide (e.op.call.key = key)).map fun e => e.op.call.value

/-- The value of the most recent successful claim or fulfill of the key. -/
def latest (log : List Event) (key : String) : Option String := lastWrite Event.writes log key

/-- The value of the most recent one that reached Valkey. -/
def reached (log : List Event) (key : String) : Option String := lastWrite Event.reaches log key

theorem lastWrite_cons (p : Event → Bool) (e : Event) (log : List Event) (key : String) :
    lastWrite p (e :: log) key =
      if p e = true ∧ e.op.call.key = key then some e.op.call.value else lastWrite p log key := by
  unfold lastWrite
  rw [List.find?_cons]
  by_cases h : p e = true ∧ e.op.call.key = key
  · simp [h.1, h.2]
  · have hfalse : (p e && decide (e.op.call.key = key)) = false := by
      simpa [Bool.and_eq_false_iff, ← not_and_or] using h
    simp [hfalse, h]

theorem latest_of_reached {log : List Event} {key : String} (h : reached log key ≠ none) : latest log key ≠ none := by
  induction log with
  | nil => exact absurd rfl h
  | cons e log ih =>
    unfold reached latest at *
    rw [lastWrite_cons] at h ⊢
    by_cases hkey : e.op.call.key = key
    · by_cases hwrites : e.writes = true
      · simp [hwrites, hkey]
      · have hreaches : ¬ e.reaches = true := by simp [Event.reaches, hwrites]
        rw [if_neg fun h' => hreaches h'.1] at h
        rw [if_neg fun h' => hwrites h'.1]
        exact ih h
    · rw [if_neg fun h' => hkey h'.2] at h ⊢
      exact ih h

theorem mem_keys_of_latest {log : List Event} {key : String} (h : latest log key ≠ none) :
    key ∈ log.map fun e => e.op.call.key := by
  induction log with
  | nil => exact absurd rfl h
  | cons e log ih =>
    rw [latest, lastWrite_cons] at h
    by_cases hkey : e.op.call.key = key
    · simp [hkey]
    · rw [if_neg fun h' => hkey h'.2] at h
      exact List.mem_cons_of_mem _ (ih h)

/-- A key that was claimed has a value. -/
theorem latest_of_claims {log : List Event} {key : String} {e : Event} (hmem : e ∈ log) (h : e.claims key = true) :
    latest log key ≠ none := by
  induction log with
  | nil => cases hmem
  | cons first log ih =>
    rw [latest, lastWrite_cons]
    rcases List.mem_cons.mp hmem with rfl | hrest
    · cases hop : e.op with
      | claim call =>
        simp only [Event.claims, hop, Bool.and_eq_true, decide_eq_true_eq] at h
        simp [Event.writes, hop, Op.call, h.1, h.2]
      | fulfill call => simp [Event.claims, hop] at h
    · split
      · simp
      · exact ih hrest

/-! ### What the steps must meet -/

/-- When the entries the call makes expire, at the earliest. -/
def Call.expiresAt (call : Call) : Nat := min call.io.sent call.io.now + call.ttlSeconds * 1000

/-- The call comes before any earlier call's entry expires. -/
def Unexpired (log : List Event) (call : Call) : Prop :=
  ∀ e ∈ log, call.io.peeked < e.op.call.expiresAt ∧ call.io.sent < e.op.call.expiresAt ∧
    call.io.now < e.op.call.expiresAt

/-- No entry has expired, fewer keys than the fallback holds are in use, and a fulfill that
    does not reach Valkey is of a key Valkey holds. -/
structure Fits (s : World) (op : Op) : Prop where
  unexpired : Unexpired s.log op.call
  bounded : (op.call.key :: s.log.map fun e => e.op.call.key).dedup.length < s.store.inMemoryFallback.maxEntries
  known : ∀ call, op = .fulfill call → call.io.set_ok = false → s.store.valkey.get call.key call.io.sent ≠ none

/-- The two stores as the calls made so far left them. -/
structure Mirrors (s : World) : Prop where
  fallback : ∀ key, (s.store.inMemoryFallback.map.get key).map FallbackEntry.value = latest s.log key
  degraded : ∀ key entry, s.store.inMemoryFallback.map.get key = some entry →
    (entry.degraded = true ↔ reached s.log key = none)
  valkey : ∀ key, (s.store.valkey.data.get key).map Prod.fst = reached s.log key
  fallback_expiry : ∀ key entry, s.store.inMemoryFallback.map.get key = some entry →
    ∃ e ∈ s.log, e.op.call.expiresAt ≤ entry.expiresAt
  valkey_expiry : ∀ key value expiresAt, s.store.valkey.data.get key = some (value, expiresAt) →
    ∃ e ∈ s.log, e.op.call.expiresAt ≤ expiresAt

theorem Mirrors.start (maxEntries : Nat) : Mirrors (.start maxEntries) where
  fallback _ := rfl
  degraded _ _ h := by cases h
  valkey _ := rfl
  fallback_expiry _ _ h := by cases h
  valkey_expiry _ _ _ h := by cases h

section

variable {s : World} {op : Op} {call : Call}

/-- While nothing has expired and there is room, a bounded write is a plain one. -/
theorem Mirrors.setBounded (h : Mirrors s) (hfits : Fits s op) (value : String) (ttlSeconds : Nat) (degraded : Bool) :
    s.store.inMemoryFallback.setBounded op.call.key value ttlSeconds op.call.io.now degraded =
      { s.store.inMemoryFallback with
        map := s.store.inMemoryFallback.map.set op.call.key
          ⟨value, op.call.io.now + ttlSeconds * 1000, degraded⟩ } := by
  have hsweep : s.store.inMemoryFallback.sweep op.call.io.now = s.store.inMemoryFallback := by
    unfold InMemoryIdempotencyStore.sweep
    rw [JsMap.filter_eq_self]
    rintro ⟨key, entry⟩ hmem
    obtain ⟨e, he, hle⟩ := h.fallback_expiry key entry (JsMap.get_of_mem hmem)
    have hnow := (hfits.unexpired e he).2.2
    simp only [decide_not, Bool.not_eq_true', decide_eq_false_iff_not]
    omega
  have hroom : s.store.inMemoryFallback.map.size < s.store.inMemoryFallback.maxEntries := by
    refine Nat.lt_of_le_of_lt (JsMap.size_le_of_keys fun key entry hget => ?_) hfits.bounded
    have hlatest := h.fallback key
    rw [hget] at hlatest
    exact List.mem_cons_of_mem _ (mem_keys_of_latest (by rw [← hlatest]; simp))
  unfold InMemoryIdempotencyStore.setBounded
  simp only [hsweep, if_neg (show ¬ (_ ∧ _) from fun hfull => absurd hfull.2 (Nat.not_le.mpr hroom))]

/-- A degraded claim is found exactly where Valkey has not got the key. -/
theorem Mirrors.peekDegraded (h : Mirrors s) (hfits : Fits s op) :
    s.store.inMemoryFallback.peekDegraded op.call.key op.call.io.peeked =
      match reached s.log op.call.key with
      | none => latest s.log op.call.key
      | some _ => none := by
  have hvalue := h.fallback op.call.key
  unfold InMemoryIdempotencyStore.peekDegraded
  cases hget : s.store.inMemoryFallback.map.get op.call.key with
  | none =>
    rw [hget] at hvalue
    rw [← hvalue]
    cases reached s.log op.call.key <;> rfl
  | some entry =>
    rw [hget] at hvalue
    obtain ⟨e, he, hle⟩ := h.fallback_expiry _ _ hget
    have hpeeked := (hfits.unexpired e he).1
    have hlt : op.call.io.peeked < entry.expiresAt := by omega
    have hdegraded := h.degraded _ _ hget
    rw [← hvalue]
    cases hreached : reached s.log op.call.key with
    | none => simp [hdegraded.mpr hreached, hlt]
    | some r =>
      have hmirror : entry.degraded = false := by
        rw [Bool.eq_false_iff]
        intro hd
        rw [hdegraded.mp hd] at hreached
        cases hreached
      simp [hmirror]

/-- Valkey answers with what has reached it. -/
theorem Mirrors.valkey_get (h : Mirrors s) {now : Nat} (hnow : ∀ e ∈ s.log, now < e.op.call.expiresAt)
    (key : String) : s.store.valkey.get key now = reached s.log key := by
  have hvalue := h.valkey key
  unfold Valkey.get
  cases hget : s.store.valkey.data.get key with
  | none =>
    rw [hget] at hvalue
    exact hvalue
  | some entry =>
    obtain ⟨value, expiresAt⟩ := entry
    rw [hget] at hvalue
    obtain ⟨e, he, hle⟩ := h.valkey_expiry _ _ _ hget
    have hlt : now < expiresAt := Nat.lt_of_lt_of_le (hnow e he) hle
    simpa [hlt] using hvalue

/-- The fallback answers with the latest value, or takes the claim. -/
theorem Mirrors.claimFallback (h : Mirrors s) (hfits : Fits s op) (value : String) (ttlSeconds : Nat) :
    s.store.claimFallback op.call.key value ttlSeconds op.call.io.now =
      match latest s.log op.call.key with
      | some v => (some v, s.store)
      | none => (none,
        { s.store with
          inMemoryFallback := s.store.inMemoryFallback.setBounded op.call.key value ttlSeconds op.call.io.now true }) := by
  have hvalue := h.fallback op.call.key
  unfold ValkeyIdempotencyStore.claimFallback InMemoryIdempotencyStore.claim
  cases hget : s.store.inMemoryFallback.map.get op.call.key with
  | none =>
    rw [hget] at hvalue
    rw [← hvalue]
    rfl
  | some entry =>
    rw [hget] at hvalue
    obtain ⟨e, he, hle⟩ := h.fallback_expiry _ _ hget
    have hnow := (hfits.unexpired e he).2.2
    have hlt : op.call.io.now < entry.expiresAt := by omega
    rw [← hvalue]
    simp only [hlt, if_true, Option.map_some]

/-- The stores after a call that sets its key. -/
def ValkeyIdempotencyStore.write (store : ValkeyIdempotencyStore) (call : Call) (degraded : Bool) :
    ValkeyIdempotencyStore where
  inMemoryFallback :=
    { store.inMemoryFallback with
      map := store.inMemoryFallback.map.set call.key
        ⟨call.value, call.io.now + call.ttlSeconds * 1000, degraded⟩ }
  valkey := if call.io.set_ok then store.valkey.set call.key call.value call.ttlSeconds call.io.sent else store.valkey

/-- The reply a claim gets: from Valkey, where both commands succeed and the key has reached
    it, and from the fallback otherwise; `null` for the first claim. -/
def expectedReply (log : List Event) (call : Call) : Option String :=
  (if call.io.set_ok && call.io.get_ok then reached log call.key else none).or (latest log call.key)

/-- Everything a claim can do. -/
theorem Mirrors.claim (h : Mirrors s) (hfits : Fits s (.claim call)) :
    (latest s.log call.key ≠ none ∧ expectedReply s.log call ≠ none ∧
      s.store.claim call.key call.value call.ttlSeconds call.io = (expectedReply s.log call, s.store)) ∨
    (latest s.log call.key = none ∧ reached s.log call.key = none ∧
      s.store.claim call.key call.value call.ttlSeconds call.io = (none, s.store.write call (!call.io.set_ok))) := by
  have hpeek := h.peekDegraded hfits
  have hset := h.valkey_get (fun e he => (hfits.unexpired e he).2.1) call.key
  have hgot := h.valkey_get (fun e he => (hfits.unexpired e he).2.2) call.key
  have hfallback := h.claimFallback hfits call.value call.ttlSeconds
  have hbounded := h.setBounded hfits call.value call.ttlSeconds
  simp only [Op.call] at hpeek hset hgot hfallback hbounded
  unfold ValkeyIdempotencyStore.claim expectedReply
  rw [hpeek]
  cases hreached : reached s.log call.key with
  | none =>
    cases hlatest : latest s.log call.key with
    | some v => simp
    | none =>
      refine .inr ⟨rfl, rfl, ?_⟩
      rw [hreached] at hset
      rw [hlatest] at hfallback
      cases hok : call.io.set_ok with
      | false => simp [hfallback, hbounded, ValkeyIdempotencyStore.write, hok]
      | true => simp [hset, InMemoryIdempotencyStore.fulfill, hbounded, ValkeyIdempotencyStore.write, hok]
  | some r =>
    obtain ⟨v, hlatest⟩ := Option.ne_none_iff_exists'.mp (latest_of_reached (by rw [hreached]; simp))
    rw [hreached] at hset hgot
    rw [hlatest] at hfallback ⊢
    refine .inl ⟨by simp, ?_, ?_⟩
    · split <;> simp
    · cases hok : call.io.set_ok with
      | false => simp [hfallback]
      | true =>
        cases hget : call.io.get_ok with
        | false => simp [hset, hfallback]
        | true => simp [hset, hgot]

/-- A call that sets its key keeps the stores in line with the calls made, where the fallback
    entry is marked degraded exactly if the key has not reached Valkey. -/
theorem Mirrors.write (h : Mirrors s) {e : Event} {degraded : Bool} (hwrites : e.writes = true)
    (hdegraded : degraded = true ↔ e.op.call.io.set_ok = false ∧ reached s.log e.op.call.key = none) :
    Mirrors ⟨s.store.write e.op.call degraded, e :: s.log⟩ := by
  have hlatest : ∀ key, latest (e :: s.log) key =
      if key = e.op.call.key then some e.op.call.value else latest s.log key := by
    intro key
    rw [latest, lastWrite_cons]
    by_cases hkey : e.op.call.key = key
    · simp [hwrites, hkey]
    · simp [hkey, Ne.symm hkey, latest]
  have hreached : ∀ key, reached (e :: s.log) key =
      if e.op.call.io.set_ok = true ∧ key = e.op.call.key then some e.op.call.value else reached s.log key := by
    intro key
    rw [reached, lastWrite_cons]
    by_cases hkey : e.op.call.key = key
    · simp [Event.reaches, hwrites, hkey, reached]
    · simp [hkey, Ne.symm hkey, reached]
  have hearliest : e.op.call.expiresAt ≤ e.op.call.io.now + e.op.call.ttlSeconds * 1000 ∧
      e.op.call.expiresAt ≤ e.op.call.io.sent + e.op.call.ttlSeconds * 1000 := by
    unfold Call.expiresAt
    omega
  refine ⟨fun key => ?_, fun key entry hget => ?_, fun key => ?_, fun key entry hget => ?_,
    fun key value expiresAt hget => ?_⟩
  · simp only [ValkeyIdempotencyStore.write, JsMap.get_set, hlatest]
    split
    · rfl
    · exact h.fallback key
  · simp only [ValkeyIdempotencyStore.write, JsMap.get_set] at hget
    simp only [hreached]
    by_cases hkey : key = e.op.call.key
    · subst hkey
      rw [if_pos rfl] at hget
      cases hget
      rw [hdegraded]
      cases e.op.call.io.set_ok <;> simp
    · rw [if_neg hkey] at hget
      simpa [hkey] using h.degraded key entry hget
  · simp only [ValkeyIdempotencyStore.write, hreached]
    cases e.op.call.io.set_ok with
    | false => simpa using h.valkey key
    | true =>
      simp only [if_true, Valkey.set, JsMap.get_set, true_and]
      split
      · rfl
      · exact h.valkey key
  · simp only [ValkeyIdempotencyStore.write, JsMap.get_set] at hget
    split at hget
    · cases hget
      exact ⟨e, List.mem_cons_self, hearliest.1⟩
    · obtain ⟨e', he', hle⟩ := h.fallback_expiry key entry hget
      exact ⟨e', List.mem_cons_of_mem _ he', hle⟩
  · have hold : s.store.valkey.data.get key = some (value, expiresAt) →
        ∃ e' ∈ e :: s.log, e'.op.call.expiresAt ≤ expiresAt := fun hget => by
      obtain ⟨e', he', hle⟩ := h.valkey_expiry key value expiresAt hget
      exact ⟨e', List.mem_cons_of_mem _ he', hle⟩
    simp only [ValkeyIdempotencyStore.write] at hget
    split at hget
    · simp only [Valkey.set, JsMap.get_set] at hget
      split at hget
      · cases hget
        exact ⟨e, List.mem_cons_self, hearliest.2⟩
      · exact hold hget
    · exact hold hget

/-- A call that leaves the stores alone keeps them in line. -/
theorem Mirrors.same (h : Mirrors s) {e : Event} (hwrites : e.writes = false) : Mirrors ⟨s.store, e :: s.log⟩ := by
  have hlatest : ∀ key, latest (e :: s.log) key = latest s.log key := fun key => by
    rw [latest, lastWrite_cons, if_neg (by simp [hwrites]), latest]
  have hreached : ∀ key, reached (e :: s.log) key = reached s.log key := fun key => by
    rw [reached, lastWrite_cons, if_neg (by simp [Event.reaches, hwrites]), reached]
  refine ⟨fun key => ?_, fun key entry hget => ?_, fun key => ?_, fun key entry hget => ?_,
    fun key value expiresAt hget => ?_⟩
  · simp only [hlatest]
    exact h.fallback key
  · simp only [hreached]
    exact h.degraded key entry hget
  · simp only [hreached]
    exact h.valkey key
  · obtain ⟨e', he', hle⟩ := h.fallback_expiry key entry hget
    exact ⟨e', List.mem_cons_of_mem _ he', hle⟩
  · obtain ⟨e', he', hle⟩ := h.valkey_expiry key value expiresAt hget
    exact ⟨e', List.mem_cons_of_mem _ he', hle⟩

/-- One fitting call keeps the stores in line with the calls made. -/
theorem Mirrors.step (h : Mirrors s) (hfits : Fits s op) : Mirrors (s.step op) := by
  cases op with
  | claim call =>
    rcases h.claim hfits with ⟨_, hreply, hclaim⟩ | ⟨_, hreached, hclaim⟩
    · simp only [World.step, hclaim]
      exact h.same (by simpa [Event.writes, Option.isSome_iff_ne_none] using hreply)
    · simp only [World.step, hclaim]
      refine h.write (e := ⟨.claim call, none⟩) rfl ?_
      simp [Op.call, hreached]
  | fulfill call =>
    have hbounded := h.setBounded hfits call.value call.ttlSeconds false
    have hstore : s.store.fulfill call.key call.value call.ttlSeconds call.io = s.store.write call false := by
      simp only [Op.call] at hbounded
      simp [ValkeyIdempotencyStore.fulfill, InMemoryIdempotencyStore.fulfill, hbounded, ValkeyIdempotencyStore.write]
    simp only [World.step, hstore]
    refine h.write (e := ⟨.fulfill call, none⟩) rfl ?_
    simp only [Bool.false_eq_true, Op.call, false_iff, not_and]
    intro hfailed hnone
    have hget := h.valkey_get (fun e he => (hfits.unexpired e he).2.1) call.key
    exact hfits.known call rfl hfailed (hget.trans hnone)

end

/-! ### Runs -/

/-- No key is claimed twice. -/
def ClaimedOnce (log : List Event) : Prop := ∀ key, (log.filter (Event.claims key)).length ≤ 1

theorem ClaimedOnce.step {s : World} {op : Op} (h : ClaimedOnce s.log) (hmirrors : Mirrors s) (hfits : Fits s op) :
    ClaimedOnce (s.step op).log := by
  intro key
  have hcons : ∀ e : Event, e.claims key = false →
      ((e :: s.log).filter (Event.claims key)).length ≤ 1 := fun e he => by
    rw [List.filter_cons, if_neg (by simp [he])]
    exact h key
  cases op with
  | fulfill call => exact hcons _ rfl
  | claim call =>
    rcases hmirrors.claim hfits with ⟨_, hreply, hclaim⟩ | ⟨hlatest, _, hclaim⟩
    · simp only [World.step, hclaim]
      exact hcons _ (by simp [Event.claims, Option.isNone_eq_false_iff, Option.isSome_iff_ne_none, hreply])
    · simp only [World.step, hclaim]
      by_cases hkey : call.key = key
      · -- a claim that gets the key finds no earlier claim of it
        have hnone : s.log.filter (Event.claims key) = [] := by
          rw [List.filter_eq_nil_iff]
          intro e he hclaims
          exact latest_of_claims he hclaims (hkey ▸ hlatest)
        rw [List.filter_cons, hnone]
        split <;> simp
      · exact hcons _ (by simp [Event.claims, hkey])

/-- Across outages of Valkey, in every run that fits, each key is claimed at most once, and
    every claim gets the latest value known to the store that answers it. -/
theorem claim_at_most_once {maxEntries : Nat} {ops : List Op} (hrun : Allowed World.step Fits (.start maxEntries) ops) :
    (∀ key, (((World.start maxEntries).run ops).log.filter (Event.claims key)).length ≤ 1) ∧
      ∀ call, Fits ((World.start maxEntries).run ops) (.claim call) →
        (((World.start maxEntries).run ops).store.claim call.key call.value call.ttlSeconds call.io).1 =
          expectedReply ((World.start maxEntries).run ops).log call := by
  have hinv := hrun.invariant (I := fun s => Mirrors s ∧ ClaimedOnce s.log)
    (fun s op hs hop => ⟨hs.1.step hop, hs.2.step hs.1 hop⟩)
    ⟨Mirrors.start maxEntries, fun key => by simp [World.start]⟩
  refine ⟨hinv.2, fun call hfits => ?_⟩
  rcases hinv.1.claim hfits with ⟨_, _, hclaim⟩ | ⟨hlatest, hreached, hclaim⟩
  · rw [World.run, hclaim]
  · rw [World.run, hclaim, expectedReply, hlatest, hreached]
    simp

/-- Both commands of a call at this time succeed. -/
def up (now : Nat) : Io := ⟨now, now, now, true, true⟩

/-- Valkey is out of reach during the call. -/
def down (now : Nat) : Io := ⟨now, now, now, false, false⟩

theorem claim_at_most_once_redelivery :
    ((((World.start 5000).run [.claim ⟨"k", "event-1", 3600, down 0⟩]).store.claim "k" "event-2" 3600 (up 1)).1 =
      some "event-1") := by
  have hfirst : Fits (.start 5000) (.claim ⟨"k", "event-1", 3600, down 0⟩) :=
    ⟨fun e he => (by cases he), by decide, fun call hcall => (by cases hcall)⟩
  have hsecond : Fits ((World.start 5000).run [.claim ⟨"k", "event-1", 3600, down 0⟩])
      (.claim ⟨"k", "event-2", 3600, up 1⟩) :=
    ⟨by unfold Unexpired; decide, by decide, fun call hcall => by cases hcall⟩
  have hrun : Allowed World.step Fits (.start 5000) [.claim ⟨"k", "event-1", 3600, down 0⟩] := ⟨hfirst, trivial⟩
  exact (claim_at_most_once hrun).2 ⟨"k", "event-2", 3600, up 1⟩ hsecond

/-- A claim and a fulfill that does not reach Valkey. -/
def failedFulfill : World :=
  (World.start 5000).run [.claim ⟨"k", "pending", 3600, up 0⟩, .fulfill ⟨"k", "silence-1", 3600, down 1⟩]

/-- The next claim that reaches Valkey does not get the fulfilled value. -/
theorem failed_fulfill_forgotten :
    failedFulfill.log.map Event.reply = [none, none] ∧ latest failedFulfill.log "k" = some "silence-1" ∧
      (failedFulfill.store.claim "k" "retry" 3600 (up 2)).1 = some "pending" := by
  decide

end narwhal.portal.idempotency
