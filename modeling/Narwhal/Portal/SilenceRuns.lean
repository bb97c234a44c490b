import Narwhal.Lib.Run
import Narwhal.Portal.Silence

open jslib narwhal.portal.idempotency
open pylib (Allowed)

namespace narwhal.portal.idempotency

/-- Every value that the store holds is what its key may be bound to. -/
structure ValkeyIdempotencyStore.Holds (P : String → String → Prop) (store : ValkeyIdempotencyStore) : Prop where
  fallback : ∀ key entry, store.inMemoryFallback.map.get key = some entry → P key entry.value
  valkey : ∀ key entry, store.valkey.data.get key = some entry → P key entry.1

/-- What the fallback holds after a write is what was written, or was there before. -/
theorem InMemoryIdempotencyStore.get_setBounded_cases {s : InMemoryIdempotencyStore} {key k value : String}
    {ttlSeconds now : Nat} {degraded : Bool} {entry : FallbackEntry}
    (h : (s.setBounded key value ttlSeconds now degraded).map.get k = some entry) :
    (k = key ∧ entry.value = value) ∨ s.map.get k = some entry := by
  unfold setBounded at h
  simp only [JsMap.get_set] at h
  by_cases hk : k = key
  · rw [if_pos hk] at h
    exact .inl ⟨hk, congrArg FallbackEntry.value (Option.some.inj h).symm⟩
  · rw [if_neg hk] at h
    have hswept : (s.sweep now).map.get k = some entry := by
      split at h
      · unfold evictOldest at h
        split at h
        · split at h
          · exact JsMap.get_of_get_filter h
          · exact h
        · exact h
      · exact h
    exact .inr (JsMap.get_of_get_filter hswept)

namespace ValkeyIdempotencyStore.Holds

variable {P : String → String → Prop} {store : ValkeyIdempotencyStore} {key value : String} {now : Nat}

theorem setBounded (h : store.Holds P) (hvalue : P key value) (ttlSeconds : Nat) (degraded : Bool) :
    ValkeyIdempotencyStore.Holds P
      { store with inMemoryFallback := store.inMemoryFallback.setBounded key value ttlSeconds now degraded } where
  fallback k entry hget := by
    obtain ⟨rfl, heq⟩ | hold := InMemoryIdempotencyStore.get_setBounded_cases hget
    · rwa [heq]
    · exact h.fallback k entry hold
  valkey := h.valkey

theorem set (h : store.Holds P) (hvalue : P key value) (ttlSeconds : Nat) :
    ValkeyIdempotencyStore.Holds P { store with valkey := store.valkey.set key value ttlSeconds now } where
  fallback := h.fallback
  valkey k entry hget := by
    simp only [Valkey.set, JsMap.get_set] at hget
    split at hget
    · next hk =>
      obtain rfl := Option.some.inj hget
      exact hk ▸ hvalue
    · exact h.valkey k entry hget

theorem peekDegraded (h : store.Holds P) (hpeek : store.inMemoryFallback.peekDegraded key now = some value) :
    P key value := by
  unfold InMemoryIdempotencyStore.peekDegraded at hpeek
  split at hpeek
  · next existing hget =>
    split at hpeek
    · obtain rfl := Option.some.inj hpeek
      exact h.fallback key existing hget
    · cases hpeek
  · cases hpeek

theorem get (h : store.Holds P) (hget : store.valkey.get key now = some value) : P key value := by
  unfold Valkey.get at hget
  split at hget
  · next held expiresAt hentry =>
    split at hget
    · obtain rfl := Option.some.inj hget
      exact h.valkey key _ hentry
    · cases hget
  · cases hget

/-- The fallback answers with what it holds, or takes the new value. -/
theorem claimFallback (h : store.Holds P) (hvalue : P key value) (ttlSeconds now : Nat) :
    (store.claimFallback key value ttlSeconds now).2.Holds P ∧
      ∀ claimed, (store.claimFallback key value ttlSeconds now).1 = some claimed → P key claimed := by
  unfold ValkeyIdempotencyStore.claimFallback InMemoryIdempotencyStore.claim
  cases hget : store.inMemoryFallback.map.get key with
  | none => exact ⟨h.setBounded hvalue ttlSeconds true, fun claimed hclaimed => by cases hclaimed⟩
  | some existing =>
    by_cases hlive : now < existing.expiresAt
    · simp only [if_pos hlive]
      refine ⟨h, fun claimed hclaimed => ?_⟩
      obtain rfl := Option.some.inj hclaimed
      exact h.fallback key existing hget
    · simp only [if_neg hlive]
      exact ⟨h.setBounded hvalue ttlSeconds true, fun claimed hclaimed => by cases hclaimed⟩

theorem mono {Q : String → String → Prop} (h : store.Holds P) (hPQ : ∀ key value, P key value → Q key value) :
    store.Holds Q where
  fallback key entry hget := hPQ key entry.value (h.fallback key entry hget)
  valkey key entry hget := hPQ key entry.1 (h.valkey key entry hget)

end ValkeyIdempotencyStore.Holds

end narwhal.portal.idempotency

namespace narwhal.portal.alert_silence

section

variable {ι : Type} (requests : ι → SilenceRequest)

/-- The requests have one key, one caller and one body. -/
structure SameRequest (request other : SilenceRequest) : Prop where
  key : request.key = other.key
  createdBy : request.createdBy = other.createdBy
  matchers : request.matchers = other.matchers
  duration : request.duration = other.duration
  comment : request.comment = other.comment

/-- A request like this one created the silence. -/
def Genuine (created : List (ι × String)) (i : ι) (silenceId : String) : Prop :=
  ∃ j, (j, silenceId) ∈ created ∧ SameRequest (requests j) (requests i)

/-- The silence reported in a reply was created by the very request, or by one like it. -/
def Truthful (s : World ι) : Prop :=
  ∀ i silenceId, s.phase i = .replied (.created silenceId) ∨ s.phase i = .replied (.duplicate silenceId) →
    Genuine requests s.created i silenceId

def IsPlaceholder (value : String) : Prop := PENDING.isPrefixOf value.toList = true

instance (value : String) : Decidable (IsPlaceholder value) := inferInstanceAs (Decidable (_ = true))

/-- If the store answers the step with a silence, no other caller and no other body created that
    silence under this key. -/
def KeyKept [DecidableEq ι] (s : World ι) (op : Op ι) : Prop :=
  ∀ silenceId, s.reading requests op = some silenceId → ¬ IsPlaceholder silenceId →
    ∀ j, (j, silenceId) ∈ s.created → (requests j).key = (requests op.request).key →
      SameRequest (requests j) (requests op.request)

/-! ### What a key is bound to -/

/-- The placeholder of a request with this key, or a silence that such a request created. -/
def Bound (created : List (ι × String)) (key value : String) : Prop :=
  (∃ j, (requests j).storeKey = some key ∧ value = placeholder (requests j)) ∨
  ∃ j, (requests j).storeKey = some key ∧ (j, value) ∈ created

/-- What is known of a request from where it is. -/
def PhaseOk (created : List (ι × String)) (i : ι) : Phase → Prop
  | .setting key | .mirroring key | .getting key | .fallingBack key => (requests i).storeKey = some key
  | .fulfilling key silenceId | .mirroringId key silenceId =>
    (requests i).storeKey = some key ∧ (i, silenceId) ∈ created
  | .replied (.created silenceId) => (i, silenceId) ∈ created
  | .replied (.duplicate silenceId) =>
    ¬ IsPlaceholder silenceId ∧ ∃ j, (requests j).key = (requests i).key ∧ (j, silenceId) ∈ created
  | _ => True

structure Inv (s : World ι) : Prop where
  holds : s.store.Holds (Bound requests s.created)
  phases : ∀ i, PhaseOk requests s.created i (s.phase i)

variable {requests} {created later : List (ι × String)}

theorem Bound.mono (hle : ∀ entry ∈ created, entry ∈ later) {key value : String} (h : Bound requests created key value) :
    Bound requests later key value :=
  h.imp_right fun ⟨j, hkey, hj⟩ => ⟨j, hkey, hle _ hj⟩

theorem PhaseOk.mono (hle : ∀ entry ∈ created, entry ∈ later) {i : ι} {phase : Phase} (h : PhaseOk requests created i phase) :
    PhaseOk requests later i phase := by
  cases phase with
  | fulfilling | mirroringId => exact ⟨h.1, hle _ h.2⟩
  | replied reply =>
    cases reply with
    | created => exact hle _ h
    | duplicate =>
      obtain ⟨hplaceholder, j, hkey, hj⟩ := h
      exact ⟨hplaceholder, j, hkey, hle _ hj⟩
    | validationError | failed => trivial
  | arrived | setting | mirroring | getting | fallingBack | creating => exact h

theorem Genuine.mono (hle : ∀ entry ∈ created, entry ∈ later) {i : ι} {silenceId : String}
    (h : Genuine requests created i silenceId) : Genuine requests later i silenceId := by
  obtain ⟨j, hj, hsame⟩ := h
  exact ⟨j, hle _ hj, hsame⟩

theorem isPlaceholder_placeholder (request : SilenceRequest) : IsPlaceholder (placeholder request) := by
  unfold IsPlaceholder placeholder
  rw [String.toList_ofList]
  exact List.isPrefixOf_iff_prefix.mpr ⟨request.fingerprint, rfl⟩

/-- Requests that use one key of the store have the same key. -/
theorem key_eq_of_storeKey {request other : SilenceRequest} {key : String} (h : request.storeKey = some key)
    (hother : other.storeKey = some key) : request.key = other.key := by
  unfold SilenceRequest.storeKey at h hother
  obtain ⟨k, hk, heq⟩ := Option.map_eq_some_iff.mp h
  obtain ⟨k', hk', heq'⟩ := Option.map_eq_some_iff.mp hother
  have hlist := String.ofList_injective (heq.trans heq'.symm)
  rw [hk, hk', List.append_cancel_left (List.append_cancel_left hlist)]

/-- A reply that a silence was created is always given by the request that created it. -/
theorem Inv.genuine_of_created {s : World ι} (h : Inv requests s) {i : ι} {silenceId : String}
    (hreply : s.phase i = .replied (.created silenceId)) : Genuine requests s.created i silenceId := by
  have hok := h.phases i
  rw [hreply] at hok
  exact ⟨i, hok, rfl, rfl, rfl, rfl, rfl⟩

theorem inv_start (maxEntries : Nat) : Inv requests (World.start maxEntries) where
  holds := by
    constructor
    · intro key entry h
      cases h
    · intro key entry h
      cases h
  phases _ := trivial

/-! ### What a request does with its claim -/

theorem afterClaim_duplicate_iff (fingerprint : Text) (claimed : Option String) (silenceId : String) :
    afterClaim fingerprint claimed = .replied (.duplicate silenceId) ↔
      claimed = some silenceId ∧ ¬ IsPlaceholder silenceId := by
  cases claimed with
  | none => simp [afterClaim]
  | some value =>
    by_cases hplaceholder : IsPlaceholder value
    · have hne : afterClaim fingerprint (some value) ≠ .replied (.duplicate silenceId) := by
        have hpending : PENDING.isPrefixOf value.toList = true := hplaceholder
        rw [afterClaim, if_pos hpending]
        split <;> simp
      refine iff_of_false hne ?_
      rintro ⟨heq, hnot⟩
      exact hnot (Option.some.inj heq ▸ hplaceholder)
    · have hpending : ¬ PENDING.isPrefixOf value.toList = true := hplaceholder
      rw [afterClaim, if_neg hpending]
      constructor
      · intro h
        cases h
        exact ⟨rfl, hplaceholder⟩
      · rintro ⟨heq, -⟩
        rw [Option.some.inj heq]

/-- A duplicate is reported for a silence created under the key of the request. -/
theorem phaseOk_afterClaim {i : ι} {key : String} (hkey : (requests i).storeKey = some key) {claimed : Option String}
    (hbound : ∀ value, claimed = some value → Bound requests created key value) (fingerprint : Text) :
    PhaseOk requests created i (afterClaim fingerprint claimed) := by
  cases hphase : afterClaim fingerprint claimed with
  | replied reply =>
    cases reply with
    | duplicate silenceId =>
      obtain ⟨hclaimed, hplaceholder⟩ := (afterClaim_duplicate_iff fingerprint claimed silenceId).mp hphase
      obtain ⟨j, -, rfl⟩ | ⟨j, hj, hmem⟩ := hbound silenceId hclaimed
      · exact absurd (isPlaceholder_placeholder (requests j)) hplaceholder
      · exact ⟨hplaceholder, j, key_eq_of_storeKey hj hkey, hmem⟩
    | created silenceId =>
      unfold afterClaim at hphase
      split at hphase
      · cases hphase
      · split_ifs at hphase <;> cases hphase
    | validationError | failed => trivial
  | arrived | creating => trivial
  | setting | mirroring | getting | fallingBack | fulfilling | mirroringId =>
    unfold afterClaim at hphase
    split at hphase
    · cases hphase
    · split_ifs at hphase

end

/-! ### One step -/

section

variable {ι : Type} [DecidableEq ι] {requests : ι → SilenceRequest} {s : World ι}

/-- What a step does: it moves one request, and makes it report a duplicate exactly if the store
    answers with a silence. -/
structure Moves (requests : ι → SilenceRequest) (s next : World ι) (op : Op ι) : Prop where
  created : ∀ entry ∈ s.created, entry ∈ next.created
  holds : next.store.Holds (Bound requests next.created)
  here : PhaseOk requests next.created op.request (next.phase op.request)
  others : ∀ j, j ≠ op.request → next.phase j = s.phase j
  duplicate : ∀ silenceId, next.phase op.request = .replied (.duplicate silenceId) ↔
    s.reading requests op = some silenceId ∧ ¬ IsPlaceholder silenceId

theorem moves_goTo {op : Op ι} {store : ValkeyIdempotencyStore} {created : List (ι × String)} {phase : Phase}
    (hcreated : ∀ entry ∈ s.created, entry ∈ created) (hholds : store.Holds (Bound requests created))
    (hhere : PhaseOk requests created op.request phase)
    (hduplicate : ∀ silenceId, phase = .replied (.duplicate silenceId) ↔
      s.reading requests op = some silenceId ∧ ¬ IsPlaceholder silenceId) :
    Moves requests s (World.goTo ⟨store, s.phase, created⟩ op.request phase) op where
  created := hcreated
  holds := hholds
  here := by simpa [World.goTo] using hhere
  others j hj := by simp [World.goTo, Function.update_of_ne hj]
  duplicate := by simpa [World.goTo] using hduplicate

theorem holds_setValkey {P : String → String → Prop} {store : ValkeyIdempotencyStore} (h : store.Holds P)
    {key value : String} (hvalue : P key value) (now : Nat) (answer : valkey.Answer) :
    (World.setValkey store key value now answer).Holds P := by
  unfold World.setValkey
  split
  · exact h
  · exact h.set hvalue IDEMPOTENCY_TTL_SECONDS

/-- A step of a request that has its reply changes nothing; every other one moves the request. -/
theorem Inv.step_cases (h : Inv requests s) (op : Op ι) :
    ((∃ reply, s.phase op.request = .replied reply) ∧ s.step requests op = s) ∨
    (∀ reply, s.phase op.request ≠ .replied reply) ∧ Moves requests s (s.step requests op) op := by
  have hok := h.phases op.request
  have hself : ∀ entry ∈ s.created, entry ∈ s.created := fun _ hentry => hentry
  cases hphase : s.phase op.request with
  | replied reply => exact .inl ⟨⟨reply, rfl⟩, by simp [World.step, hphase]⟩
  | arrived =>
    refine .inr ⟨by simp, ?_⟩
    cases hkey : (requests op.request).storeKey with
    | none =>
      simp only [World.step, hphase, hkey]
      exact moves_goTo hself h.holds trivial (by simp [World.reading, hphase, hkey])
    | some key =>
      cases hpeek : s.store.inMemoryFallback.peekDegraded key op.now with
      | none =>
        simp only [World.step, hphase, hkey, hpeek]
        exact moves_goTo hself h.holds hkey (by simp [World.reading, hphase, hkey, hpeek])
      | some unreconciled =>
        simp only [World.step, hphase, hkey, hpeek]
        have hbound : ∀ value, some unreconciled = some value → Bound requests s.created key value := by
          rintro value heq
          exact h.holds.peekDegraded (hpeek.trans heq)
        refine moves_goTo hself h.holds (phaseOk_afterClaim hkey hbound _) fun silenceId => ?_
        rw [afterClaim_duplicate_iff]
        simp [World.reading, hphase, hkey, hpeek]
  | setting key =>
    rw [hphase] at hok
    refine .inr ⟨by simp, ?_⟩
    cases hget : s.store.valkey.get key op.now with
    | some held =>
      simp only [World.step, hphase, hget]
      refine moves_goTo hself h.holds ?_ fun silenceId => ?_
      · split <;> exact hok
      · simp only [World.reading, hphase, reduceCtorEq, false_and, iff_false]
        split <;> simp
    | none =>
      simp only [World.step, hphase, hget]
      refine moves_goTo hself (holds_setValkey h.holds (.inl ⟨_, hok, rfl⟩) _ _) ?_ fun silenceId => ?_
      · split <;> exact hok
      · simp only [World.reading, hphase, reduceCtorEq, false_and, iff_false]
        split <;> simp
  | mirroring key =>
    rw [hphase] at hok
    refine .inr ⟨by simp, ?_⟩
    simp only [World.step, hphase]
    exact moves_goTo hself (h.holds.setBounded (.inl ⟨_, hok, rfl⟩) _ _) trivial (by simp [World.reading, hphase])
  | getting key =>
    rw [hphase] at hok
    refine .inr ⟨by simp, ?_⟩
    simp only [World.step, hphase]
    by_cases hserved : op.answer = .served
    · rw [if_pos hserved]
      refine moves_goTo hself h.holds (phaseOk_afterClaim hok (fun value => h.holds.get) _) fun silenceId => ?_
      rw [afterClaim_duplicate_iff]
      simp [World.reading, hphase, hserved]
    · rw [if_neg hserved]
      exact moves_goTo hself h.holds hok (by simp [World.reading, hphase, hserved])
  | fallingBack key =>
    rw [hphase] at hok
    refine .inr ⟨by simp, ?_⟩
    simp only [World.step, hphase]
    obtain ⟨hholds, hbound⟩ := h.holds.claimFallback (.inl ⟨_, hok, rfl⟩) IDEMPOTENCY_TTL_SECONDS op.now
    refine moves_goTo hself hholds (phaseOk_afterClaim hok hbound _) fun silenceId => ?_
    rw [afterClaim_duplicate_iff]
    simp [World.reading, hphase]
  | creating =>
    refine .inr ⟨by simp, ?_⟩
    cases hcreate : createSilence op.response with
    | error err =>
      simp only [World.step, hphase, hcreate]
      exact moves_goTo hself h.holds (by cases err <;> trivial) fun silenceId => by
        cases err <;> simp [mapSilenceMutationError, World.reading, hphase]
    | ok silenceId =>
      have hle : ∀ entry ∈ s.created, entry ∈ (op.request, silenceId) :: s.created :=
        fun entry hentry => List.mem_cons_of_mem _ hentry
      have hholds := h.holds.mono fun key value => Bound.mono hle
      simp only [World.step, hphase, hcreate]
      refine moves_goTo hle hholds ?_ fun other => ?_
      · split
        · exact List.mem_cons_self
        · next key hkey => exact ⟨hkey, List.mem_cons_self⟩
      · simp only [World.reading, hphase, reduceCtorEq, false_and, iff_false]
        split <;> simp
  | fulfilling key silenceId =>
    rw [hphase] at hok
    refine .inr ⟨by simp, ?_⟩
    simp only [World.step, hphase]
    exact moves_goTo hself (holds_setValkey h.holds (.inr ⟨_, hok⟩) _ _) hok (by simp [World.reading, hphase])
  | mirroringId key silenceId =>
    rw [hphase] at hok
    refine .inr ⟨by simp, ?_⟩
    simp only [World.step, hphase]
    exact moves_goTo hself (h.holds.setBounded (.inr ⟨_, hok⟩) _ _) hok.2 (by simp [World.reading, hphase])

theorem Inv.step (h : Inv requests s) (op : Op ι) : Inv requests (s.step requests op) := by
  obtain ⟨-, heq⟩ | ⟨-, hmoves⟩ := h.step_cases op
  · rwa [heq]
  · refine ⟨hmoves.holds, fun j => ?_⟩
    by_cases hj : j = op.request
    · exact hj ▸ hmoves.here
    · rw [hmoves.others j hj]
      exact (h.phases j).mono hmoves.created

/-- A step that looks at the store creates no silence. -/
theorem created_of_reading {op : Op ι} {value : String} (h : s.reading requests op = some value) :
    (s.step requests op).created = s.created := by
  unfold World.reading at h
  cases hphase : s.phase op.request with
  | arrived =>
    simp only [World.step, hphase]
    split
    · rfl
    · split <;> rfl
  | getting | fallingBack => simp only [World.step, hphase, World.goTo]
  | creating | setting | mirroring | fulfilling | mirroringId | replied => simp [hphase] at h

/-- A step that finds a silence under its key finds one that was created under that key. -/
theorem Inv.step_duplicate_iff (h : Inv requests s) (op : Op ι) (hnew : ∀ reply, s.phase op.request ≠ .replied reply)
    (silenceId : String) :
    (s.step requests op).phase op.request = .replied (.duplicate silenceId) ↔
      s.reading requests op = some silenceId ∧ ¬ IsPlaceholder silenceId ∧
      ∃ j, (requests j).key = (requests op.request).key ∧ (j, silenceId) ∈ s.created := by
  obtain ⟨⟨reply, hreply⟩, -⟩ | ⟨-, hmoves⟩ := h.step_cases op
  · exact absurd hreply (hnew reply)
  · rw [hmoves.duplicate]
    constructor
    · intro hreading
      have hok := hmoves.here
      rw [(hmoves.duplicate silenceId).mpr hreading, created_of_reading hreading.1] at hok
      exact ⟨hreading.1, hok⟩
    · exact fun hreading => ⟨hreading.1, hreading.2.1⟩

/-- Replies stay truthful where a key under which a silence was created is reused only for the
    same request. -/
theorem Inv.truthful_step (h : Inv requests s) (htruthful : Truthful requests s) {op : Op ι}
    (hkept : KeyKept requests s op) : Truthful requests (s.step requests op) := by
  obtain ⟨-, heq⟩ | ⟨hnew, hmoves⟩ := h.step_cases op
  · rwa [heq]
  · intro i silenceId hreply
    by_cases hi : i = op.request
    · subst hi
      obtain hcreated | hduplicate := hreply
      · exact (h.step op).genuine_of_created hcreated
      · obtain ⟨hreading, hplaceholder, j, hkey, hj⟩ := (h.step_duplicate_iff op hnew silenceId).mp hduplicate
        exact ⟨j, hmoves.created _ hj, hkept silenceId hreading hplaceholder j hj hkey⟩
    · rw [hmoves.others i hi] at hreply
      exact (htruthful i silenceId hreply).mono hmoves.created

/-- Where Alertmanager never gave an identifier twice, no other reuse of a key leaves the replies
    truthful. -/
theorem Inv.keyKept_of_truthful (h : Inv requests s) (honce : (s.created.map Prod.snd).Nodup) {op : Op ι}
    (hnew : ∀ reply, s.phase op.request ≠ .replied reply) (htruthful : Truthful requests (s.step requests op)) :
    KeyKept requests s op := by
  intro silenceId hreading hplaceholder j hj hkey
  have hduplicate := (h.step_duplicate_iff op hnew silenceId).mpr ⟨hreading, hplaceholder, j, hkey, hj⟩
  obtain ⟨k, hk, hsame⟩ := htruthful op.request silenceId (.inr hduplicate)
  rw [created_of_reading hreading] at hk
  have hjk : (j, silenceId) = (k, silenceId) := List.inj_on_of_nodup_map honce hj hk rfl
  rw [(Prod.mk.inj hjk).1]
  exact hsame

/-- Whatever requests interleave and whatever fails, every reply with a silence is truthful as
    long as no request finds under its key a silence that another caller or body created, and
    not past the first request that does. -/
theorem silence_replies_truthful (maxEntries : Nat) (ops : List (Op ι))
    (hrun : Allowed (World.step requests) (KeyKept requests) (World.start maxEntries) ops) :
    Truthful requests ((World.start maxEntries).run requests ops) ∧
    ((((World.start maxEntries).run requests ops).created.map Prod.snd).Nodup →
      ∀ op, (∀ reply, ((World.start maxEntries).run requests ops).phase op.request ≠ .replied reply) →
        (Truthful requests (((World.start maxEntries).run requests ops).step requests op) ↔
          KeyKept requests ((World.start maxEntries).run requests ops) op)) := by
  have hreached : Inv requests ((World.start maxEntries).run requests ops) ∧
      Truthful requests ((World.start maxEntries).run requests ops) := by
    apply hrun.invariant (I := fun s => Inv requests s ∧ Truthful requests s)
    · exact fun t op ht hop => ⟨ht.1.step op, ht.1.truthful_step ht.2 hop⟩
    · refine ⟨inv_start maxEntries, fun i silenceId hreply => ?_⟩
      obtain hreply | hreply := hreply <;> cases hreply
  refine ⟨hreached.2, fun honce op hnew => ⟨hreached.1.keyKept_of_truthful honce hnew, ?_⟩⟩
  exact hreached.1.truthful_step hreached.2

end

def sampleRequest (createdBy alertname : String) : SilenceRequest where
  createdBy := createdBy.toList
  matchers := [⟨"alertname".toList, alertname.toList, false⟩]
  duration := ⟨['6', '0'], by decide, by simp [isNumberChar, isDigit]⟩
  comment := "maintenance".toList
  idempotencyKey := some "k1".toList

/-- One step of a request whose commands all succeed. -/
def served (request : Bool) (now : Nat) : Op Bool :=
  ⟨request, now, .served, some ⟨200, some (.obj [("silenceID".toList, .str ['s', '1'])])⟩⟩

/-- One request runs to its end, then the other. -/
def oneAfterTheOther : List (Op Bool) :=
  (List.range 6).map (served false) ++ [served true 6, served true 7, served true 8]

theorem repeated_request_truthful :
    Truthful (fun _ => sampleRequest "alice" "DiskFull")
      ((World.start 5000).run (fun _ => sampleRequest "alice" "DiskFull") oneAfterTheOther) := by
  have hrun : Allowed (World.step fun _ => sampleRequest "alice" "DiskFull")
      (KeyKept fun _ => sampleRequest "alice" "DiskFull") (World.start 5000) oneAfterTheOther :=
    pylib.allowed_of_forall (fun _ _ _ _ _ _ _ _ => ⟨rfl, rfl, rfl, rfl, rfl⟩) (World.start 5000) oneAfterTheOther
  exact (silence_replies_truthful 5000 oneAfterTheOther hrun).1

/-- The second caller asks for another alert under the key of the first, and is told that the
    silence of the first is its own. -/
theorem reused_key_answers_with_other_silence :
    ((World.start 5000).run (fun i => if i then sampleRequest "bob" "NodeDown" else sampleRequest "alice" "DiskFull")
      oneAfterTheOther).phase true = .replied (.duplicate "s1") ∧
    ¬ Truthful (fun i => if i then sampleRequest "bob" "NodeDown" else sampleRequest "alice" "DiskFull")
      ((World.start 5000).run (fun i => if i then sampleRequest "bob" "NodeDown" else sampleRequest "alice" "DiskFull")
        oneAfterTheOther) := by
  have hphase : ((World.start 5000).run
      (fun i => if i then sampleRequest "bob" "NodeDown" else sampleRequest "alice" "DiskFull")
      oneAfterTheOther).phase true = .replied (.duplicate "s1") := by
    rfl
  have hcreated : ((World.start 5000).run
      (fun i => if i then sampleRequest "bob" "NodeDown" else sampleRequest "alice" "DiskFull")
      oneAfterTheOther).created = [(false, "s1")] := by
    rfl
  refine ⟨hphase, fun htruthful => ?_⟩
  obtain ⟨j, hj, hsame⟩ := htruthful true "s1" (.inr hphase)
  rw [hcreated] at hj
  obtain rfl : j = false := congrArg Prod.fst (List.mem_singleton.mp hj)
  exact absurd hsame.createdBy (by decide)

end narwhal.portal.alert_silence
