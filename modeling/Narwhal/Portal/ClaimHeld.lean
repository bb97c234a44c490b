import Narwhal.Portal.Idempotency

open jslib

namespace narwhal.portal.idempotency

/-- A write of the key would drop the oldest entry. -/
def InMemoryIdempotencyStore.Evicts (s : InMemoryIdempotencyStore) (key : String) (now : Nat) : Prop :=
  ¬ (s.sweep now).map.has key = true ∧ s.maxEntries ≤ (s.sweep now).map.size

instance (s : InMemoryIdempotencyStore) (key : String) (now : Nat) : Decidable (s.Evicts key now) :=
  inferInstanceAs (Decidable (_ ∧ _))

section

variable {s : InMemoryIdempotencyStore} {key k : String} {now : Nat}

theorem InMemoryIdempotencyStore.get_sweep {entry : FallbackEntry} (h : s.map.get k = some entry)
    (hlive : now < entry.expiresAt) : (s.sweep now).map.get k = some entry := by
  apply JsMap.get_filter_of_get h
  simpa using hlive

theorem InMemoryIdempotencyStore.get_setBounded (h : ¬ s.Evicts key now) (value : String) (ttlSeconds : Nat)
    (degraded : Bool) :
    (s.setBounded key value ttlSeconds now degraded).map.get k =
      if k = key then some ⟨value, now + ttlSeconds * 1000, degraded⟩ else (s.sweep now).map.get k := by
  have hroom : ¬ (¬ (s.sweep now).map.has key = true ∧ (s.sweep now).maxEntries ≤ (s.sweep now).map.size) := h
  unfold setBounded
  simp only [if_neg hroom, JsMap.get_set]

end

/-! ### What a claim does -/

section

variable {s : ValkeyIdempotencyStore} {key k value : String} {ttlSeconds : Nat} {io : Io}

/-- A claim leaves the store alone, unless it wrote the fallback, or Valkey and its mirror. A
    reply of `null` without a write is for a key that expired between the two commands. -/
theorem ValkeyIdempotencyStore.claim_cases (s : ValkeyIdempotencyStore) (k value : String) (ttlSeconds : Nat) (io : Io) :
    (∃ held, s.claim k value ttlSeconds io = (some held, s)) ∨
    s.claim k value ttlSeconds io =
      (none, { s with inMemoryFallback := s.inMemoryFallback.setBounded k value ttlSeconds io.now true }) ∨
    s.claim k value ttlSeconds io =
      (none,
        { inMemoryFallback := s.inMemoryFallback.setBounded k value ttlSeconds io.now false
          valkey := s.valkey.set k value ttlSeconds io.sent }) ∨
    s.valkey.get k io.sent ≠ none ∧ s.valkey.get k io.now = none ∧ s.claim k value ttlSeconds io = (none, s) := by
  have hfallback : (∃ held, s.claimFallback k value ttlSeconds io.now = (some held, s)) ∨
      s.claimFallback k value ttlSeconds io.now =
        (none, { s with inMemoryFallback := s.inMemoryFallback.setBounded k value ttlSeconds io.now true }) := by
    unfold claimFallback InMemoryIdempotencyStore.claim
    cases s.inMemoryFallback.map.get k with
    | none => exact .inr rfl
    | some existing =>
      by_cases hlive : io.now < existing.expiresAt
      · exact .inl ⟨existing.value, by simp only [if_pos hlive]⟩
      · exact .inr (by simp only [if_neg hlive])
  unfold claim
  cases s.inMemoryFallback.peekDegraded k io.peeked with
  | some unreconciled => exact .inl ⟨unreconciled, rfl⟩
  | none =>
    cases io.set_ok with
    | false => exact hfallback.imp_right .inl
    | true =>
      cases hsent : s.valkey.get k io.sent with
      | none => exact .inr (.inr (.inl rfl))
      | some first =>
        cases io.get_ok with
        | false => exact hfallback.imp_right .inl
        | true =>
          cases hnow : s.valkey.get k io.now with
          | none => exact .inr (.inr (.inr ⟨by simp, rfl, by simp⟩))
          | some held => exact .inl ⟨held, by simp⟩

/-! ### A key that is held -/

/-- Until then the key is in the fallback, and in Valkey too unless the fallback says that it
    may not be. -/
def Held (s : ValkeyIdempotencyStore) (key : String) (limit : Nat) : Prop :=
  ∃ entry, s.inMemoryFallback.map.get key = some entry ∧ limit ≤ entry.expiresAt ∧
    (entry.degraded = true ∨
      ∃ value expiresAt, s.valkey.data.get key = some (value, expiresAt) ∧ limit ≤ expiresAt)

/-- There is room for a key that is held. -/
theorem Held.not_evicts {limit now : Nat} (h : Held s key limit) (hnow : now < limit) :
    ¬ s.inMemoryFallback.Evicts key now := by
  obtain ⟨entry, hentry, hlimit, -⟩ := h
  have hget := InMemoryIdempotencyStore.get_sweep hentry (Nat.lt_of_lt_of_le hnow hlimit)
  rintro ⟨hhas, -⟩
  apply hhas
  rw [JsMap.has, hget]
  rfl

/-- A claim of a key that is held is refused, with or without Valkey. -/
theorem Held.refuses {limit : Nat} (h : Held s key limit) (hpeeked : io.peeked < limit) (hsent : io.sent < limit)
    (hnow : io.now < limit) (value : String) (ttlSeconds : Nat) : (s.claim key value ttlSeconds io).1 ≠ none := by
  obtain ⟨entry, hentry, hlimit, hvalkey⟩ := h
  have hfallback : (s.claimFallback key value ttlSeconds io.now).1 ≠ none := by
    have hlive : io.now < entry.expiresAt := Nat.lt_of_lt_of_le hnow hlimit
    simp [ValkeyIdempotencyStore.claimFallback, InMemoryIdempotencyStore.claim, hentry, hlive]
  unfold ValkeyIdempotencyStore.claim
  cases hpeek : s.inMemoryFallback.peekDegraded key io.peeked with
  | some unreconciled => simp
  | none =>
    have hmirror : ¬ entry.degraded = true := by
      intro hdegraded
      have hlive : io.peeked < entry.expiresAt := Nat.lt_of_lt_of_le hpeeked hlimit
      simp [InMemoryIdempotencyStore.peekDegraded, hentry, hdegraded, hlive] at hpeek
    obtain ⟨value', expiresAt, hdata, hexpires⟩ := hvalkey.resolve_left hmirror
    have hget : ∀ now, now < limit → s.valkey.get key now = some value' := by
      intro now hbefore
      have hlive : now < expiresAt := Nat.lt_of_lt_of_le hbefore hexpires
      simp [Valkey.get, hdata, hlive]
    cases io.set_ok with
    | false => simpa using hfallback
    | true =>
      cases io.get_ok with
      | false => simpa [hget io.sent hsent] using hfallback
      | true => simp [hget io.sent hsent, hget io.now hnow]

/-- The key of a claim that succeeds is held for its time to live. -/
theorem Held.of_claim (hsent : io.sent = io.now) (hroom : ¬ s.inMemoryFallback.Evicts key io.now)
    (h : (s.claim key value ttlSeconds io).1 = none) :
    Held (s.claim key value ttlSeconds io).2 key (io.now + ttlSeconds * 1000) := by
  obtain ⟨held, hclaim⟩ | hclaim | hclaim | ⟨hfound, hgone, -⟩ := s.claim_cases key value ttlSeconds io
  · rw [hclaim] at h
    cases h
  · rw [hclaim]
    have hentry := InMemoryIdempotencyStore.get_setBounded (k := key) hroom value ttlSeconds true
    exact ⟨_, hentry.trans (if_pos rfl), Nat.le_refl _, .inl rfl⟩
  · rw [hclaim]
    have hentry := InMemoryIdempotencyStore.get_setBounded (k := key) hroom value ttlSeconds false
    refine ⟨_, hentry.trans (if_pos rfl), Nat.le_refl _, .inr ⟨value, io.sent + ttlSeconds * 1000, ?_, by omega⟩⟩
    exact (JsMap.get_set _ _ _ _).trans (if_pos rfl)
  · rw [hsent] at hfound
    exact absurd hgone hfound

/-- A claim of any key leaves what is held as it is. -/
theorem Held.claim {limit : Nat} (h : Held s key limit) (hroom : ¬ s.inMemoryFallback.Evicts k io.now)
    (hpeeked : io.peeked < limit) (hsent : io.sent < limit) (hnow : io.now < limit) (value : String)
    (ttlSeconds : Nat) : Held (s.claim k value ttlSeconds io).2 key limit := by
  have hrefused := h.refuses hpeeked hsent hnow
  obtain ⟨entry, hentry, hlimit, hvalkey⟩ := h
  have hkept : ∀ degraded, key ≠ k →
      (s.inMemoryFallback.setBounded k value ttlSeconds io.now degraded).map.get key = some entry := by
    intro degraded hne
    rw [InMemoryIdempotencyStore.get_setBounded hroom, if_neg hne]
    exact InMemoryIdempotencyStore.get_sweep hentry (Nat.lt_of_lt_of_le hnow hlimit)
  have hother : (s.claim k value ttlSeconds io).1 = none → key ≠ k := by
    rintro hnone rfl
    exact hrefused value ttlSeconds hnone
  obtain ⟨held, hclaim⟩ | hclaim | hclaim | ⟨-, -, hclaim⟩ := s.claim_cases k value ttlSeconds io
  · rw [hclaim]
    exact ⟨entry, hentry, hlimit, hvalkey⟩
  · rw [hclaim] at hother ⊢
    exact ⟨entry, hkept true (hother rfl), hlimit, hvalkey⟩
  · rw [hclaim] at hother ⊢
    refine ⟨entry, hkept false (hother rfl), hlimit, hvalkey.imp_right ?_⟩
    rintro ⟨value', expiresAt, hdata, hexpires⟩
    refine ⟨value', expiresAt, ?_, hexpires⟩
    rw [← hdata]
    exact (JsMap.get_set _ _ _ _).trans (if_neg (hother rfl))
  · rw [hclaim]
    exact ⟨entry, hentry, hlimit, hvalkey⟩

end

end narwhal.portal.idempotency
