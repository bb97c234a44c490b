import Narwhal.Portal.Idempotency

open jslib

namespace narwhal.portal.idempotency

/-! ### Runs of the fallback store -/

structure FallbackCall (τ : Type) where
  key : String
  value : String
  ttlSeconds : τ
  now : τ
deriving DecidableEq, Repr

inductive FallbackOp (τ : Type) where
  | claim (call : FallbackCall τ)
  | fulfill (call : FallbackCall τ)
deriving DecidableEq, Repr

def FallbackOp.call {τ : Type} : FallbackOp τ → FallbackCall τ
  | .claim call => call
  | .fulfill call => call

/-- A call that was made: the reply of a claim, and whether the call created the entry of its key. A call
    without a reply has written. -/
structure FallbackEvent (τ : Type) where
  op : FallbackOp τ
  reply : Option String
  created : Bool
deriving DecidableEq, Repr

section Events

variable {τ : Type}

def FallbackEvent.key (e : FallbackEvent τ) : String := e.op.call.key

/-- The call that wrote the current value of a key; the latest event comes first. -/
def lastWriteOf (log : List (FallbackEvent τ)) (key : String) : Option (FallbackEvent τ) :=
  log.find? fun e => e.key = key ∧ e.reply = none

/-- The other keys that were written since the entry of a key was created. -/
def othersSince (log : List (FallbackEvent τ)) (key : String) : List String :=
  ((log.takeWhile fun e => ¬ (e.key = key ∧ e.created = true)).filter fun e =>
    e.key ≠ key ∧ e.reply = none).map FallbackEvent.key

/-- The entry of a key was created at some time. -/
def Created (log : List (FallbackEvent τ)) (key : String) : Prop := ∃ e ∈ log, e.key = key ∧ e.created = true

end Events

section Runs

variable {τ : Type} [LinearOrder τ] [Semiring τ]

def FallbackCall.expiresAt (call : FallbackCall τ) : τ := InMemoryIdempotencyStore.expiry call.ttlSeconds call.now

/-- The store, and the calls made on it, the latest first. -/
structure FallbackWorld (τ : Type) where
  store : InMemoryIdempotencyStore τ
  log : List (FallbackEvent τ)

/-- The key of a call has no entry once the expired ones are swept. -/
def FallbackWorld.lacks (w : FallbackWorld τ) (call : FallbackCall τ) : Bool :=
  !(w.store.sweep call.now).map.has call.key

def FallbackWorld.step (w : FallbackWorld τ) (op : FallbackOp τ) : FallbackWorld τ :=
  match op with
  | .claim call =>
    let (reply, store) := w.store.claim call.key call.value call.ttlSeconds call.now
    ⟨store, ⟨op, reply, reply.isNone && w.lacks call⟩ :: w.log⟩
  | .fulfill call =>
    ⟨w.store.fulfill call.key call.value call.ttlSeconds call.now, ⟨op, none, w.lacks call⟩ :: w.log⟩

def FallbackWorld.start (maxEntries : Nat) : FallbackWorld τ := ⟨⟨.empty, maxEntries⟩, []⟩

def FallbackWorld.run (w : FallbackWorld τ) (ops : List (FallbackOp τ)) : FallbackWorld τ := ops.foldl FallbackWorld.step w

/-- A claim is answered from an entry that has not expired, or it writes. -/
theorem InMemoryIdempotencyStore.claim_cases (s : InMemoryIdempotencyStore τ) (key value : String) (ttlSeconds now : τ) :
    (∃ existing, s.map.get key = some existing ∧ now < existing.expiresAt ∧
      s.claim key value ttlSeconds now = (some existing.value, s)) ∨
    s.claim key value ttlSeconds now = (none, s.setBounded key value ttlSeconds now true) := by
  unfold claim
  cases s.map.get key with
  | none => exact .inr rfl
  | some existing =>
    by_cases hlive : now < existing.expiresAt
    · exact .inl ⟨existing, rfl, hlive, if_pos hlive⟩
    · exact .inr (if_neg hlive)

/-- A step answers a claim, or it writes. -/
theorem FallbackWorld.step_cases (w : FallbackWorld τ) (op : FallbackOp τ) :
    (∃ value, w.step op = ⟨w.store, ⟨op, some value, false⟩ :: w.log⟩) ∨
      ∃ degraded, w.step op =
        ⟨w.store.setBounded op.call.key op.call.value op.call.ttlSeconds op.call.now degraded,
          ⟨op, none, w.lacks op.call⟩ :: w.log⟩ := by
  cases op with
  | fulfill call => exact .inr ⟨false, rfl⟩
  | claim call =>
    rcases w.store.claim_cases call.key call.value call.ttlSeconds call.now with ⟨existing, -, -, hclaim⟩ | hclaim
    · left
      refine ⟨existing.value, ?_⟩
      rw [step, hclaim]
      rfl
    · right
      refine ⟨true, ?_⟩
      rw [step, hclaim]
      rfl

end Runs

/-! ### The order of the entries -/

/-- The keys behind a key in the insertion order of a map are among these. -/
def Behind {α : Type} (m : JsMap String α) (key : String) (keys : List String) : Prop :=
  ∃ front back, m.entries.map Prod.fst = front ++ key :: back ∧ ∀ k ∈ back, k ∈ keys

section Order

variable {α : Type} {m : JsMap String α} {key k : String} {keys : List String} {value : α}

theorem Behind.filter (h : Behind m key keys) (hget : m.get key = some value) {p : String × α → Bool}
    (hp : p (key, value) = true) : Behind (m.filter p) key keys := by
  obtain ⟨front, back, hkeys, hback⟩ := h
  obtain ⟨before, rest, hentries, rfl, hrest⟩ := List.map_eq_append_iff.mp hkeys
  obtain ⟨⟨k, v⟩, after, rfl, rfl, rfl⟩ := List.map_eq_cons_iff.mp hrest
  obtain rfl : v = value := by
    have hmem : (k, v) ∈ m.entries := hentries ▸ List.mem_append_right before List.mem_cons_self
    exact Option.some.inj ((JsMap.get_of_mem hmem).symm.trans hget)
  refine ⟨(before.filter p).map Prod.fst, (after.filter p).map Prod.fst, ?_, ?_⟩
  · show (m.entries.filter p).map Prod.fst = _
    rw [hentries, List.filter_append, List.filter_cons_of_pos hp, List.map_append, List.map_cons]
  · intro x hx
    obtain ⟨e, he, rfl⟩ := List.mem_map.mp hx
    exact hback e.1 (List.mem_map_of_mem (List.mem_of_mem_filter he))

theorem keys_set (m : JsMap String α) (k : String) (value : α) :
    (m.set k value).entries.map Prod.fst =
      if k ∈ m.entries.map Prod.fst then m.entries.map Prod.fst else m.entries.map Prod.fst ++ [k] := by
  split
  · next hmem => exact map_fst_setEntry_of_mem hmem
  · next hmem =>
    show (setEntry k value m.entries).map Prod.fst = _
    rw [setEntry_of_not_mem hmem, List.map_append]
    rfl

theorem Behind.set (h : Behind m key keys) (k : String) (value : α) : Behind (m.set k value) key (k :: keys) := by
  obtain ⟨front, back, hkeys, hback⟩ := h
  rw [Behind, keys_set]
  split
  · exact ⟨front, back, hkeys, fun x hx => List.mem_cons_of_mem k (hback x hx)⟩
  · refine ⟨front, back ++ [k], by rw [hkeys]; simp, ?_⟩
    intro x hx
    cases List.mem_append.mp hx with
    | inl hmem => exact List.mem_cons_of_mem k (hback x hmem)
    | inr hlast => exact List.mem_singleton.mp hlast ▸ List.mem_cons_self

theorem Behind.set_self (h : Behind m key keys) (value : α) : Behind (m.set key value) key keys := by
  obtain ⟨front, back, hkeys, hback⟩ := h
  rw [Behind, keys_set, if_pos (by rw [hkeys]; simp)]
  exact ⟨front, back, hkeys, hback⟩

theorem behind_set_new (h : key ∉ m.entries.map Prod.fst) (value : α) : Behind (m.set key value) key [] := by
  rw [Behind, keys_set, if_neg h]
  exact ⟨m.entries.map Prod.fst, [], rfl, fun x hx => nomatch hx⟩

theorem get_eq_none_iff : m.get key = none ↔ key ∉ m.entries.map Prod.fst := by
  rw [JsMap.get, List.lookup_eq_none_iff]
  constructor
  · intro h hmem
    obtain ⟨e, he, rfl⟩ := List.mem_map.mp hmem
    simpa using h e he
  · intro h e he
    simp only [bne_iff_ne, ne_eq]
    rintro rfl
    exact h (List.mem_map_of_mem he)

/-- A key that is first is evicted only by a new key, with as many others behind it as leave no room. -/
theorem Behind.length_le (h : Behind m key keys) (hfirst : m.firstKey = some key) (hnew : k ∉ m.entries.map Prod.fst) :
    m.size ≤ (k :: keys).dedup.length := by
  obtain ⟨front, back, hkeys, hback⟩ := h
  have hnodup := m.nodup
  rw [hkeys] at hnodup
  obtain rfl : front = [] := by
    cases front with
    | nil => rfl
    | cons x front =>
      have hx : x = key := by
        rw [JsMap.firstKey, ← List.head?_map, hkeys] at hfirst
        exact Option.some.inj hfirst
      rw [hx] at hnodup
      simp at hnodup
  rw [hkeys] at hnew
  have hsize : m.size = (k :: back).length := by
    rw [JsMap.size, ← List.length_map (f := Prod.fst), hkeys]
    simp
  have hnodup' : (k :: back).Nodup := by
    simp only [List.nil_append, List.mem_cons, not_or] at hnew
    simp only [List.nil_append, List.nodup_cons] at hnodup
    exact List.nodup_cons.mpr ⟨hnew.2, hnodup.2⟩
  have hsub : k :: back ⊆ (k :: keys).dedup := by
    intro x hx
    rw [List.mem_dedup]
    cases List.mem_cons.mp hx with
    | inl heq => exact heq ▸ List.mem_cons_self
    | inr hmem => exact List.mem_cons_of_mem k (hback x hmem)
  rw [hsize]
  exact (List.subperm_of_subset hnodup' hsub).length_le

theorem size_set (m : JsMap String α) (key : String) (value : α) :
    (m.set key value).size = if m.has key then m.size else m.size + 1 := by
  have hhas : m.has key = true ↔ key ∈ m.entries.map Prod.fst := by
    rw [JsMap.has, Option.isSome_iff_ne_none, Ne, get_eq_none_iff, not_not]
  rw [JsMap.size, ← List.length_map (f := Prod.fst), keys_set]
  by_cases hkey : key ∈ m.entries.map Prod.fst
  · rw [if_pos hkey, if_pos (hhas.mpr hkey), List.length_map, JsMap.size]
  · rw [if_neg hkey, if_neg (mt hhas.mp hkey), List.length_append, List.length_map]
    rfl

theorem keys_filter_subset (m : JsMap String α) (p : String × α → Bool) :
    (m.filter p).entries.map Prod.fst ⊆ m.entries.map Prod.fst := List.map_subset Prod.fst List.filter_sublist.subset

theorem keys_evictOldest_subset (m : JsMap String α) :
    (InMemoryIdempotencyStore.evictOldest m).entries.map Prod.fst ⊆ m.entries.map Prod.fst := by
  unfold InMemoryIdempotencyStore.evictOldest
  split
  · split
    · exact keys_filter_subset m _
    · exact List.Subset.refl _
  · exact List.Subset.refl _

theorem length_dedup_mono {xs ys : List String} (h : xs ⊆ ys) : xs.dedup.length ≤ ys.dedup.length := by
  apply (List.subperm_of_subset (List.nodup_dedup xs) _).length_le
  intro x hx
  exact List.mem_dedup.mpr (h (List.mem_dedup.mp hx))

end Order

/-! ### What a write does to the map -/

section Write

variable {τ : Type} [LinearOrder τ] [Semiring τ] {s : InMemoryIdempotencyStore τ} {key k value : String}
  {ttlSeconds now : τ} {degraded : Bool}

/-- The map a write puts its entry in: swept, and without the oldest entry where there is no room. -/
def InMemoryIdempotencyStore.room (s : InMemoryIdempotencyStore τ) (key : String) (now : τ) :
    JsMap String (FallbackEntry τ) :=
  if ¬ (s.sweep now).map.has key ∧ s.maxEntries ≤ (s.sweep now).map.size then evictOldest (s.sweep now).map
  else (s.sweep now).map

theorem setBounded_map : (s.setBounded key value ttlSeconds now degraded).map =
    (s.room key now).set key ⟨value, now + ttlSeconds * 1000, degraded⟩ := rfl

omit [Semiring τ] in
/-- The room is the swept map, or a full one without the entry that was first. -/
theorem room_cases (s : InMemoryIdempotencyStore τ) (key : String) (now : τ) :
    s.room key now = (s.sweep now).map ∧ ((s.sweep now).map.has key = true ∨ (s.sweep now).map.size < s.maxEntries) ∨
      (s.sweep now).map.has key = false ∧ s.maxEntries ≤ (s.sweep now).map.size ∧
        s.room key now = InMemoryIdempotencyStore.evictOldest (s.sweep now).map := by
  unfold InMemoryIdempotencyStore.room
  split
  · next h => exact .inr ⟨by simpa using h.1, h.2, rfl⟩
  · next h =>
    left
    refine ⟨rfl, ?_⟩
    by_cases hhas : (s.sweep now).map.has key = true
    · exact .inl hhas
    · exact .inr (not_le.mp fun hle => h ⟨hhas, hle⟩)

omit [Semiring τ] in
theorem keys_room_subset (s : InMemoryIdempotencyStore τ) (key : String) (now : τ) :
    (s.room key now).entries.map Prod.fst ⊆ (s.sweep now).map.entries.map Prod.fst := by
  rcases room_cases s key now with ⟨hsame, -⟩ | ⟨-, -, hevicted⟩
  · rw [hsame]
    exact List.Subset.refl _
  · rw [hevicted]
    exact keys_evictOldest_subset _

/-- A write keeps the bound, where no entry has the empty key. -/
theorem size_setBounded (hmax : 1 ≤ s.maxEntries) (hsize : s.map.size ≤ s.maxEntries)
    (hkeys : "" ∉ s.map.entries.map Prod.fst) :
    (s.setBounded key value ttlSeconds now degraded).map.size ≤ s.maxEntries := by
  have hswept : (s.sweep now).map.size ≤ s.maxEntries := (List.length_filter_le _ _).trans hsize
  rw [setBounded_map, size_set]
  rcases room_cases s key now with ⟨hroom, hhas | hlt⟩ | ⟨hhas, hfull, hroom⟩
  · rw [hroom, if_pos hhas]
    exact hswept
  · rw [hroom]
    split <;> omega
  · -- the first key is not empty, so its entry goes
    have hevicted : (InMemoryIdempotencyStore.evictOldest (s.sweep now).map).size + 1 ≤ (s.sweep now).map.size := by
      have hfilter : (s.sweep now).map.entries ⊆ s.map.entries := List.filter_sublist.subset
      cases hentries : (s.sweep now).map.entries with
      | nil =>
        have : (s.sweep now).map.size = 0 := by rw [JsMap.size, hentries]; rfl
        omega
      | cons e rest =>
        have hfirst : (s.sweep now).map.firstKey = some e.1 := by rw [JsMap.firstKey, hentries]; rfl
        have hne : e.1 ≠ "" := by
          rintro hempty
          exact hkeys (hempty ▸ List.mem_map_of_mem (hfilter (hentries ▸ List.mem_cons_self)))
        unfold InMemoryIdempotencyStore.evictOldest
        rw [hfirst]
        simp only [if_pos hne]
        show ((s.sweep now).map.entries.filter fun entry => entry.1 ≠ e.1).length + 1 ≤ (s.sweep now).map.entries.length
        rw [hentries, List.filter_cons_of_neg (by simp), List.length_cons]
        exact Nat.succ_le_succ (List.length_filter_le _ _)
    rw [hroom]
    split <;> omega

/-- The keys after a write are those before and the one written. -/
theorem mem_keys_setBounded (h : k ∈ (s.setBounded key value ttlSeconds now degraded).map.entries.map Prod.fst) :
    k = key ∨ k ∈ s.map.entries.map Prod.fst := by
  have hroom : k ∈ (s.room key now).entries.map Prod.fst → k ∈ s.map.entries.map Prod.fst := fun hk =>
    keys_filter_subset s.map _ (keys_room_subset s key now hk)
  rw [setBounded_map, keys_set] at h
  split at h
  · exact .inr (hroom h)
  · cases List.mem_append.mp h with
    | inl hmem => exact .inr (hroom hmem)
    | inr hlast => exact .inl (List.mem_singleton.mp hlast)

/-- What another key's write does to an entry: it stays, with at most the written key more behind it, unless
    it has expired or there is no room for it. -/
theorem setBounded_of_ne {keys : List String} {entry : FallbackEntry τ} (hne : k ≠ key)
    (hget : s.map.get k = some entry) (hbehind : Behind s.map k keys) (value : String) (ttlSeconds now : τ) (degraded : Bool) :
    ((s.setBounded key value ttlSeconds now degraded).map.get k = some entry ∧
      Behind (s.setBounded key value ttlSeconds now degraded).map k (key :: keys)) ∨
    ((s.setBounded key value ttlSeconds now degraded).map.get k = none ∧
      (entry.expiresAt ≤ now ∨ s.maxEntries ≤ (key :: keys).dedup.length)) := by
  rw [setBounded_map, JsMap.get_set, if_neg hne]
  by_cases hexpired : entry.expiresAt ≤ now
  · right
    refine ⟨?_, .inl hexpired⟩
    have hswept : (s.sweep now).map.get k = none := by
      cases hfound : (s.sweep now).map.get k with
      | none => rfl
      | some found =>
        obtain rfl := Option.some.inj ((JsMap.get_of_get_filter hfound).symm.trans hget)
        have := (List.mem_filter.mp (JsMap.mem_of_get hfound)).2
        simp [hexpired] at this
    rw [get_eq_none_iff] at hswept ⊢
    exact fun hmem => hswept (keys_room_subset s key now hmem)
  · have hkept : (s.sweep now).map.get k = some entry := JsMap.get_filter_of_get hget (by simpa using hexpired)
    have hswept : Behind (s.sweep now).map k keys := hbehind.filter hget (by simpa using hexpired)
    rcases room_cases s key now with ⟨hsame, -⟩ | ⟨hhas, hfull, hevicted⟩
    · left
      rw [hsame]
      exact ⟨hkept, hswept.set key _⟩
    · by_cases hfirst : (s.sweep now).map.firstKey = some k
      · have hlength : (s.sweep now).map.size ≤ (key :: keys).dedup.length := by
          apply hswept.length_le hfirst
          rw [← get_eq_none_iff]
          simpa [JsMap.has] using hhas
        by_cases hempty : k = ""
        · left
          have hroom : s.room key now = (s.sweep now).map := by
            rw [hevicted, InMemoryIdempotencyStore.evictOldest, hfirst]
            exact if_neg (not_not.mpr hempty)
          rw [hroom]
          exact ⟨hkept, hswept.set key _⟩
        · right
          refine ⟨?_, .inr (hfull.trans hlength)⟩
          rw [hevicted, InMemoryIdempotencyStore.evictOldest, hfirst]
          simp only [if_pos hempty]
          rw [get_eq_none_iff]
          intro hmem
          obtain ⟨e, he, heq⟩ := List.mem_map.mp hmem
          simpa [heq] using (List.mem_filter.mp he).2
      · left
        rw [hevicted, InMemoryIdempotencyStore.evictOldest]
        split
        · next oldest holdest =>
          split
          · have hp : (fun e : String × FallbackEntry τ => decide (e.1 ≠ oldest)) (k, entry) = true := by
              simp only [decide_eq_true_eq]
              rintro rfl
              exact hfirst holdest
            exact ⟨JsMap.get_filter_of_get hkept hp, (hswept.filter hkept hp).set key _⟩
          · exact ⟨hkept, hswept.set key _⟩
        · exact ⟨hkept, hswept.set key _⟩

/-- A key without an entry gets none by another key's write. -/
theorem setBounded_get_none (hne : k ≠ key) (hget : s.map.get k = none) :
    (s.setBounded key value ttlSeconds now degraded).map.get k = none := by
  rw [get_eq_none_iff] at hget ⊢
  intro hmem
  exact (mem_keys_setBounded hmem).elim hne hget

/-- A key's own write: an entry that is there keeps its place, a new one goes behind all others. -/
theorem setBounded_self (s : InMemoryIdempotencyStore τ) (key value : String) (ttlSeconds now : τ) (degraded : Bool) :
    (s.setBounded key value ttlSeconds now degraded).map.get key =
      some ⟨value, now + ttlSeconds * 1000, degraded⟩ ∧
    ((s.sweep now).map.has key = false → Behind (s.setBounded key value ttlSeconds now degraded).map key []) ∧
    ((s.sweep now).map.has key = true → ∀ keys, Behind s.map key keys →
      Behind (s.setBounded key value ttlSeconds now degraded).map key keys) := by
  rw [setBounded_map, JsMap.get_set, if_pos rfl]
  refine ⟨rfl, ?_, ?_⟩
  · intro hhas
    apply behind_set_new
    intro hmem
    have hnone : (s.sweep now).map.get key = none := by simpa [JsMap.has] using hhas
    exact get_eq_none_iff.mp hnone (keys_room_subset s key now hmem)
  · intro hhas keys hbehind
    obtain ⟨entry, hentry⟩ := Option.isSome_iff_exists.mp hhas
    have hlive := (List.mem_filter.mp (JsMap.mem_of_get hentry)).2
    have hroom : s.room key now = (s.sweep now).map := by
      rcases room_cases s key now with ⟨hsame, -⟩ | ⟨hnot, -⟩
      · exact hsame
      · rw [hnot] at hhas
        cases hhas
    rw [hroom]
    exact (hbehind.filter (JsMap.get_of_get_filter hentry) hlive).set_self _

end Write

/-! ### The entry of a key along a run -/

section Along

variable {τ : Type} {e : FallbackEvent τ} {log : List (FallbackEvent τ)} {key : String}

theorem lastWriteOf_cons_of_write (hkey : e.key = key) (hreply : e.reply = none) : lastWriteOf (e :: log) key = some e :=
  List.find?_cons_of_pos (by simp [hkey, hreply])

theorem lastWriteOf_cons_of_quiet (h : ¬ (e.key = key ∧ e.reply = none)) : lastWriteOf (e :: log) key = lastWriteOf log key :=
  List.find?_cons_of_neg (by simpa using h)

theorem othersSince_cons_of_created (hkey : e.key = key) (hcreated : e.created = true) : othersSince (e :: log) key = [] := by
  rw [othersSince, List.takeWhile_cons_of_neg (by simp [hkey, hcreated])]
  rfl

theorem othersSince_cons_of_other (hkey : e.key ≠ key) (hreply : e.reply = none) :
    othersSince (e :: log) key = e.key :: othersSince log key := by
  rw [othersSince, List.takeWhile_cons_of_pos (by simp [hkey]), List.filter_cons_of_pos (by simp [hkey, hreply])]
  rfl

theorem othersSince_cons (h : ¬ (e.key = key ∧ e.created = true)) (hquiet : e.key = key ∨ e.reply ≠ none) :
    othersSince (e :: log) key = othersSince log key := by
  rw [othersSince, List.takeWhile_cons_of_pos (by simpa only [decide_eq_true_eq] using h), List.filter_cons_of_neg (by
    simp only [decide_eq_true_eq, not_and]
    intro hne hnone
    exact hquiet.elim hne fun hsome => hsome hnone)]
  rfl

theorem Created.of_cons (h : Created (e :: log) key) (hnot : ¬ (e.key = key ∧ e.created = true)) : Created log key := by
  obtain ⟨f, hf, hfkey⟩ := h
  rcases List.mem_cons.mp hf with rfl | hmem
  · exact absurd hfkey hnot
  · exact ⟨f, hmem, hfkey⟩

end Along

section Held

variable {τ : Type} [LinearOrder τ] [Semiring τ] {w : FallbackWorld τ} {op : FallbackOp τ} {key : String}

/-- A key whose entry was created has the entry of its last write, behind which there are only keys written
    since; or it has none, for that has expired or there was no room for it. -/
def Kept (w : FallbackWorld τ) (key : String) : Prop :=
  Created w.log key → ∃ e, lastWriteOf w.log key = some e ∧
    ((∃ degraded, w.store.map.get key = some ⟨e.op.call.value, e.op.call.expiresAt, degraded⟩ ∧
      Behind w.store.map key (othersSince w.log key)) ∨
    (w.store.map.get key = none ∧ ((∃ f ∈ w.log, e.op.call.expiresAt ≤ f.op.call.now) ∨
      w.store.maxEntries ≤ (othersSince w.log key).dedup.length)))

/-- A claim that is answered changes nothing. -/
theorem Kept.answered {value : String} (h : Kept w key) : Kept ⟨w.store, ⟨op, some value, false⟩ :: w.log⟩ key := by
  intro hcreated
  obtain ⟨e, hlast, hstate⟩ := h (hcreated.of_cons (by simp))
  refine ⟨e, ?_, ?_⟩
  · rw [lastWriteOf_cons_of_quiet (by simp), hlast]
  · rw [othersSince_cons (by simp) (.inr (by simp))]
    refine hstate.imp_right fun hgone => ⟨hgone.1, hgone.2.imp_left ?_⟩
    rintro ⟨f, hf, hexpired⟩
    exact ⟨f, List.mem_cons_of_mem _ hf, hexpired⟩

theorem Kept.write_self (h : Kept w op.call.key) (degraded : Bool) :
    Kept ⟨w.store.setBounded op.call.key op.call.value op.call.ttlSeconds op.call.now degraded,
      ⟨op, none, w.lacks op.call⟩ :: w.log⟩ op.call.key := by
  intro hcreated
  obtain ⟨hget, hnew, hold⟩ := setBounded_self w.store op.call.key op.call.value op.call.ttlSeconds op.call.now degraded
  refine ⟨⟨op, none, w.lacks op.call⟩, lastWriteOf_cons_of_write rfl rfl, .inl ⟨degraded, hget, ?_⟩⟩
  by_cases hlacks : w.lacks op.call = true
  · have hothers : othersSince (⟨op, none, w.lacks op.call⟩ :: w.log) op.call.key = [] :=
      othersSince_cons_of_created rfl hlacks
    rw [hothers]
    exact hnew (by simpa [FallbackWorld.lacks] using hlacks)
  · have hhas : (w.store.sweep op.call.now).map.has op.call.key = true := by simpa [FallbackWorld.lacks] using hlacks
    obtain ⟨e, -, ⟨-, -, hbehind⟩ | ⟨hnone, -⟩⟩ := h (hcreated.of_cons fun hand => hlacks hand.2)
    · have hothers : othersSince (⟨op, none, w.lacks op.call⟩ :: w.log) op.call.key = othersSince w.log op.call.key :=
        othersSince_cons (fun hand => hlacks hand.2) (.inl rfl)
      rw [hothers]
      exact hold hhas _ hbehind
    · obtain ⟨entry, hentry⟩ := Option.isSome_iff_exists.mp hhas
      rw [JsMap.get_of_get_filter hentry] at hnone
      cases hnone

theorem Kept.write_other (h : Kept w key) (hne : key ≠ op.call.key) (degraded : Bool) :
    Kept ⟨w.store.setBounded op.call.key op.call.value op.call.ttlSeconds op.call.now degraded,
      ⟨op, none, w.lacks op.call⟩ :: w.log⟩ key := by
  intro hcreated
  have hother : ¬ (FallbackEvent.key ⟨op, none, w.lacks op.call⟩ = key ∧ w.lacks op.call = true) :=
    fun hand => hne hand.1.symm
  obtain ⟨e, hlast, hstate⟩ := h (hcreated.of_cons hother)
  refine ⟨e, ?_, ?_⟩
  · rw [lastWriteOf_cons_of_quiet fun hand => hne hand.1.symm, hlast]
  have hothers : othersSince (⟨op, none, w.lacks op.call⟩ :: w.log) key = op.call.key :: othersSince w.log key :=
    othersSince_cons_of_other hne.symm rfl
  rw [hothers]
  rcases hstate with ⟨d, hget, hbehind⟩ | ⟨hnone, hwhy⟩
  · rcases setBounded_of_ne hne hget hbehind op.call.value op.call.ttlSeconds op.call.now degraded with ⟨hkept, hstill⟩ | ⟨hgone, hexpired | hfull⟩
    · exact .inl ⟨d, hkept, hstill⟩
    · exact .inr ⟨hgone, .inl ⟨_, List.mem_cons_self, hexpired⟩⟩
    · exact .inr ⟨hgone, .inr hfull⟩
  · right
    refine ⟨setBounded_get_none hne hnone, ?_⟩
    rcases hwhy with ⟨f, hf, hexpired⟩ | hfull
    · exact .inl ⟨f, List.mem_cons_of_mem _ hf, hexpired⟩
    · exact .inr (hfull.trans (length_dedup_mono (List.subset_cons_self _ _)))

theorem Kept.step (h : Kept w key) : Kept (w.step op) key := by
  rcases w.step_cases op with ⟨value, hstep⟩ | ⟨degraded, hstep⟩
  · rw [hstep]
    exact h.answered
  · rw [hstep]
    by_cases hkey : key = op.call.key
    · subst hkey
      exact h.write_self degraded
    · exact h.write_other hkey degraded

/-- The bound on the size, with what it rests on. -/
structure WithinBound (w : FallbackWorld τ) (maxEntries : Nat) : Prop where
  bound : w.store.maxEntries = maxEntries
  size : w.store.map.size ≤ maxEntries
  keys : "" ∉ w.store.map.entries.map Prod.fst

theorem WithinBound.step {maxEntries : Nat} (h : WithinBound w maxEntries) (hmax : 1 ≤ maxEntries)
    (hkey : op.call.key ≠ "") : WithinBound (w.step op) maxEntries := by
  rcases w.step_cases op with ⟨value, hstep⟩ | ⟨degraded, hstep⟩
  · rw [hstep]
    exact ⟨h.bound, h.size, h.keys⟩
  · rw [hstep]
    have hstore := h.bound
    have hsize := h.size
    rw [← hstore] at hmax hsize
    refine ⟨hstore, ?_, ?_⟩
    · rw [← hstore]
      exact size_setBounded hmax hsize h.keys
    · intro hempty
      exact (mem_keys_setBounded hempty).elim (fun heq => hkey heq.symm) h.keys

theorem FallbackWorld.log_run (w : FallbackWorld τ) (ops : List (FallbackOp τ)) :
    (w.run ops).log.map FallbackEvent.op = ops.reverse ++ w.log.map FallbackEvent.op := by
  induction ops generalizing w with
  | nil => rfl
  | cons op ops ih =>
    have hstep : (w.step op).log.map FallbackEvent.op = op :: w.log.map FallbackEvent.op := by
      rcases w.step_cases op with ⟨value, hstep⟩ | ⟨degraded, hstep⟩ <;> rw [hstep] <;> rfl
    rw [run, List.foldl_cons, ← run, ih, hstep]
    simp

/-- The fallback store never holds more than its bound, and a key is not claimed again while its current
    entry has not expired and fewer other keys than the bound were written since it was created. -/
theorem fallback_bounded_and_held {maxEntries : Nat} (hmax : 1 ≤ maxEntries) (ops : List (FallbackOp τ))
    (hkeys : ∀ op ∈ ops, op.call.key ≠ "") :
    ((FallbackWorld.start maxEntries).run ops).store.map.size ≤ maxEntries ∧
      ∀ key value ttlSeconds now, (∀ op ∈ ops, op.call.now ≤ now) →
        Created ((FallbackWorld.start maxEntries).run ops).log key →
        (othersSince ((FallbackWorld.start maxEntries).run ops).log key).dedup.length < maxEntries →
        ∃ e, lastWriteOf ((FallbackWorld.start maxEntries).run ops).log key = some e ∧ (now < e.op.call.expiresAt →
          (((FallbackWorld.start maxEntries).run ops).store.claim key value ttlSeconds now).1 = some e.op.call.value) := by
  have hrun : ∀ (ops : List (FallbackOp τ)) (w : FallbackWorld τ), (∀ op ∈ ops, op.call.key ≠ "") →
      WithinBound w maxEntries → (∀ key, Kept w key) → WithinBound (w.run ops) maxEntries ∧ ∀ key, Kept (w.run ops) key := by
    intro ops
    induction ops with
    | nil => exact fun w _ hbound hkept => ⟨hbound, hkept⟩
    | cons op ops ih =>
      intro w hkeys hbound hkept
      exact ih (w.step op) (fun op' hop' => hkeys op' (List.mem_cons_of_mem op hop'))
        (hbound.step hmax (hkeys op List.mem_cons_self)) fun key => (hkept key).step
  have hstart : WithinBound (FallbackWorld.start (τ := τ) maxEntries) maxEntries :=
    ⟨rfl, Nat.zero_le _, List.not_mem_nil⟩
  have hfresh : ∀ key, Kept (FallbackWorld.start (τ := τ) maxEntries) key := fun key hcreated =>
    absurd hcreated (by rintro ⟨e, he, -⟩; cases he)
  obtain ⟨hbound, hkept⟩ := hrun ops _ hkeys hstart hfresh
  refine ⟨hbound.size, ?_⟩
  intro key value ttlSeconds now hnow hcreated hfew
  obtain ⟨e, hlast, hstate⟩ := hkept key hcreated
  refine ⟨e, hlast, ?_⟩
  intro hlive
  rcases hstate with ⟨degraded, hget, -⟩ | ⟨-, ⟨f, hf, hexpired⟩ | hfull⟩
  · unfold InMemoryIdempotencyStore.claim
    rw [hget]
    simp only [if_pos hlive]
  · have hop : f.op ∈ ops := by
      have hmem := List.mem_map_of_mem (f := FallbackEvent.op) hf
      rw [FallbackWorld.log_run] at hmem
      simpa [FallbackWorld.start] using hmem
    exact absurd hlive (not_lt.mpr (hexpired.trans (hnow f.op hop)))
  · rw [hbound.bound] at hfull
    omega

end Held

/-- A claim, its result, and a claim of another key. -/
def sampleOps : List (FallbackOp Nat) :=
  [.claim ⟨"k1", "v1", 60, 0⟩, .fulfill ⟨"k1", "v2", 60, 500⟩, .claim ⟨"k2", "v3", 60, 1000⟩]

theorem fallback_held_result :
    ((FallbackWorld.start 2).run sampleOps).store.map.size ≤ 2 ∧
      (((FallbackWorld.start 2).run sampleOps).store.claim "k1" "v4" 60 2000).1 = some "v2" := by
  obtain ⟨hsize, hheld⟩ := fallback_bounded_and_held (show 1 ≤ 2 by decide) sampleOps (by decide)
  obtain ⟨e, hlast, hclaim⟩ := hheld "k1" "v4" 60 2000 (by decide)
    ⟨⟨.claim ⟨"k1", "v1", 60, 0⟩, none, true⟩, by decide, by decide⟩ (by decide)
  have hwrite : lastWriteOf ((FallbackWorld.start 2).run sampleOps).log "k1" =
      some ⟨.fulfill ⟨"k1", "v2", 60, 500⟩, none, false⟩ := by decide
  obtain rfl := Option.some.inj (hwrite.symm.trans hlast)
  exact ⟨hsize, hclaim (by decide)⟩

end narwhal.portal.idempotency
