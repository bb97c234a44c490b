import Mathlib.Algebra.Order.Floor.Semiring
import Mathlib.Algebra.Order.Monoid.WithTop
import Mathlib.Data.List.Sigma
import Mathlib.Data.Rat.Floor

namespace narwhal.portal.k8s_client

/-! Workers that take the items of one list by a cursor they share. -/

/-- Where a worker stands: its call is pending, or has ended and the worker has not gone on, or the
    worker has ended. -/
inductive Worker (R E : Type) where
  | waiting (i : Nat)
  | settled (i : Nat) (answer : Except E R)
  | returned
  | threw (error : E)
deriving DecidableEq

/-- The state of a call of `mapWithConcurrency`: what its workers share, the calls of `fn` with their
    positions, and what the promise has become. -/
structure Pool (T R E : Type) where
  workers : List (Worker R E)
  cursor : Nat
  results : List (Option R)
  calls : List (T × Nat)
  outcome : Option (Except E (List (Option R)))
deriving DecidableEq

/-- What happens to a worker: its call ends, or it goes on after that. -/
inductive PoolEvent where
  | settles (k : Nat)
  | resumes (k : Nat)
deriving DecidableEq

/-- `Math.min(concurrency, items.length)` as the length of an array. -/
def workerCount : WithTop ℚ → Nat → Nat
  | none, n => n
  | some concurrency, n => ⌊min concurrency n⌋₊

variable {T R E : Type}

/-- The head of the loop: the worker takes the next item, or returns. -/
def Pool.take (items : List T) (s : Pool T R E) : Worker R E × Pool T R E :=
  match items[s.cursor]? with
  | none => (.returned, { s with cursor := s.cursor + 1 })
  | some item => (.waiting s.cursor, { s with cursor := s.cursor + 1, calls := s.calls ++ [(item, s.cursor)] })

/-- A worker is created and runs up to its first call. -/
def Pool.spawn (items : List T) (s : Pool T R E) : Pool T R E :=
  let (worker, s') := s.take items
  { s' with workers := s'.workers ++ [worker] }

def Worker.isReturned : Worker R E → Bool
  | .returned => true
  | _ => false

/-- `Promise.all(workers)` where every worker has returned. -/
def Pool.conclude (s : Pool T R E) : Pool T R E :=
  if s.workers.all Worker.isReturned then { s with outcome := s.outcome.or (some (.ok s.results)) } else s

/-- The state after the synchronous part. -/
def mapWithConcurrency (items : List T) (concurrency : WithTop ℚ) : Pool T R E :=
  ((Pool.spawn items)^[workerCount concurrency items.length]
    { workers := [], cursor := 0, results := List.replicate items.length none, calls := [], outcome := none }).conclude

/-- One event, where the call at a position ends with its answer; none where the event cannot be. -/
def Pool.step (items : List T) (answer : Nat → Except E R) (s : Pool T R E) : PoolEvent → Option (Pool T R E)
  | .settles k =>
    match s.workers[k]? with
    | some (.waiting i) => some { s with workers := s.workers.set k (.settled i (answer i)) }
    | _ => none
  | .resumes k =>
    match s.workers[k]? with
    | some (.settled i (.ok r)) =>
      let (worker, s') := { s with results := s.results.set i (some r) }.take items
      some { s' with workers := s'.workers.set k worker }.conclude
    | some (.settled _ (.error e)) =>
      some { s with workers := s.workers.set k (.threw e), outcome := s.outcome.or (some (.error e)) }
    | _ => none

def Worker.isWaiting : Worker R E → Bool
  | .waiting _ => true
  | _ => false

/-- The calls of `fn` that have not ended. -/
def Pool.pending (s : Pool T R E) : Nat := s.workers.countP Worker.isWaiting

/-! ### What a step does -/

section

variable {items : List T} {answer : Nat → Except E R} {s s' : Pool T R E} {e : PoolEvent}

theorem Pool.take_lt {item : T} (h : items[s.cursor]? = some item) :
    s.take items = (.waiting s.cursor, { s with cursor := s.cursor + 1, calls := s.calls ++ [(item, s.cursor)] }) := by
  simp only [Pool.take, h]

theorem Pool.take_ge (h : items.length ≤ s.cursor) :
    s.take items = (.returned, { s with cursor := s.cursor + 1 }) := by
  simp only [Pool.take, List.getElem?_eq_none h]

theorem Worker.isReturned_iff {worker : Worker R E} : worker.isReturned = true ↔ worker = .returned := by
  cases worker <;> simp [Worker.isReturned]

/-- The promise is not resolved before every worker has returned. -/
theorem Pool.conclude_of_mem {worker : Worker R E} (h : worker ∈ s.workers) (hne : worker ≠ .returned) : s.conclude = s := by
  unfold Pool.conclude
  rw [if_neg]
  intro hall
  exact hne (Worker.isReturned_iff.mp (List.all_eq_true.mp hall worker h))

/-- A call ends, or a worker whose call was answered takes an item or returns, or it throws. -/
theorem Pool.step_cases (h : s.step items answer e = some s') :
    (∃ k i, e = .settles k ∧ s.workers[k]? = some (.waiting i) ∧
      s' = { s with workers := s.workers.set k (.settled i (answer i)) }) ∨
    (∃ k i r item, e = .resumes k ∧ s.workers[k]? = some (.settled i (.ok r)) ∧ items[s.cursor]? = some item ∧
      s' = { s with
        workers := s.workers.set k (.waiting s.cursor)
        cursor := s.cursor + 1
        results := s.results.set i (some r)
        calls := s.calls ++ [(item, s.cursor)] }) ∨
    (∃ k i r, e = .resumes k ∧ s.workers[k]? = some (.settled i (.ok r)) ∧ items.length ≤ s.cursor ∧
      s' = { s with
        workers := s.workers.set k .returned
        cursor := s.cursor + 1
        results := s.results.set i (some r) }.conclude) ∨
    ∃ k i error, e = .resumes k ∧ s.workers[k]? = some (.settled i (.error error)) ∧
      s' = { s with workers := s.workers.set k (.threw error), outcome := s.outcome.or (some (.error error)) } := by
  cases e with
  | settles k =>
    simp only [Pool.step] at h
    split at h
    · next i hk => exact .inl ⟨k, i, rfl, hk, (Option.some.inj h).symm⟩
    · cases h
  | resumes k =>
    simp only [Pool.step] at h
    split at h
    · next i r hk =>
      obtain rfl := Option.some.inj h
      cases hitem : items[s.cursor]? with
      | some item =>
        refine .inr (.inl ⟨k, i, r, item, rfl, hk, rfl, ?_⟩)
        rw [Pool.take_lt (s := { s with results := s.results.set i (some r) }) hitem]
        have hmem : Worker.waiting s.cursor ∈ s.workers.set k (.waiting s.cursor) :=
          List.mem_set (List.getElem?_eq_some_iff.mp hk).1 _
        exact Pool.conclude_of_mem hmem (by simp)
      | none =>
        have hge := List.getElem?_eq_none_iff.mp hitem
        refine .inr (.inr (.inl ⟨k, i, r, rfl, hk, hge, ?_⟩))
        rw [Pool.take_ge (s := { s with results := s.results.set i (some r) }) hge]
    · next i error hk => exact .inr (.inr (.inr ⟨k, i, error, rfl, hk, (Option.some.inj h).symm⟩))
    · cases h

/-! ### The invariant -/

/-- The position whose call a worker waits for or goes on from. -/
def Worker.position : Worker R E → Option Nat
  | .waiting i => some i
  | .settled i _ => some i
  | .returned => none
  | .threw _ => none

/-- Items are taken in their order; a position that was taken is with a worker, or has its result, or
    has ended a worker. -/
structure Pool.Inv (items : List T) (answer : Nat → Except E R) (s : Pool T R E) : Prop where
  calls : s.calls = items.zipIdx.take s.cursor
  length : s.results.length = items.length
  settled : ∀ i a, .settled i a ∈ s.workers → a = answer i
  taken : ∀ i < min s.cursor items.length,
    (∃ worker ∈ s.workers, worker.position = some i) ∨ (∃ r, answer i = .ok r ∧ s.results[i]? = some (some r)) ∨
      ∃ error, answer i = .error error ∧ .threw error ∈ s.workers
  positions : ∀ worker ∈ s.workers, ∀ i, worker.position = some i → i < items.length
  threw : ∀ error, .threw error ∈ s.workers → (∃ i < items.length, answer i = .error error) ∧ ∃ e, s.outcome = some (.error e)
  returned : .returned ∈ s.workers → items.length < s.cursor
  rejected : ∀ error, s.outcome = some (.error error) → .threw error ∈ s.workers
  resolved : (∀ worker ∈ s.workers, worker = .returned) → s.outcome = some (.ok s.results)
  concluded : ∀ results, s.outcome = some (.ok results) → ∀ worker ∈ s.workers, worker = .returned

/-- A worker that is not replaced stays. -/
theorem mem_set_of_ne {workers : List (Worker R E)} {k : Nat} {old worker new : Worker R E} (hk : workers[k]? = some old)
    (hmem : worker ∈ workers) (hne : worker ≠ old) : worker ∈ workers.set k new := by
  obtain ⟨j, hj⟩ := List.mem_iff_getElem?.mp hmem
  have hkj : k ≠ j := by
    rintro rfl
    exact hne (Option.some.inj (hj.symm.trans hk))
  exact List.mem_iff_getElem?.mpr ⟨j, by rw [List.getElem?_set_ne hkj, hj]⟩

theorem mem_set_self {workers : List (Worker R E)} {k : Nat} {old : Worker R E} (hk : workers[k]? = some old)
    (new : Worker R E) : new ∈ workers.set k new :=
  List.mem_set (List.getElem?_eq_some_iff.mp hk).1 _

/-- The invariant is kept when a call ends, -/
theorem Pool.inv_settles {k i : Nat} (hk : s.workers[k]? = some (.waiting i)) (hs : s.Inv items answer) :
    Pool.Inv items answer { s with workers := s.workers.set k (.settled i (answer i)) } where
  calls := hs.calls
  length := hs.length
  settled j a hmem := by
    obtain hmem | heq := List.mem_or_eq_of_mem_set hmem
    · exact hs.settled j a hmem
    · cases heq
      rfl
  taken j hj := by
    obtain ⟨worker, hmem, hposition⟩ | hresult | ⟨error, herror, hmem⟩ := hs.taken j hj
    · by_cases hold : worker = .waiting i
      · subst hold
        exact .inl ⟨_, mem_set_self hk _, hposition⟩
      · exact .inl ⟨worker, mem_set_of_ne hk hmem hold, hposition⟩
    · exact .inr (.inl hresult)
    · exact .inr (.inr ⟨error, herror, mem_set_of_ne hk hmem (by simp)⟩)
  positions worker hmem j hj := by
    obtain hmem | rfl := List.mem_or_eq_of_mem_set hmem
    · exact hs.positions worker hmem j hj
    · exact hs.positions _ (List.mem_of_getElem? hk) j hj
  threw error hmem := by
    obtain hmem | heq := List.mem_or_eq_of_mem_set hmem
    · exact hs.threw error hmem
    · cases heq
  returned hmem := by
    obtain hmem | heq := List.mem_or_eq_of_mem_set hmem
    · exact hs.returned hmem
    · cases heq
  rejected error hrejected := mem_set_of_ne hk (hs.rejected error hrejected) (by simp)
  resolved hall := absurd (hall _ (mem_set_self hk _)) (by simp)
  concluded results hresults := absurd (hs.concluded results hresults _ (List.mem_of_getElem? hk)) (by simp)

/-- when its worker throws, -/
theorem Pool.inv_throws {k i : Nat} {error : E} (hk : s.workers[k]? = some (.settled i (.error error)))
    (hs : s.Inv items answer) :
    Pool.Inv items answer
      { s with workers := s.workers.set k (.threw error), outcome := s.outcome.or (some (.error error)) } where
  calls := hs.calls
  length := hs.length
  settled j a hmem := by
    obtain hmem | heq := List.mem_or_eq_of_mem_set hmem
    · exact hs.settled j a hmem
    · cases heq
  taken j hj := by
    obtain ⟨worker, hmem, hposition⟩ | hresult | ⟨error', herror, hmem⟩ := hs.taken j hj
    · by_cases hold : worker = .settled i (.error error)
      · subst hold
        obtain rfl := Option.some.inj hposition
        exact .inr (.inr ⟨error, (hs.settled i _ hmem).symm, mem_set_self hk _⟩)
      · exact .inl ⟨worker, mem_set_of_ne hk hmem hold, hposition⟩
    · exact .inr (.inl hresult)
    · exact .inr (.inr ⟨error', herror, mem_set_of_ne hk hmem (by simp)⟩)
  positions worker hmem j hj := by
    obtain hmem | rfl := List.mem_or_eq_of_mem_set hmem
    · exact hs.positions worker hmem j hj
    · cases hj
  threw error' hmem := by
    have hold := List.mem_of_getElem? hk
    have houtcome : ∃ e, s.outcome.or (some (.error error)) = some (Except.error e) := by
      cases houtcome : s.outcome with
      | none => exact ⟨error, rfl⟩
      | some outcome =>
        cases outcome with
        | error e => exact ⟨e, rfl⟩
        | ok results => exact absurd (hs.concluded results houtcome _ hold) (by simp)
    refine ⟨?_, houtcome⟩
    obtain hmem | heq := List.mem_or_eq_of_mem_set hmem
    · exact (hs.threw error' hmem).1
    · cases heq
      exact ⟨i, hs.positions _ hold i rfl, (hs.settled i _ hold).symm⟩
  returned hmem := by
    obtain hmem | heq := List.mem_or_eq_of_mem_set hmem
    · exact hs.returned hmem
    · cases heq
  rejected error' hrejected := by
    cases houtcome : s.outcome with
    | none =>
      simp only [houtcome, Option.none_or, Option.some.injEq, Except.error.injEq] at hrejected
      subst hrejected
      exact mem_set_self hk _
    | some outcome =>
      simp only [houtcome, Option.some_or] at hrejected
      exact mem_set_of_ne hk (hs.rejected error' (houtcome.trans hrejected)) (by simp)
  resolved hall := absurd (hall _ (mem_set_self hk _)) (by simp)
  concluded results hresults := by
    cases houtcome : s.outcome with
    | none => simp [houtcome] at hresults
    | some outcome =>
      simp only [houtcome, Option.some_or] at hresults
      exact absurd (hs.concluded results (houtcome.trans hresults) _ (List.mem_of_getElem? hk)) (by simp)

/-- Where a worker puts its result, every position that was taken is still accounted for. -/
theorem Pool.taken_set {k i : Nat} {r : R} {new : Worker R E} (hk : s.workers[k]? = some (.settled i (.ok r)))
    (hs : s.Inv items answer) {j : Nat} (hj : j < min s.cursor items.length) :
    (∃ worker ∈ s.workers.set k new, worker.position = some j) ∨
      (∃ r', answer j = .ok r' ∧ (s.results.set i (some r))[j]? = some (some r')) ∨
      ∃ error, answer j = .error error ∧ .threw error ∈ s.workers.set k new := by
  have hold := List.mem_of_getElem? hk
  have hlt : i < s.results.length := hs.length ▸ hs.positions _ hold i rfl
  obtain ⟨worker, hmem, hposition⟩ | ⟨r', hr', hresult⟩ | ⟨error, herror, hmem⟩ := hs.taken j hj
  · by_cases heq : worker = .settled i (.ok r)
    · subst heq
      obtain rfl := Option.some.inj hposition
      exact .inr (.inl ⟨r, (hs.settled i _ hold).symm, by rw [List.getElem?_set_self hlt]⟩)
    · exact .inl ⟨worker, mem_set_of_ne hk hmem heq, hposition⟩
  · by_cases hij : i = j
    · subst hij
      exact .inr (.inl ⟨r, (hs.settled i _ hold).symm, by rw [List.getElem?_set_self hlt]⟩)
    · exact .inr (.inl ⟨r', hr', by rw [List.getElem?_set_ne hij, hresult]⟩)
  · exact .inr (.inr ⟨error, herror, mem_set_of_ne hk hmem (by simp)⟩)

/-- when it takes the next item, -/
theorem Pool.inv_takes {k i : Nat} {r : R} {item : T} (hk : s.workers[k]? = some (.settled i (.ok r)))
    (hitem : items[s.cursor]? = some item) (hs : s.Inv items answer) :
    Pool.Inv items answer
      { s with
        workers := s.workers.set k (.waiting s.cursor)
        cursor := s.cursor + 1
        results := s.results.set i (some r)
        calls := s.calls ++ [(item, s.cursor)] } where
  calls := by
    have hnext : items.zipIdx[s.cursor]? = some (item, s.cursor) := by simp [hitem]
    rw [List.take_add_one, hnext, hs.calls]
    rfl
  length := by rw [List.length_set, hs.length]
  settled j a hmem := by
    obtain hmem | heq := List.mem_or_eq_of_mem_set hmem
    · exact hs.settled j a hmem
    · cases heq
  taken j hj := by
    have hlt := (List.getElem?_eq_some_iff.mp hitem).1
    by_cases hcursor : j = s.cursor
    · exact .inl ⟨_, mem_set_self hk _, congrArg some hcursor.symm⟩
    · exact Pool.taken_set hk hs (by dsimp only at hj; omega)
  positions worker hmem j hj := by
    obtain hmem | rfl := List.mem_or_eq_of_mem_set hmem
    · exact hs.positions worker hmem j hj
    · obtain rfl := Option.some.inj hj
      exact (List.getElem?_eq_some_iff.mp hitem).1
  threw error hmem := by
    obtain hmem | heq := List.mem_or_eq_of_mem_set hmem
    · exact hs.threw error hmem
    · cases heq
  returned hmem := by
    obtain hmem | heq := List.mem_or_eq_of_mem_set hmem
    · exact (hs.returned hmem).trans (Nat.lt_succ_self _)
    · cases heq
  rejected error hrejected := mem_set_of_ne hk (hs.rejected error hrejected) (by simp)
  resolved hall := absurd (hall _ (mem_set_self hk _)) (by simp)
  concluded results hresults := absurd (hs.concluded results hresults _ (List.mem_of_getElem? hk)) (by simp)

/-- and when it returns. -/
theorem Pool.inv_returns {k i : Nat} {r : R} (hk : s.workers[k]? = some (.settled i (.ok r)))
    (hcursor : items.length ≤ s.cursor) (hs : s.Inv items answer) :
    Pool.Inv items answer
      { s with workers := s.workers.set k .returned, cursor := s.cursor + 1, results := s.results.set i (some r) }.conclude := by
  have hold := List.mem_of_getElem? hk
  have hcalls : s.calls = items.zipIdx.take (s.cursor + 1) := by
    have hlength : items.zipIdx.length ≤ s.cursor := by simpa using hcursor
    rw [hs.calls, List.take_of_length_le hlength, List.take_of_length_le (hlength.trans (Nat.le_succ _))]
  have hsettled : ∀ j a, .settled j a ∈ s.workers.set k .returned → a = answer j := by
    intro j a hmem
    obtain hmem | heq := List.mem_or_eq_of_mem_set hmem
    · exact hs.settled j a hmem
    · cases heq
  have hpositions : ∀ worker ∈ s.workers.set k .returned, ∀ j, worker.position = some j → j < items.length := by
    intro worker hmem j hj
    obtain hmem | rfl := List.mem_or_eq_of_mem_set hmem
    · exact hs.positions worker hmem j hj
    · cases hj
  have hthrew : ∀ error, .threw error ∈ s.workers.set k .returned → .threw error ∈ s.workers := by
    intro error hmem
    obtain hmem | heq := List.mem_or_eq_of_mem_set hmem
    · exact hmem
    · cases heq
  have hnone : ∀ results, s.outcome ≠ some (.ok results) := by
    intro results hresults
    exact absurd (hs.concluded results hresults _ hold) (by simp)
  have htaken : ∀ j < min (s.cursor + 1) items.length, j < min s.cursor items.length := by omega
  unfold Pool.conclude
  split_ifs with hall
  · -- Nothing has thrown, since every worker has returned.
    have hreturned : ∀ worker ∈ s.workers.set k .returned, worker = .returned := fun worker hmem =>
      Worker.isReturned_iff.mp (List.all_eq_true.mp hall worker hmem)
    have houtcome : s.outcome = none := by
      cases houtcome : s.outcome with
      | none => rfl
      | some outcome =>
        cases outcome with
        | error error =>
          have hmem : Worker.threw error ∈ s.workers.set k .returned := mem_set_of_ne hk (hs.rejected error houtcome) (by simp)
          exact absurd (hreturned _ hmem) (by simp)
        | ok results => exact absurd houtcome (hnone results)
    exact {
      calls := hcalls
      length := by rw [List.length_set, hs.length]
      settled := hsettled
      taken := fun j hj => Pool.taken_set hk hs (htaken j hj)
      positions := hpositions
      threw := fun error hmem => absurd (hreturned _ hmem) (by simp)
      returned := fun _ => Nat.lt_succ_of_le hcursor
      rejected := fun error hrejected => by simp [houtcome] at hrejected
      resolved := fun _ => by rw [houtcome, Option.none_or]
      concluded := fun _ _ => hreturned }
  · exact {
      calls := hcalls
      length := by rw [List.length_set, hs.length]
      settled := hsettled
      taken := fun j hj => Pool.taken_set hk hs (htaken j hj)
      positions := hpositions
      threw := fun error hmem => hs.threw error (hthrew error hmem)
      returned := fun _ => Nat.lt_succ_of_le hcursor
      rejected := fun error hrejected => mem_set_of_ne hk (hs.rejected error hrejected) (by simp)
      resolved := fun hreturned =>
        absurd (List.all_eq_true.mpr fun worker hmem => Worker.isReturned_iff.mpr (hreturned worker hmem)) hall
      concluded := fun results hresults => absurd hresults (hnone results) }

/-- So every event keeps it. -/
theorem Pool.inv_step (h : s.step items answer e = some s') (hs : s.Inv items answer) : s'.Inv items answer := by
  obtain ⟨k, i, -, hk, rfl⟩ | ⟨k, i, r, item, -, hk, hitem, rfl⟩ | ⟨k, i, r, -, hk, hcursor, rfl⟩ | ⟨k, i, error, -, hk, rfl⟩ :=
    Pool.step_cases h
  · exact Pool.inv_settles hk hs
  · exact Pool.inv_takes hk hitem hs
  · exact Pool.inv_returns hk hcursor hs
  · exact Pool.inv_throws hk hs

/-! ### The start -/

theorem workerCount_le (concurrency : WithTop ℚ) (n : Nat) : workerCount concurrency n ≤ n := by
  cases concurrency with
  | top => exact le_rfl
  | coe q =>
    refine (Nat.floor_le_floor (min_le_right q (n : ℚ))).trans ?_
    rw [Nat.floor_natCast]

/-- The workers that have made their first calls. -/
def spawned (R E : Type) (items : List T) (k : Nat) : Pool T R E where
  workers := (List.range k).map .waiting
  cursor := k
  results := List.replicate items.length none
  calls := items.zipIdx.take k
  outcome := none

/-- The workers that are spawned take the first items. -/
theorem iterate_spawn (items : List T) {k : Nat} (h : k ≤ items.length) :
    (Pool.spawn items)^[k] (spawned R E items 0) = spawned R E items k := by
  induction k with
  | zero => rfl
  | succ k ih =>
    have hitem : items[(spawned R E items k).cursor]? = some items[k] := List.getElem?_eq_getElem h
    have hnext : items.zipIdx[k]? = some (items[k], k) := by simp [List.getElem?_eq_getElem h]
    rw [Function.iterate_succ_apply', ih (Nat.le_of_succ_le h), Pool.spawn, Pool.take_lt hitem]
    simp only [spawned, List.range_succ, List.map_append, List.map_singleton, List.take_add_one, hnext,
      Option.toList_some]

theorem mapWithConcurrency_eq (items : List T) (concurrency : WithTop ℚ) :
    (mapWithConcurrency items concurrency : Pool T R E) =
      (spawned R E items (workerCount concurrency items.length)).conclude :=
  congrArg Pool.conclude (iterate_spawn items (workerCount_le _ _))

theorem inv_spawned (answer : Nat → Except E R) {k : Nat} (h : k ≤ items.length) (hk : 0 < k) :
    (spawned R E items k).Inv items answer where
  calls := rfl
  length := List.length_replicate
  settled i a hmem := by simp [spawned] at hmem
  taken j hj := by
    refine .inl ⟨.waiting j, ?_, rfl⟩
    simp only [spawned] at hj ⊢
    exact List.mem_map.mpr ⟨j, List.mem_range.mpr (by omega), rfl⟩
  positions worker hmem i hi := by
    obtain ⟨j, hj, rfl⟩ := List.mem_map.mp hmem
    obtain rfl := Option.some.inj hi
    exact (List.mem_range.mp hj).trans_le h
  threw error hmem := by simp [spawned] at hmem
  returned hmem := by simp [spawned] at hmem
  rejected error hrejected := by simp [spawned] at hrejected
  resolved hall := absurd (hall (.waiting 0) (List.mem_map.mpr ⟨0, List.mem_range.mpr hk, rfl⟩)) (by simp)
  concluded results hresults := by simp [spawned] at hresults

theorem workerCount_pos {concurrency : WithTop ℚ} (h : 1 ≤ concurrency) {n : Nat} (hn : 0 < n) :
    0 < workerCount concurrency n := by
  cases concurrency with
  | top => exact hn
  | coe q =>
    have hq : (1 : ℚ) ≤ q := by exact_mod_cast h
    have hn' : (1 : ℚ) ≤ n := by exact_mod_cast hn
    exact Nat.floor_pos.mpr (le_min hq hn')

theorem inv_mapWithConcurrency (items : List T) {concurrency : WithTop ℚ} (h : 1 ≤ concurrency)
    (answer : Nat → Except E R) : (mapWithConcurrency items concurrency : Pool T R E).Inv items answer := by
  rw [mapWithConcurrency_eq]
  have hle := workerCount_le concurrency items.length
  obtain hzero | hpos := Nat.eq_zero_or_pos items.length
  · obtain rfl := List.length_eq_zero_iff.mp hzero
    rw [Nat.le_zero.mp hle]
    constructor <;> simp [spawned, Pool.conclude]
  · have hcount := workerCount_pos h hpos
    have hmem : Worker.waiting 0 ∈ (spawned R E items (workerCount concurrency items.length)).workers :=
      List.mem_map.mpr ⟨0, List.mem_range.mpr hcount, rfl⟩
    rw [Pool.conclude_of_mem hmem (by simp)]
    exact inv_spawned answer hle hcount

/-! ### Runs -/

/-- The events that a call can still take part in: its end, and that its worker goes on. -/
def Worker.weight : Worker R E → Nat
  | .waiting _ => 2
  | .settled _ _ => 1
  | .returned => 0
  | .threw _ => 0

def Pool.remaining (items : List T) (s : Pool T R E) : Nat :=
  2 * (items.length - s.cursor) + (s.workers.map Worker.weight).sum

/-- What a worker still has to do is counted once. -/
theorem weight_set {workers : List (Worker R E)} {k : Nat} {old : Worker R E} (hk : workers[k]? = some old) (new : Worker R E) :
    ((workers.set k new).map Worker.weight).sum + old.weight = (workers.map Worker.weight).sum + new.weight := by
  induction workers generalizing k with
  | nil => simp at hk
  | cons worker workers ih =>
    cases k with
    | zero =>
      obtain rfl : worker = old := by simpa using hk
      simp only [List.set_cons_zero, List.map_cons, List.sum_cons]
      omega
    | succ k =>
      have hrest := ih (k := k) (by simpa using hk)
      simp only [List.set_cons_succ, List.map_cons, List.sum_cons]
      omega

theorem Pool.remaining_conclude (s : Pool T R E) : s.conclude.remaining items = s.remaining items := by
  unfold Pool.conclude
  split_ifs <;> rfl

/-- Every event brings the end nearer. -/
theorem Pool.remaining_step (h : s.step items answer e = some s') : s'.remaining items < s.remaining items := by
  obtain ⟨k, i, -, hk, rfl⟩ | ⟨k, i, r, item, -, hk, hitem, rfl⟩ | ⟨k, i, r, -, hk, hcursor, rfl⟩ | ⟨k, i, error, -, hk, rfl⟩ :=
    Pool.step_cases h
  · have hweight := weight_set hk (.settled i (answer i))
    simp only [Worker.weight] at hweight
    simp only [Pool.remaining]
    omega
  · have hweight := weight_set hk (.waiting s.cursor)
    have hlt := (List.getElem?_eq_some_iff.mp hitem).1
    simp only [Worker.weight] at hweight
    simp only [Pool.remaining]
    omega
  · have hweight := weight_set hk .returned
    simp only [Worker.weight] at hweight
    rw [Pool.remaining_conclude]
    simp only [Pool.remaining]
    omega
  · have hweight := weight_set hk (.threw error)
    simp only [Worker.weight] at hweight
    simp only [Pool.remaining]
    omega

/-- A run of the workers from the start. -/
inductive Pool.Reachable (items : List T) (concurrency : WithTop ℚ) (answer : Nat → Except E R) :
    List PoolEvent → Pool T R E → Prop
  | start : Reachable items concurrency answer [] (mapWithConcurrency items concurrency)
  | step {events s s'} (e) : Reachable items concurrency answer events s → s.step items answer e = some s' →
    Reachable items concurrency answer (events ++ [e]) s'

variable {concurrency : WithTop ℚ} {events : List PoolEvent}

/-- No worker is added or lost. -/
theorem Pool.length_workers_step (h : s.step items answer e = some s') : s'.workers.length = s.workers.length := by
  obtain ⟨k, i, -, -, rfl⟩ | ⟨k, i, r, item, -, -, -, rfl⟩ | ⟨k, i, r, -, -, -, rfl⟩ | ⟨k, i, error, -, -, rfl⟩ :=
    Pool.step_cases h
  · exact List.length_set
  · exact List.length_set
  · unfold Pool.conclude
    split_ifs <;> exact List.length_set
  · exact List.length_set

theorem Pool.Reachable.length_workers (h : Pool.Reachable items concurrency answer events s) :
    s.workers.length = workerCount concurrency items.length := by
  induction h with
  | start =>
    rw [mapWithConcurrency_eq]
    unfold Pool.conclude
    split_ifs <;> simp [spawned]
  | step e _ hstep ih => rw [Pool.length_workers_step hstep, ih]

/-- The invariant holds in every state of a run. -/
theorem Pool.Reachable.inv (hconcurrency : 1 ≤ concurrency) (h : Pool.Reachable items concurrency answer events s) :
    s.Inv items answer := by
  induction h with
  | start => exact inv_mapWithConcurrency items hconcurrency answer
  | step e _ hstep ih => exact Pool.inv_step hstep ih

theorem Pool.remaining_start (items : List T) (concurrency : WithTop ℚ) :
    (mapWithConcurrency items concurrency : Pool T R E).remaining items = 2 * items.length := by
  have hle := workerCount_le concurrency items.length
  have hweight : ((spawned R E items (workerCount concurrency items.length)).workers.map Worker.weight).sum =
      2 * workerCount concurrency items.length := by
    simp [spawned, Function.comp_def, Worker.weight, mul_comm]
  rw [mapWithConcurrency_eq, Pool.remaining_conclude, Pool.remaining, hweight]
  simp only [spawned]
  omega

/-- The events of a run and those that remain are at most two for each item. -/
theorem Pool.Reachable.remaining (h : Pool.Reachable items concurrency answer events s) :
    events.length + s.remaining items ≤ 2 * items.length := by
  induction h with
  | start => rw [Pool.remaining_start, List.length_nil, zero_add]
  | step e _ hstep ih =>
    have hless := Pool.remaining_step hstep
    rw [List.length_append, List.length_singleton]
    omega

theorem coe_workerCount_le (concurrency : WithTop ℚ) (hconcurrency : 1 ≤ concurrency) (n : Nat) :
    ((workerCount concurrency n : ℚ) : WithTop ℚ) ≤ concurrency := by
  cases concurrency with
  | top => exact le_top
  | coe q =>
    have hq : (0 : ℚ) ≤ q := zero_le_one.trans (by exact_mod_cast hconcurrency)
    exact WithTop.coe_le_coe.mpr ((Nat.floor_le (le_min hq n.cast_nonneg)).trans (min_le_left _ _))

/-- Where nothing can happen any more, every worker has ended. -/
theorem Pool.ended_of_stuck (h : ∀ e, s.step items answer e = none) {worker : Worker R E}
    (hmem : worker ∈ s.workers) : worker = .returned ∨ ∃ error, worker = .threw error := by
  obtain ⟨k, hk⟩ := List.mem_iff_getElem?.mp hmem
  cases worker with
  | waiting i =>
    have hstep := h (.settles k)
    simp [Pool.step, hk] at hstep
  | settled i a =>
    have hstep := h (.resumes k)
    cases a <;> simp [Pool.step, hk] at hstep
  | returned => exact .inl rfl
  | threw error => exact .inr ⟨error, rfl⟩

/-- In a run to the end without a rejection, every item was taken and has its result. -/
theorem Pool.outcome_of_answered (hconcurrency : 1 ≤ concurrency) (hrun : Pool.Reachable items concurrency answer events s)
    (hstuck : ∀ e, s.step items answer e = none) (hok : ∀ i < items.length, (answer i).isOk = true) :
    s.calls = items.zipIdx ∧ s.outcome = some (.ok ((List.range items.length).map fun i => (answer i).toOption)) := by
  have hs := hrun.inv hconcurrency
  have hreturned : ∀ worker ∈ s.workers, worker = .returned := by
    intro worker hmem
    obtain hreturned | ⟨error, rfl⟩ := Pool.ended_of_stuck hstuck hmem
    · exact hreturned
    · obtain ⟨⟨i, hi, hanswer⟩, -⟩ := hs.threw error hmem
      have := hok i hi
      simp [hanswer, Except.isOk, Except.toBool] at this
  have hcursor : items.length ≤ s.cursor := by
    obtain hzero | hpos := Nat.eq_zero_or_pos items.length
    · exact hzero ▸ Nat.zero_le _
    · have hcount : 0 < s.workers.length := hrun.length_workers ▸ workerCount_pos hconcurrency hpos
      have hmem := List.getElem_mem hcount
      rw [hreturned _ hmem] at hmem
      exact (hs.returned hmem).le
  refine ⟨by rw [hs.calls, List.take_of_length_le (by simpa using hcursor)], ?_⟩
  rw [hs.resolved hreturned, Option.some.injEq, Except.ok.injEq]
  refine List.ext_getElem? fun i => ?_
  by_cases hi : i < items.length
  · obtain ⟨worker, hmem, hposition⟩ | ⟨r, hr, hresult⟩ | ⟨error, -, hmem⟩ := hs.taken i (by omega)
    · rw [hreturned worker hmem] at hposition
      cases hposition
    · simp [hresult, hi, hr, Except.toOption]
    · exact absurd (hreturned _ hmem) (by simp)
  · rw [List.getElem?_eq_none (hs.length ▸ Nat.le_of_not_lt hi), List.getElem?_eq_none (by simpa using hi)]

/-- Where a call that was made is rejected, the promise is rejected in the end. -/
theorem Pool.outcome_of_rejected (hconcurrency : 1 ≤ concurrency) (hrun : Pool.Reachable items concurrency answer events s)
    (hstuck : ∀ e, s.step items answer e = none) {call : T × Nat} (hcall : call ∈ s.calls) {error : E}
    (herror : answer call.2 = .error error) : ∃ e, s.outcome = some (.error e) := by
  have hs := hrun.inv hconcurrency
  have htaken : call.2 < min s.cursor items.length := by
    rw [hs.calls] at hcall
    obtain ⟨k, hk, rfl⟩ := List.mem_take_iff_getElem.mp hcall
    rw [List.length_zipIdx] at hk
    simpa using hk
  obtain ⟨worker, hmem, hposition⟩ | ⟨r, hr, -⟩ | ⟨error', -, hmem⟩ := hs.taken call.2 htaken
  · obtain rfl | ⟨e, rfl⟩ := Pool.ended_of_stuck hstuck hmem <;> cases hposition
  · simp [herror] at hr
  · exact (hs.threw error' hmem).2

/-- In every run, the calls made are of the first items, once each, and no more of them are pending
    than is allowed. A run has at most two events for each item; where it cannot go on, the promise has
    the results of all calls, or is rejected if one of them was. -/
theorem mapWithConcurrency_runs (items : List T) (concurrency : WithTop ℚ) (hconcurrency : 1 ≤ concurrency)
    (answer : Nat → Except E R) (events : List PoolEvent) (s : Pool T R E)
    (hrun : Pool.Reachable items concurrency answer events s) :
    s.calls <+: items.zipIdx ∧ s.calls.Nodup ∧ ((s.pending : ℚ) : WithTop ℚ) ≤ concurrency ∧
      events.length ≤ 2 * items.length ∧
      ((∀ e, s.step items answer e = none) →
        ((∀ i < items.length, (answer i).isOk = true) → s.calls = items.zipIdx ∧
          s.outcome = some (.ok ((List.range items.length).map fun i => (answer i).toOption))) ∧
        ((∃ call ∈ s.calls, ∃ error, answer call.2 = .error error) → ∃ error, s.outcome = some (.error error))) := by
  have hs := hrun.inv hconcurrency
  have hpending : s.pending ≤ workerCount concurrency items.length := hrun.length_workers ▸ List.countP_le_length
  refine ⟨hs.calls ▸ List.take_prefix _ _, ?_, ?_, by have := hrun.remaining; omega, fun hstuck => ⟨?_, ?_⟩⟩
  · rw [hs.calls]
    exact (List.Nodup.of_map Prod.snd (List.nodup_zipIdx_map_snd items)).sublist (List.take_sublist _ _)
  · exact (WithTop.coe_le_coe.mpr (Nat.cast_le.mpr hpending)).trans (coe_workerCount_le concurrency hconcurrency _)
  · exact Pool.outcome_of_answered hconcurrency hrun hstuck
  · rintro ⟨call, hcall, error, herror⟩
    exact Pool.outcome_of_rejected hconcurrency hrun hstuck hcall herror

/-- The call of the third item is rejected. -/
def sampleAnswer (i : Nat) : Except String Nat := if i = 2 then .error "refused" else .ok i

/-- Four items and two workers: the second call ends first and its worker takes the third item, the first
    worker takes the fourth, and is not stopped by the rejection of the third. -/
def sampleEvents : List PoolEvent :=
  [.settles 1, .resumes 1, .settles 0, .settles 1, .resumes 0, .resumes 1, .settles 0, .resumes 0]

def sampleEnd : Pool Char Nat String where
  workers := [.returned, .threw "refused"]
  cursor := 5
  results := [some 0, some 1, none, some 3]
  calls := [('a', 0), ('b', 1), ('c', 2), ('d', 3)]
  outcome := some (.error "refused")

theorem sample_reachable : Pool.Reachable ['a', 'b', 'c', 'd'] 2 sampleAnswer sampleEvents sampleEnd := by
  have hstart : mapWithConcurrency ['a', 'b', 'c', 'd'] 2 = spawned Nat String ['a', 'b', 'c', 'd'] 2 := by decide +kernel
  have h0 : Pool.Reachable ['a', 'b', 'c', 'd'] 2 sampleAnswer [] (mapWithConcurrency ['a', 'b', 'c', 'd'] 2) := .start
  rw [hstart] at h0
  have h2 := (h0.step (.settles 1) rfl).step (.resumes 1) rfl
  have h4 := (h2.step (.settles 0) rfl).step (.settles 1) rfl
  have h6 := (h4.step (.resumes 0) rfl).step (.resumes 1) rfl
  exact (h6.step (.settles 0) rfl).step (.resumes 0) rfl

theorem sample_stuck : ∀ e, sampleEnd.step ['a', 'b', 'c', 'd'] sampleAnswer e = none := by
  rintro (k | k) <;> rcases k with _ | _ | k <;> rfl

theorem mapWithConcurrency_runs_sample :
    sampleEnd.calls <+: ['a', 'b', 'c', 'd'].zipIdx ∧ sampleEnd.calls.Nodup ∧ sampleEvents.length ≤ 8 ∧
      ∃ error, sampleEnd.outcome = some (.error error) := by
  have hconcurrency : (1 : WithTop ℚ) ≤ 2 := by decide +kernel
  obtain ⟨hcalls, hnodup, -, hlength, hend⟩ := mapWithConcurrency_runs ['a', 'b', 'c', 'd'] 2 hconcurrency
    sampleAnswer sampleEvents sampleEnd sample_reachable
  exact ⟨hcalls, hnodup, hlength, (hend sample_stuck).2 ⟨('c', 2), by decide, "refused", rfl⟩⟩

end

end narwhal.portal.k8s_client
