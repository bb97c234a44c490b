import Mathlib.Algebra.Order.Monoid.WithTop
import Mathlib.Data.Rat.Floor
import Mathlib.Logic.Relation
import Narwhal.Lib.JsText

open jslib

namespace narwhal.portal.http_client

/-! ### The policy of a call -/

def IDEMPOTENT_METHODS : List Text := ["GET", "HEAD", "PUT", "DELETE", "OPTIONS"].map String.toList

def RETRYABLE_STATUS : List Nat := [429, 502, 503, 504]

def DEFAULT_MAX_ATTEMPTS : WithTop ℚ := (3 : ℚ)

def DEFAULT_BASE_DELAY_MS : ℚ := 200

def DEFAULT_MAX_DELAY_MS : ℚ := 5000

def DEFAULT_MAX_RESPONSE_BYTES : ℚ := 8 * 1024 * 1024

/-- A number of attempts may be `Infinity`. -/
structure RetryOptions where
  maxAttempts : Option (WithTop ℚ)
  baseDelayMs : Option ℚ
  maxDelayMs : Option ℚ

/-- `retry` is `none` where it is `false`, and has no field where it is not given. -/
structure FetchWithPolicyOptions where
  maxResponseBytes : Option ℚ
  retry : Option RetryOptions

/-- `toUpperCase` of the letters that the names of methods can come from. -/
def upperChar (c : Char) : Char := if c = 'ı' then 'I' else if c = 'ſ' then 'S' else c.toUpper

/-- The method, `GET` by default. -/
def methodOf (method : Option Text) : Text := (method.getD "GET".toList).map upperChar

def isSafeInteger (n : ℚ) : Bool := n.den = 1 ∧ |n| ≤ 2 ^ 53 - 1

structure Policy where
  canRetry : Bool
  maxAttempts : WithTop ℚ
  baseDelayMs : ℚ
  maxDelayMs : ℚ
deriving DecidableEq

/-- What the call works with; `none` is the RangeError of a limit that is no positive integer. -/
def policyOf (method : Option Text) (options : FetchWithPolicyOptions) : Option Policy :=
  let maxResponseBytes := options.maxResponseBytes.getD DEFAULT_MAX_RESPONSE_BYTES
  if ¬ isSafeInteger maxResponseBytes ∨ maxResponseBytes ≤ 0 then none
  else
    let canRetry : Bool := options.retry.isSome ∧ methodOf method ∈ IDEMPOTENT_METHODS
    some {
      canRetry := canRetry
      maxAttempts := if canRetry then (options.retry.bind RetryOptions.maxAttempts).getD DEFAULT_MAX_ATTEMPTS else 1
      baseDelayMs := (options.retry.bind RetryOptions.baseDelayMs).getD DEFAULT_BASE_DELAY_MS
      maxDelayMs := (options.retry.bind RetryOptions.maxDelayMs).getD DEFAULT_MAX_DELAY_MS }

/-! ### Delays -/

/-- A value of `Math.random()`. -/
abbrev Random := { r : ℚ // 0 ≤ r ∧ r < 1 }

def computeBackoffMs (random : Random) (attempt : Nat) (baseDelayMs maxDelayMs : ℚ) : ℚ :=
  random * min maxDelayMs (baseDelayMs * 2 ^ (attempt - 1))

structure Response where
  id : Nat
  status : Nat
  retryAfter : Option Text
deriving DecidableEq

/-- How a header is read: a finite number of seconds, or a date. -/
structure HeaderReader where
  number : Text → Option ℚ
  date : Text → Option Int

def retryAfterMs (reader : HeaderReader) (now : Int) (res : Response) (maxDelayMs : ℚ) : Option ℚ :=
  match res.retryAfter.filter (· ≠ []) with
  | none => none
  | some header =>
    match reader.number header with
    | some seconds => some (min maxDelayMs (max 0 (seconds * 1000)))
    | none => (reader.date header).map fun dateMs => min maxDelayMs (max 0 ((dateMs - now : Int) : ℚ))

/-! ### The run of a call -/

/-- How a call of `fetch` ends: with a response, by itself, or because the signal it was given was aborted. -/
inductive Outcome where
  | responds (response : Response)
  | fails
  | aborts
deriving DecidableEq

inductive HttpClientErrorKind where
  | timeout
  | network
  | aborted
deriving DecidableEq

/-- Where the function stands: it waits for `fetch`, goes on after that, cancels a body, sleeps (within
    the `try` or within its `catch`), goes on after a sleep that an abort has ended, or has ended. -/
inductive Phase where
  | called
  | fetching
  | settled (outcome : Outcome)
  | cancelling (response : Response)
  | sleeping (inCatch : Bool)
  | interrupted (inCatch : Bool)
  | returned (response : Response)
  | threw (kind : HttpClientErrorKind)
deriving DecidableEq

/-- A call of `fetch`: how it has ended, and how long the function slept after it. -/
structure Call where
  outcome : Option Outcome
  waitMs : Option ℚ
deriving DecidableEq

/-- The state of a call of `fetchWithPolicy`. Of a signal that was given it says whether it is aborted;
    the last call of `fetch` comes first. -/
structure Client where
  optionsSignal : Option Bool
  initSignal : Option Bool
  attempt : Nat
  timedOut : Bool
  phase : Phase
  calls : List Call
deriving DecidableEq

/-- Whether the combination of these signals is aborted. -/
def combineSignals (signals : List (Option Bool)) : Bool := signals.any (· = some true)

def Client.callerAborted (s : Client) : Bool := combineSignals [s.optionsSignal, s.initSignal]

def Client.ended (s : Client) : Bool :=
  match s.phase with
  | .returned _ | .threw _ => true
  | _ => false

/-- The last call of `fetch` has ended. -/
def Client.answered (outcome : Outcome) (s : Client) : List Call :=
  match s.calls with
  | call :: calls => { call with outcome := some outcome } :: calls
  | [] => []

/-- The function sleeps after the last call of `fetch`. -/
def Client.waited (ms : ℚ) (s : Client) : List Call :=
  match s.calls with
  | call :: calls => { call with waitMs := some ms } :: calls
  | [] => []

def Client.delay (inCatch : Bool) (ms : ℚ) (s : Client) : Client :=
  if s.callerAborted then { s with phase := .interrupted inCatch }
  else { s with phase := .sleeping inCatch, calls := s.waited ms }

/-- The `catch` block. -/
def Client.caught (p : Policy) (random : Random) (s : Client) : Client :=
  let kind : HttpClientErrorKind := if s.callerAborted then .aborted else if s.timedOut then .timeout else .network
  if p.canRetry ∧ (s.attempt : WithTop ℚ) < p.maxAttempts ∧ kind = .network then
    s.delay true (computeBackoffMs random s.attempt p.baseDelayMs p.maxDelayMs)
  else { s with phase := .threw kind }

/-- The loop up to its first `await`: nothing else runs between the end of a sleep and the call of `fetch`. -/
def Client.beginAttempt (p : Policy) (s : Client) : Client :=
  if ((s.attempt + 1 : Nat) : WithTop ℚ) ≤ p.maxAttempts then
    let s := { s with attempt := s.attempt + 1, timedOut := false }
    -- The `catch` block gives the error this kind again.
    if s.callerAborted then { s with phase := .threw .aborted }
    else { s with phase := .fetching, calls := ⟨none, none⟩ :: s.calls }
  else { s with phase := .threw .network }

inductive Source where
  | options
  | init
deriving DecidableEq

inductive Event where
  | starts
  | aborts (source : Source)
  | timerFires
  | fetchEnds (outcome : Outcome)
  | sleepEnds
  | resumes (random : Random) (now : Int)

/-- An abort ends a sleep. -/
def Client.interrupt (s : Client) : Client :=
  match s.phase with
  | .sleeping inCatch => { s with phase := .interrupted inCatch }
  | _ => s

/-- One event; none where the event cannot be. -/
def Client.step (reader : HeaderReader) (p : Policy) (s : Client) : Event → Option Client
  | .starts => if s.phase = .called then some (s.beginAttempt p) else none
  | .aborts .options =>
    if s.optionsSignal = some false then some { s with optionsSignal := some true }.interrupt else none
  | .aborts .init => if s.initSignal = some false then some { s with initSignal := some true }.interrupt else none
  | .timerFires => if s.phase = .called ∨ s.ended then none else some { s with timedOut := true }
  | .fetchEnds outcome =>
    if s.phase = .fetching ∧ (outcome = .aborts → combineSignals [some s.timedOut, some s.callerAborted]) then
      some { s with phase := .settled outcome, calls := s.answered outcome }
    else none
  | .sleepEnds =>
    match s.phase with
    | .sleeping _ => some (s.beginAttempt p)
    | _ => none
  | .resumes random now =>
    match s.phase with
    | .settled (.responds response) =>
      if p.canRetry ∧ (s.attempt : WithTop ℚ) < p.maxAttempts ∧ response.status ∈ RETRYABLE_STATUS then
        some { s with phase := .cancelling response }
      else some { s with phase := .returned response }
    | .settled _ => some (s.caught p random)
    | .cancelling response =>
      let backoffMs := computeBackoffMs random s.attempt p.baseDelayMs p.maxDelayMs
      let waitMs := if response.status = 429 then (retryAfterMs reader now response p.maxDelayMs).getD backoffMs else backoffMs
      some (s.delay false waitMs)
    | .interrupted false => some (s.caught p random)
    | .interrupted true => some { s with phase := .threw .aborted }
    | _ => none

/-- A call with these signals, before it runs. -/
def fetchWithPolicy (optionsSignal initSignal : Option Bool) : Client where
  optionsSignal := optionsSignal
  initSignal := initSignal
  attempt := 0
  timedOut := false
  phase := .called
  calls := []

/-- A state that events lead to. -/
def Runs (reader : HeaderReader) (p : Policy) : Client → Client → Prop :=
  Relation.ReflTransGen fun s s' => ∃ e, s.step reader p e = some s'

/-! ### What a step does -/

section

variable {reader : HeaderReader} {p : Policy} {s s' : Client} {e : Event} {random : Random}

theorem computeBackoffMs_le (random : Random) (attempt : Nat) (baseDelayMs maxDelayMs : ℚ) :
    max (computeBackoffMs random attempt baseDelayMs maxDelayMs) 0 ≤ max maxDelayMs 0 := by
  obtain ⟨r, hzero, hone⟩ := random
  refine max_le ?_ (le_max_right _ _)
  have hcap : min maxDelayMs (baseDelayMs * 2 ^ (attempt - 1)) ≤ max maxDelayMs 0 := (min_le_left _ _).trans (le_max_left _ _)
  have hmul : r * min maxDelayMs (baseDelayMs * 2 ^ (attempt - 1)) ≤ r * max maxDelayMs 0 :=
    mul_le_mul_of_nonneg_left hcap hzero
  exact hmul.trans (mul_le_of_le_one_left (le_max_right _ _) hone.le)

theorem retryAfterMs_le {now : Int} {res : Response} {maxDelayMs ms : ℚ} (h : retryAfterMs reader now res maxDelayMs = some ms) :
    max ms 0 ≤ max maxDelayMs 0 := by
  have hcap : ms ≤ maxDelayMs := by
    unfold retryAfterMs at h
    split at h
    · cases h
    · split at h
      · exact Option.some.inj h ▸ min_le_left _ _
      · obtain ⟨dateMs, -, rfl⟩ := Option.map_eq_some_iff.mp h
        exact min_le_left _ _
  exact max_le_max_right 0 hcap

/-- Everything that can happen, with what it needs. -/
theorem Client.step_cases (h : s.step reader p e = some s') :
    ((s.phase = .called ∨ ∃ inCatch, s.phase = .sleeping inCatch) ∧ s' = s.beginAttempt p) ∨
    (∃ optionsSignal initSignal, combineSignals [optionsSignal, initSignal] = true ∧
      s' = { s with optionsSignal := optionsSignal, initSignal := initSignal }.interrupt) ∨
    (s.ended = false ∧ s.phase ≠ .called ∧ s' = { s with timedOut := true }) ∨
    (∃ outcome, s.phase = .fetching ∧ (outcome = .aborts → s.timedOut = true ∨ s.callerAborted = true) ∧
      s' = { s with phase := .settled outcome, calls := s.answered outcome }) ∨
    (∃ response, s.phase = .settled (.responds response) ∧ response.status ∈ RETRYABLE_STATUS ∧
      s' = { s with phase := .cancelling response }) ∨
    (∃ response, s.phase = .settled (.responds response) ∧ s' = { s with phase := .returned response }) ∨
    (∃ outcome random, s.phase = .settled outcome ∧ (∀ response, outcome ≠ .responds response) ∧ s' = s.caught p random) ∨
    (∃ response ms, s.phase = .cancelling response ∧ max ms 0 ≤ max p.maxDelayMs 0 ∧ s' = s.delay false ms) ∨
    (∃ random, s.phase = .interrupted false ∧ s' = s.caught p random) ∨
    (s.phase = .interrupted true ∧ s' = { s with phase := .threw .aborted }) := by
  cases e with
  | starts =>
    simp only [Client.step] at h
    split_ifs at h with hphase
    exact .inl ⟨.inl hphase, (Option.some.inj h).symm⟩
  | aborts source =>
    right; left
    cases source with
    | options =>
      simp only [Client.step] at h
      split_ifs at h
      exact ⟨some true, s.initSignal, by simp [combineSignals], (Option.some.inj h).symm⟩
    | init =>
      simp only [Client.step] at h
      split_ifs at h
      exact ⟨s.optionsSignal, some true, by simp [combineSignals], (Option.some.inj h).symm⟩
  | timerFires =>
    simp only [Client.step] at h
    split_ifs at h with hphase
    rw [not_or] at hphase
    exact .inr (.inr (.inl ⟨Bool.eq_false_iff.mpr hphase.2, hphase.1, (Option.some.inj h).symm⟩))
  | fetchEnds outcome =>
    simp only [Client.step] at h
    split_ifs at h with hphase
    refine .inr (.inr (.inr (.inl ⟨outcome, hphase.1, fun houtcome => ?_, (Option.some.inj h).symm⟩)))
    simpa [combineSignals] using hphase.2 houtcome
  | sleepEnds =>
    simp only [Client.step] at h
    split at h
    · next inCatch hphase => exact .inl ⟨.inr ⟨inCatch, hphase⟩, (Option.some.inj h).symm⟩
    · cases h
  | resumes random now =>
    iterate 4 right
    simp only [Client.step] at h
    split at h
    · next response hphase =>
      split_ifs at h with hretry
      · exact .inl ⟨response, hphase, hretry.2.2, (Option.some.inj h).symm⟩
      · exact .inr (.inl ⟨response, hphase, (Option.some.inj h).symm⟩)
    · next outcome hother hphase =>
      refine .inr (.inr (.inl ⟨outcome, random, hphase, fun response heq => ?_, (Option.some.inj h).symm⟩))
      exact hother response heq
    · next response hphase =>
      refine .inr (.inr (.inr (.inl ⟨response, _, hphase, ?_, (Option.some.inj h).symm⟩)))
      have hbackoff := computeBackoffMs_le random s.attempt p.baseDelayMs p.maxDelayMs
      split_ifs
      · cases hafter : retryAfterMs reader now response p.maxDelayMs with
        | none => exact hbackoff
        | some ms => exact retryAfterMs_le hafter
      · exact hbackoff
    · next hphase => exact .inr (.inr (.inr (.inr (.inl ⟨random, hphase, (Option.some.inj h).symm⟩))))
    · next hphase => exact .inr (.inr (.inr (.inr (.inr ⟨hphase, (Option.some.inj h).symm⟩))))
    · cases h
/-- The `catch` block sleeps before another attempt, unless the caller has aborted or the timer has fired. -/
theorem Client.caught_cases (p : Policy) (random : Random) (s : Client) :
    (∃ ms, s.callerAborted = false ∧ s.timedOut = false ∧ max ms 0 ≤ max p.maxDelayMs 0 ∧
      s.caught p random = { s with phase := .sleeping true, calls := s.waited ms }) ∨
    ∃ kind, (s.callerAborted = true → kind = .aborted) ∧ s.caught p random = { s with phase := .threw kind } := by
  cases haborted : s.callerAborted with
  | true => exact .inr ⟨.aborted, fun _ => rfl, by simp [caught, haborted]⟩
  | false =>
    cases htimed : s.timedOut with
    | true => exact .inr ⟨.timeout, by simp, by simp [caught, haborted, htimed]⟩
    | false =>
      by_cases hretry : p.canRetry = true ∧ (s.attempt : WithTop ℚ) < p.maxAttempts
      · exact .inl ⟨_, rfl, rfl, computeBackoffMs_le random s.attempt p.baseDelayMs p.maxDelayMs,
          by simp [caught, delay, haborted, htimed, hretry]⟩
      · exact .inr ⟨.network, by simp, by simp [caught, haborted, htimed, hretry]⟩

/-! ### The discipline -/

/-- The ends of a call of `fetch` after which it may be called again: a response with a retryable
    status, or a failure that is no timeout and no abort. -/
def Outcome.Retryable : Outcome → Prop
  | .responds response => response.status ∈ RETRYABLE_STATUS
  | .fails => True
  | .aborts => False

/-- A call of `fetch` that may be followed by another. -/
structure Call.Retried (p : Policy) (call : Call) : Prop where
  outcome : ∃ outcome, call.outcome = some outcome ∧ outcome.Retryable
  waited : ∃ ms, call.waitMs = some ms ∧ max ms 0 ≤ max p.maxDelayMs 0

/-- What each phase says of the last call of `fetch`. -/
def Client.PhaseInv (p : Policy) (s : Client) : Prop :=
  match s.phase with
  | .called => s.attempt = 0
  | .fetching => s.calls.head? = some ⟨none, none⟩
  | .settled outcome => s.calls.head? = some ⟨some outcome, none⟩ ∧
      (outcome = .aborts → s.timedOut = true ∨ s.callerAborted = true)
  | .cancelling response => s.calls.head? = some ⟨some (.responds response), none⟩ ∧ response.status ∈ RETRYABLE_STATUS
  | .sleeping _ => s.callerAborted = false ∧ ∃ call, s.calls.head? = some call ∧ call.Retried p
  | .interrupted _ => s.callerAborted = true
  | .returned response => ∃ call, s.calls.head? = some call ∧ call.outcome = some (.responds response)
  | .threw _ => True

structure Client.Inv (p : Policy) (s : Client) : Prop where
  count : s.calls.length ≤ s.attempt
  bound : s.calls ≠ [] → (s.attempt : WithTop ℚ) ≤ p.maxAttempts
  earlier : ∀ call ∈ s.calls.tail, call.Retried p
  phase : s.PhaseInv p

theorem inv_fetchWithPolicy (p : Policy) (optionsSignal initSignal : Option Bool) :
    (fetchWithPolicy optionsSignal initSignal).Inv p where
  count := le_rfl
  bound h := absurd rfl h
  earlier _ h := by cases h
  phase := rfl

/-- The loop goes on where every call so far may be followed by another. -/
theorem Client.inv_beginAttempt (hs : s.Inv p) (hphase : s.phase = .called ∨ ∃ inCatch, s.phase = .sleeping inCatch) :
    (s.beginAttempt p).Inv p := by
  have hretried : ∀ call ∈ s.calls, call.Retried p := by
    obtain hphase | ⟨inCatch, hphase⟩ := hphase
    · have hattempt : s.attempt = 0 := by simpa only [PhaseInv, hphase] using hs.phase
      have hnil : s.calls = [] := List.length_eq_zero_iff.mp (Nat.le_zero.mp (hattempt ▸ hs.count))
      simp [hnil]
    · obtain ⟨-, last, hlast, hretried⟩ : s.callerAborted = false ∧ ∃ call, s.calls.head? = some call ∧ call.Retried p := by
        simpa only [PhaseInv, hphase] using hs.phase
      intro call hmem
      cases hcalls : s.calls with
      | nil => simp [hcalls] at hmem
      | cons head calls =>
        have hearlier := hs.earlier
        rw [hcalls] at hmem hlast hearlier
        obtain rfl | hmem := List.mem_cons.mp hmem
        · exact Option.some.inj hlast ▸ hretried
        · exact hearlier call hmem
  unfold beginAttempt
  split_ifs with hle
  · dsimp only
    split_ifs
    · exact ⟨hs.count.trans (Nat.le_succ _), fun _ => hle, hs.earlier, trivial⟩
    · exact ⟨Nat.succ_le_succ hs.count, fun _ => hle, hretried, rfl⟩
  · exact ⟨hs.count, hs.bound, hs.earlier, trivial⟩

theorem Client.inv_aborts (hs : s.Inv p) {optionsSignal initSignal : Option Bool}
    (haborted : combineSignals [optionsSignal, initSignal] = true) :
    ({ s with optionsSignal := optionsSignal, initSignal := initSignal }.interrupt).Inv p := by
  have hphase := hs.phase
  unfold interrupt
  dsimp only
  cases hold : s.phase with
  | sleeping inCatch => exact ⟨hs.count, hs.bound, hs.earlier, haborted⟩
  | settled outcome =>
    simp only [PhaseInv, hold] at hphase
    exact ⟨hs.count, hs.bound, hs.earlier, hphase.1, fun _ => .inr haborted⟩
  | interrupted inCatch => exact ⟨hs.count, hs.bound, hs.earlier, haborted⟩
  | threw kind => exact ⟨hs.count, hs.bound, hs.earlier, trivial⟩
  | _ =>
    refine ⟨hs.count, hs.bound, hs.earlier, ?_⟩
    simpa only [PhaseInv, hold] using hphase

theorem Client.inv_timerFires (hs : s.Inv p) : Client.Inv p { s with timedOut := true } := by
  have hphase := hs.phase
  refine ⟨hs.count, hs.bound, hs.earlier, ?_⟩
  cases hold : s.phase with
  | settled outcome =>
    simp only [PhaseInv, hold] at hphase ⊢
    exact ⟨hphase.1, fun _ => .inl trivial⟩
  | threw kind => trivial
  | _ => simpa only [PhaseInv, hold, callerAborted] using hphase

theorem Client.inv_fetchEnds (hs : s.Inv p) {outcome : Outcome} (hfetching : s.phase = .fetching)
    (houtcome : outcome = .aborts → s.timedOut = true ∨ s.callerAborted = true) :
    Client.Inv p { s with phase := .settled outcome, calls := s.answered outcome } := by
  have hlast : s.calls.head? = some ⟨none, none⟩ := by simpa only [PhaseInv, hfetching] using hs.phase
  obtain ⟨calls, hcalls⟩ := List.head?_eq_some_iff.mp hlast
  have hcount := hs.count
  have hearlier := hs.earlier
  have hanswered : s.answered outcome = ⟨some outcome, none⟩ :: calls := by rw [answered, hcalls]
  rw [hcalls] at hcount hearlier
  rw [hanswered]
  exact ⟨hcount, fun _ => hs.bound (by rw [hcalls]; exact List.cons_ne_nil _ _), hearlier, rfl, houtcome⟩

/-- The function sleeps after a call of `fetch` that may be followed by another. -/
theorem Client.inv_sleeps (hs : s.Inv p) {outcome : Outcome} {waitMs : Option ℚ} {ms : ℚ} {inCatch : Bool}
    (hlast : s.calls.head? = some ⟨some outcome, waitMs⟩) (houtcome : outcome.Retryable)
    (hms : max ms 0 ≤ max p.maxDelayMs 0) (haborted : s.callerAborted = false) :
    Client.Inv p { s with phase := .sleeping inCatch, calls := s.waited ms } := by
  obtain ⟨calls, hcalls⟩ := List.head?_eq_some_iff.mp hlast
  have hcount := hs.count
  have hearlier := hs.earlier
  have hwaited : s.waited ms = ⟨some outcome, some ms⟩ :: calls := by rw [waited, hcalls]
  rw [hcalls] at hcount hearlier
  rw [hwaited]
  exact ⟨hcount, fun _ => hs.bound (by rw [hcalls]; exact List.cons_ne_nil _ _), hearlier, haborted, _, rfl,
    ⟨outcome, rfl, houtcome⟩, ms, rfl, hms⟩

theorem Client.inv_step (h : s.step reader p e = some s') (hs : s.Inv p) : s'.Inv p := by
  have hphase := hs.phase
  obtain ⟨hold, rfl⟩ | ⟨optionsSignal, initSignal, haborted, rfl⟩ | ⟨-, -, rfl⟩ | ⟨outcome, hold, houtcome, rfl⟩ |
    ⟨response, hold, hstatus, rfl⟩ | ⟨response, hold, rfl⟩ | ⟨outcome, random, hold, houtcome, rfl⟩ |
    ⟨response, ms, hold, hms, rfl⟩ | ⟨random, hold, rfl⟩ | ⟨hold, rfl⟩ := Client.step_cases h
  · exact Client.inv_beginAttempt hs hold
  · exact Client.inv_aborts hs haborted
  · exact Client.inv_timerFires hs
  · exact Client.inv_fetchEnds hs hold houtcome
  · simp only [PhaseInv, hold] at hphase
    exact ⟨hs.count, hs.bound, hs.earlier, hphase.1, hstatus⟩
  · simp only [PhaseInv, hold] at hphase
    exact ⟨hs.count, hs.bound, hs.earlier, _, hphase.1, rfl⟩
  · simp only [PhaseInv, hold] at hphase
    obtain ⟨ms, haborted, htimed, hms, heq⟩ | ⟨kind, -, heq⟩ := Client.caught_cases p random s
    · have hfails : outcome = .fails := by
        cases outcome with
        | responds response => exact absurd rfl (houtcome response)
        | fails => rfl
        | aborts => simpa [haborted, htimed] using hphase.2 rfl
      subst hfails
      exact heq ▸ Client.inv_sleeps hs hphase.1 trivial hms haborted
    · exact heq ▸ ⟨hs.count, hs.bound, hs.earlier, trivial⟩
  · simp only [PhaseInv, hold] at hphase
    unfold delay
    split_ifs with haborted
    · exact ⟨hs.count, hs.bound, hs.earlier, haborted⟩
    · exact Client.inv_sleeps hs hphase.1 hphase.2 hms (Bool.eq_false_iff.mpr haborted)
  · simp only [PhaseInv, hold] at hphase
    obtain ⟨ms, haborted, -, -, -⟩ | ⟨kind, -, heq⟩ := Client.caught_cases p random s
    · rw [hphase] at haborted
      cases haborted
    · exact heq ▸ ⟨hs.count, hs.bound, hs.earlier, trivial⟩
  · exact ⟨hs.count, hs.bound, hs.earlier, trivial⟩

theorem Runs.inv {optionsSignal initSignal : Option Bool} (h : Runs reader p (fetchWithPolicy optionsSignal initSignal) s) :
    s.Inv p := by
  induction h with
  | refl => exact inv_fetchWithPolicy p optionsSignal initSignal
  | tail _ hstep ih =>
    obtain ⟨e, he⟩ := hstep
    exact Client.inv_step he ih

/-! ### After an abort -/

theorem Client.length_answered (outcome : Outcome) (s : Client) : (s.answered outcome).length = s.calls.length := by
  unfold answered
  split <;> simp_all

/-- Once the caller has aborted, `fetch` is not called, and what is thrown is this. -/
theorem Client.step_of_aborted (hs : s.Inv p) (haborted : s.callerAborted = true) (h : s.step reader p e = some s') :
    s'.callerAborted = true ∧ s'.calls.length = s.calls.length ∧
      (1 ≤ p.maxAttempts → ∀ kind, s'.phase = .threw kind → kind = .aborted ∨ s.phase = .threw kind) := by
  have hphase := hs.phase
  have hcaught : ∀ random, ∃ kind, kind = .aborted ∧ s.caught p random = { s with phase := .threw kind } := by
    intro random
    obtain ⟨ms, hnot, -⟩ | ⟨kind, hkind, heq⟩ := Client.caught_cases p random s
    · rw [haborted] at hnot
      cases hnot
    · exact ⟨kind, hkind haborted, heq⟩
  obtain ⟨hold, rfl⟩ | ⟨optionsSignal, initSignal, haborted', rfl⟩ | ⟨-, -, rfl⟩ | ⟨outcome, hold, -, rfl⟩ |
    ⟨response, hold, -, rfl⟩ | ⟨response, hold, rfl⟩ | ⟨outcome, random, hold, -, rfl⟩ |
    ⟨response, ms, hold, -, rfl⟩ | ⟨random, hold, rfl⟩ | ⟨hold, rfl⟩ := Client.step_cases h
  · obtain hold | ⟨inCatch, hold⟩ := hold
    · have hattempt : s.attempt = 0 := by simpa only [PhaseInv, hold] using hphase
      have haborted' : Client.callerAborted { s with attempt := s.attempt + 1, timedOut := false } = true := haborted
      unfold beginAttempt
      dsimp only
      rw [if_pos haborted', hattempt]
      split_ifs with hle
      · exact ⟨haborted, rfl, fun _ kind hkind => .inl (Phase.threw.inj hkind).symm⟩
      · exact ⟨haborted, rfl, fun hmax => absurd (by simpa using hmax) hle⟩
    · simp only [PhaseInv, hold, haborted] at hphase
      exact absurd hphase.1 (by decide)
  · unfold interrupt
    cases hold : s.phase <;> refine ⟨haborted', rfl, fun _ kind hkind => ?_⟩ <;> simp_all
  · exact ⟨haborted, rfl, fun _ kind hkind => .inr hkind⟩
  · exact ⟨haborted, Client.length_answered outcome s, fun _ kind hkind => nomatch hkind⟩
  · exact ⟨haborted, rfl, fun _ kind hkind => nomatch hkind⟩
  · exact ⟨haborted, rfl, fun _ kind hkind => nomatch hkind⟩
  · obtain ⟨kind, hkind, heq⟩ := hcaught random
    rw [heq]
    exact ⟨haborted, rfl, fun _ kind' hkind' => .inl ((Phase.threw.inj hkind').symm.trans hkind)⟩
  · unfold delay
    rw [if_pos haborted]
    exact ⟨haborted, rfl, fun _ kind hkind => nomatch hkind⟩
  · obtain ⟨kind, hkind, heq⟩ := hcaught random
    rw [heq]
    exact ⟨haborted, rfl, fun _ kind' hkind' => .inl ((Phase.threw.inj hkind').symm.trans hkind)⟩
  · exact ⟨haborted, rfl, fun _ kind hkind => .inl (Phase.threw.inj hkind).symm⟩

theorem Runs.of_aborted (hs : s.Inv p) (haborted : s.callerAborted = true) (h : Runs reader p s s') :
    s'.Inv p ∧ s'.callerAborted = true ∧ s'.calls.length = s.calls.length ∧
      (1 ≤ p.maxAttempts → ∀ kind, s'.phase = .threw kind → kind = .aborted ∨ s.phase = .threw kind) := by
  induction h with
  | refl => exact ⟨hs, haborted, rfl, fun _ kind hkind => .inr hkind⟩
  | tail _ hstep ih =>
    obtain ⟨e, he⟩ := hstep
    obtain ⟨hinv, haborted', hlength, hkind⟩ := ih
    obtain ⟨haborted'', hlength', hkind'⟩ := Client.step_of_aborted hinv haborted' he
    refine ⟨Client.inv_step he hinv, haborted'', hlength'.trans hlength, fun hmax kind hthrew => ?_⟩
    obtain rfl | hthrew := hkind' hmax kind hthrew
    · exact .inl rfl
    · exact hkind hmax kind hthrew

/-! ### Every run -/

/-- The number of attempts that the options ask for. -/
def FetchWithPolicyOptions.maxAttempts (options : FetchWithPolicyOptions) : WithTop ℚ :=
  (options.retry.bind RetryOptions.maxAttempts).getD DEFAULT_MAX_ATTEMPTS

def isIdempotent (method : Option Text) : Bool := methodOf method ∈ IDEMPOTENT_METHODS

/-- What holds of a call with these options wherever it stands. -/
structure Disciplined (p : Policy) (method : Option Text) (options : FetchWithPolicyOptions) (s : Client) : Prop where
  count : (s.calls.length : WithTop ℚ) ≤ options.maxAttempts
  once : isIdempotent method = false ∨ options.retry = none → s.calls.length ≤ 1
  further : ∀ call ∈ s.calls.tail, call.Retried p
  returned : ∀ response, s.phase = .returned response → ∃ call, s.calls.head? = some call ∧ call.outcome = some (.responds response)

theorem policyOf_bounds {method : Option Text} {options : FetchWithPolicyOptions} (h : policyOf method options = some p)
    (hmax : 1 ≤ options.maxAttempts) : 1 ≤ p.maxAttempts ∧ p.maxAttempts ≤ options.maxAttempts ∧
      (isIdempotent method = false ∨ options.retry = none → p.maxAttempts = 1) := by
  unfold policyOf at h
  dsimp only at h
  have hiff : (options.retry.isSome = true ∧ methodOf method ∈ IDEMPOTENT_METHODS) ↔
      ¬ (isIdempotent method = false ∨ options.retry = none) := by
    simp [isIdempotent, Option.isSome_iff_ne_none, and_comm]
  split_ifs at h with hinvalid hretry
  · obtain rfl := Option.some.inj h
    exact ⟨hmax, le_rfl, fun h => absurd h (hiff.mp (of_decide_eq_true hretry))⟩
  · obtain rfl := Option.some.inj h
    exact ⟨le_rfl, hmax, fun _ => rfl⟩

/-- Wherever a call stands the rules have been kept; and from the caller's abort on `fetch` is not called again, and nothing
    else is thrown. -/
theorem fetchWithPolicy_disciplined (reader : HeaderReader) (method : Option Text) (options : FetchWithPolicyOptions) (p : Policy)
    (hpolicy : policyOf method options = some p) (hmax : 1 ≤ options.maxAttempts) (optionsSignal initSignal : Option Bool)
    (s : Client) (hrun : Runs reader p (fetchWithPolicy optionsSignal initSignal) s) :
    Disciplined p method options s ∧
      (s.callerAborted = true → ∀ s', Runs reader p s s' → s'.calls.length = s.calls.length ∧
        (s.ended = false → ∀ kind, s'.phase = .threw kind → kind = .aborted)) := by
  obtain ⟨hone, hle, honce⟩ := policyOf_bounds hpolicy hmax
  have hinv := hrun.inv
  have hcount : (s.calls.length : WithTop ℚ) ≤ p.maxAttempts := by
    by_cases hnil : s.calls = []
    · rw [hnil, List.length_nil, Nat.cast_zero]
      exact zero_le_one.trans hone
    · exact (Nat.mono_cast hinv.count).trans (hinv.bound hnil)
  constructor
  · refine ⟨hcount.trans hle, fun h => ?_, hinv.earlier, fun response hphase => ?_⟩
    · have hlength : (s.calls.length : WithTop ℚ) ≤ (1 : Nat) := by
        rw [Nat.cast_one, ← honce h]
        exact hcount
      exact_mod_cast hlength
    · simpa only [Client.PhaseInv, hphase] using hinv.phase
  · intro haborted s' hruns
    obtain ⟨-, -, hlength, hkind⟩ := Runs.of_aborted hinv haborted hruns
    refine ⟨hlength, fun hended kind hthrew => ?_⟩
    obtain hkind | hphase := hkind hone kind hthrew
    · exact hkind
    · simp [Client.ended, hphase] at hended

theorem Runs.of_foldlM {events : List Event} (h : events.foldlM (Client.step reader p) s = some s') : Runs reader p s s' := by
  induction events generalizing s with
  | nil =>
    obtain rfl := Option.some.inj h
    exact .refl
  | cons e events ih =>
    rw [List.foldlM_cons] at h
    obtain ⟨t, ht, hrest⟩ := Option.bind_eq_some_iff.mp h
    exact .head ⟨e, ht⟩ (ih hrest)

end

/-! ### A response after a retry -/

def sampleReader : HeaderReader := ⟨fun _ => none, fun _ => none⟩

def sampleOptions : FetchWithPolicyOptions := ⟨none, some ⟨none, none, none⟩⟩

def samplePolicy : Policy := ⟨true, (3 : ℚ), 200, 5000⟩

/-- A 503, a sleep of 100 ms and a response. -/
def sampleEvents : List Event :=
  let half : Random := ⟨1 / 2, by norm_num, by norm_num⟩
  [.starts, .fetchEnds (.responds ⟨0, 503, none⟩), .resumes half 0, .resumes half 0, .sleepEnds,
    .fetchEnds (.responds ⟨1, 200, none⟩), .resumes half 0]

def sampleClient : Client :=
  ⟨some false, none, 2, false, .returned ⟨1, 200, none⟩,
    [⟨some (.responds ⟨1, 200, none⟩), none⟩, ⟨some (.responds ⟨0, 503, none⟩), some 100⟩]⟩

theorem sample_run :
    sampleEvents.foldlM (Client.step sampleReader samplePolicy) (fetchWithPolicy (some false) none) = some sampleClient := by
  decide +kernel

theorem fetchWithPolicy_disciplined_sample : Disciplined samplePolicy none sampleOptions sampleClient :=
  (fetchWithPolicy_disciplined sampleReader none sampleOptions samplePolicy (by decide +kernel) (by decide +kernel)
    (some false) none sampleClient (Runs.of_foldlM sample_run)).1

end narwhal.portal.http_client
