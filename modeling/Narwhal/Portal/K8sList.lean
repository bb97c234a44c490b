import Mathlib.Algebra.Ring.Nat
import Narwhal.Lib.Fold
import Narwhal.Lib.PagedWalk

open jslib

namespace narwhal.portal.k8s_client

def DEFAULT_LIST_LIMIT : Nat := 500

def DEFAULT_LIST_MAX_PAGES : Nat := 20

def MAX_SAFE_INTEGER : Nat := 2 ^ 53 - 1

/-! ### Answers -/

/-- The `metadata` of a list: its `continue` may be absent, or a value that is not a string. -/
inductive Metadata where
  | absent
  | malformed
  | object (continue_ : Option (Option String))
deriving DecidableEq, Repr

/-- The body of a list page; `none` is a value that is not an array. -/
structure ListResponse (α : Type) where
  items : Option (List α)
  metadata : Metadata
deriving DecidableEq, Repr

/-- What `k8sFetch` returns or throws for one request; `none` is a body such as `null`. -/
inductive Answer (α : Type) where
  | data (response : Option (ListResponse α))
  | http (status : Nat)
  | threw (message : String)
deriving DecidableEq, Repr

/-- The checks on a page: its items, and the token of the next page. -/
def ListResponse.check {α : Type} (limit : Nat) (data : ListResponse α) : Option (List α × String) :=
  match data.items, data.metadata with
  | some items, .absent | some items, .object none => if items.length ≤ limit then some (items, "") else none
  | some items, .object (some (some token)) => if items.length ≤ limit then some (items, token) else none
  | _, _ => none

def Answer.page {α : Type} (limit : Nat) : Answer α → Option (List α × String)
  | .data (some response) => response.check limit
  | _ => none

/-! ### The list -/

inductive Reason where
  | maxPages
  | expired
  | error
deriving DecidableEq, Repr

structure BoundedList (α : Type) where
  items : List α
  truncated : Bool
  reason : Option Reason
  pages : Nat
deriving DecidableEq, Repr

/-- A number is given by its value where that is an integer. -/
structure ListBoundedOptions where
  limit : Option (Option Int) := none
  maxPages : Option (Option Int) := none
  partialOnError : Bool := false

inductive Error where
  | range (name : String)
  | http (status : Nat)
  | other (message : String)
deriving DecidableEq, Repr

/-- How an attempt ends. -/
inductive Fetched (α : Type) where
  | done (list : BoundedList α)
  | gone (items : List α) (pages : Nat)
  | threw (error : Error)
deriving DecidableEq, Repr

/-- The variables of `fetchPages`. -/
structure Pages (α : Type) where
  items : List α := []
  continueToken : String := ""
  pages : Nat := 0
  truncated : Bool := false
  reason : Option Reason := none

/-- A request, by its token, and the answer to it. -/
abbrev Exchange (α : Type) := String × Answer α

section

variable {α : Type}

/-- The `catch` of a page. -/
def fetchFailed (partialOnError : Bool) (s : Pages α) : Answer α → Fetched α
  | .http status =>
    if status = 410 then .gone s.items s.pages
    else if partialOnError ∧ 0 < s.items.length ∧ (status = 429 ∨ 500 ≤ status) then
      .done ⟨s.items, true, some .error, s.pages⟩
    else .threw (.http status)
  | .threw message => .threw (.other message)
  | .data _ => .threw (.other "K8s API invalid list response")

/-- The page loop, with the number of pages still allowed. The answer to a request may depend on all before it. -/
def fetchLoop (answers : Nat → Answer α) (limit maxPages : Nat) (partialOnError : Bool) :
    Nat → Pages α → List (Exchange α) → Fetched α × List (Exchange α)
  | 0, s, log => (.done ⟨s.items, s.truncated, s.reason, s.pages⟩, log)
  | left + 1, s, log =>
    let answer := answers log.length
    let log := log ++ [(s.continueToken, answer)]
    match answer.page limit with
    | none => (fetchFailed partialOnError s answer, log)
    | some (items, continueToken) =>
      let s := { s with items := s.items ++ items, pages := s.pages + 1, continueToken := continueToken }
      if continueToken = "" then (.done ⟨s.items, s.truncated, s.reason, s.pages⟩, log)
      else if maxPages ≤ s.pages then
        fetchLoop answers limit maxPages partialOnError left
          { s with truncated := true, reason := some .maxPages } log
      else fetchLoop answers limit maxPages partialOnError left s log

def fetchPages (answers : Nat → Answer α) (limit maxPages : Nat) (partialOnError : Bool) (log : List (Exchange α)) :
    Fetched α × List (Exchange α) :=
  fetchLoop answers limit maxPages partialOnError maxPages {} log

/-- A positive safe integer, or the default. -/
def checkBound (name : String) (given : Option (Option Int)) (default : Nat) : Except Error Nat :=
  match given.getD (some (default : Int)) with
  | some value => if 0 < value ∧ value ≤ MAX_SAFE_INTEGER then .ok value.toNat else .error (.range name)
  | none => .error (.range name)

/-- `limit` and `maxPages`. -/
def bounds (opts : ListBoundedOptions) : Except Error (Nat × Nat) := do
  let limit ← checkBound "limit" opts.limit DEFAULT_LIST_LIMIT
  let maxPages ← checkBound "maxPages" opts.maxPages DEFAULT_LIST_MAX_PAGES
  return (limit, maxPages)

/-- What is returned or thrown, and all requests with their answers. -/
def listBounded (answers : Nat → Answer α) (opts : ListBoundedOptions) :
    Except Error (BoundedList α) × List (Exchange α) :=
  match bounds opts with
  | .error error => (.error error, [])
  | .ok (limit, maxPages) =>
    match fetchPages answers limit maxPages opts.partialOnError [] with
    | (.done list, log) => (.ok list, log)
    | (.threw error, log) => (.error error, log)
    | (.gone _ _, log) =>
      match fetchPages answers limit maxPages opts.partialOnError log with
      | (.done list, log) => (.ok list, log)
      | (.threw error, log) => (.error error, log)
      | (.gone items pages, log) => (.ok ⟨items, true, some .expired, pages⟩, log)

/-! ### Attempts -/

/-- An attempt: a walk from the first page, and perhaps a last request that got no page. -/
structure Attempt (limit maxPages : Nat) (walk failed : List (Exchange α)) (items : List α) (last : String) : Prop where
  walked : Walk (Answer.page limit) "" walk items last
  bounded : (walk ++ failed).length ≤ maxPages
  failed : failed = [] ∨ ∃ answer, failed = [(last, answer)] ∧ answer.page limit = none

/-- What an attempt returns is its walk, and it is complete unless it says otherwise. -/
structure Returns (list : BoundedList α) (walk failed : List (Exchange α)) (items : List α) (last : String) : Prop where
  items : list.items = items
  pages : list.pages = walk.length
  complete : list.truncated = false → last = "" ∧ walk ≠ [] ∧ failed = [] ∧ list.reason = none
  reason : list.truncated = true → list.reason ≠ none

/-- How the end of an attempt describes it. -/
def Describes (walk failed : List (Exchange α)) (items : List α) (last : String) : Fetched α → Prop
  | .done list => Returns list walk failed items last
  | .gone goneItems pages => goneItems = items ∧ pages = walk.length ∧ failed = [(last, .http 410)]
  | .threw _ => True

/-- An attempt that was answered 410. -/
def Gone (limit maxPages : Nat) (log : List (Exchange α)) : Prop :=
  ∃ walk items last, log = walk ++ [(last, .http 410)] ∧ Attempt limit maxPages walk [(last, .http 410)] items last

/-- The variables say what the attempt has read. -/
structure Reads (limit maxPages left : Nat) (s : Pages α) (walk : List (Exchange α)) : Prop where
  walked : Walk (Answer.page limit) "" walk s.items s.continueToken
  pages : s.pages = walk.length
  remaining : s.pages + left = maxPages
  token : walk ≠ [] → s.continueToken ≠ ""
  truncated : s.truncated = true ↔ left = 0
  reason : s.truncated = true ↔ s.reason ≠ none

variable {answers : Nat → Answer α} {limit maxPages left : Nat} {partialOnError : Bool} {s : Pages α}
  {log before walk : List (Exchange α)} {items : List α} {last : String} {answer : Answer α}

theorem logged_fetchLoop (h : Logged answers log) :
    Logged answers (fetchLoop answers limit maxPages partialOnError left s log).2 := by
  induction left generalizing s log with
  | zero => exact h
  | succ left ih =>
    simp only [fetchLoop]
    cases (answers log.length).page limit with
    | none => exact h.snoc _
    | some page =>
      dsimp only
      split_ifs
      · exact h.snoc _
      · exact ih (h.snoc _)
      · exact ih (h.snoc _)

/-- A request that gets no page ends the attempt. -/
theorem describes_fetchFailed (hpages : s.pages = walk.length) (hpage : answer.page limit = none) :
    Describes walk [(s.continueToken, answer)] s.items s.continueToken (fetchFailed partialOnError s answer) := by
  cases answer with
  | data data => trivial
  | threw message => trivial
  | http status =>
    simp only [fetchFailed]
    split_ifs with hgone hpartial
    · exact ⟨rfl, hpages, by rw [hgone]⟩
    · exact ⟨rfl, hpages, by simp, by simp⟩
    · trivial

/-- The loop reads on from where it stands until it ends an attempt. -/
theorem fetchLoop_attempt (h : Reads limit maxPages left s walk) :
    ∃ walk' failed items last,
      (fetchLoop answers limit maxPages partialOnError left s (before ++ walk)).2 = before ++ (walk' ++ failed) ∧
        Attempt limit maxPages walk' failed items last ∧
        Describes walk' failed items last (fetchLoop answers limit maxPages partialOnError left s (before ++ walk)).1 := by
  induction left generalizing s walk with
  | zero =>
    have hpages := h.remaining
    refine ⟨walk, [], s.items, s.continueToken, by simp [fetchLoop], ⟨h.walked, ?_, .inl rfl⟩, rfl, h.pages, ?_, ?_⟩
    · rw [List.append_nil, ← h.pages]
      omega
    · intro hcomplete
      simp [h.truncated.mpr rfl] at hcomplete
    · exact fun _ => h.reason.mp (h.truncated.mpr rfl)
  | succ left ih =>
    have hleft := h.remaining
    have hpages := h.pages
    simp only [fetchLoop]
    generalize hanswer : answers (before ++ walk).length = answer
    cases hpage : answer.page limit with
    | none =>
      refine ⟨walk, [(s.continueToken, answer)], s.items, s.continueToken, List.append_assoc _ _ _,
        ⟨h.walked, ?_, .inr ⟨answer, rfl, hpage⟩⟩, describes_fetchFailed h.pages hpage⟩
      rw [List.length_append, List.length_singleton]
      omega
    | some page =>
      obtain ⟨more, next⟩ := page
      have hwalk : Walk (Answer.page limit) "" (walk ++ [(s.continueToken, answer)]) (s.items ++ more) next :=
        h.walked.snoc h.token hpage
      have hlength : s.pages + 1 = (walk ++ [(s.continueToken, answer)]).length := by
        rw [List.length_append, List.length_singleton, hpages]
      have hopen : s.truncated = false := by
        rw [← Bool.not_eq_true]
        exact fun htruncated => absurd (h.truncated.mp htruncated) (Nat.succ_ne_zero left)
      dsimp only
      split_ifs with hend hcap
      · refine ⟨walk ++ [(s.continueToken, answer)], [], s.items ++ more, next, by simp, ⟨hwalk, ?_, .inl rfl⟩, rfl, hlength, ?_, ?_⟩
        · rw [List.append_nil, ← hlength]
          omega
        · intro _
          refine ⟨hend, by simp, rfl, ?_⟩
          by_contra hreason
          rw [h.reason.mpr hreason] at hopen
          cases hopen
        · intro htruncated
          rw [hopen] at htruncated
          cases htruncated
      · rw [List.append_assoc]
        exact ih ⟨hwalk, hlength, by simp only; omega, fun _ => hend, by simp only [true_iff]; omega, by simp⟩
      · rw [List.append_assoc]
        exact ih ⟨hwalk, hlength, by simp only; omega, fun _ => hend, by simp only [hopen]; simp; omega, h.reason⟩

theorem fetchPages_attempt (hmax : 0 < maxPages) :
    ∃ walk failed items last,
      (fetchPages answers limit maxPages partialOnError before).2 = before ++ (walk ++ failed) ∧
        Attempt limit maxPages walk failed items last ∧
        Describes walk failed items last (fetchPages answers limit maxPages partialOnError before).1 := by
  have hreads : Reads limit maxPages maxPages ({} : Pages α) [] :=
    ⟨.nil "", rfl, Nat.zero_add _, by simp, by simp; omega, by simp⟩
  have hattempt := @fetchLoop_attempt α answers limit maxPages maxPages partialOnError {} before [] hreads
  rwa [List.append_nil] at hattempt

theorem checkBound_pos {name : String} {given : Option (Option Int)} {default bound : Nat}
    (h : checkBound name given default = .ok bound) : 0 < bound := by
  unfold checkBound at h
  split at h
  · split_ifs at h with hpositive
    rw [← Except.ok.inj h]
    omega
  · cases h

theorem maxPages_pos {opts : ListBoundedOptions} (h : bounds opts = .ok (limit, maxPages)) : 0 < maxPages := by
  unfold bounds at h
  simp only [pylib.bind_ok_iff, pure, Except.pure, Except.ok.injEq, Prod.mk.injEq] at h
  obtain ⟨_, _, _, hmax, -, rfl⟩ := h
  exact checkBound_pos hmax

theorem logged_listBounded (answers : Nat → Answer α) (opts : ListBoundedOptions) :
    Logged answers (listBounded answers opts).2 := by
  have hempty := logged_nil answers
  unfold listBounded fetchPages
  cases bounds opts with
  | error error => exact hempty
  | ok pair =>
    obtain ⟨limit, maxPages⟩ := pair
    have hfirst := @logged_fetchLoop α answers limit maxPages maxPages opts.partialOnError {} [] hempty
    dsimp only
    generalize fetchLoop answers limit maxPages opts.partialOnError maxPages {} [] = first at hfirst ⊢
    obtain ⟨fetched, log⟩ := first
    cases fetched with
    | done list => exact hfirst
    | threw error => exact hfirst
    | gone items pages =>
      have hsecond := @logged_fetchLoop α answers limit maxPages maxPages opts.partialOnError {} log hfirst
      dsimp only
      generalize fetchLoop answers limit maxPages opts.partialOnError maxPages {} log = second at hsecond ⊢
      obtain ⟨fetched, log'⟩ := second
      cases fetched with
      | done list => exact hsecond
      | threw error => exact hsecond
      | gone items pages => exact hsecond

/-- The requests are those of one attempt, or of one that was answered 410 and of a second one from the start; what
    is returned is what the last attempt read. -/
structure Listed (limit maxPages : Nat) (result : Except Error (BoundedList α)) (log earlier walk failed : List (Exchange α))
    (items : List α) (last : String) : Prop where
  log : log = earlier ++ (walk ++ failed)
  earlier : earlier = [] ∨ Gone limit maxPages earlier
  attempt : Attempt limit maxPages walk failed items last
  returns : ∀ list, result = .ok list → Returns list walk failed items last

theorem listBounded_listed {opts : ListBoundedOptions} (h : bounds opts = .ok (limit, maxPages)) :
    ∃ earlier walk failed items last,
      Listed limit maxPages (listBounded answers opts).1 (listBounded answers opts).2 earlier walk failed items last := by
  have hmax := maxPages_pos h
  obtain ⟨walk, failed, items, last, hlog, hattempt, hdescribes⟩ :=
    @fetchPages_attempt α answers limit maxPages opts.partialOnError [] hmax
  unfold listBounded
  rw [h]
  dsimp only
  generalize fetchPages answers limit maxPages opts.partialOnError [] = first at hlog hdescribes ⊢
  obtain ⟨fetched, log⟩ := first
  rw [List.nil_append] at hlog
  cases fetched with
  | done list =>
    refine ⟨[], walk, failed, items, last, hlog, .inl rfl, hattempt, fun list' hlist => ?_⟩
    rw [← Except.ok.inj hlist]
    exact hdescribes
  | threw error => exact ⟨[], walk, failed, items, last, hlog, .inl rfl, hattempt, fun list' hlist => nomatch hlist⟩
  | gone goneItems pages =>
    obtain ⟨-, -, rfl⟩ := hdescribes
    have hgone : Gone limit maxPages log := ⟨walk, items, last, hlog, hattempt⟩
    obtain ⟨walk', failed', items', last', hlog', hattempt', hdescribes'⟩ :=
      @fetchPages_attempt α answers limit maxPages opts.partialOnError log hmax
    dsimp only
    generalize fetchPages answers limit maxPages opts.partialOnError log = second at hlog' hdescribes' ⊢
    obtain ⟨fetched, log'⟩ := second
    refine ⟨log, walk', failed', items', last', ?_, .inr hgone, hattempt', ?_⟩
    · cases fetched <;> exact hlog'
    · cases fetched with
      | done list =>
        intro list' hlist
        rw [← Except.ok.inj hlist]
        exact hdescribes'
      | threw error => exact fun list' hlist => nomatch hlist
      | gone items'' pages' =>
        obtain ⟨rfl, rfl, -⟩ := hdescribes'
        intro list' hlist
        rw [← Except.ok.inj hlist]
        exact ⟨rfl, rfl, by simp, by simp⟩

end

end narwhal.portal.k8s_client
