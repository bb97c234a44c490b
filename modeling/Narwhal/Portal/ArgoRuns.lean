import Mathlib.Data.Fintype.Defs
import Narwhal.Lib.Run
import Narwhal.Portal.ArgoOperation

open jslib
open pylib (Allowed)

namespace narwhal.portal.argocd

section

variable {ι κ : Type}

/-! ### What the replies promise -/

/-- The application showed the operation of the call in this phase. -/
def Shows (app : ArgoApp ι) (i : ι) (phase : Phase) : Prop :=
  ∃ status, app.status = some status ∧ status.operationState = some ⟨some phase, .requested i⟩

/-- The application was in sync with its source. -/
def Synced (app : ArgoApp ι) : Prop := ∃ status, app.status = some status ∧ status.sync = .synced

/-- The operation of the call ended as `Succeeded`, and the application was in sync at that time or
    after it. The list has the latest first. -/
def Converged (past : List (ArgoApp ι)) (i : ι) : Prop :=
  ∃ later app earlier, past = later ++ app :: earlier ∧ Shows app i .succeeded ∧ ∃ a ∈ later ++ [app], Synced a

/-- The operation of the call ended as `Failed` or `Error`. -/
def Failed (past : List (ArgoApp ι)) (i : ι) : Prop := ∃ app ∈ past, Shows app i .failed ∨ Shows app i .error

/-- A reply of success that is not pending. -/
def Reply.SaysConverged (reply : Reply) : Prop := reply.success = some true ∧ reply.pending = false

/-- A reply that the operation failed; a rollback that was refused or whose outcome is unknown has
    an `outcome` that says so. -/
def Reply.SaysFailed (reply : Reply) : Prop := reply.success = some false ∧ reply.outcome = none

/-- The verdicts given so far are those of the requested operations. -/
def Truthful (s : World ι κ) : Prop :=
  ∀ i reply, s.calls i = .replied reply →
    (reply.SaysConverged → Converged s.past i) ∧ (reply.SaysFailed → Failed s.past i)

/-! ### The order of the steps -/

/-- `operationState` describes this operation. -/
def Describes (app : ArgoApp ι) (operation : Operation ι) : Prop :=
  ∃ status, app.status = some status ∧ status.operationState.map OperationState.operation = some operation

/-- The application has no operation that ended, or one that succeeded and left it out of sync. -/
def Open (app : ArgoApp ι) : Prop :=
  ∀ status ∈ app.status, ∀ phase ∈ status.operationState.bind OperationState.phase, phase.final = true →
    phase = .succeeded ∧ status.sync ≠ .synced

instance (app : ArgoApp ι) : Decidable (Open app) :=
  inferInstanceAs (Decidable (∀ status ∈ app.status, ∀ phase ∈ status.operationState.bind OperationState.phase,
    _ → _ ∧ _))

/-- The copy was read after the operation of the call had started and before another one did, or while
    no operation had ended. -/
def Copy.ReadFor (copy : Copy ι) (i : ι) : Prop := copy.last = some (.requested i) ∨ Open copy.app

instance [DecidableEq ι] (copy : Copy ι) (i : ι) : Decidable (copy.ReadFor i) := inferInstanceAs (Decidable (_ ∨ _))

/-- A copy is stored only if it was read for every call that has deleted the entry and looks for it next. -/
def Stores (s : World ι κ) (io : Io) (copy : Copy ι) : Prop :=
  io.cache = true → ∀ i, s.calls i = .deleted true → copy.ReadFor i

instance [DecidableEq ι] [Fintype ι] (s : World ι κ) (io : Io) (copy : Copy ι) : Decidable (Stores s io copy) :=
  inferInstanceAs (Decidable (_ → ∀ _ : ι, _ → _))

/-- Argo CD answers the re-read of a call when it has started the operation of that call and none after
    it, what the call stores was read for the others, and it finds an entry in the cache only where it
    could delete the one before. -/
def CallInOrder (s : World ι κ) (i : ι) (io : Io) : Call ι → Prop
  | .checked copy | .fetched copy => Stores s io copy
  | .deleted done => (s.cacheGet io).isSome = true → done = true
  | .missed => (io.http.ok && io.http.body) = true → s.copy.ReadFor i
  | .ready | .checking | .authorised | .accepted | .invalidated | .replied _ => True

def ReaderInOrder (s : World ι κ) (io : Io) : Reader ι → Prop
  | .fetched copy => Stores s io copy
  | .ready | .missed | .done => True

/-- The step comes in order. -/
def InOrder (s : World ι κ) : Op ι κ → Prop
  | .call i io => CallInOrder s i io (s.calls i)
  | .reader j io => ReaderInOrder s io (s.readers j)
  | .tick _ | .accept _ | .start _ | .progress _ | .compare _ => True

section Decidable

variable [DecidableEq ι] [Fintype ι] (s : World ι κ)

instance (i : ι) (io : Io) : ∀ call : Call ι, Decidable (CallInOrder s i io call)
  | .checked copy | .fetched copy => inferInstanceAs (Decidable (Stores s io copy))
  | .deleted _ | .missed => inferInstanceAs (Decidable (_ → _))
  | .ready | .checking | .authorised | .accepted | .invalidated | .replied _ => inferInstanceAs (Decidable True)

instance (io : Io) : ∀ reader : Reader ι, Decidable (ReaderInOrder s io reader)
  | .fetched copy => inferInstanceAs (Decidable (Stores s io copy))
  | .ready | .missed | .done => inferInstanceAs (Decidable True)

instance : ∀ op : Op ι κ, Decidable (InOrder s op)
  | .call i io => inferInstanceAs (Decidable (CallInOrder s i io (s.calls i)))
  | .reader j io => inferInstanceAs (Decidable (ReaderInOrder s io (s.readers j)))
  | .tick _ | .accept _ | .start _ | .progress _ | .compare _ => inferInstanceAs (Decidable True)

end Decidable

theorem Converged.cons {past : List (ArgoApp ι)} {i : ι} (h : Converged past i) (app : ArgoApp ι) :
    Converged (app :: past) i := by
  obtain ⟨later, a, earlier, rfl, hshows, b, hb, hsynced⟩ := h
  exact ⟨app :: later, a, earlier, rfl, hshows, b, List.mem_cons_of_mem app hb, hsynced⟩

/-- An operation that converged was shown as succeeded. -/
theorem Converged.exists_shows {past : List (ArgoApp ι)} {i : ι} (h : Converged past i) :
    ∃ app ∈ past, Shows app i .succeeded := by
  obtain ⟨later, app, earlier, rfl, hshows, _⟩ := h
  exact ⟨app, List.mem_append_right later List.mem_cons_self, hshows⟩

theorem Failed.cons {past : List (ArgoApp ι)} {i : ι} (h : Failed past i) (app : ArgoApp ι) : Failed (app :: past) i := by
  obtain ⟨a, ha, hshows⟩ := h
  exact ⟨a, List.mem_cons_of_mem app ha, hshows⟩

/-! ### The verdict -/

/-- The outcome is read from the phase and the comparison with the source, -/
theorem getOperationOutcome_eq_converged_iff {status : Status ι} :
    getOperationOutcome status = .converged ↔
      status.operationState.bind OperationState.phase = some .succeeded ∧ status.sync = .synced := by
  unfold getOperationOutcome
  generalize status.operationState.bind OperationState.phase = phase
  cases phase with
  | none => simp
  | some phase => cases phase <;> simp

/-- and a failure from the phase alone. -/
theorem getOperationOutcome_eq_failed_iff {status : Status ι} :
    getOperationOutcome status = .failed ↔
      status.operationState.bind OperationState.phase = some .failed ∨
      status.operationState.bind OperationState.phase = some .error := by
  unfold getOperationOutcome
  generalize status.operationState.bind OperationState.phase = phase
  cases phase with
  | none => simp
  | some phase =>
    cases phase with
    | succeeded => by_cases hsync : status.sync = .synced <;> simp [hsync]
    | running | terminating | failed | error => simp

/-- Phase and operation of one state are what the application showed. -/
theorem shows_of_phase {app : ArgoApp ι} {status : Status ι} {i : ι} {phase : Phase} (happ : app.status = some status)
    (hphase : status.operationState.bind OperationState.phase = some phase)
    (hown : status.operationState.map OperationState.operation = some (.requested i)) : Shows app i phase := by
  refine ⟨status, happ, ?_⟩
  cases hstate : status.operationState with
  | none => simp [hstate] at hphase
  | some state =>
    obtain ⟨p, operation⟩ := state
    simp only [hstate, Option.bind_some, Option.map_some, Option.some.injEq] at hphase hown
    rw [hphase, hown]

/-- The reply says nothing of how the operation ended. -/
def Reply.Silent (reply : Reply) : Prop := ¬ reply.SaysConverged ∧ ¬ reply.SaysFailed

instance (reply : Reply) : Decidable reply.Silent :=
  inferInstanceAs (Decidable (¬ (_ ∧ _) ∧ ¬ (_ ∧ _)))

/-- A refusal says nothing of the operation, -/
theorem refusal_silent (status : Nat) : (Reply.refusal status).Silent := by
  refine ⟨fun h => ?_, fun h => ?_⟩
  · cases h.1
  · cases h.1

theorem broken_silent (route : Route) : route.broken.Silent := by
  cases route with
  | sync => exact refusal_silent 502
  | rollback id => exact refusal_silent 500

/-- nor does a failed lookup, -/
theorem lookupError_silent (route : Route) (http : Http) : (route.lookupError http).Silent := by
  unfold Route.lookupError
  split
  · exact refusal_silent 404
  · exact refusal_silent 503
  · exact refusal_silent 403
  · exact broken_silent route

/-- A reply whose body has an `outcome` is not about a finished operation. -/
theorem silent_of_outcome {reply : Reply} (hsuccess : reply.success ≠ some true) (houtcome : reply.outcome ≠ none) :
    reply.Silent :=
  ⟨fun h => hsuccess h.1, fun h => houtcome h.2⟩

/-- a request that was refused or whose outcome is unknown, -/
theorem mutationError_silent (route : Route) (http : Http) : (route.mutationError http).Silent := by
  cases route with
  | sync =>
    simp only [Route.mutationError]
    split
    · exact refusal_silent 503
    · exact refusal_silent 502
  | rollback id =>
    simp only [Route.mutationError]
    split
    · exact silent_of_outcome (by simp) (by simp)
    · split
      · exact refusal_silent 503
      · split
        · exact refusal_silent 403
        · split <;> exact silent_of_outcome (by simp) (by simp)

/-- or a verdict without an answer. -/
theorem verdict_none_silent (route : Route) (name : Text) : (route.verdict (ι := ι) name none).Silent := by
  refine ⟨fun h => ?_, fun h => ?_⟩
  · cases h.2
  · cases h.1

/-- The application describes the operation of the call, or no operation that ended. -/
def Tells (app : ArgoApp ι) (i : ι) : Prop := Describes app (.requested i) ∨ Open app

/-- As long as no operation has ended, the verdict is that it is pending. -/
theorem Open.pending {app : ArgoApp ι} (h : Open app) {status : Status ι} (hstatus : app.status = some status) :
    getOperationOutcome status = .pending := by
  have hopen := h status hstatus
  cases houtcome : getOperationOutcome status with
  | pending => rfl
  | converged =>
    obtain ⟨hphase, hsync⟩ := getOperationOutcome_eq_converged_iff.mp houtcome
    exact absurd hsync (hopen _ hphase rfl).2
  | failed =>
    rcases getOperationOutcome_eq_failed_iff.mp houtcome with hphase | hphase
    · cases (hopen _ hphase rfl).1
    · cases (hopen _ hphase rfl).1

/-- An outcome that is not pending is one of the operation of the call. -/
theorem Tells.operation {app : ArgoApp ι} {i : ι} (h : Tells app i) {status : Status ι}
    (hstatus : app.status = some status) (hended : getOperationOutcome status ≠ .pending) :
    status.operationState.map OperationState.operation = some (.requested i) := by
  rcases h with ⟨status', hstatus', hoperation⟩ | hopen
  · obtain rfl : status' = status := Option.some.inj (hstatus'.symm.trans hstatus)
    exact hoperation
  · exact absurd (hopen.pending hstatus) hended

/-- A verdict computed from a past state of the application that describes the operation of the call is true. -/
theorem verdict_truthful {past : List (ArgoApp ι)} {app : ArgoApp ι} {i : ι} (hpast : app ∈ past)
    (htells : Tells app i) (route : Route) (name : Text) :
    ((route.verdict name (some app)).SaysConverged → Converged past i) ∧
    ((route.verdict name (some app)).SaysFailed → Failed past i) := by
  cases hstatus : app.status with
  | none =>
    have hbroken : route.verdict name (some app) = route.broken := by simp [Route.verdict, hstatus]
    rw [hbroken]
    have hsilent := broken_silent route
    exact ⟨fun h => absurd h hsilent.1, fun h => absurd h hsilent.2⟩
  | some status =>
    have hreply := htells.operation hstatus
    cases houtcome : getOperationOutcome status with
    | pending =>
      refine ⟨fun h => ?_, fun h => ?_⟩
      · simp [Route.verdict, hstatus, houtcome, Reply.SaysConverged] at h
      · simp [Route.verdict, hstatus, houtcome, Reply.SaysFailed] at h
    | converged =>
      obtain ⟨hphase, hsync⟩ := getOperationOutcome_eq_converged_iff.mp houtcome
      have hshows := shows_of_phase hstatus hphase (hreply (by simp [houtcome]))
      refine ⟨fun _ => ?_, fun h => ?_⟩
      · obtain ⟨later, earlier, rfl⟩ := List.append_of_mem hpast
        exact ⟨later, app, earlier, rfl, hshows, app, by simp, status, hstatus, hsync⟩
      · simp [Route.verdict, hstatus, houtcome, Reply.SaysFailed] at h
    | failed =>
      have hphase := getOperationOutcome_eq_failed_iff.mp houtcome
      have hoperation := hreply (by simp [houtcome])
      refine ⟨fun h => ?_, fun _ => ⟨app, hpast, ?_⟩⟩
      · simp [Route.verdict, hstatus, houtcome, Reply.SaysConverged] at h
      · cases hphase with
        | inl hfailed => exact .inl (shows_of_phase hstatus hfailed hoperation)
        | inr herror => exact .inr (shows_of_phase hstatus herror hoperation)

/-! ### Invariants -/

/-- A copy is a state that the application was in, and describes the operation that had been started last. -/
structure Copy.Genuine (past : List (ArgoApp ι)) (copy : Copy ι) : Prop where
  past : copy.app ∈ past
  last : ∀ operation ∈ copy.last, Describes copy.app operation

theorem Copy.Genuine.cons {past : List (ArgoApp ι)} {copy : Copy ι} (h : copy.Genuine past) (app : ArgoApp ι) :
    copy.Genuine (app :: past) :=
  ⟨List.mem_cons_of_mem app h.past, h.last⟩

/-- A copy that was read for the call tells of its operation. -/
theorem Copy.Genuine.tells {past : List (ArgoApp ι)} {copy : Copy ι} (h : copy.Genuine past) {i : ι}
    (hread : copy.ReadFor i) : Tells copy.app i :=
  hread.imp_left (h.last _)

/-- What holds of the copies of the application: the entry of the cache tells every call that has deleted
    the one before it of its own operation. -/
structure Held (s : World ι κ) : Prop where
  app : s.copy.Genuine s.past
  cache : ∀ entry ∈ s.cache, entry.1 ∈ s.past
  checked : ∀ i copy, s.calls i = .checked copy → copy.Genuine s.past
  fetched : ∀ i copy, s.calls i = .fetched copy → copy.Genuine s.past ∧ copy.ReadFor i
  reader : ∀ j copy, s.readers j = .fetched copy → copy.Genuine s.past
  deleted : ∀ i, s.calls i = .deleted true → ∀ entry ∈ s.cache, Tells entry.1 i

/-- What every run keeps whose steps come in order. -/
structure Invariant (s : World ι κ) : Prop where
  held : Held s
  truthful : Truthful s

theorem invariant_start (app : ArgoApp ι) : Invariant (World.start app : World ι κ) where
  held := ⟨⟨List.mem_singleton_self app, by simp [World.start, World.copy]⟩, by simp [World.start], by simp [World.start],
    by simp [World.start], by simp [World.start], by simp [World.start]⟩
  truthful i reply h := by simp [World.start] at h

/-- A step of Argo CD's adds a state, which describes the operation it started last. -/
theorem Invariant.setStatus {s : World ι κ} (h : Invariant s) {status : Status ι} (last : Option (Operation ι))
    (hlast : ∀ operation ∈ last, Describes ⟨some status⟩ operation) (accepted : List (Operation ι)) :
    Invariant ({ s with accepted := accepted, last := last }.setStatus status) where
  held := {
    app := ⟨List.mem_cons_self, hlast⟩
    cache := fun entry hentry => List.mem_cons_of_mem _ (h.held.cache entry hentry)
    checked := fun i copy hcopy => (h.held.checked i copy hcopy).cons _
    fetched := fun i copy hcopy => (h.held.fetched i copy hcopy).imp_left (·.cons _)
    reader := fun j copy hcopy => (h.held.reader j copy hcopy).cons _
    deleted := h.held.deleted }
  truthful i reply hreply :=
    have htrue := h.truthful i reply hreply
    ⟨fun hsays => (htrue.1 hsays).cons _, fun hsays => (htrue.2 hsays).cons _⟩

/-- Nothing is promised about the time and the accepted operations. -/
theorem Invariant.congr {s : World ι κ} (h : Invariant s) (now : Nat) (accepted : List (Operation ι)) :
    Invariant { s with now := now, accepted := accepted } :=
  ⟨⟨h.held.app, h.held.cache, h.held.checked, h.held.fetched, h.held.reader, h.held.deleted⟩, h.truthful⟩

/-- A copy is stored where it was read for every call that looks for it. -/
theorem Invariant.cacheSet {s : World ι κ} (h : Invariant s) {io : Io} {copy : Copy ι} (hcopy : copy.Genuine s.past)
    (hstores : Stores s io copy) : Invariant (s.cacheSet io copy.app) := by
  unfold World.cacheSet
  split
  · next hio =>
    refine ⟨⟨h.held.app, ?_, h.held.checked, h.held.fetched, h.held.reader, ?_⟩, h.truthful⟩
    · rintro entry ⟨⟩
      exact hcopy.past
    · rintro i hdeleted entry ⟨⟩
      exact hcopy.tells (hstores hio i hdeleted)
  · exact h

/-- After a deletion there is no entry that could mislead. -/
theorem Invariant.cacheDel {s : World ι κ} (h : Invariant s) (io : Io) : Invariant (s.cacheDel io) := by
  unfold World.cacheDel
  split
  · exact ⟨⟨h.held.app, by simp, h.held.checked, h.held.fetched, h.held.reader, by simp⟩, h.truthful⟩
  · exact h

@[simp] theorem past_cacheSet (s : World ι κ) (io : Io) (app : ArgoApp ι) : (s.cacheSet io app).past = s.past := by
  unfold World.cacheSet
  split <;> rfl

/-- What the cache returns is in its entry. -/
theorem exists_entry_of_cacheGet {s : World ι κ} {io : Io} {app : ArgoApp ι} (hget : s.cacheGet io = some app) :
    ∃ entry ∈ s.cache, entry.1 = app := by
  unfold World.cacheGet at hget
  split at hget
  · obtain ⟨entry, hentry, rfl⟩ := Option.map_eq_some_iff.mp hget
    exact ⟨entry, (Option.filter_eq_some_iff.mp hentry).1, rfl⟩
  · cases hget

variable [DecidableEq ι] [DecidableEq κ]

omit [DecidableEq κ] in
/-- A call goes on. What it holds and what it says has to be in order. -/
theorem Invariant.setCall {s : World ι κ} (h : Invariant s) (i : ι) {call : Call ι}
    (hchecked : ∀ copy, call = .checked copy → copy.Genuine s.past)
    (hfetched : ∀ copy, call = .fetched copy → copy.Genuine s.past ∧ copy.ReadFor i)
    (hdeleted : call = .deleted true → ∀ entry ∈ s.cache, Tells entry.1 i)
    (hreply : ∀ reply, call = .replied reply →
      (reply.SaysConverged → Converged s.past i) ∧ (reply.SaysFailed → Failed s.past i)) :
    Invariant (s.setCall i call) where
  held := {
    app := h.held.app
    cache := h.held.cache
    checked := fun k copy hcall => by
      obtain rfl | hk := eq_or_ne k i
      · exact hchecked copy (by simpa [World.setCall] using hcall)
      · exact h.held.checked k copy (by simpa [World.setCall, hk] using hcall)
    fetched := fun k copy hcall => by
      obtain rfl | hk := eq_or_ne k i
      · exact hfetched copy (by simpa [World.setCall] using hcall)
      · exact h.held.fetched k copy (by simpa [World.setCall, hk] using hcall)
    reader := h.held.reader
    deleted := fun k hcall => by
      obtain rfl | hk := eq_or_ne k i
      · exact hdeleted (by simpa [World.setCall] using hcall)
      · exact h.held.deleted k (by simpa [World.setCall, hk] using hcall) }
  truthful k reply hcall := by
    obtain rfl | hk := eq_or_ne k i
    · exact hreply reply (by simpa [World.setCall] using hcall)
    · exact h.truthful k reply (by simpa [World.setCall, hk] using hcall)

omit [DecidableEq κ] in
/-- A call goes on and says nothing. -/
theorem Invariant.setCall_quiet {s : World ι κ} (h : Invariant s) (i : ι) {call : Call ι}
    (hquiet : match call with
      | .checked copy => copy.Genuine s.past
      | .fetched copy => copy.Genuine s.past ∧ copy.ReadFor i
      | .deleted done => done = true → ∀ entry ∈ s.cache, Tells entry.1 i
      | .replied reply => reply.Silent
      | _ => True) : Invariant (s.setCall i call) := by
  refine h.setCall i ?_ ?_ ?_ ?_
  · rintro copy rfl
    exact hquiet
  · rintro copy rfl
    exact hquiet
  · rintro rfl
    exact hquiet rfl
  · rintro reply rfl
    exact ⟨fun hsays => absurd hsays hquiet.1, fun hsays => absurd hsays hquiet.2⟩

omit [DecidableEq ι] in
theorem Invariant.setReader {s : World ι κ} (h : Invariant s) (j : κ) {reader : Reader ι}
    (hfetched : ∀ copy, reader = .fetched copy → copy.Genuine s.past) : Invariant (s.setReader j reader) where
  held := {
    app := h.held.app
    cache := h.held.cache
    checked := h.held.checked
    fetched := h.held.fetched
    reader := fun k copy hreader => by
      obtain rfl | hk := eq_or_ne k j
      · exact hfetched copy (by simpa [World.setReader] using hreader)
      · exact h.held.reader k copy (by simpa [World.setReader, hk] using hreader)
    deleted := h.held.deleted }
  truthful := h.truthful

/-! ### Steps -/

omit [DecidableEq ι] in
theorem Invariant.readerStep {s : World ι κ} (h : Invariant s) (j : κ) (io : Io)
    (horder : InOrder s (.reader j io)) : Invariant (s.readerStep j io) := by
  cases hreader : s.readers j with
  | ready =>
    simp only [World.readerStep, hreader]
    split <;> exact h.setReader j (by simp)
  | missed =>
    simp only [World.readerStep, hreader]
    apply h.setReader j
    intro copy hcopy
    split at hcopy
    · cases hcopy
      exact h.held.app
    · cases hcopy
  | fetched copy =>
    simp only [World.readerStep, hreader]
    simp only [InOrder, ReaderInOrder, hreader] at horder
    exact (h.cacheSet (h.held.reader j copy hreader) horder).setReader j (by simp)
  | done =>
    simp only [World.readerStep, hreader]
    exact h

omit [DecidableEq κ] in
/-- A step of a call in order keeps the invariant: by cases on where the call is. -/
theorem Invariant.callStep {s : World ι κ} (h : Invariant s) (route : Route) (name : Text) (i : ι) (io : Io)
    (horder : InOrder s (.call i io)) : Invariant (s.callStep route name i io) := by
  have hafterCheck : ∀ {t : World ι κ}, Invariant t →
      Invariant (t.setCall i (if io.accessible then .authorised else .replied (.refusal 403))) := by
    intro t ht
    apply ht.setCall_quiet i
    cases io.accessible with
    | true => trivial
    | false => exact refusal_silent 403
  cases hcall : s.calls i with
  | ready =>
    simp only [World.callStep, hcall]
    split
    · exact hafterCheck h
    · exact h.setCall_quiet i trivial
  | checking =>
    simp only [World.callStep, hcall]
    split
    · apply h.setCall_quiet i
      cases io.http.body with
      | true => exact h.held.app
      | false => exact broken_silent route
    · exact h.setCall_quiet i (lookupError_silent route io.http)
  | checked copy =>
    simp only [World.callStep, hcall]
    simp only [InOrder, CallInOrder, hcall] at horder
    exact hafterCheck (h.cacheSet (h.held.checked i copy hcall) horder)
  | authorised =>
    simp only [World.callStep, hcall]
    have hasked : Invariant (if (io.http.ok || io.http.accepted) = true then
        { s with accepted := s.accepted ++ [.requested i] } else s) := by
      split
      · exact h.congr s.now _
      · exact h
    split
    · exact hasked.setCall_quiet i trivial
    · exact hasked.setCall_quiet i (mutationError_silent route io.http)
  | accepted =>
    simp only [World.callStep, hcall]
    exact (h.cacheDel io).setCall_quiet i trivial
  | invalidated =>
    simp only [World.callStep, hcall]
    apply (h.cacheDel io).setCall_quiet i
    intro hdone
    simp [World.cacheDel, hdone]
  | deleted done =>
    simp only [World.callStep, hcall]
    simp only [InOrder, CallInOrder, hcall] at horder
    split
    · next app hget =>
      obtain ⟨entry, hentry, rfl⟩ := exists_entry_of_cacheGet hget
      have hdone : done = true := horder (by rw [hget]; rfl)
      have htells := h.held.deleted i (by rw [hcall, hdone]) entry hentry
      apply h.setCall i (by simp) (by simp) (by simp)
      rintro reply ⟨⟩
      exact verdict_truthful (h.held.cache entry hentry) htells route name
    · exact h.setCall_quiet i trivial
  | missed =>
    simp only [World.callStep, hcall]
    simp only [InOrder, CallInOrder, hcall] at horder
    split
    · next hanswered => exact h.setCall_quiet i ⟨h.held.app, horder hanswered⟩
    · exact h.setCall_quiet i (verdict_none_silent route name)
  | fetched copy =>
    simp only [World.callStep, hcall]
    simp only [InOrder, CallInOrder, hcall] at horder
    obtain ⟨hgenuine, hread⟩ := h.held.fetched i copy hcall
    apply (h.cacheSet hgenuine horder).setCall i (by simp) (by simp) (by simp)
    rintro reply ⟨⟩
    rw [past_cacheSet]
    exact verdict_truthful hgenuine.past (hgenuine.tells hread) route name
  | replied reply =>
    simp only [World.callStep, hcall]
    exact h

/-- So does every step in order. -/
theorem Invariant.step {s : World ι κ} (h : Invariant s) (routes : ι → Route) (name : Text) (op : Op ι κ)
    (horder : InOrder s op) : Invariant (s.step routes name op) := by
  cases op with
  | tick ms => exact h.congr (s.now + ms) s.accepted
  | accept n => exact h.congr s.now (s.accepted ++ [.other n])
  | start operation =>
    simp only [World.step]
    split
    · refine h.setStatus (some operation) ?_ _
      rintro _ ⟨⟩
      exact ⟨_, rfl, rfl⟩
    · exact h
  | progress phase =>
    simp only [World.step]
    split
    · next sync now operation hstatus =>
      split
      · exact h
      · refine h.setStatus s.last (fun o ho => ?_) s.accepted
        obtain ⟨status, happ, hoperation⟩ := h.held.app.last o ho
        obtain rfl : _ = status := Option.some.inj (hstatus.symm.trans happ)
        exact ⟨_, rfl, hoperation⟩
    · exact h
  | compare sync =>
    refine h.setStatus s.last (fun o ho => ?_) s.accepted
    obtain ⟨status, happ, hoperation⟩ := h.held.app.last o ho
    have hstatus : s.app.status = some status := happ
    refine ⟨_, rfl, ?_⟩
    rw [hstatus]
    exact hoperation
  | call i io => exact h.callStep (routes i) name i io horder
  | reader j io => exact h.readerStep j io horder

/-- In every run whose steps come in order, the verdicts are those of the requested operations. -/
theorem verdicts_truthful (routes : ι → Route) (name : Text) (app : ArgoApp ι) (ops : List (Op ι κ))
    (horder : Allowed (World.step routes name) InOrder (World.start app) ops) :
    Truthful ((World.start app).run routes name ops) := by
  have hrun : Invariant ((World.start app : World ι κ).run routes name ops) :=
    horder.invariant (fun s op h hop => h.step routes name op hop) (invariant_start app)
  exact hrun.truthful

end

/-! ### Two runs -/

/-- The application after an operation of someone else. -/
def settledApp : ArgoApp Unit := ⟨some ⟨.synced, some ⟨some .succeeded, .other 0⟩⟩⟩

def answered : Io := ⟨true, ⟨some 200, true, false⟩, true⟩

/-- A sync alone: the operation is accepted and has not started when the application is read again. -/
def acceptedOnly : List (Op Unit Unit) := List.replicate 9 (.call () answered)

/-- The operation starts and fails. A reader that asked before the sync stores what it read after the
    entry was deleted. -/
def storedByReader : List (Op Unit Unit) :=
  [.reader () answered, .reader () answered] ++ List.replicate 6 (.call () answered) ++
    [.start (.requested ()), .progress .failed, .reader () answered, .call () answered]

/-- Two calls, one after the other. The operation of the first succeeds, a reader stores what it read after
    that, and the call finds it; the operation of the second fails before the application is read again. -/
def inTurn : List (Op Bool Unit) :=
  List.replicate 6 (.call true answered) ++ [.start (.requested true), .progress .succeeded] ++
    List.replicate 3 (.reader () answered) ++ [.call true answered] ++ List.replicate 4 (.call false answered) ++
    [.start (.requested false), .progress .failed] ++ List.replicate 3 (.call false answered)

/-- The application after an operation of someone else, before the two calls. -/
def settledBefore : ArgoApp Bool := ⟨some ⟨.synced, some ⟨some .succeeded, .other 0⟩⟩⟩

def routeOf (first : Bool) : Route := if first then .sync else .rollback 3

theorem own_operation_truthful :
    Truthful ((World.start settledBefore : World Bool Unit).run routeOf "app".toList inTurn) ∧
      (∃ reply, ((World.start settledBefore : World Bool Unit).run routeOf "app".toList inTurn).calls true =
        .replied reply ∧ reply.SaysConverged) ∧
      ∃ reply, ((World.start settledBefore : World Bool Unit).run routeOf "app".toList inTurn).calls false =
        .replied reply ∧ reply.SaysFailed := by
  refine ⟨verdicts_truthful routeOf "app".toList settledBefore inTurn ?_, ⟨_, rfl, rfl, rfl⟩, ⟨_, rfl, rfl, rfl⟩⟩
  decide

/-- The reply is drawn from an operation of someone else: once from Argo CD itself, before the own
    operation started, and once from the cache, after it failed. -/
theorem other_operation_reported :
    ¬ Truthful ((World.start settledApp : World Unit Unit).run (fun _ => .sync) "app".toList acceptedOnly) ∧
    ¬ Truthful ((World.start settledApp : World Unit Unit).run (fun _ => .sync) "app".toList storedByReader) := by
  constructor
  · intro h
    obtain ⟨app, happ, status, hstatus, hstate⟩ := ((h () _ rfl).1 ⟨rfl, rfl⟩).exists_shows
    obtain rfl : app = settledApp := List.mem_singleton.mp happ
    cases hstatus
    cases hstate
  · intro h
    obtain ⟨app, happ, hshows⟩ := ((h () _ rfl).1 ⟨rfl, rfl⟩).exists_shows
    have hpast : app ∈ [⟨some ⟨.synced, some ⟨some .failed, .requested ()⟩⟩⟩,
        ⟨some ⟨.synced, some ⟨some .running, .requested ()⟩⟩⟩, settledApp] := happ
    simp only [List.mem_cons, List.not_mem_nil, or_false] at hpast
    obtain ⟨status, hstatus, hstate⟩ := hshows
    obtain rfl | rfl | rfl := hpast <;> cases hstatus <;> cases hstate

end narwhal.portal.argocd
