import Mathlib.Data.List.Induction
import Narwhal.Lib.Run
import Narwhal.Portal.TenantRequest

open jslib
open pylib (Allowed allowed_concat_iff)

namespace narwhal.portal.gitea

/-! ### Runs of requests -/

/-- An answer from which the client gets no value. -/
structure FailedAnswer (α : Type) where
  answer : Answer α
  failure : Failure
  fails : api answer = .error failure

/-- How a call goes: Gitea serves it with this value, or refuses it with status 422 or 409 and this message where it cannot be
    carried out; or it fails, carried out or not. -/
inductive Call (α : Type) where
  | served (value : α) (unprocessable : Bool) (message : Text)
  | failed (applied : Bool) (answer : FailedAnswer α)

inductive Phase where
  | arrived
  /-- The call of the contents API is due. -/
  | contents (req : TenantRequest)
  /-- The branch is there and the pull request is to be opened. -/
  | pulls (req : TenantRequest)
  | replied (reply : Reply)

/-- What happens to a request, in the order of time. -/
inductive Event (ι : Type) where
  | called (i : ι)
  /-- A call of the request failed. -/
  | failed (i : ι)
  | opened (i : ι)
  | replied (i : ι) (reply : Reply)

/-- The branches and the files of the base branch in Gitea, the requests, and what has happened. -/
structure World (ι : Type) where
  branches : List Text
  files : List Text
  phase : ι → Phase
  log : List (Event ι)

/-- The next step of a request with the way its call goes, or a change of the repository by others. -/
inductive Op (ι : Type) where
  | request (i : ι) (contents : Call Unit) (pulls : Call PullRequest)
  | others (branches files : List Text)

def afterContents (req : TenantRequest) : Except Failure Unit → Phase
  | .ok _ => .pulls req
  | .error failure => .replied (failureReply req.ns failure)

def afterPulls (req : TenantRequest) : Except Failure PullRequest → Phase
  | .ok pr => .replied (.requested req.ns req.team pr)
  | .error failure => .replied (failureReply req.ns failure)

namespace World

variable {ι : Type} [DecidableEq ι]

/-- Gitea cannot create the branch with the file: one of them is there. -/
def Conflicts (s : World ι) (req : TenantRequest) : Prop :=
  branchOf req.ns ∈ s.branches ∨ tenantPath req.team req.ns ∈ s.files

instance (s : World ι) (req : TenantRequest) : Decidable (s.Conflicts req) := inferInstanceAs (Decidable (_ ∨ _))

def createBranch (s : World ι) (req : TenantRequest) : World ι := { s with branches := branchOf req.ns :: s.branches }

def goTo (s : World ι) (i : ι) (phase : Phase) : World ι := { s with phase := Function.update s.phase i phase }

def note (s : World ι) (event : Event ι) : World ι := { s with log := s.log ++ [event] }

/-- The reply is noted when it is sent. -/
def finish (s : World ι) (i : ι) (phase : Phase) : World ι :=
  match phase with
  | .replied reply => (s.goTo i phase).note (.replied i reply)
  | _ => s.goTo i phase

/-- The contents API creates the branch and the commit together. -/
def callContents (s : World ι) (i : ι) (req : TenantRequest) : Call Unit → World ι
  | .served _ unprocessable message =>
    if s.Conflicts req then
      (s.note (.called i)).finish i
        (afterContents req (api (.response (if unprocessable then 422 else 409) [] false message none)))
    else ((s.createBranch req).note (.called i)).finish i (afterContents req (api (.response 201 [] false [] (some ()))))
  | .failed applied answer =>
    let s' := if applied ∧ ¬ s.Conflicts req then s.createBranch req else s
    ((s'.note (.called i)).note (.failed i)).finish i (afterContents req (api answer.answer))

def callPulls (s : World ι) (i : ι) (req : TenantRequest) : Call PullRequest → World ι
  | .served pr _ _ => (s.note (.opened i)).finish i (afterPulls req (api (.response 201 [] false [] (some pr))))
  | .failed applied answer =>
    let s' := if applied then s.note (.opened i) else s
    (s'.note (.failed i)).finish i (afterPulls req (api answer.answer))

def step (requests : ι → PostRequest) (s : World ι) : Op ι → World ι
  | .request i contents pulls =>
    match s.phase i with
    | .arrived =>
      match precheck (requests i) with
      | .error reply => s.finish i (.replied reply)
      | .ok req => s.finish i (.contents req)
    | .contents req => s.callContents i req contents
    | .pulls req => s.callPulls i req pulls
    | .replied _ => s
  | .others branches files => { s with branches, files }

def start (branches files : List Text) : World ι := ⟨branches, files, fun _ => .arrived, []⟩

end World

/-! ### What is to hold of a run -/

section

variable {ι : Type} [DecidableEq ι] (requests : ι → PostRequest)

/-- Another request for the namespace has opened a pull request. -/
def OpenedBefore (log : List (Event ι)) (i : ι) : Prop :=
  ∃ j, j ≠ i ∧ .opened j ∈ log ∧ (requests j).ns = (requests i).ns

def Reply.isAlreadyOpen : Reply → Bool
  | .error status _ => status = 409
  | _ => false

/-- A request is answered `already open` only after another one for its namespace has opened a pull request, and a request
    whose calls Gitea served opens a pull request unless another one has done so. -/
structure Retryable (log : List (Event ι)) : Prop where
  alreadyOpen : ∀ before after i reply, log = before ++ .replied i reply :: after → reply.isAlreadyOpen = true →
    OpenedBefore requests before i
  opens : ∀ before after i reply, log = before ++ .replied i reply :: after → .called i ∈ before → .failed i ∉ before →
    .opened i ∈ before ∨ OpenedBefore requests before i

/-- Where Gitea refuses the contents call because the branch or the file is there, and where a call fails with the status of
    such a refusal, another request for the namespace has opened a pull request. -/
def NothingHalfDone (s : World ι) : Op ι → Prop
  | .request i contents pulls =>
    match s.phase i with
    | .contents req =>
      match contents with
      | .served .. => s.Conflicts req → OpenedBefore requests s.log i
      | .failed _ answer => answer.failure.isConflict = true → OpenedBefore requests s.log i
    | .pulls _ =>
      match pulls with
      | .served .. => True
      | .failed _ answer => answer.failure.isConflict = true → OpenedBefore requests s.log i
    | _ => True
  | .others .. => True

/-! ### One step -/

variable {requests : ι → PostRequest} {log : List (Event ι)} {s : World ι} {i : ι}

/-- A reply is right after these events. -/
def Justified (requests : ι → PostRequest) (log : List (Event ι)) (i : ι) (reply : Reply) : Prop :=
  (reply.isAlreadyOpen = true → OpenedBefore requests log i) ∧
    (.called i ∈ log → .failed i ∉ log → .opened i ∈ log ∨ OpenedBefore requests log i)

omit [DecidableEq ι] in
theorem retryable_concat_iff (event : Event ι) : Retryable requests (log ++ [event]) ↔
    Retryable requests log ∧ ∀ i reply, event = .replied i reply → Justified requests log i reply := by
  constructor
  · intro h
    refine ⟨⟨?_, ?_⟩, ?_⟩
    · rintro before after i reply rfl
      exact h.alreadyOpen before (after ++ [event]) i reply (by simp)
    · rintro before after i reply rfl
      exact h.opens before (after ++ [event]) i reply (by simp)
    · rintro i reply rfl
      exact ⟨h.alreadyOpen log [] i reply rfl, h.opens log [] i reply rfl⟩
  · rintro ⟨h, hlast⟩
    have hall : ∀ before after i reply, log ++ [event] = before ++ .replied i reply :: after →
        Justified requests before i reply := by
      intro before after i reply heq
      rcases List.eq_nil_or_concat after with rfl | ⟨after, last, rfl⟩
      · obtain ⟨rfl, rfl⟩ := List.append_singleton_inj.mp heq
        exact hlast i reply rfl
      · rw [List.concat_eq_append, ← List.cons_append, ← List.append_assoc] at heq
        obtain ⟨rfl, -⟩ := List.append_singleton_inj.mp heq
        exact ⟨h.alreadyOpen before after i reply rfl, h.opens before after i reply rfl⟩
    exact ⟨fun before after i reply heq => (hall before after i reply heq).1,
      fun before after i reply heq => (hall before after i reply heq).2⟩

omit [DecidableEq ι] in
/-- Only a reply that is noted has to be right. -/
theorem retryable_note_iff {event : Event ι} (h : ∀ i reply, event ≠ .replied i reply) :
    Retryable requests (s.note event).log ↔ Retryable requests s.log := by
  rw [World.note, retryable_concat_iff]
  exact and_iff_left fun i reply heq => absurd heq (h i reply)

theorem retryable_finish_iff (phase : Phase) : Retryable requests (s.finish i phase).log ↔
    Retryable requests s.log ∧ ∀ reply, phase = .replied reply → Justified requests s.log i reply := by
  cases phase with
  | replied reply =>
    rw [World.finish, World.note, retryable_concat_iff]
    refine and_congr_right fun _ => ?_
    constructor
    · rintro h _ ⟨⟩
      exact h i reply rfl
    · rintro h _ _ ⟨⟩
      exact h reply rfl
  | arrived | contents _ | pulls _ => exact (and_iff_left fun reply heq => nomatch heq).symm

omit [DecidableEq ι] in
theorem openedBefore_concat_iff {event : Event ι} (h : ∀ j, j ≠ i → event ≠ .opened j) :
    OpenedBefore requests (log ++ [event]) i ↔ OpenedBefore requests log i := by
  refine exists_congr fun j => and_congr_right fun hne => and_congr_left fun _ => ?_
  rw [List.mem_append, List.mem_singleton]
  exact or_iff_left fun heq => h j hne heq.symm

/-- A request that failed is answered as the failure says. -/
theorem isAlreadyOpen_failureReply (name : Text) (failure : Failure) :
    (failureReply name failure).isAlreadyOpen = failure.isConflict := by
  cases failure with
  | giteaError message status =>
    by_cases h : status = 409 ∨ status = 422
    · rw [failureReply, if_pos h]
      rcases h with rfl | rfl <;> rfl
    · rw [failureReply, if_neg h]
      rw [not_or] at h
      simp [Reply.isAlreadyOpen, Failure.isConflict, h]
  | credentialError _ | other => rfl

theorem status_ne_of_resolveNamespaceOwner {role : Text} {teams : List Text} {requestedTeam : Option Text} {status : Nat}
    {message : Text} (h : resolveNamespaceOwner role teams requestedTeam = .error (status, message)) : status ≠ 409 := by
  simp only [resolveNamespaceOwner] at h
  split at h
  · obtain ⟨rfl, -⟩ := Prod.mk.inj (Except.error.inj h)
    decide
  split at h
  · cases h
  · obtain ⟨rfl, -⟩ := Prod.mk.inj (Except.error.inj h)
    decide

theorem not_isAlreadyOpen_of_precheck {request : PostRequest} {reply : Reply} (h : precheck request = .error reply) :
    reply.isAlreadyOpen = false := by
  simp only [precheck] at h
  split at h
  · obtain rfl := Except.error.inj h
    rfl
  next session _ =>
  split at h
  · obtain rfl := Except.error.inj h
    rfl
  split at h
  · obtain rfl := Except.error.inj h
    split <;> rfl
  next name _ =>
  split at h
  · obtain rfl := Except.error.inj h
    rfl
  split at h
  · obtain rfl := Except.error.inj h
    rfl
  split at h
  · next status message howner =>
    obtain rfl := Except.error.inj h
    exact decide_eq_false (status_ne_of_resolveNamespaceOwner howner)
  split at h
  · obtain rfl := Except.error.inj h
    rfl
  · cases h

omit [DecidableEq ι] in
/-- A request is answered rightly after a call that failed where the failure does not say `already open` by mistake. -/
theorem justified_failed_iff {name : Text} {failure : Failure} :
    (∀ reply, Phase.replied (failureReply name failure) = .replied reply →
      Justified requests (s.note (.failed i)).log i reply) ↔
      (failure.isConflict = true → OpenedBefore requests s.log i) := by
  have hopened : OpenedBefore requests (s.note (.failed i)).log i ↔ OpenedBefore requests s.log i :=
    openedBefore_concat_iff (by simp)
  constructor
  · intro h hconflict
    exact hopened.mp ((h _ rfl).1 (by rw [isAlreadyOpen_failureReply, hconflict]))
  · rintro h reply ⟨⟩
    refine ⟨fun hreply => hopened.mpr (h ?_), fun _ hnot => absurd (by simp [World.note]) hnot⟩
    rw [← hreply, isAlreadyOpen_failureReply]

theorem retryable_callContents_iff {req : TenantRequest} {call : Call Unit} (hphase : s.phase i = .contents req)
    (pulls : Call PullRequest) :
    Retryable requests (s.callContents i req call).log ↔
      Retryable requests s.log ∧ NothingHalfDone requests s (.request i call pulls) := by
  simp only [NothingHalfDone, hphase]
  cases call with
  | served value unprocessable message =>
    by_cases hconflicts : s.Conflicts req
    · obtain ⟨failure, hfailure, hconflict⟩ : ∃ failure, api (α := Unit)
          (.response (if unprocessable then 422 else 409) [] false message none) = .error failure ∧
            failure.isConflict = true := by
        cases unprocessable with
        | true => exact ⟨.giteaError message 422, rfl, rfl⟩
        | false => exact ⟨.giteaError message 409, rfl, rfl⟩
      simp only [World.callContents, if_pos hconflicts, hfailure, afterContents, retryable_finish_iff]
      rw [retryable_note_iff (by simp)]
      refine and_congr_right fun _ => ?_
      have hopened : OpenedBefore requests (s.note (.called i)).log i ↔ OpenedBefore requests s.log i :=
        openedBefore_concat_iff (by simp)
      constructor
      · intro h _
        exact hopened.mp ((h _ rfl).1 (by rw [isAlreadyOpen_failureReply, hconflict]))
      · rintro h reply ⟨⟩
        exact ⟨fun _ => hopened.mpr (h hconflicts), fun _ _ => .inr (hopened.mpr (h hconflicts))⟩
    · have hok : api (α := Unit) (.response 201 [] false [] (some ())) = .ok () := rfl
      simp only [World.callContents, if_neg hconflicts, hok, afterContents, retryable_finish_iff]
      rw [retryable_note_iff (by simp)]
      exact and_congr_right fun _ => iff_of_true (fun _ => (nomatch ·)) fun h => absurd h hconflicts
  | failed applied answer =>
    simp only [World.callContents, answer.fails, afterContents, retryable_finish_iff]
    generalize hs' : (if applied ∧ ¬ s.Conflicts req then s.createBranch req else s) = s'
    have hlog : s'.log = s.log := by
      rw [← hs']
      split <;> rfl
    rw [retryable_note_iff (by simp), retryable_note_iff (by simp), hlog]
    refine and_congr_right fun _ => justified_failed_iff.trans ?_
    rw [World.note, openedBefore_concat_iff (by simp), hlog]

theorem retryable_callPulls_iff {req : TenantRequest} {call : Call PullRequest} (hphase : s.phase i = .pulls req)
    (contents : Call Unit) :
    Retryable requests (s.callPulls i req call).log ↔
      Retryable requests s.log ∧ NothingHalfDone requests s (.request i contents call) := by
  simp only [NothingHalfDone, hphase]
  cases call with
  | served pr unprocessable message =>
    have hok : api (.response 201 [] false [] (some pr)) = .ok pr := rfl
    simp only [World.callPulls, hok, afterPulls, retryable_finish_iff]
    rw [retryable_note_iff (by simp)]
    refine and_congr_right fun _ => iff_of_true ?_ trivial
    rintro reply ⟨⟩
    exact ⟨(nomatch ·), fun _ _ => .inl (by simp [World.note])⟩
  | failed applied answer =>
    simp only [World.callPulls, answer.fails, afterPulls, retryable_finish_iff]
    cases applied with
    | false =>
      simp only [Bool.false_eq_true, if_false]
      rw [retryable_note_iff (by simp)]
      exact and_congr_right fun _ => justified_failed_iff
    | true =>
      simp only [if_true]
      rw [retryable_note_iff (by simp), retryable_note_iff (by simp)]
      refine and_congr_right fun _ => justified_failed_iff.trans ?_
      rw [World.note, openedBefore_concat_iff]
      intro j hne heq
      exact hne (Event.opened.inj heq).symm

/-! ### Runs -/

/-- A request that has not called Gitea yet is not in the log as one that has. -/
def World.Fresh (s : World ι) : Prop := ∀ i, s.phase i = .arrived → .called i ∉ s.log

/-- A step of a request: it is no longer new, and of the others neither the phase changes nor whether they have called. -/
structure World.Moves (s s' : World ι) (i : ι) : Prop where
  phase : s'.phase i ≠ .arrived
  others : ∀ j, j ≠ i → s'.phase j = s.phase j
  called : ∀ j, j ≠ i → .called j ∈ s'.log → .called j ∈ s.log

omit [DecidableEq ι] in
theorem World.Moves.fresh {s' : World ι} (h : s.Moves s' i) (hfresh : s.Fresh) : s'.Fresh := by
  intro j hphase hcalled
  by_cases hj : j = i
  · exact h.phase (hj ▸ hphase)
  · exact hfresh j (h.others j hj ▸ hphase) (h.called j hj hcalled)

theorem World.moves_finish {s' : World ι} {phase : Phase} (hphase : phase ≠ .arrived) (hsame : s'.phase = s.phase)
    (hcalled : ∀ j, j ≠ i → .called j ∈ s'.log → .called j ∈ s.log) : s.Moves (s'.finish i phase) i := by
  have hgo : ((s'.finish i phase).phase = Function.update s'.phase i phase) ∧
      ∀ j, .called j ∈ (s'.finish i phase).log → .called j ∈ s'.log := by
    cases phase with
    | replied reply =>
      refine ⟨rfl, fun j hmem => ?_⟩
      simpa [World.finish, World.note, World.goTo] using hmem
    | arrived | contents _ | pulls _ => exact ⟨rfl, fun _ hmem => hmem⟩
  refine ⟨?_, ?_, fun j hj hmem => hcalled j hj (hgo.2 j hmem)⟩
  · rwa [hgo.1, Function.update_self]
  · intro j hj
    rw [hgo.1, Function.update_of_ne hj, hsame]

theorem afterContents_ne_arrived (req : TenantRequest) (result : Except Failure Unit) :
    afterContents req result ≠ .arrived := by
  cases result with
  | ok _ => exact (nomatch ·)
  | error _ => exact (nomatch ·)

theorem afterPulls_ne_arrived (req : TenantRequest) (result : Except Failure PullRequest) :
    afterPulls req result ≠ .arrived := by
  cases result with
  | ok _ => exact (nomatch ·)
  | error _ => exact (nomatch ·)

theorem World.moves_callContents (req : TenantRequest) (call : Call Unit) : s.Moves (s.callContents i req call) i := by
  have hcalled : ∀ s' : World ι, s'.log = s.log → ∀ j, j ≠ i → .called j ∈ (s'.note (.called i)).log → .called j ∈ s.log := by
    intro s' hlog j hj hmem
    simpa [World.note, hj, hlog] using hmem
  cases call with
  | served value unprocessable message =>
    simp only [callContents]
    split
    · exact moves_finish (afterContents_ne_arrived req _) rfl (hcalled s rfl)
    · exact moves_finish (afterContents_ne_arrived req _) rfl (hcalled (s.createBranch req) rfl)
  | failed applied answer =>
    simp only [callContents]
    generalize hs' : (if applied ∧ ¬ s.Conflicts req then s.createBranch req else s) = s'
    have hsame : s'.log = s.log ∧ s'.phase = s.phase := by
      rw [← hs']
      split
      · exact ⟨rfl, rfl⟩
      · exact ⟨rfl, rfl⟩
    refine moves_finish (afterContents_ne_arrived req _) hsame.2 fun j hj hmem => hcalled s' hsame.1 j hj ?_
    simpa [World.note] using hmem

theorem World.moves_callPulls (req : TenantRequest) (call : Call PullRequest) : s.Moves (s.callPulls i req call) i := by
  cases call with
  | served pr unprocessable message =>
    simp only [callPulls]
    refine moves_finish (afterPulls_ne_arrived req _) rfl fun j hj hmem => ?_
    simpa [World.note] using hmem
  | failed applied answer =>
    simp only [callPulls]
    cases applied with
    | false =>
      refine moves_finish (afterPulls_ne_arrived req _) rfl fun j hj hmem => ?_
      simpa [World.note] using hmem
    | true =>
      refine moves_finish (afterPulls_ne_arrived req _) rfl fun j hj hmem => ?_
      simpa [World.note] using hmem

theorem World.fresh_step (hfresh : s.Fresh) (op : Op ι) : (s.step requests op).Fresh := by
  cases op with
  | request i contents pulls =>
    simp only [step]
    split
    · split
      all_goals
        refine (moves_finish ?_ rfl fun _ _ hmem => hmem).fresh hfresh
        exact (nomatch ·)
    · exact (moves_callContents _ contents).fresh hfresh
    · exact (moves_callPulls _ pulls).fresh hfresh
    · exact hfresh
  | others branches files => exact hfresh

/-- A step keeps the log right exactly where it meets the condition. -/
theorem retryable_step_iff (hfresh : s.Fresh) (op : Op ι) : Retryable requests (s.step requests op).log ↔
    Retryable requests s.log ∧ NothingHalfDone requests s op := by
  cases op with
  | request i contents pulls =>
    cases hphase : s.phase i with
    | arrived =>
      have htrue : NothingHalfDone requests s (.request i contents pulls) := by
        simp only [NothingHalfDone, hphase]
      simp only [World.step, hphase]
      cases hcheck : precheck (requests i) with
      | error reply =>
        rw [retryable_finish_iff]
        refine and_congr_right fun _ => iff_of_true ?_ htrue
        rintro _ ⟨⟩
        refine ⟨fun hopen => ?_, fun hcalled => absurd hcalled (hfresh i hphase)⟩
        rw [not_isAlreadyOpen_of_precheck hcheck] at hopen
        cases hopen
      | ok req =>
        rw [retryable_finish_iff]
        exact and_congr_right fun _ => iff_of_true (fun _ => (nomatch ·)) htrue
    | contents req =>
      simp only [World.step, hphase]
      exact retryable_callContents_iff hphase pulls
    | pulls req =>
      simp only [World.step, hphase]
      exact retryable_callPulls_iff hphase contents
    | replied reply =>
      simp only [World.step, hphase, NothingHalfDone, and_true]
  | others branches files => exact (and_iff_left trivial).symm

/-- Requests can be retried in exactly the runs in which none finds a request that was left half done. -/
theorem retryable_iff (requests : ι → PostRequest) (branches files : List Text) (ops : List (Op ι)) :
    Retryable requests (ops.foldl (World.step requests) (.start branches files)).log ↔
      Allowed (World.step requests) (NothingHalfDone requests) (.start branches files) ops := by
  have hrun : (ops.foldl (World.step requests) (.start branches files)).Fresh ∧
      (Retryable requests (ops.foldl (World.step requests) (.start branches files)).log ↔
        Allowed (World.step requests) (NothingHalfDone requests) (.start branches files) ops) := by
    induction ops using List.reverseRecOn with
    | nil =>
      refine ⟨fun i _ hmem => (nomatch hmem), iff_of_true ⟨?_, ?_⟩ trivial⟩
      · intro before after i reply h
        simp [World.start] at h
      · intro before after i reply h
        simp [World.start] at h
    | append_singleton ops op ih =>
      obtain ⟨hfresh, hiff⟩ := ih
      rw [List.foldl_append, List.foldl_cons, List.foldl_nil, allowed_concat_iff, ← hiff]
      exact ⟨World.fresh_step hfresh op, retryable_step_iff hfresh op⟩
  exact hrun.2

end

/-- A developer asks for `dev-a`. -/
def devRequest : PostRequest :=
  ⟨some ⟨"developer".toList, ["team-a".toList], some "dev@example.com".toList, none⟩, .text "dev-a".toList, none, true⟩

/-- The pull request could not be opened: a server error. -/
def serverError : FailedAnswer PullRequest :=
  ⟨.response 500 [] false "server broke".toList none, .giteaError "server broke".toList 500, rfl⟩

/-- The first request creates the branch and then fails; the second one does not fail. -/
def halfDoneRun : List (Op Bool) :=
  [.request false (.served () false []) (.failed false serverError), .request false (.served () false []) (.failed false serverError),
    .request false (.served () false []) (.failed false serverError), .request true (.served () false []) (.served ⟨1, []⟩ false []),
    .request true (.served () false []) (.served ⟨1, []⟩ false [])]

/-- The second request is answered that one is already open, although none was opened. -/
theorem retry_answered_already_open :
    ¬ Retryable (fun _ => devRequest) (halfDoneRun.foldl (World.step fun _ => devRequest) (.start [] [])).log := by
  intro h
  have hlog : (halfDoneRun.foldl (World.step fun _ => devRequest) (.start [] [])).log =
      [.called false, .failed false, .replied false (failureReply "dev-a".toList serverError.failure), .called true] ++
        .replied true (.error 409 "A request for 'dev-a' is already open".toList) :: [] := by rfl
  obtain ⟨j, -, hopened, -⟩ := h.alreadyOpen _ _ _ _ hlog rfl
  simp at hopened

end narwhal.portal.gitea
