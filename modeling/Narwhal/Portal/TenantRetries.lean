import Mathlib.Data.Fintype.Basic
import Narwhal.Portal.TenantRuns

open jslib
open pylib (Allowed)

namespace narwhal.portal.gitea

variable {ι : Type} [DecidableEq ι]

/-! ### Calls that leave nothing half done -/

/-- A request for the namespace has opened a pull request. -/
def Opened (requests : ι → PostRequest) (log : List (Event ι)) (ns : Text) : Prop :=
  ∃ j, .opened j ∈ log ∧ (requests j).ns = ns

/-- The request has made the branch of the namespace and asks for the pull request next. -/
def Phase.isBetween (ns : Text) : Phase → Bool
  | .pulls req => req.ns = ns
  | _ => false

/-- A request for the namespace is between its two calls. -/
def World.Between (s : World ι) (ns : Text) : Prop := ∃ j, (s.phase j).isBetween ns = true

instance [Fintype ι] (s : World ι) (ns : Text) : Decidable (s.Between ns) := inferInstanceAs (Decidable (∃ _, _))

/-- No call is cut off half way: Gitea refuses no contents call while another request for the namespace is
    between its two calls, a contents call that fails has made nothing, a pulls call that fails has opened the
    pull request, no call fails with status 409 or 422 for another reason, and others make no branch and no
    file that is asked for here, except by merging a pull request that was opened here. -/
def CarriedOut (requests : ι → PostRequest) (s : World ι) : Op ι → Prop
  | .request i contents pulls =>
    match s.phase i with
    | .contents req =>
      match contents with
      | .served .. => s.Conflicts req → ¬ s.Between req.ns
      | .failed applied answer => (applied = true → s.Conflicts req) ∧ answer.failure.isConflict = false
    | .pulls _ =>
      match pulls with
      | .served .. => True
      | .failed applied answer => applied = true ∧ answer.failure.isConflict = false
    | .arrived | .replied _ => True
  | .others branches files => ∀ i req, precheck (requests i) = .ok req →
      (branchOf req.ns ∈ branches → branchOf req.ns ∈ s.branches) ∧
      (tenantPath req.team req.ns ∈ files → tenantPath req.team req.ns ∈ s.files ∨ Opened requests s.log req.ns)

/-! ### Every branch has its pull request -/

/-- What holds of the requests and of the branches they make: behind every branch or file there is a pull
    request, or a request that is about to open it. -/
structure Backed (requests : ι → PostRequest) (s : World ι) : Prop where
  asked : ∀ i req, s.phase i = .contents req ∨ s.phase i = .pulls req → precheck (requests i) = .ok req
  early : ∀ i, s.phase i = .arrived ∨ (∃ req, s.phase i = .contents req) → .opened i ∉ s.log
  backed : ∀ i req, precheck (requests i) = .ok req → s.Conflicts req → Opened requests s.log req.ns ∨ s.Between req.ns

section

variable {requests : ι → PostRequest} {s : World ι} {i : ι}

/-- Namespaces have branches of their own. -/
theorem branchOf_injective {a b : Text} (h : branchOf a = branchOf b) : a = b := List.append_cancel_left h

/-- The namespace that is checked is the one that was asked for. -/
theorem ns_of_precheck {request : PostRequest} {req : TenantRequest} (h : precheck request = .ok req) :
    req.ns = request.ns := by
  simp only [precheck] at h
  split at h
  · cases h
  split at h
  · cases h
  split at h
  · cases h
  next name hname =>
  split at h
  · cases h
  split at h
  · cases h
  split at h
  · cases h
  split at h
  · cases h
  · obtain rfl := Except.ok.inj h
    rw [PostRequest.ns, hname]

@[simp] theorem World.phase_finish (phase : Phase) : (s.finish i phase).phase = Function.update s.phase i phase := by
  cases phase <;> rfl

@[simp] theorem World.conflicts_finish (phase : Phase) (req : TenantRequest) :
    (s.finish i phase).Conflicts req ↔ s.Conflicts req := by
  cases phase <;> rfl

@[simp] theorem World.opened_mem_finish (phase : Phase) (j : ι) : .opened j ∈ (s.finish i phase).log ↔ .opened j ∈ s.log := by
  cases phase with
  | replied reply => simp [World.finish, World.note, World.goTo]
  | arrived | contents _ | pulls _ => rfl

omit [DecidableEq ι] in
theorem Opened.of_subset {log log' : List (Event ι)} {ns : Text} (h : Opened requests log ns) (hsub : log ⊆ log') :
    Opened requests log' ns := by
  obtain ⟨j, hopened, hns⟩ := h
  exact ⟨j, hsub hopened, hns⟩

/-- A request goes on. It has not opened a pull request before it is through, every branch that there is now
    was there or has the request behind it, and where it was between its calls it has opened one. -/
theorem Backed.move (h : Backed requests s) {s' : World ι} {phase : Phase}
    (hphase : s'.phase = Function.update s.phase i phase)
    (hasked : ∀ req, phase = .contents req ∨ phase = .pulls req → precheck (requests i) = .ok req)
    (hlog : s.log ⊆ s'.log) (hnew : ∀ j, j ≠ i → .opened j ∈ s'.log → .opened j ∈ s.log)
    (hearly : phase = .arrived ∨ (∃ req, phase = .contents req) → .opened i ∉ s'.log)
    (hbranches : ∀ k req, precheck (requests k) = .ok req → s'.Conflicts req →
      s.Conflicts req ∨ phase.isBetween req.ns = true)
    (hbetween : ∀ ns, (s.phase i).isBetween ns = true → Opened requests s'.log ns) : Backed requests s' where
  asked k req hk := by
    rw [hphase] at hk
    obtain rfl | hne := eq_or_ne k i
    · exact hasked req (by simpa using hk)
    · exact h.asked k req (by simpa [hne] using hk)
  early k hk := by
    rw [hphase] at hk
    obtain rfl | hne := eq_or_ne k i
    · exact hearly (by simpa using hk)
    · exact fun hopened => h.early k (by simpa [hne] using hk) (hnew k hne hopened)
  backed k req hcheck hconflicts := by
    rcases hbranches k req hcheck hconflicts with hold | hmade
    · rcases h.backed k req hcheck hold with hopened | ⟨j, hj⟩
      · exact .inl (hopened.of_subset hlog)
      · obtain rfl | hne := eq_or_ne j i
        · exact .inl (hbetween req.ns hj)
        · exact .inr ⟨j, by simpa [hphase, hne] using hj⟩
    · exact .inr ⟨i, by simpa [hphase] using hmade⟩

omit [DecidableEq ι] in
/-- Where a request is refused because its branch is there, another one has opened a pull request. -/
theorem Backed.openedBefore (h : Backed requests s) {req : TenantRequest} (hphase : s.phase i = .contents req)
    (hconflicts : s.Conflicts req) (hbetween : ¬ s.Between req.ns) : OpenedBefore requests s.log i := by
  have hcheck := h.asked i req (.inl hphase)
  obtain ⟨j, hopened, hns⟩ := (h.backed i req hcheck hconflicts).resolve_right hbetween
  refine ⟨j, ?_, hopened, hns.trans (ns_of_precheck hcheck)⟩
  rintro rfl
  exact h.early j (.inr ⟨req, hphase⟩) hopened

omit [DecidableEq ι] in
/-- Calls that are carried out leave no request half done. -/
theorem Backed.nothingHalfDone (h : Backed requests s) {op : Op ι} (hop : CarriedOut requests s op) :
    NothingHalfDone requests s op := by
  cases op with
  | request i contents pulls =>
    cases hphase : s.phase i with
    | arrived | replied _ => simp only [NothingHalfDone, hphase]
    | contents req =>
      simp only [CarriedOut, hphase] at hop
      simp only [NothingHalfDone, hphase]
      cases contents with
      | served _ _ _ => exact fun hconflicts => h.openedBefore hphase hconflicts (hop hconflicts)
      | failed applied answer =>
        intro hconflict
        exact absurd (hop.2.symm.trans hconflict) Bool.false_ne_true
    | pulls req =>
      simp only [CarriedOut, hphase] at hop
      simp only [NothingHalfDone, hphase]
      cases pulls with
      | served _ _ _ => trivial
      | failed applied answer =>
        intro hconflict
        exact absurd (hop.2.symm.trans hconflict) Bool.false_ne_true
  | others branches files => trivial

/-- A request is answered, after it has opened its pull request if it was between its calls. -/
theorem Backed.replied (h : Backed requests s) (s' : World ι) (hsame : s'.phase = s.phase)
    (hconflicts : ∀ req, s'.Conflicts req ↔ s.Conflicts req) (hlog : s.log ⊆ s'.log)
    (hnew : ∀ j, j ≠ i → .opened j ∈ s'.log → .opened j ∈ s.log)
    (hbetween : ∀ ns, (s.phase i).isBetween ns = true → Opened requests s'.log ns) (reply : Reply) :
    Backed requests (s'.finish i (.replied reply)) := by
  have hgrows : s'.log ⊆ (s'.finish i (.replied reply)).log := List.subset_append_left _ _
  have hphase : (s'.finish i (.replied reply)).phase = Function.update s.phase i (.replied reply) := by
    rw [World.phase_finish, hsame]
  refine h.move hphase (by simp) (List.Subset.trans hlog hgrows) ?_ (by simp) ?_ ?_
  · intro j hj hmem
    exact hnew j hj (by simpa using hmem)
  · intro k req _ hk
    exact .inl ((hconflicts req).mp (by simpa using hk))
  · exact fun ns hns => (hbetween ns hns).of_subset hgrows

/-- The contents call makes a branch only where the request goes on to its pulls call, -/
theorem Backed.callContents (h : Backed requests s) {req : TenantRequest} (hphase : s.phase i = .contents req)
    {call : Call Unit} {pulls : Call PullRequest} (hop : CarriedOut requests s (.request i call pulls)) :
    Backed requests (s.callContents i req call) := by
  have hnot := h.early i (.inr ⟨req, hphase⟩)
  have hbetween : ∀ ns, (s.phase i).isBetween ns = true → False := by simp [hphase, Phase.isBetween]
  simp only [CarriedOut, hphase] at hop
  cases call with
  | served value unprocessable message =>
    by_cases hconflicts : s.Conflicts req
    · simp only [World.callContents, if_pos hconflicts]
      have herror : ∃ failure, api (α := Unit) (.response (if unprocessable then 422 else 409) [] false message none) =
          .error failure := by
        cases unprocessable with
        | true => exact ⟨.giteaError message 422, rfl⟩
        | false => exact ⟨.giteaError message 409, rfl⟩
      obtain ⟨failure, hfailure⟩ := herror
      rw [hfailure, afterContents]
      refine h.replied (s.note (.called i)) rfl (fun _ => .rfl) (List.subset_append_left _ _) ?_
        (fun ns hns => (hbetween ns hns).elim) _
      intro j _ hj
      simpa [World.note] using hj
    · have hok : api (α := Unit) (.response 201 [] false [] (some ())) = .ok () := rfl
      simp only [World.callContents, if_neg hconflicts, hok, afterContents]
      refine h.move rfl ?_ (List.subset_append_left _ _) ?_ (by simp) ?_ fun ns hns => (hbetween ns hns).elim
      · rintro _ (heq | heq)
        · cases heq
        · cases heq
          exact h.asked i req (.inl hphase)
      · intro j _ hj
        simpa [World.note, World.finish, World.goTo, World.createBranch] using hj
      · rintro k req' _ (hbranch | hfile)
        · rcases List.mem_cons.mp hbranch with heq | hbranch
          · right
            simp [Phase.isBetween, branchOf_injective heq]
          · exact .inl (.inl hbranch)
        · exact .inl (.inr hfile)
  | failed applied answer =>
    have hmade : (if applied ∧ ¬ s.Conflicts req then s.createBranch req else s) = s := by
      refine if_neg fun hmakes => hmakes.2 (hop.1 hmakes.1)
    simp only [World.callContents, hmade, answer.fails, afterContents]
    refine h.replied ((s.note (.called i)).note (.failed i)) rfl (fun _ => .rfl) ?_ ?_
      (fun ns hns => (hbetween ns hns).elim) _
    · simp only [World.note, List.append_assoc]
      exact List.subset_append_left _ _
    · intro j _ hj
      simpa [World.note] using hj

/-- and this has opened the pull request, whatever is answered. -/
theorem Backed.callPulls (h : Backed requests s) {req : TenantRequest} (hphase : s.phase i = .pulls req)
    {call : Call PullRequest} {contents : Call Unit} (hop : CarriedOut requests s (.request i contents call)) :
    Backed requests (s.callPulls i req call) := by
  have hcheck := h.asked i req (.inr hphase)
  simp only [CarriedOut, hphase] at hop
  -- The request has opened its pull request, whatever it is answered.
  have hbetween : ∀ log, .opened i ∈ log → ∀ ns, (s.phase i).isBetween ns = true → Opened requests log ns := by
    intro log hopened ns hns
    have heq : req.ns = ns := by simpa [hphase, Phase.isBetween] using hns
    exact ⟨i, hopened, (ns_of_precheck hcheck).symm.trans heq⟩
  cases call with
  | served pr _ _ =>
    have hok : api (.response 201 [] false [] (some pr)) = .ok pr := rfl
    simp only [World.callPulls, hok, afterPulls]
    refine h.replied (s.note (.opened i)) rfl (fun _ => .rfl) (List.subset_append_left _ _) ?_
      (hbetween _ (by simp [World.note])) _
    intro j hj hmem
    simpa [World.note, hj] using hmem
  | failed applied answer =>
    obtain ⟨rfl, _⟩ := hop
    simp only [World.callPulls, if_true, answer.fails, afterPulls]
    refine h.replied ((s.note (.opened i)).note (.failed i)) rfl (fun _ => .rfl) ?_ ?_
      (hbetween _ (by simp [World.note])) _
    · simp only [World.note, List.append_assoc]
      exact List.subset_append_left _ _
    · intro j hj hmem
      simpa [World.note, hj] using hmem

/-- Every step that is carried out keeps what holds of the branches. -/
theorem Backed.step (h : Backed requests s) {op : Op ι} (hop : CarriedOut requests s op) :
    Backed requests (s.step requests op) := by
  cases op with
  | request i contents pulls =>
    cases hphase : s.phase i with
    | arrived =>
      have hnot := h.early i (.inl hphase)
      have hbetween : ∀ ns, (s.phase i).isBetween ns = true → False := by simp [hphase, Phase.isBetween]
      simp only [World.step, hphase]
      cases hcheck : precheck (requests i) with
      | error reply =>
        exact h.move (World.phase_finish _) (by simp) (List.subset_append_left _ _)
          (fun j _ hj => by simpa using hj) (by simp) (fun k req _ hk => .inl (by simpa using hk))
          fun ns hns => (hbetween ns hns).elim
      | ok req =>
        refine h.move (World.phase_finish _) ?_ (List.Subset.refl _) (fun j _ hj => hj) (fun _ => hnot)
          (fun k req' _ hk => .inl hk) fun ns hns => (hbetween ns hns).elim
        rintro _ (heq | heq)
        · cases heq
          exact hcheck
        · cases heq
    | contents req =>
      simp only [World.step, hphase]
      exact h.callContents hphase hop
    | pulls req =>
      simp only [World.step, hphase]
      exact h.callPulls hphase hop
    | replied reply =>
      simp only [World.step, hphase]
      exact h
  | others branches files =>
    refine ⟨h.asked, h.early, fun k req hcheck hconflicts => ?_⟩
    obtain ⟨hbranches, hfiles⟩ := hop k req hcheck
    rcases hconflicts with hbranch | hfile
    · exact h.backed k req hcheck (.inl (hbranches hbranch))
    · rcases hfiles hfile with hfile | hopened
      · exact h.backed k req hcheck (.inr hfile)
      · exact .inl hopened

end

/-! ### Runs -/

/-- In a repository without the branches and files that are asked for, requests can be retried in every run
    whose calls are carried out, and behind every branch and file there is a pull request that was opened, or
    a request that is about to open it. -/
theorem requests_retryable (requests : ι → PostRequest) {branches files : List Text} {ops : List (Op ι)}
    (hstart : ∀ i req, precheck (requests i) = .ok req → ¬ (World.start branches files : World ι).Conflicts req)
    (hops : Allowed (World.step requests) (CarriedOut requests) (.start branches files) ops) :
    Retryable requests (ops.foldl (World.step requests) (.start branches files)).log ∧
      ∀ i req, precheck (requests i) = .ok req →
        (ops.foldl (World.step requests) (.start branches files)).Conflicts req →
        Opened requests (ops.foldl (World.step requests) (.start branches files)).log req.ns ∨
          (ops.foldl (World.step requests) (.start branches files)).Between req.ns := by
  have hbacked : Backed requests (.start branches files : World ι) :=
    ⟨by simp [World.start], by simp [World.start], fun i req hcheck hconflicts => absurd hconflicts (hstart i req hcheck)⟩
  have hhalf : Allowed (World.step requests) (NothingHalfDone requests) (.start branches files) ops :=
    hops.imp (fun _ _ hs hop => hs.nothingHalfDone hop) (fun _ _ hs hop => hs.step hop) hbacked
  exact ⟨(retryable_iff requests branches files ops).mpr hhalf,
    (hops.invariant (fun _ _ hs hop => hs.step hop) hbacked).backed⟩

/-- Three requests for `dev-a`: the first opens its pull request, the second finds the branch; that pull
    request is merged, and the third finds the file. -/
def mergedRun : List (Op (Fin 3)) :=
  List.replicate 3 (.request 0 (.served () false []) (.served ⟨1, []⟩ false [])) ++
    List.replicate 2 (.request 1 (.served () true []) (.served ⟨2, []⟩ false [])) ++
    [.others [] [tenantPath "team-a".toList "dev-a".toList]] ++
    List.replicate 2 (.request 2 (.served () true []) (.served ⟨3, []⟩ false []))

theorem requests_retryable_merged :
    Retryable (fun _ => devRequest) (mergedRun.foldl (World.step fun _ => devRequest) (.start [] [])).log ∧
      .replied 2 (.error 409 "A request for 'dev-a' is already open".toList) ∈
        (mergedRun.foldl (World.step fun _ => devRequest) (.start [] [])).log := by
  have hstart : ∀ (i : Fin 3) req, precheck devRequest = .ok req → ¬ (World.start [] [] : World (Fin 3)).Conflicts req :=
    fun _ _ _ => by simp [World.Conflicts, World.start]
  have hops : Allowed (World.step fun _ => devRequest) (CarriedOut fun _ => devRequest) (.start [] []) mergedRun :=
    ⟨trivial, fun hconflicts => absurd hconflicts (by decide), trivial, trivial, fun _ => by decide,
      fun _ req hcheck => ⟨fun hbranch => absurd hbranch List.not_mem_nil, fun _ =>
        .inr ⟨0, List.mem_cons_of_mem _ List.mem_cons_self, (ns_of_precheck hcheck).symm⟩⟩,
      trivial, fun _ => by decide, trivial⟩
  have hlog : (mergedRun.foldl (World.step fun _ => devRequest) (.start [] [])).log =
      [.called 0, .opened 0, .replied 0 (.requested "dev-a".toList "team-a".toList ⟨1, []⟩), .called 1,
        .replied 1 (.error 409 "A request for 'dev-a' is already open".toList), .called 2,
        .replied 2 (.error 409 "A request for 'dev-a' is already open".toList)] := by rfl
  refine ⟨(requests_retryable _ hstart hops).1, ?_⟩
  rw [hlog]
  simp

end narwhal.portal.gitea
