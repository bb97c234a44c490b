import Narwhal.Lib.Run
import Narwhal.Portal.AgentExecutionSecurity
import Narwhal.Portal.Idempotency

open jslib narwhal.portal.agent_execution_security
open pylib (Allowed allowed_of_forall bind_ok_iff)

namespace narwhal.portal.tuning_approval

def TUNING_TOOL : Text := "node.tuning.apply".toList

def TUNING_TOOL_CONTRACT_VERSION : Text := "v1".toList

def TUNING_POLICY_VERSION : Text := "portal-agent-security/v1".toList

def APPROVAL_TTL_MS : Int := 2 * 60000

def APPROVAL_REPLAY_TTL_SECONDS : Nat := 5 * 60

/-- An approval as the browser keeps it between the two calls. -/
structure TuningApprovalEnvelope where
  approvalId : Text
  resolutionId : Text
  invocationDigest : Text
  canonicalizationVersion : Text
  approvedAt : Text
  expiresAt : Text

/-- What both calls are about. The items are the values that the body of the request holds. -/
structure TuningInput where
  nodeName : Text
  items : List Json
  actor : Text

def tuningResolution (input : TuningInput) (resolutionId : Text) : ResolutionArtifactInput where
  resolutionId := resolutionId
  policyVersion := TUNING_POLICY_VERSION
  agentIdentity := "portal:auto-fix".toList
  sessionId := "operator:".toList ++ input.actor
  tool := TUNING_TOOL
  toolContractVersion := TUNING_TOOL_CONTRACT_VERSION
  resolvedTarget := .obj [("kind".toList, .str "Node".toList), ("name".toList, .str input.nodeName)]
  normalizedResolvedArguments := .obj [("items".toList, .arr input.items)]

/-- The id is the caller's, or else a random one. -/
def createTuningResolution (input : TuningInput) (resolutionId : Text) : Except Text ResolutionArtifact :=
  createResolutionArtifact (tuningResolution input resolutionId)

/-- `resolutionId` and `approvalId` are random. -/
def issueTuningApproval (input : TuningInput) (now : Int) (resolutionId approvalId : Text) :
    Except Text (ResolutionArtifact × TuningApprovalEnvelope) := do
  let artifact ← createTuningResolution input resolutionId
  let approvedAt ← toISOString now
  let expiresAt ← toISOString (now + APPROVAL_TTL_MS)
  return (artifact,
    ⟨approvalId, artifact.resolutionId, artifact.invocationDigest, artifact.canonicalizationVersion, approvedAt,
      expiresAt⟩)

/-- Why an approval is not consumed; an error is thrown to the caller. -/
inductive Refusal where
  | error (message : Text)
  | invalid (reason : Reason)
  | approvalReplayed
deriving DecidableEq, Repr

def Refusal.text : Refusal → Text
  | .error message => message
  | .invalid reason => reason.text
  | .approvalReplayed => "approval-replayed".toList

def approvalRecord (envelope : TuningApprovalEnvelope) (actor : Text) : ApprovalRecord where
  approvalId := envelope.approvalId
  decisionId := envelope.approvalId
  decision := .approved
  approver := actor
  invocationDigest := envelope.invocationDigest
  resolutionId := envelope.resolutionId
  canonicalizationVersion := envelope.canonicalizationVersion
  approvedAt := envelope.approvedAt
  expiresAt := envelope.expiresAt

/-- The claim that makes an approval one-shot. -/
def claimApproval (store : idempotency.ValkeyIdempotencyStore) (approvalId invocationDigest : Text)
    (io : idempotency.Io) : Option String × idempotency.ValkeyIdempotencyStore :=
  store.claim (String.ofList ("agent-approval:".toList ++ approvalId)) (String.ofList invocationDigest)
    APPROVAL_REPLAY_TTL_SECONDS io

def consumeTuningApproval (engine : Text → Option Int) (store : idempotency.ValkeyIdempotencyStore)
    (envelope : TuningApprovalEnvelope) (input : TuningInput) (now : Int) (io : idempotency.Io) :
    Except Refusal ResolutionArtifact × idempotency.ValkeyIdempotencyStore :=
  match createTuningResolution input envelope.resolutionId with
  | .error message => (.error (.error message), store)
  | .ok artifact =>
    match revalidateApprovedInvocation engine (approvalRecord envelope input.actor) artifact.toInput now with
    | .error reason => (.error (.invalid reason), store)
    | .ok _ =>
      let (replay, store) := claimApproval store envelope.approvalId artifact.invocationDigest io
      match replay with
      | some _ => (.error .approvalReplayed, store)
      | none => (.ok artifact, store)

/-! ### Runs -/

structure Issue where
  input : TuningInput
  now : Int
  resolutionId : Text
  approvalId : Text

structure Consume where
  envelope : TuningApprovalEnvelope
  input : TuningInput
  now : Int
  io : idempotency.Io

inductive Op where
  | issue (call : Issue)
  | consume (call : Consume)

/-- A call that was made, with its reply. -/
inductive Event where
  | issued (call : Issue) (reply : Except Text (ResolutionArtifact × TuningApprovalEnvelope))
  | consumed (call : Consume) (reply : Except Refusal ResolutionArtifact)

/-- The store of claims, and the calls made so far, the latest first. -/
structure World where
  store : idempotency.ValkeyIdempotencyStore
  log : List Event

def World.step (engine : Text → Option Int) (s : World) : Op → World
  | .issue call =>
    { s with log := .issued call (issueTuningApproval call.input call.now call.resolutionId call.approvalId) :: s.log }
  | .consume call =>
    let (reply, store) := consumeTuningApproval engine s.store call.envelope call.input call.now call.io
    ⟨store, .consumed call reply :: s.log⟩

def World.run (engine : Text → Option Int) (s : World) (ops : List Op) : World := ops.foldl (World.step engine) s

/-- Before any call, with the store in any state. -/
def World.start (store : idempotency.ValkeyIdempotencyStore) : World := ⟨store, []⟩

/-! ### One call -/

section

variable {engine : Text → Option Int} {store : idempotency.ValkeyIdempotencyStore} {input : TuningInput}

/-- The text that is hashed for a call. -/
def tuningText (input : TuningInput) : Text := invocationText (tuningResolution input [])

def tuningArtifact (input : TuningInput) (resolutionId : Text) : ResolutionArtifact :=
  ⟨(tuningResolution input resolutionId).toResolution, CANONICALIZATION_ID, NORMALIZED_INVOCATION_VERSION,
    sha256 (tuningText input)⟩

/-- The resolution of a tuning input is never refused. -/
theorem createTuningResolution_eq (input : TuningInput) (resolutionId : Text) :
    createTuningResolution input resolutionId = .ok (tuningArtifact input resolutionId) := by
  apply createResolutionArtifact_ok_iff.mpr
  exact ⟨rfl, rfl, rfl⟩

theorem toISOString_ok {t : Int} {text : Text} (h : toISOString t = .ok text) : text = isoText t ∧ t.natAbs ≤ MAX_TIME := by
  unfold toISOString at h
  split_ifs at h with hvalid
  exact ⟨(Except.ok.inj h).symm, hvalid⟩

/-- An approval holds the digest of its input, and when it expires. -/
theorem issueTuningApproval_ok {now : Int} {resolutionId approvalId : Text} {artifact : ResolutionArtifact}
    {approval : TuningApprovalEnvelope}
    (h : issueTuningApproval input now resolutionId approvalId = .ok (artifact, approval)) :
    approval.invocationDigest = sha256 (tuningText input) ∧ approval.expiresAt = isoText (now + APPROVAL_TTL_MS) ∧
      (now + APPROVAL_TTL_MS).natAbs ≤ MAX_TIME := by
  rw [issueTuningApproval, createTuningResolution_eq] at h
  obtain ⟨artifact', hartifact, h⟩ := bind_ok_iff.mp h
  obtain ⟨approvedAt, -, h⟩ := bind_ok_iff.mp h
  obtain ⟨expiresAt, hexpires, h⟩ := bind_ok_iff.mp h
  obtain ⟨rfl, hvalid⟩ := toISOString_ok hexpires
  obtain ⟨-, rfl⟩ := Prod.mk.inj (Except.ok.inj h)
  rw [← Except.ok.inj hartifact]
  exact ⟨rfl, rfl, hvalid⟩

/-- An approval is accepted again exactly if it is not expired, is of this version and has the digest of the input. -/
theorem revalidate_ok_iff {envelope : TuningApprovalEnvelope} {actor : Text} {now : Int} {digest : Text} :
    revalidateApprovedInvocation engine (approvalRecord envelope actor)
        (tuningArtifact input envelope.resolutionId).toInput now = .ok digest ↔
      isExpired engine envelope.expiresAt now = false ∧ envelope.canonicalizationVersion = CANONICALIZATION_ID ∧
        digest = sha256 (tuningText input) ∧ envelope.invocationDigest = digest := by
  have htext : invocationText (tuningArtifact input envelope.resolutionId).toInput = tuningText input := rfl
  rw [revalidateApprovedInvocation_ok_iff, computeInvocationDigest_ok_iff, htext]
  constructor
  · rintro ⟨-, hexpired, hversion, -, ⟨-, -, hdigest⟩, hsame⟩
    exact ⟨hexpired, hversion, hdigest, hsame⟩
  · rintro ⟨hexpired, hversion, hdigest, hsame⟩
    exact ⟨rfl, hexpired, hversion, rfl, ⟨rfl, rfl, hdigest⟩, hsame⟩

/-- A call consumes an approval exactly when its envelope carries the digest of the call, has not
    run out by its own account, and has an id that nobody claimed. -/
theorem consumeTuningApproval_ok_iff {envelope : TuningApprovalEnvelope} {now : Int} {io : idempotency.Io}
    {artifact : ResolutionArtifact} :
    (consumeTuningApproval engine store envelope input now io).1 = .ok artifact ↔
      envelope.invocationDigest = sha256 (tuningText input) ∧
        envelope.canonicalizationVersion = CANONICALIZATION_ID ∧ isExpired engine envelope.expiresAt now = false ∧
        (claimApproval store envelope.approvalId (sha256 (tuningText input)) io).1 = none ∧
        artifact = tuningArtifact input envelope.resolutionId := by
  have hvalid := @revalidate_ok_iff engine input envelope input.actor now
  have hdigest : (tuningArtifact input envelope.resolutionId).invocationDigest = sha256 (tuningText input) := rfl
  unfold consumeTuningApproval
  rw [createTuningResolution_eq]
  generalize tuningArtifact input envelope.resolutionId = resolved at hvalid hdigest ⊢
  generalize sha256 (tuningText input) = digest at hvalid hdigest ⊢
  subst hdigest
  cases hreply : revalidateApprovedInvocation engine (approvalRecord envelope input.actor) resolved.toInput now with
  | error reason =>
    refine iff_of_false (fun h => ?_) ?_
    · simp only [hreply, reduceCtorEq] at h
    · rintro ⟨hsame, hversion, hexpired, -⟩
      rw [hvalid.mpr ⟨hexpired, hversion, rfl, hsame⟩] at hreply
      cases hreply
  | ok digest =>
    obtain ⟨hexpired, hversion, rfl, hsame⟩ := hvalid.mp hreply
    simp only [hreply, hsame, hversion, hexpired, true_and]
    generalize claimApproval _ _ _ _ = claimed
    obtain ⟨replay, store'⟩ := claimed
    cases replay with
    | some value => simp
    | none => simp [eq_comm]

/-- The calls are for the same actor, node and items, up to the order of keys. -/
structure SameInput (a b : TuningInput) : Prop where
  nodeName : a.nodeName = b.nodeName
  items : a.items.map sortKeys = b.items.map sortKeys
  actor : a.actor = b.actor

/-- Equal digests are of equal inputs, unless they collide. -/
theorem sameInput_of_sha256_eq {a b : TuningInput} (h : sha256 (tuningText a) = sha256 (tuningText b)) :
    Collide (tuningText a) (tuningText b) ∨ SameInput a b := by
  refine (sameInvocation_of_sha256_eq h).imp_right fun hsame => ⟨?_, ?_, List.append_cancel_left hsame.sessionId⟩
  · obtain ⟨other, hother, heq⟩ := exists_field_of_sortKeys_eq hsame.resolvedTarget
      (List.mem_cons_of_mem _ List.mem_cons_self)
    simp only [List.mem_cons, Prod.mk.injEq, List.not_mem_nil, or_false] at hother
    obtain ⟨hkey, -⟩ | ⟨-, rfl⟩ := hother
    · cases hkey
    · simpa only [sortKeys, Json.str.injEq] using heq
  · obtain ⟨other, hother, heq⟩ := exists_field_of_sortKeys_eq hsame.normalizedResolvedArguments List.mem_cons_self
    simp only [List.mem_singleton, Prod.mk.injEq, true_and] at hother
    subst hother
    simpa only [sortKeys, Json.arr.injEq, sortKeysItems_eq_map] using heq

end

/-! ### Runs of calls -/

/-- A logged reply is that of its call. -/
def Faithful (engine : Text → Option Int) : Event → Prop
  | .issued call reply => issueTuningApproval call.input call.now call.resolutionId call.approvalId = reply
  | .consumed call reply =>
    ∃ store, (consumeTuningApproval engine store call.envelope call.input call.now call.io).1 = reply

section

variable {engine : Text → Option Int}

theorem World.faithful_step {s : World} (h : ∀ e ∈ s.log, Faithful engine e) (op : Op) :
    ∀ e ∈ (s.step engine op).log, Faithful engine e := by
  intro e he
  cases op with
  | issue call =>
    cases List.mem_cons.mp he with
    | inl heq =>
      subst heq
      rfl
    | inr hmem => exact h e hmem
  | consume call =>
    cases List.mem_cons.mp he with
    | inl heq =>
      subst heq
      exact ⟨s.store, rfl⟩
    | inr hmem => exact h e hmem

/-- Every event of a run is what the functions returned. -/
theorem World.faithful_run (engine : Text → Option Int) (store : idempotency.ValkeyIdempotencyStore) (ops : List Op) :
    ∀ e ∈ ((World.start store).run engine ops).log, Faithful engine e := by
  have hallowed : Allowed (World.step engine) (fun _ _ => True) (World.start store) ops :=
    allowed_of_forall (fun _ _ => trivial) _ _
  apply hallowed.invariant (I := fun s => ∀ e ∈ s.log, Faithful engine e)
  · intro s op hs _
    exact World.faithful_step hs op
  · intro e he
    cases he

end

theorem World.log_step_consume (engine : Text → Option Int) (s : World) (call : Consume) :
    (s.step engine (.consume call)).log =
      .consumed call (consumeTuningApproval engine s.store call.envelope call.input call.now call.io).1 :: s.log := by
  rw [World.step]

/-- Every call that consumed an approval is after a call that issued one for it, in time. -/
def Authentic (log : List Event) : Prop :=
  ∀ call artifact earlier, .consumed call (.ok artifact) :: earlier <:+ log →
    ∃ issue issued, .issued issue (.ok issued) ∈ earlier ∧ issue.input = call.input ∧
      call.now < issue.now + APPROVAL_TTL_MS

/-- Every call that consumed an approval has its digest, and the approvals that were issued are
    good for their own call and time alone. -/
structure Bound (engine : Text → Option Int) (log : List Event) : Prop where
  digest : ∀ call artifact, .consumed call (.ok artifact) ∈ log →
    call.envelope.invocationDigest = sha256 (tuningText call.input)
  version : ∀ call artifact, .consumed call (.ok artifact) ∈ log →
    call.envelope.canonicalizationVersion = CANONICALIZATION_ID
  unexpired : ∀ call artifact, .consumed call (.ok artifact) ∈ log →
    ∀ t, dateParse engine call.envelope.expiresAt = some t → call.now < t
  input : ∀ call artifact issue issued approval, .consumed call (.ok artifact) ∈ log →
    .issued issue (.ok (issued, approval)) ∈ log → call.envelope.invocationDigest = approval.invocationDigest →
    Collide (tuningText issue.input) (tuningText call.input) ∨ SameInput issue.input call.input
  lifetime : ∀ call artifact issue issued approval, .consumed call (.ok artifact) ∈ log →
    .issued issue (.ok (issued, approval)) ∈ log → call.envelope.expiresAt = approval.expiresAt →
    call.now < issue.now + APPROVAL_TTL_MS

/-- What a call that consumes an approval has to have, whoever built its envelope. -/
structure Acceptable (engine : Text → Option Int) (store : idempotency.ValkeyIdempotencyStore) (call : Consume) : Prop where
  digest : call.envelope.invocationDigest = sha256 (tuningText call.input)
  version : call.envelope.canonicalizationVersion = CANONICALIZATION_ID
  unexpired : isExpired engine call.envelope.expiresAt call.now = false
  unclaimed : (claimApproval store call.envelope.approvalId (sha256 (tuningText call.input)) call.io).1 = none

theorem bound_of_faithful {engine : Text → Option Int} {log : List Event} (hfaithful : ∀ e ∈ log, Faithful engine e) :
    Bound engine log := by
  have hconsumed : ∀ call artifact, .consumed call (.ok artifact) ∈ log →
      call.envelope.invocationDigest = sha256 (tuningText call.input) ∧
        call.envelope.canonicalizationVersion = CANONICALIZATION_ID ∧
        ∀ t, dateParse engine call.envelope.expiresAt = some t → call.now < t := by
    intro call artifact hmem
    obtain ⟨store, hreply⟩ := hfaithful _ hmem
    obtain ⟨hdigest, hversion, hexpired, -, -⟩ := consumeTuningApproval_ok_iff.mp hreply
    refine ⟨hdigest, hversion, fun t ht => ?_⟩
    rw [isExpired, ht] at hexpired
    exact Int.lt_of_not_ge (of_decide_eq_false hexpired)
  refine ⟨fun call artifact h => (hconsumed call artifact h).1, fun call artifact h => (hconsumed call artifact h).2.1,
    fun call artifact h => (hconsumed call artifact h).2.2, ?_, ?_⟩
  · intro call artifact issue issued approval hcall hissue hsame
    obtain ⟨hdigest, -, -⟩ := issueTuningApproval_ok (hfaithful _ hissue)
    apply sameInput_of_sha256_eq
    calc sha256 (tuningText issue.input) = approval.invocationDigest := hdigest.symm
      _ = call.envelope.invocationDigest := hsame.symm
      _ = sha256 (tuningText call.input) := (hconsumed call artifact hcall).1
  · intro call artifact issue issued approval hcall hissue hsame
    obtain ⟨-, hexpires, hvalid⟩ := issueTuningApproval_ok (hfaithful _ hissue)
    apply (hconsumed call artifact hcall).2.2
    rw [hsame, hexpires, dateParse_isoText engine hvalid]

/-- Whatever envelopes clients send, an approval is consumed only by a call whose digest it has,
    and one that was issued only for its own input and within its lifetime. After every run the next
    call consumes its envelope exactly if that is acceptable, whether it was issued or not. -/
theorem consumed_bound (engine : Text → Option Int) (store : idempotency.ValkeyIdempotencyStore) (ops : List Op) :
    Bound engine ((World.start store).run engine ops).log ∧ ∀ call artifact,
      ((World.start store).run engine (ops ++ [.consume call])).log.head? = some (.consumed call (.ok artifact)) ↔
        Acceptable engine ((World.start store).run engine ops).store call ∧
          artifact = tuningArtifact call.input call.envelope.resolutionId := by
  refine ⟨bound_of_faithful (World.faithful_run engine store ops), fun call artifact => ?_⟩
  rw [World.run, List.foldl_append, List.foldl_cons, List.foldl_nil, World.log_step_consume, List.head?_cons, Option.some.injEq,
    Event.consumed.injEq, and_iff_right rfl, consumeTuningApproval_ok_iff]
  constructor
  · rintro ⟨hdigest, hversion, hexpired, hclaim, hartifact⟩
    exact ⟨⟨hdigest, hversion, hexpired, hclaim⟩, hartifact⟩
  · rintro ⟨h, hartifact⟩
    exact ⟨h.digest, h.version, h.unexpired, h.unclaimed, hartifact⟩

def forgedInput : TuningInput :=
  ⟨"worker-1".toList, [.obj [("kind".toList, .str "swap-off".toList)]], "admin".toList⟩

/-- An envelope that its sender filled in, with the digest of what it asks for. -/
def forged : Consume where
  envelope := ⟨['1'], ['1'], sha256 (tuningText forgedInput), CANONICALIZATION_ID, isoText 0, isoText 120000⟩
  input := forgedInput
  now := 0
  io := ⟨0, 0, 0, true, true⟩

/-- A call consumes an approval that nobody issued. -/
theorem forged_approval_consumed :
    ¬ Authentic ((World.start ⟨⟨.empty, 5000⟩, ⟨.empty⟩⟩).run (fun _ => none) [.consume forged]).log := by
  intro h
  have hexpired : isExpired (fun _ => none) (isoText 120000) 0 = false := by
    rw [isExpired, dateParse_isoText _ (by decide)]
    rfl
  have hreply : (consumeTuningApproval (fun _ => none) ⟨⟨.empty, 5000⟩, ⟨.empty⟩⟩ forged.envelope forged.input forged.now
      forged.io).1 = .ok (tuningArtifact forgedInput ['1']) :=
    consumeTuningApproval_ok_iff.mpr ⟨rfl, rfl, hexpired, rfl, rfl⟩
  have hlog : ((World.start ⟨⟨.empty, 5000⟩, ⟨.empty⟩⟩).run (fun _ => none) [.consume forged]).log =
      [.consumed forged (.ok (tuningArtifact forgedInput ['1']))] := by
    rw [World.run, List.foldl_cons, List.foldl_nil, World.log_step_consume]
    exact congrArg (fun reply => [Event.consumed forged reply]) hreply
  obtain ⟨issue, issued, hmem, -⟩ := h forged (tuningArtifact forgedInput ['1']) [] (hlog ▸ List.suffix_refl _)
  cases hmem

end narwhal.portal.tuning_approval
