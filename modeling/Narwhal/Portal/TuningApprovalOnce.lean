import Narwhal.Portal.ClaimHeld
import Narwhal.Portal.TuningApproval

open jslib narwhal.portal.agent_execution_security
open pylib (Allowed)

namespace narwhal.portal.tuning_approval

deriving instance DecidableEq for TuningApprovalEnvelope

/-- The key of the claim that makes an approval one-shot. -/
def approvalKey (approvalId : Text) : String := String.ofList ("agent-approval:".toList ++ approvalId)

def Op.now : Op → Int
  | .issue call => call.now
  | .consume call => call.now

def Event.now : Event → Int
  | .issued call _ => call.now
  | .consumed call _ => call.now

/-- The call consumed this approval, unaltered. -/
def Event.spends (approval : TuningApprovalEnvelope) : Event → Bool
  | .consumed call (.ok _) => decide (call.envelope = approval)
  | _ => false

/-- No call is before an earlier one, and claims are made at the time of their call and drop no
    other claim. -/
structure Orderly (s : World) (op : Op) : Prop where
  ordered : ∀ e ∈ s.log, e.now ≤ op.now
  claimed : ∀ call, op = .consume call →
    (call.io.peeked : Int) = call.now ∧ (call.io.sent : Int) = call.now ∧ (call.io.now : Int) = call.now ∧
      ¬ s.store.inMemoryFallback.Evicts (approvalKey call.envelope.approvalId) call.io.now

section

variable {engine : Text → Option Int} {store : idempotency.ValkeyIdempotencyStore} {envelope : TuningApprovalEnvelope}
  {input : TuningInput} {now : Int} {io : idempotency.Io}

theorem claimApproval_eq (store : idempotency.ValkeyIdempotencyStore) (approvalId digest : Text) (io : idempotency.Io) :
    claimApproval store approvalId digest io =
      store.claim (approvalKey approvalId) (String.ofList digest) APPROVAL_REPLAY_TTL_SECONDS io := by
  unfold claimApproval approvalKey
  exact Eq.refl _

/-- A call that gets as far as the claim leaves the store as the claim does. -/
theorem consumeTuningApproval_store :
    (consumeTuningApproval engine store envelope input now io).2 =
        (claimApproval store envelope.approvalId (sha256 (tuningText input)) io).2 ∨
      (consumeTuningApproval engine store envelope input now io).2 = store ∧
        ∀ artifact, (consumeTuningApproval engine store envelope input now io).1 ≠ .ok artifact := by
  have hdigest : (tuningArtifact input envelope.resolutionId).invocationDigest = sha256 (tuningText input) := rfl
  unfold consumeTuningApproval
  rw [createTuningResolution_eq]
  generalize tuningArtifact input envelope.resolutionId = resolved at hdigest ⊢
  generalize sha256 (tuningText input) = digest at hdigest ⊢
  subst hdigest
  cases hreply : revalidateApprovedInvocation engine (approvalRecord envelope input.actor) resolved.toInput now with
  | error reason => exact .inr (by simp [hreply])
  | ok digest =>
    refine .inl ?_
    simp only [hreply]
    generalize claimApproval _ _ _ _ = claimed
    obtain ⟨replay, store'⟩ := claimed
    cases replay <;> rfl

theorem issueTuningApproval_eq {resolutionId approvalId : Text} (hnow : now.natAbs ≤ MAX_TIME)
    (hlimit : (now + APPROVAL_TTL_MS).natAbs ≤ MAX_TIME) :
    issueTuningApproval input now resolutionId approvalId =
      .ok (tuningArtifact input resolutionId,
        ⟨approvalId, resolutionId, sha256 (tuningText input), CANONICALIZATION_ID, isoText now,
          isoText (now + APPROVAL_TTL_MS)⟩) := by
  rw [issueTuningApproval, createTuningResolution_eq, toISOString, if_pos hnow, toISOString, if_pos hlimit]
  rfl

end

/-! ### Runs of calls -/

theorem World.step_consume (engine : Text → Option Int) (s : World) (call : Consume) :
    s.step engine (.consume call) =
      ⟨(consumeTuningApproval engine s.store call.envelope call.input call.now call.io).2,
        .consumed call (consumeTuningApproval engine s.store call.envelope call.input call.now call.io).1 :: s.log⟩ := by
  rw [World.step]

/-- What calls leave behind that come after an approval was issued at this time. -/
structure Spent (issuedAt : Int) (approval : TuningApprovalEnvelope) (s : World) : Prop where
  began : ∃ e ∈ s.log, e.now = issuedAt
  after : ∀ e ∈ s.log, issuedAt ≤ e.now
  once : (s.log.filter (Event.spends approval)).length ≤ 1
  held : ∀ e ∈ s.log, e.spends approval = true →
    (∃ later ∈ s.log, e.now + APPROVAL_REPLAY_TTL_SECONDS * 1000 ≤ later.now) ∨
      ∃ limit : Nat, (limit : Int) = e.now + APPROVAL_REPLAY_TTL_SECONDS * 1000 ∧
        idempotency.Held s.store (approvalKey approval.approvalId) limit

section

variable {engine : Text → Option Int} {s : World} {issuedAt : Int} {approval : TuningApprovalEnvelope}

/-- A call that spends nothing keeps what is known of the approval, if it keeps the claim. -/
theorem Spent.log_cons {e : Event} {store : idempotency.ValkeyIdempotencyStore} (h : Spent issuedAt approval s)
    (hordered : ∀ earlier ∈ s.log, earlier.now ≤ e.now) (he : e.spends approval = false)
    (hstore : ∀ limit : Nat, e.now < limit → idempotency.Held s.store (approvalKey approval.approvalId) limit →
      idempotency.Held store (approvalKey approval.approvalId) limit) :
    Spent issuedAt approval ⟨store, e :: s.log⟩ where
  began := by
    obtain ⟨first, hfirst, hnow⟩ := h.began
    exact ⟨first, List.mem_cons_of_mem _ hfirst, hnow⟩
  after := by
    obtain ⟨first, hfirst, hnow⟩ := h.began
    intro e' he'
    obtain rfl | hmem := List.mem_cons.mp he'
    · have hle := hordered first hfirst
      omega
    · exact h.after e' hmem
  once := by
    rw [List.filter_cons, if_neg (by simp [he])]
    exact h.once
  held := by
    intro e' he' hspends
    obtain rfl | hmem := List.mem_cons.mp he'
    · rw [he] at hspends
      cases hspends
    · obtain ⟨later, hlater, hle⟩ | ⟨limit, hlimit, hheld⟩ := h.held e' hmem hspends
      · exact .inl ⟨later, List.mem_cons_of_mem _ hlater, hle⟩
      · by_cases hbefore : e.now < limit
        · exact .inr ⟨limit, hlimit, hstore limit hbefore hheld⟩
        · exact .inl ⟨e, List.mem_cons_self, by omega⟩

/-- A second call that spends the approval would come while its claim is held. -/
theorem Spent.not_spends {call : Consume} (h : Spent issuedAt approval s) (horderly : Orderly s (.consume call))
    (henvelope : call.envelope = approval) (hnow : call.now < issuedAt + APPROVAL_TTL_MS)
    (hclaim : (claimApproval s.store call.envelope.approvalId (sha256 (tuningText call.input)) call.io).1 = none) :
    ∀ e ∈ s.log, ¬ e.spends approval = true := by
  intro e he hspends
  obtain ⟨hpeeked, hsent, hio, -⟩ := horderly.claimed call rfl
  have hafter := h.after e he
  have hwindow : issuedAt + APPROVAL_TTL_MS < e.now + APPROVAL_REPLAY_TTL_SECONDS * 1000 := by
    simp only [APPROVAL_TTL_MS, APPROVAL_REPLAY_TTL_SECONDS]
    omega
  obtain ⟨later, hlater, hle⟩ | ⟨limit, hlimit, hheld⟩ := h.held e he hspends
  · have hordered : later.now ≤ call.now := horderly.ordered later hlater
    omega
  · rw [claimApproval_eq, henvelope] at hclaim
    exact hheld.refuses (by omega) (by omega) (by omega) _ _ hclaim

/-- The call that spends the approval first leaves its claim held. -/
theorem Spent.log_cons_spends {call : Consume} {reply : Except Refusal ResolutionArtifact}
    {store : idempotency.ValkeyIdempotencyStore} (h : Spent issuedAt approval s)
    (horderly : Orderly s (.consume call)) (henvelope : call.envelope = approval)
    (hspends : (Event.consumed call reply).spends approval = true)
    (hnone : ∀ e ∈ s.log, ¬ e.spends approval = true)
    (hstore : store = (claimApproval s.store call.envelope.approvalId (sha256 (tuningText call.input)) call.io).2)
    (hclaim : (claimApproval s.store call.envelope.approvalId (sha256 (tuningText call.input)) call.io).1 = none) :
    Spent issuedAt approval ⟨store, .consumed call reply :: s.log⟩ where
  began := by
    obtain ⟨first, hfirst, hnow⟩ := h.began
    exact ⟨first, List.mem_cons_of_mem _ hfirst, hnow⟩
  after := by
    obtain ⟨first, hfirst, hnow⟩ := h.began
    intro e he
    obtain rfl | hmem := List.mem_cons.mp he
    · have hle : first.now ≤ call.now := horderly.ordered first hfirst
      exact hnow ▸ hle
    · exact h.after e hmem
  once := by
    have hfilter : s.log.filter (Event.spends approval) = [] := List.filter_eq_nil_iff.mpr hnone
    rw [List.filter_cons, if_pos hspends, hfilter]
    exact Nat.le_refl _
  held := by
    intro e he hspent
    obtain rfl | hmem := List.mem_cons.mp he
    · obtain ⟨-, hsent, hio, hroom⟩ := horderly.claimed call rfl
      refine .inr ⟨call.io.now + APPROVAL_REPLAY_TTL_SECONDS * 1000, ?_, ?_⟩
      · change _ = call.now + _
        rw [← hio]
        push_cast
        rfl
      · subst henvelope
        rw [claimApproval_eq] at hclaim hstore
        rw [hstore]
        exact idempotency.Held.of_claim (by omega) hroom hclaim
    · exact absurd hspent (hnone e hmem)

theorem Spent.step {op : Op} (h : Spent issuedAt approval s) (horderly : Orderly s op)
    (hexpires : ∀ t, isExpired engine approval.expiresAt t = false → t < issuedAt + APPROVAL_TTL_MS) :
    Spent issuedAt approval (s.step engine op) := by
  cases op with
  | issue call => exact h.log_cons horderly.ordered rfl fun _ _ hheld => hheld
  | consume call =>
    obtain ⟨hpeeked, hsent, hio, hroom⟩ := horderly.claimed call rfl
    have hclaimed : ∀ limit : Nat, call.now < limit →
        idempotency.Held s.store (approvalKey approval.approvalId) limit →
        idempotency.Held (claimApproval s.store call.envelope.approvalId (sha256 (tuningText call.input)) call.io).2
          (approvalKey approval.approvalId) limit := by
      intro limit hbefore hheld
      rw [claimApproval_eq]
      exact hheld.claim hroom (by omega) (by omega) (by omega) _ _
    have hstore := @consumeTuningApproval_store engine s.store call.envelope call.input call.now call.io
    have hspends := @consumeTuningApproval_ok_iff engine s.store call.input call.envelope call.now call.io
    rw [World.step_consume]
    generalize consumeTuningApproval engine s.store call.envelope call.input call.now call.io = result at hstore hspends ⊢
    obtain ⟨reply, store⟩ := result
    have hkept : ∀ limit : Nat, call.now < limit →
        idempotency.Held s.store (approvalKey approval.approvalId) limit →
        idempotency.Held store (approvalKey approval.approvalId) limit := by
      intro limit hbefore hheld
      obtain heq | ⟨heq, -⟩ := hstore
      · rw [show store = _ from heq]
        exact hclaimed limit hbefore hheld
      · rw [show store = _ from heq]
        exact hheld
    by_cases hspent : (Event.consumed call reply).spends approval = true
    · cases reply with
      | error reason => cases hspent
      | ok artifact =>
        have henvelope : call.envelope = approval := of_decide_eq_true hspent
        obtain ⟨-, -, hexpired, hclaim, -⟩ := hspends.mp rfl
        have hnone := h.not_spends horderly henvelope (hexpires _ (henvelope ▸ hexpired)) hclaim
        have heq := hstore.resolve_right fun hrefused => hrefused.2 artifact rfl
        exact h.log_cons_spends horderly henvelope hspent hnone (by rw [show store = _ from heq]) hclaim
    · exact h.log_cons horderly.ordered (Bool.eq_false_of_not_eq_true hspent) hkept

theorem Spent.start {issue : Issue} (store : idempotency.ValkeyIdempotencyStore) (approval : TuningApprovalEnvelope) :
    Spent issue.now approval ((World.start store).step engine (.issue issue)) where
  began := ⟨_, List.mem_cons_self, rfl⟩
  after := by
    intro e he
    obtain rfl := List.mem_singleton.mp he
    exact Int.le_refl _
  once := Nat.zero_le _
  held := by
    intro e he hspends
    obtain rfl := List.mem_singleton.mp he
    cases hspends

end

/-- Whatever calls follow, for any actor, node and items, an approval that was issued is consumed
    at most once: for the input that it was issued for and before it runs out. -/
theorem approval_spent_once (engine : Text → Option Int) (store : idempotency.ValkeyIdempotencyStore) {issue : Issue}
    {artifact : ResolutionArtifact} {approval : TuningApprovalEnvelope} {ops : List Op}
    (hissued : issueTuningApproval issue.input issue.now issue.resolutionId issue.approvalId = .ok (artifact, approval))
    (hrun : Allowed (World.step engine) Orderly ((World.start store).step engine (.issue issue)) ops) :
    (((World.start store).run engine (.issue issue :: ops)).log.filter (Event.spends approval)).length ≤ 1 ∧
      ∀ call consumed, .consumed call (.ok consumed) ∈ ((World.start store).run engine (.issue issue :: ops)).log →
        call.envelope = approval →
        (Collide (tuningText issue.input) (tuningText call.input) ∨ SameInput issue.input call.input) ∧
          dateParse engine approval.expiresAt = some (issue.now + APPROVAL_TTL_MS) ∧
          call.now < issue.now + APPROVAL_TTL_MS := by
  obtain ⟨hdigest, hexpiresAt, hvalid⟩ := issueTuningApproval_ok hissued
  have hparse : dateParse engine approval.expiresAt = some (issue.now + APPROVAL_TTL_MS) := by
    rw [hexpiresAt, dateParse_isoText engine hvalid]
  have hexpires : ∀ t, isExpired engine approval.expiresAt t = false → t < issue.now + APPROVAL_TTL_MS := by
    intro t ht
    rw [isExpired, hparse] at ht
    exact Int.lt_of_not_ge (of_decide_eq_false ht)
  constructor
  · have hspent := hrun.invariant (I := Spent issue.now approval)
      (fun s op hs horderly => hs.step horderly hexpires) (Spent.start store approval)
    exact hspent.once
  · rintro call consumed hmem rfl
    obtain ⟨before, hreply⟩ := World.faithful_run engine store (.issue issue :: ops) _ hmem
    obtain ⟨hsame, -, hexpired, -, -⟩ := consumeTuningApproval_ok_iff.mp hreply
    exact ⟨sameInput_of_sha256_eq (hdigest.symm.trans hsame), hparse, hexpires _ hexpired⟩

def swapOffIssue : Issue where
  input := ⟨"worker-1".toList, [.obj [("kind".toList, .str "swap-off".toList)]], "admin".toList⟩
  now := 0
  resolutionId := ['1']
  approvalId := ['2']

def swapOffApproval : TuningApprovalEnvelope where
  approvalId := ['2']
  resolutionId := ['1']
  invocationDigest := sha256 (tuningText swapOffIssue.input)
  canonicalizationVersion := CANONICALIZATION_ID
  approvedAt := isoText 0
  expiresAt := isoText 120000

/-- A click at this time, with the approval. -/
def click (now : Nat) : Consume := ⟨swapOffApproval, swapOffIssue.input, now, ⟨now, now, now, true, true⟩⟩

/-- Of a click that is sent twice at most one call is served. -/
theorem approval_spent_once_twice :
    (((World.start ⟨⟨.empty, 5000⟩, ⟨.empty⟩⟩).run (fun _ => none)
      [.issue swapOffIssue, .consume (click 1000), .consume (click 2000)]).log.filter
        (Event.spends swapOffApproval)).length ≤ 1 := by
  let start : idempotency.ValkeyIdempotencyStore := ⟨⟨.empty, 5000⟩, ⟨.empty⟩⟩
  have hexpired : isExpired (fun _ => none) swapOffApproval.expiresAt 1000 = false := by
    rw [isExpired, swapOffApproval, dateParse_isoText _ (by decide)]
    rfl
  have hclaim : (claimApproval start ['2'] (sha256 (tuningText swapOffIssue.input)) (click 1000).io).1 = none := rfl
  have hspent : (consumeTuningApproval (fun _ => none) start swapOffApproval swapOffIssue.input 1000
      (click 1000).io).1 = .ok (tuningArtifact swapOffIssue.input ['1']) :=
    consumeTuningApproval_ok_iff.mpr ⟨rfl, rfl, hexpired, hclaim, rfl⟩
  have hroom : ¬ start.inMemoryFallback.Evicts (approvalKey ['2']) 1000 := fun h => absurd h.2 (by decide)
  have hheld : idempotency.Held (consumeTuningApproval (fun _ => none) start swapOffApproval swapOffIssue.input 1000
      (click 1000).io).2 (approvalKey ['2']) 301000 := by
    rw [consumeTuningApproval_store.resolve_right fun hrefused => hrefused.2 _ hspent]
    rw [claimApproval_eq] at hclaim ⊢
    exact idempotency.Held.of_claim rfl hroom hclaim
  have hissued : issueTuningApproval swapOffIssue.input swapOffIssue.now swapOffIssue.resolutionId
      swapOffIssue.approvalId = .ok (tuningArtifact swapOffIssue.input ['1'], swapOffApproval) :=
    issueTuningApproval_eq (by decide) (by decide)
  have hfirst : Orderly ((World.start start).step (fun _ => none) (.issue swapOffIssue)) (.consume (click 1000)) := by
    refine ⟨?_, ?_⟩
    · intro e he
      obtain rfl := List.mem_singleton.mp he
      decide
    · rintro call hcall
      obtain rfl := Op.consume.inj hcall
      exact ⟨rfl, rfl, rfl, hroom⟩
  have hsecond : Orderly (((World.start start).step (fun _ => none) (.issue swapOffIssue)).step (fun _ => none)
      (.consume (click 1000))) (.consume (click 2000)) := by
    rw [World.step_consume]
    refine ⟨?_, ?_⟩
    · intro e he
      obtain rfl | he := List.mem_cons.mp he
      · decide
      · obtain rfl := List.mem_singleton.mp he
        decide
    · rintro call hcall
      obtain rfl := Op.consume.inj hcall
      exact ⟨rfl, rfl, rfl, hheld.not_evicts (by decide)⟩
  have hrun : Allowed (World.step fun _ => none) Orderly
      ((World.start start).step (fun _ => none) (.issue swapOffIssue)) [.consume (click 1000), .consume (click 2000)] :=
    ⟨hfirst, hsecond, trivial⟩
  exact (approval_spent_once (fun _ => none) start hissued hrun).1

end narwhal.portal.tuning_approval
