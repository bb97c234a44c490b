import Narwhal.Portal.DigestBinding

open jslib
open pylib (bind_ok_iff)

namespace narwhal.portal.agent_execution_security

/-! ### Invocations as they arrive -/

/-- An invocation before its numbers are known to be finite. -/
structure ArrivedInput where
  resolutionId : Text
  policyVersion : Text
  agentIdentity : Text
  sessionId : Text
  tool : Text
  toolContractVersion : Text
  resolvedTarget : JsonValue
  normalizedResolvedArguments : JsonValue
  canonicalizationVersion : Option Text := none
  normalizedInvocationVersion : Option Text := none

namespace ArrivedInput

def digestEnvelope (input : ArrivedInput) : JsonValue :=
  .obj [("agentIdentity".toList, .str input.agentIdentity),
    ("canonicalizationVersion".toList, .str (input.canonicalizationVersion.getD CANONICALIZATION_ID)),
    ("normalizedInvocationVersion".toList, .str (input.normalizedInvocationVersion.getD NORMALIZED_INVOCATION_VERSION)),
    ("normalizedResolvedArguments".toList, input.normalizedResolvedArguments),
    ("policyVersion".toList, .str input.policyVersion),
    ("resolvedTarget".toList, input.resolvedTarget),
    ("sessionId".toList, .str input.sessionId),
    ("tool".toList, .str input.tool),
    ("toolContractVersion".toList, .str input.toolContractVersion)]

/-- Throws on an unknown version and on a number that is not finite. -/
def computeInvocationDigest (input : ArrivedInput) : Except Text Text := do
  assertSupportedCanonicalization (input.canonicalizationVersion.getD CANONICALIZATION_ID)
  assertSupportedInvocation (input.normalizedInvocationVersion.getD NORMALIZED_INVOCATION_VERSION)
  return sha256 (← canonicalText input.digestEnvelope)

def revalidateApprovedInvocation (engine : Text → Option Int) (approval : ApprovalRecord) (actual : ArrivedInput)
    (now : Int) : Except Reason Text :=
  if approval.decision ≠ .approved then .error .approvalNotApproved
  else if isExpired engine approval.expiresAt now then .error .approvalExpired
  else if approval.canonicalizationVersion ≠ actual.canonicalizationVersion.getD CANONICALIZATION_ID then
    .error .canonicalizationVersionMismatch
  else if approval.resolutionId ≠ actual.resolutionId then .error .resolutionMismatch
  else
    match actual.computeInvocationDigest with
    | .error _ => .error .canonicalizationVersionMismatch
    | .ok actualDigest =>
      if approval.invocationDigest ≠ actualDigest then .error .invocationDigestMismatch else .ok actualDigest

/-- The invocation, once its values are JSON values. -/
def withValues (input : ArrivedInput) (target arguments : Json) : ResolutionArtifactInput :=
  ⟨⟨input.resolutionId, input.policyVersion, input.agentIdentity, input.sessionId, input.tool,
    input.toolContractVersion, target, arguments⟩, input.canonicalizationVersion, input.normalizedInvocationVersion⟩

end ArrivedInput

section

variable {actual : ArrivedInput} {target arguments : Json}

theorem toJson_digestEnvelope (htarget : toJson actual.resolvedTarget = .ok target)
    (harguments : toJson actual.normalizedResolvedArguments = .ok arguments) :
    toJson actual.digestEnvelope = .ok (digestEnvelope (actual.withValues target arguments)) := by
  simp only [ArrivedInput.digestEnvelope, toJson, toJsonFields, htarget, harguments]
  rfl

/-- Where the values are JSON values, the digest is the one computed from them. -/
theorem computeInvocationDigest_withValues (htarget : toJson actual.resolvedTarget = .ok target)
    (harguments : toJson actual.normalizedResolvedArguments = .ok arguments) :
    actual.computeInvocationDigest = computeInvocationDigest (actual.withValues target arguments) := by
  have htext : canonicalText actual.digestEnvelope =
      .ok (canonicalizeValue (digestEnvelope (actual.withValues target arguments))) :=
    canonicalText_ok_iff.mpr ⟨_, toJson_digestEnvelope htarget harguments, rfl⟩
  unfold ArrivedInput.computeInvocationDigest computeInvocationDigest canonicalizeJson
  rw [htext]
  by_cases hversion : actual.canonicalizationVersion.getD CANONICALIZATION_ID = CANONICALIZATION_ID
  · have hsupported : assertSupportedCanonicalization (actual.canonicalizationVersion.getD CANONICALIZATION_ID) = .ok () :=
      assertSupportedCanonicalization_ok_iff.mpr hversion
    simp only [ArrivedInput.withValues, hsupported]
    rfl
  · simp only [ArrivedInput.withValues, assertSupportedCanonicalization, ne_eq, hversion, not_false_eq_true, if_true]
    rfl

/-- The check is the one on the JSON values. -/
theorem revalidate_withValues (engine : Text → Option Int) (approval : ApprovalRecord) (now : Int)
    (htarget : toJson actual.resolvedTarget = .ok target)
    (harguments : toJson actual.normalizedResolvedArguments = .ok arguments) :
    actual.revalidateApprovedInvocation engine approval now =
      revalidateApprovedInvocation engine approval (actual.withValues target arguments) now := by
  unfold ArrivedInput.revalidateApprovedInvocation revalidateApprovedInvocation
  rw [computeInvocationDigest_withValues htarget harguments]
  rfl

end

/-! ### What the check accepts -/

/-- The approval was given for this very invocation. -/
structure Approves (approval : ApprovalRecord) (actual : ArrivedInput) : Prop where
  decision : approval.decision = .approved
  canonicalizationVersion : approval.canonicalizationVersion = actual.canonicalizationVersion.getD CANONICALIZATION_ID
  resolutionId : approval.resolutionId = actual.resolutionId
  invocationDigest : actual.computeInvocationDigest = .ok approval.invocationDigest

/-- The approval names an instant after now at which it ends. -/
def EndsAfter (engine : Text → Option Int) (approval : ApprovalRecord) (now : Int) : Prop :=
  ∃ t, dateParse engine approval.expiresAt = some t ∧ now < t

theorem isExpired_eq_false_iff {engine : Text → Option Int} {approval : ApprovalRecord} {now : Int} :
    isExpired engine approval.expiresAt now = false ↔
      dateParse engine approval.expiresAt = none ∨ EndsAfter engine approval now := by
  unfold isExpired EndsAfter
  cases dateParse engine approval.expiresAt with
  | none => simp
  | some t => simp

theorem revalidate_ok_iff {engine : Text → Option Int} {approval : ApprovalRecord} {actual : ArrivedInput} {now : Int}
    {digest : Text} :
    actual.revalidateApprovedInvocation engine approval now = .ok digest ↔
      isExpired engine approval.expiresAt now = false ∧ Approves approval actual ∧ approval.invocationDigest = digest := by
  unfold ArrivedInput.revalidateApprovedInvocation
  split_ifs with hdecision hexpired hversion hresolution
  · exact iff_of_false (by simp) fun h => hdecision h.2.1.decision
  · exact iff_of_false (by simp) fun h => by simp [hexpired] at h
  · exact iff_of_false (by simp) fun h => hversion h.2.1.canonicalizationVersion
  · exact iff_of_false (by simp) fun h => hresolution h.2.1.resolutionId
  · rw [not_not] at hdecision hversion hresolution
    rw [Bool.not_eq_true] at hexpired
    cases hdigest : actual.computeInvocationDigest with
    | error message =>
      refine iff_of_false (by simp) fun h => ?_
      have happroved := h.2.1.invocationDigest
      rw [hdigest] at happroved
      cases happroved
    | ok actualDigest =>
      dsimp only
      split_ifs with hdiffers
      · refine iff_of_false (by simp) fun h => hdiffers ?_
        have happroved := h.2.1.invocationDigest
        rw [hdigest] at happroved
        exact (Except.ok.inj happroved).symm
      · rw [not_not] at hdiffers
        have happroves : Approves approval actual := ⟨hdecision, hversion, hresolution, by rw [hdigest, hdiffers]⟩
        constructor
        · intro h
          exact ⟨hexpired, happroves, hdiffers.trans (Except.ok.inj h)⟩
        · rintro ⟨-, -, rfl⟩
          rw [hdiffers]

/-- The check answers as it should exactly where the end of the approval is a date, or the approval is refused
    for another reason. -/
theorem revalidates_iff_expiry_valid (engine : Text → Option Int) (approval : ApprovalRecord) (actual : ArrivedInput)
    (now : Int) :
    ((∃ digest, actual.revalidateApprovedInvocation engine approval now = .ok digest) ↔
        EndsAfter engine approval now ∧ Approves approval actual) ↔
      dateParse engine approval.expiresAt ≠ none ∨ ¬ Approves approval actual := by
  have haccepts : (∃ digest, actual.revalidateApprovedInvocation engine approval now = .ok digest) ↔
      isExpired engine approval.expiresAt now = false ∧ Approves approval actual := by
    simp only [revalidate_ok_iff]
    constructor
    · rintro ⟨-, hexpired, happroves, -⟩
      exact ⟨hexpired, happroves⟩
    · rintro ⟨hexpired, happroves⟩
      exact ⟨_, hexpired, happroves, rfl⟩
  rw [haccepts, isExpired_eq_false_iff]
  by_cases happroves : Approves approval actual
  · by_cases hdate : dateParse engine approval.expiresAt = none
    · have hnot : ¬ EndsAfter engine approval now := by
        rintro ⟨t, ht, -⟩
        rw [hdate] at ht
        cases ht
      simp [happroves, hdate, hnot]
    · simp [happroves, hdate]
  · simp [happroves]

/-- Draining a node, with a number of seconds as it was sent. -/
def arrivedDrain : ArrivedInput where
  resolutionId := ['1']
  policyVersion := ['1']
  agentIdentity := ['a']
  sessionId := ['s']
  tool := ['t']
  toolContractVersion := ['1']
  resolvedTarget := .obj [(['n'], .str ['w'])]
  normalizedResolvedArguments := .obj [(['s'], .num .negativeZero)]

def drainTarget : Json := .obj [(['n'], .str ['w'])]

def drainArguments : Json := .obj [(['s'], .num zero)]

/-- An approval of it that ends `never`, which is not a date. -/
def neverEnding : ApprovalRecord where
  approvalId := ['p']
  decisionId := ['p']
  decision := .approved
  approver := ['o']
  invocationDigest := sha256 (invocationText (arrivedDrain.withValues drainTarget drainArguments))
  resolutionId := ['1']
  canonicalizationVersion := CANONICALIZATION_ID
  approvedAt := isoText 0
  expiresAt := "never".toList

/-- An approval whose end is not a date never runs out. -/
theorem never_ending_accepted :
    (∀ now, ∃ digest, arrivedDrain.revalidateApprovedInvocation (fun _ => none) neverEnding now = .ok digest) ∧
      ∀ now, ¬ EndsAfter (fun _ => none) neverEnding now := by
  have hdate : dateParse (fun _ => none) neverEnding.expiresAt = none := by decide +kernel
  have hdigest : arrivedDrain.computeInvocationDigest = .ok neverEnding.invocationDigest := by
    have hvalues : arrivedDrain.computeInvocationDigest =
        computeInvocationDigest (arrivedDrain.withValues drainTarget drainArguments) :=
      computeInvocationDigest_withValues rfl rfl
    rw [hvalues]
    exact computeInvocationDigest_ok_iff.mpr ⟨rfl, rfl, rfl⟩
  constructor
  · intro now
    exact ⟨_, revalidate_ok_iff.mpr ⟨isExpired_eq_false_iff.mpr (.inl hdate), ⟨rfl, rfl, rfl, hdigest⟩, rfl⟩⟩
  · rintro now ⟨t, ht, -⟩
    rw [hdate] at ht
    cases ht

end narwhal.portal.agent_execution_security
