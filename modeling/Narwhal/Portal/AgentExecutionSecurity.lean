import Narwhal.Lib.Fold
import Narwhal.Lib.JsDate
import Narwhal.Lib.JsJson

open jslib
open pylib (bind_ok_iff)

namespace narwhal.portal.agent_execution_security

def CANONICALIZATION_ID : Text := "narwhal-json-c14n/v1".toList

def NORMALIZED_INVOCATION_VERSION : Text := "v1".toList

/-! ### Invocations -/

/-- What an agent is about to do, with the concrete target and arguments. -/
structure Resolution where
  resolutionId : Text
  policyVersion : Text
  agentIdentity : Text
  sessionId : Text
  tool : Text
  toolContractVersion : Text
  resolvedTarget : Json
  normalizedResolvedArguments : Json

structure ResolutionArtifactInput extends Resolution where
  canonicalizationVersion : Option Text := none
  normalizedInvocationVersion : Option Text := none

structure ResolutionArtifact extends Resolution where
  canonicalizationVersion : Text
  normalizedInvocationVersion : Text
  invocationDigest : Text

def ResolutionArtifact.toInput (artifact : ResolutionArtifact) : ResolutionArtifactInput :=
  ⟨artifact.toResolution, some artifact.canonicalizationVersion, some artifact.normalizedInvocationVersion⟩

inductive Decision where
  | approved | denied | expired | revoked
deriving DecidableEq, Repr

structure ApprovalRecord where
  approvalId : Text
  decisionId : Text
  decision : Decision
  approver : Text
  invocationDigest : Text
  resolutionId : Text
  canonicalizationVersion : Text
  approvedAt : Text
  expiresAt : Text

/-- Why an approval does not cover an invocation. -/
inductive Reason where
  | approvalNotApproved
  | approvalExpired
  | canonicalizationVersionMismatch
  | resolutionMismatch
  | invocationDigestMismatch
deriving DecidableEq, Repr

def Reason.text : Reason → Text
  | .approvalNotApproved => "approval-not-approved".toList
  | .approvalExpired => "approval-expired".toList
  | .canonicalizationVersionMismatch => "canonicalization-version-mismatch".toList
  | .resolutionMismatch => "resolution-mismatch".toList
  | .invocationDigestMismatch => "invocation-digest-mismatch".toList

/-! ### Canonical JSON -/

def assertSupportedCanonicalization (version : Text) : Except Text Unit :=
  if version ≠ CANONICALIZATION_ID then .error ("Unsupported canonicalization version: ".toList ++ version) else .ok ()

mutual

/-- Numbers are finite and have one zero. -/
def canonicalizeValue : Json → Text
  | .null => "null".toList
  | .str s => jsonString s
  | .bool b => if b then "true".toList else "false".toList
  | .num n => n.text
  | .arr items => '[' :: [','].intercalate (canonicalizeItems items) ++ [']']
  | .obj fields =>
    '\x7b' :: [','].intercalate ((sortByKey (canonicalizeFields fields)).map fun field =>
      jsonString field.1 ++ ':' :: field.2) ++ ['\x7d']

def canonicalizeItems : List Json → List Text
  | [] => []
  | item :: items => canonicalizeValue item :: canonicalizeItems items

def canonicalizeFields : List (Text × Json) → List (Text × Text)
  | [] => []
  | (key, value) :: fields => (key, canonicalizeValue value) :: canonicalizeFields fields

end

def canonicalizeJson (value : Json) (canonicalizationVersion : Text) : Except Text Text := do
  assertSupportedCanonicalization canonicalizationVersion
  return canonicalizeValue value

def sha256 (value : Text) : Text := "sha256:".toList ++ sha256Hex value

def envelopeFields (input : ResolutionArtifactInput) : List (Text × Json) :=
  [("agentIdentity".toList, .str input.agentIdentity),
    ("canonicalizationVersion".toList, .str (input.canonicalizationVersion.getD CANONICALIZATION_ID)),
    ("normalizedInvocationVersion".toList, .str (input.normalizedInvocationVersion.getD NORMALIZED_INVOCATION_VERSION)),
    ("normalizedResolvedArguments".toList, input.normalizedResolvedArguments),
    ("policyVersion".toList, .str input.policyVersion),
    ("resolvedTarget".toList, input.resolvedTarget),
    ("sessionId".toList, .str input.sessionId),
    ("tool".toList, .str input.tool),
    ("toolContractVersion".toList, .str input.toolContractVersion)]

def digestEnvelope (input : ResolutionArtifactInput) : Json := .obj (envelopeFields input)

def assertSupportedInvocation (version : Text) : Except Text Unit :=
  if version ≠ NORMALIZED_INVOCATION_VERSION then
    .error ("Unsupported normalized invocation version: ".toList ++ version)
  else .ok ()

def computeInvocationDigest (input : ResolutionArtifactInput) : Except Text Text := do
  let canonicalizationVersion := input.canonicalizationVersion.getD CANONICALIZATION_ID
  assertSupportedCanonicalization canonicalizationVersion
  assertSupportedInvocation (input.normalizedInvocationVersion.getD NORMALIZED_INVOCATION_VERSION)
  return sha256 (← canonicalizeJson (digestEnvelope input) canonicalizationVersion)

def createResolutionArtifact (input : ResolutionArtifactInput) : Except Text ResolutionArtifact := do
  let canonicalizationVersion := input.canonicalizationVersion.getD CANONICALIZATION_ID
  assertSupportedCanonicalization canonicalizationVersion
  let normalizedInvocationVersion := input.normalizedInvocationVersion.getD NORMALIZED_INVOCATION_VERSION
  assertSupportedInvocation normalizedInvocationVersion
  let invocationDigest ← computeInvocationDigest
    ⟨input.toResolution, some canonicalizationVersion, some normalizedInvocationVersion⟩
  return ⟨input.toResolution, canonicalizationVersion, normalizedInvocationVersion, invocationDigest⟩

/-! ### The check before execution -/

/-- `Date.parse(expiresAt) <= now.getTime()`, which `NaN` never is. -/
def isExpired (engine : Text → Option Int) (expiresAt : Text) (now : Int) : Bool :=
  match dateParse engine expiresAt with
  | some t => t ≤ now
  | none => false

/-- The digest of the invocation, where the approval covers it. -/
def revalidateApprovedInvocation (engine : Text → Option Int) (approval : ApprovalRecord)
    (actual : ResolutionArtifactInput) (now : Int) : Except Reason Text :=
  if approval.decision ≠ .approved then .error .approvalNotApproved
  else if isExpired engine approval.expiresAt now then .error .approvalExpired
  else if approval.canonicalizationVersion ≠ actual.canonicalizationVersion.getD CANONICALIZATION_ID then
    .error .canonicalizationVersionMismatch
  else if approval.resolutionId ≠ actual.resolutionId then .error .resolutionMismatch
  else
    match computeInvocationDigest actual with
    | .error _ => .error .canonicalizationVersionMismatch
    | .ok actualDigest =>
      if approval.invocationDigest ≠ actualDigest then .error .invocationDigestMismatch else .ok actualDigest

/-! ### Digests -/

mutual

/-- The canonical text is the text of the value with its keys in order. -/
theorem canonicalizeValue_eq_stringify (value : Json) : canonicalizeValue value = stringify (sortKeys value) := by
  cases value with
  | null => rfl
  | bool b => cases b <;> rfl
  | num n => rfl
  | str s => rfl
  | arr items => rw [canonicalizeValue, sortKeys, stringify_arr, canonicalizeItems_eq_map items]
  | obj fields =>
    rw [canonicalizeValue, sortKeys, stringify_obj, canonicalizeFields_eq_map fields, sortByKey_map stringify,
      List.map_map]
    rfl

theorem canonicalizeItems_eq_map (items : List Json) : canonicalizeItems items = (sortKeysItems items).map stringify := by
  cases items with
  | nil => rfl
  | cons item items =>
    rw [canonicalizeItems, sortKeysItems, List.map_cons, canonicalizeValue_eq_stringify item,
      canonicalizeItems_eq_map items]

theorem canonicalizeFields_eq_map (fields : List (Text × Json)) :
    canonicalizeFields fields = (sortKeysFields fields).map fun field => (field.1, stringify field.2) := by
  match fields with
  | [] => rfl
  | (key, value) :: fields =>
    rw [canonicalizeFields, sortKeysFields, List.map_cons, canonicalizeValue_eq_stringify value,
      canonicalizeFields_eq_map fields]

end

/-- Values with one canonical text are the same up to the order of keys. -/
theorem sortKeys_eq_of_canonicalizeValue_eq {a b : Json} (h : canonicalizeValue a = canonicalizeValue b) :
    sortKeys a = sortKeys b := by
  rw [canonicalizeValue_eq_stringify, canonicalizeValue_eq_stringify] at h
  exact stringify_inj h

/-- Two different texts have one hash. -/
def Collide (x y : Text) : Prop := x ≠ y ∧ sha256Hex x = sha256Hex y

/-- The text that is hashed for an invocation. -/
def invocationText (input : ResolutionArtifactInput) : Text := canonicalizeValue (digestEnvelope input)

theorem sha256Hex_eq_of_sha256_eq {x y : Text} (h : sha256 x = sha256 y) : sha256Hex x = sha256Hex y :=
  List.append_cancel_left h

/-- The invocations agree in all that is hashed, up to the order of keys. -/
structure SameInvocation (a b : ResolutionArtifactInput) : Prop where
  agentIdentity : a.agentIdentity = b.agentIdentity
  canonicalizationVersion :
    a.canonicalizationVersion.getD CANONICALIZATION_ID = b.canonicalizationVersion.getD CANONICALIZATION_ID
  normalizedInvocationVersion :
    a.normalizedInvocationVersion.getD NORMALIZED_INVOCATION_VERSION =
      b.normalizedInvocationVersion.getD NORMALIZED_INVOCATION_VERSION
  normalizedResolvedArguments : sortKeys a.normalizedResolvedArguments = sortKeys b.normalizedResolvedArguments
  policyVersion : a.policyVersion = b.policyVersion
  resolvedTarget : sortKeys a.resolvedTarget = sortKeys b.resolvedTarget
  sessionId : a.sessionId = b.sessionId
  tool : a.tool = b.tool
  toolContractVersion : a.toolContractVersion = b.toolContractVersion

section

variable {a b : ResolutionArtifactInput}

theorem nodup_envelopeFields (input : ResolutionArtifactInput) : ((envelopeFields input).map Prod.fst).Nodup := by
  change List.Nodup (["agentIdentity", "canonicalizationVersion", "normalizedInvocationVersion",
    "normalizedResolvedArguments", "policyVersion", "resolvedTarget", "sessionId", "tool",
    "toolContractVersion"].map String.toList)
  decide

theorem sortKeys_field_eq (h : sortKeys (digestEnvelope a) = sortKeys (digestEnvelope b)) (key : String)
    (value : ResolutionArtifactInput → Json) (hmem : ∀ input, (key.toList, value input) ∈ envelopeFields input) :
    sortKeys (value a) = sortKeys (value b) := by
  obtain ⟨other, hother, heq⟩ := exists_field_of_sortKeys_eq h (hmem a)
  have hfield := List.inj_on_of_nodup_map (nodup_envelopeFields b) hother (hmem b) rfl
  rw [heq, (Prod.mk.inj hfield).2]

theorem text_field_eq (h : sortKeys (digestEnvelope a) = sortKeys (digestEnvelope b)) (key : String)
    (text : ResolutionArtifactInput → Text) (hmem : ∀ input, (key.toList, .str (text input)) ∈ envelopeFields input) :
    text a = text b := by
  have heq := sortKeys_field_eq h key (fun input => .str (text input)) hmem
  simpa only [sortKeys, Json.str.injEq] using heq

theorem sameInvocation_of_invocationText_eq (h : invocationText a = invocationText b) : SameInvocation a b where
  agentIdentity := text_field_eq (sortKeys_eq_of_canonicalizeValue_eq h) "agentIdentity" (·.agentIdentity)
    (by simp [envelopeFields])
  canonicalizationVersion := text_field_eq (sortKeys_eq_of_canonicalizeValue_eq h) "canonicalizationVersion"
    (·.canonicalizationVersion.getD CANONICALIZATION_ID) (by simp [envelopeFields])
  normalizedInvocationVersion := text_field_eq (sortKeys_eq_of_canonicalizeValue_eq h) "normalizedInvocationVersion"
    (·.normalizedInvocationVersion.getD NORMALIZED_INVOCATION_VERSION) (by simp [envelopeFields])
  normalizedResolvedArguments := sortKeys_field_eq (sortKeys_eq_of_canonicalizeValue_eq h)
    "normalizedResolvedArguments" (·.normalizedResolvedArguments) (by simp [envelopeFields])
  policyVersion := text_field_eq (sortKeys_eq_of_canonicalizeValue_eq h) "policyVersion" (·.policyVersion)
    (by simp [envelopeFields])
  resolvedTarget := sortKeys_field_eq (sortKeys_eq_of_canonicalizeValue_eq h) "resolvedTarget" (·.resolvedTarget)
    (by simp [envelopeFields])
  sessionId := text_field_eq (sortKeys_eq_of_canonicalizeValue_eq h) "sessionId" (·.sessionId)
    (by simp [envelopeFields])
  tool := text_field_eq (sortKeys_eq_of_canonicalizeValue_eq h) "tool" (·.tool) (by simp [envelopeFields])
  toolContractVersion := text_field_eq (sortKeys_eq_of_canonicalizeValue_eq h) "toolContractVersion"
    (·.toolContractVersion) (by simp [envelopeFields])

/-- A digest is bound to one invocation, unless the hash maps two texts to it. -/
theorem sameInvocation_of_sha256_eq (h : sha256 (invocationText a) = sha256 (invocationText b)) :
    Collide (invocationText a) (invocationText b) ∨ SameInvocation a b := by
  by_cases htext : invocationText a = invocationText b
  · exact .inr (sameInvocation_of_invocationText_eq htext)
  · exact .inl ⟨htext, sha256Hex_eq_of_sha256_eq h⟩

end

/-! ### What the functions accept -/

theorem assertSupportedCanonicalization_ok_iff {version : Text} {u : Unit} :
    assertSupportedCanonicalization version = .ok u ↔ version = CANONICALIZATION_ID := by
  by_cases h : version = CANONICALIZATION_ID <;> simp [assertSupportedCanonicalization, h]

theorem assertSupportedInvocation_ok_iff {version : Text} {u : Unit} :
    assertSupportedInvocation version = .ok u ↔ version = NORMALIZED_INVOCATION_VERSION := by
  by_cases h : version = NORMALIZED_INVOCATION_VERSION <;> simp [assertSupportedInvocation, h]

theorem computeInvocationDigest_ok_iff {input : ResolutionArtifactInput} {digest : Text} :
    computeInvocationDigest input = .ok digest ↔
      input.canonicalizationVersion.getD CANONICALIZATION_ID = CANONICALIZATION_ID ∧
        input.normalizedInvocationVersion.getD NORMALIZED_INVOCATION_VERSION = NORMALIZED_INVOCATION_VERSION ∧
        digest = sha256 (invocationText input) := by
  simp only [computeInvocationDigest, canonicalizeJson, bind_ok_iff, assertSupportedCanonicalization_ok_iff,
    assertSupportedInvocation_ok_iff, pure, Except.pure, Except.ok.injEq, invocationText]
  constructor
  · rintro ⟨-, hcanonical, -, hinvocation, text, ⟨-, -, rfl⟩, rfl⟩
    exact ⟨hcanonical, hinvocation, rfl⟩
  · rintro ⟨hcanonical, hinvocation, rfl⟩
    exact ⟨(), hcanonical, (), hinvocation, _, ⟨(), hcanonical, rfl⟩, rfl⟩

/-- A version that is written out leaves the text as it was. -/
theorem invocationText_versions (input : ResolutionArtifactInput) :
    invocationText ⟨input.toResolution, some (input.canonicalizationVersion.getD CANONICALIZATION_ID),
      some (input.normalizedInvocationVersion.getD NORMALIZED_INVOCATION_VERSION)⟩ = invocationText input := by
  simp only [invocationText, digestEnvelope, envelopeFields, Option.getD_some]

theorem createResolutionArtifact_ok_iff {input : ResolutionArtifactInput} {artifact : ResolutionArtifact} :
    createResolutionArtifact input = .ok artifact ↔
      input.canonicalizationVersion.getD CANONICALIZATION_ID = CANONICALIZATION_ID ∧
        input.normalizedInvocationVersion.getD NORMALIZED_INVOCATION_VERSION = NORMALIZED_INVOCATION_VERSION ∧
        artifact = ⟨input.toResolution, CANONICALIZATION_ID, NORMALIZED_INVOCATION_VERSION,
          sha256 (invocationText input)⟩ := by
  simp only [createResolutionArtifact, bind_ok_iff, assertSupportedCanonicalization_ok_iff,
    assertSupportedInvocation_ok_iff, computeInvocationDigest_ok_iff, pure, Except.pure, Except.ok.injEq,
    invocationText_versions, Option.getD_some]
  constructor
  · rintro ⟨-, hcanonical, -, hinvocation, digest, ⟨-, -, rfl⟩, rfl⟩
    refine ⟨hcanonical, hinvocation, ?_⟩
    rw [hcanonical, hinvocation]
  · rintro ⟨hcanonical, hinvocation, rfl⟩
    refine ⟨(), hcanonical, (), hinvocation, _, ⟨hcanonical, hinvocation, rfl⟩, ?_⟩
    rw [hcanonical, hinvocation]

/-- An approval covers an invocation exactly when it was given, has not run out, and has the
    resolution, the canonical form and the digest of the invocation. -/
theorem revalidateApprovedInvocation_ok_iff {engine : Text → Option Int} {approval : ApprovalRecord}
    {actual : ResolutionArtifactInput} {now : Int} {digest : Text} :
    revalidateApprovedInvocation engine approval actual now = .ok digest ↔
      approval.decision = .approved ∧ isExpired engine approval.expiresAt now = false ∧
        approval.canonicalizationVersion = actual.canonicalizationVersion.getD CANONICALIZATION_ID ∧
        approval.resolutionId = actual.resolutionId ∧ computeInvocationDigest actual = .ok digest ∧
        approval.invocationDigest = digest := by
  unfold revalidateApprovedInvocation
  split_ifs with hdecision hexpired hversion hresolution
  · simp [hdecision]
  · simp [hexpired]
  · simp [hversion]
  · simp [hresolution]
  · rw [not_not] at hdecision hversion hresolution
    rw [Bool.not_eq_true] at hexpired
    cases hdigest : computeInvocationDigest actual with
    | error message => simp
    | ok actualDigest =>
      dsimp only
      split_ifs with hdiffers
      · refine iff_of_false (fun h => ?_) ?_
        · cases h
        · rintro ⟨-, -, -, -, hactual, hsame⟩
          rw [← Except.ok.inj hactual] at hsame
          exact hdiffers hsame
      · rw [not_not] at hdiffers
        simp [hdecision, hexpired, hversion, hresolution, hdiffers]

end narwhal.portal.agent_execution_security
