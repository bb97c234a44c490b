import Narwhal.Portal.AgentExecutionSecurity

open jslib
open pylib (bind_ok_iff)

namespace narwhal.portal.agent_execution_security

/-! ### Values before they are written -/

/-- A number: one of those that have a text of their own, the negative zero, or one that is not
    finite. -/
inductive JsonNumber where
  | finite (n : Number)
  | negativeZero
  | nonFinite
deriving DecidableEq

inductive JsonValue where
  | null
  | bool (b : Bool)
  | num (n : JsonNumber)
  | str (s : Text)
  | arr (items : List JsonValue)
  | obj (fields : List (Text × JsonValue))

theorem isNumberChar_of_mem_zero : ∀ c ∈ ['0'], isNumberChar c = true := List.forall_mem_singleton.mpr rfl

def zero : Number := ⟨['0'], List.cons_ne_nil _ _, isNumberChar_of_mem_zero⟩

mutual

/-- The canonical text of a value as the source writes it, with the check of its numbers. -/
def canonicalText : JsonValue → Except Text Text
  | .null => .ok "null".toList
  | .str s => .ok (jsonString s)
  | .bool b => .ok (if b then "true".toList else "false".toList)
  | .num .nonFinite => .error "Non-finite numbers are not canonical JSON values".toList
  | .num .negativeZero => .ok ['0']
  | .num (.finite n) => .ok n.text
  | .arr items => do
    let texts ← canonicalTexts items
    return '[' :: [','].intercalate texts ++ [']']
  | .obj fields => do
    let entries ← canonicalEntries fields
    return '\x7b' :: [','].intercalate ((sortByKey entries).map fun field => jsonString field.1 ++ ':' :: field.2) ++
      ['\x7d']

def canonicalTexts : List JsonValue → Except Text (List Text)
  | [] => .ok []
  | item :: items => do
    let text ← canonicalText item
    let texts ← canonicalTexts items
    return text :: texts

def canonicalEntries : List (Text × JsonValue) → Except Text (List (Text × Text))
  | [] => .ok []
  | (key, value) :: fields => do
    let text ← canonicalText value
    let entries ← canonicalEntries fields
    return (key, text) :: entries

end

mutual

/-- The value without the sign of zero; only finite numbers have one. -/
def toJson : JsonValue → Except Text Json
  | .null => .ok .null
  | .str s => .ok (.str s)
  | .bool b => .ok (.bool b)
  | .num .nonFinite => .error "Non-finite numbers are not canonical JSON values".toList
  | .num .negativeZero => .ok (.num zero)
  | .num (.finite n) => .ok (.num n)
  | .arr items => (toJsonItems items).map .arr
  | .obj fields => (toJsonFields fields).map .obj

def toJsonItems : List JsonValue → Except Text (List Json)
  | [] => .ok []
  | item :: items => do
    let json ← toJson item
    let jsons ← toJsonItems items
    return json :: jsons

def toJsonFields : List (Text × JsonValue) → Except Text (List (Text × Json))
  | [] => .ok []
  | (key, value) :: fields => do
    let json ← toJson value
    let jsons ← toJsonFields fields
    return (key, json) :: jsons

end

mutual

/-- The text is that of the value as JSON, -/
theorem canonicalText_eq (value : JsonValue) : canonicalText value = (toJson value).map canonicalizeValue := by
  match value with
  | .null => rfl
  | .str s => rfl
  | .bool b => rfl
  | .num .nonFinite => rfl
  | .num .negativeZero => rfl
  | .num (.finite n) => rfl
  | .arr items =>
    rw [canonicalText, toJson, canonicalTexts_eq items]
    cases toJsonItems items <;> rfl
  | .obj fields =>
    rw [canonicalText, toJson, canonicalEntries_eq fields]
    cases toJsonFields fields <;> rfl

theorem canonicalTexts_eq (items : List JsonValue) : canonicalTexts items = (toJsonItems items).map canonicalizeItems := by
  match items with
  | [] => rfl
  | item :: items =>
    rw [canonicalTexts, toJsonItems, canonicalText_eq item, canonicalTexts_eq items]
    cases toJson item with
    | error message => rfl
    | ok json => cases toJsonItems items <;> rfl

theorem canonicalEntries_eq (fields : List (Text × JsonValue)) :
    canonicalEntries fields = (toJsonFields fields).map canonicalizeFields := by
  match fields with
  | [] => rfl
  | (key, value) :: fields =>
    rw [canonicalEntries, toJsonFields, canonicalText_eq value, canonicalEntries_eq fields]
    cases toJson value with
    | error message => rfl
    | ok json => cases toJsonFields fields <;> rfl

end

/-- The values are finite and equal, but for the order of keys and the sign of zero. -/
def SameValue (a b : JsonValue) : Prop :=
  ∃ x y, toJson a = .ok x ∧ toJson b = .ok y ∧ sortKeys x = sortKeys y

/-- and there is one exactly where the value is one of JSON. -/
theorem canonicalText_ok_iff {value : JsonValue} {text : Text} :
    canonicalText value = .ok text ↔ ∃ json, toJson value = .ok json ∧ canonicalizeValue json = text := by
  rw [canonicalText_eq]
  cases toJson value <;> simp [Except.map]

/-- Values with one text are the same, -/
theorem sameValue_of_canonicalText {a b : JsonValue} {text : Text} (ha : canonicalText a = .ok text)
    (hb : canonicalText b = .ok text) : SameValue a b := by
  obtain ⟨x, hx, hxtext⟩ := canonicalText_ok_iff.mp ha
  obtain ⟨y, hy, hytext⟩ := canonicalText_ok_iff.mp hb
  exact ⟨x, y, hx, hy, sortKeys_eq_of_canonicalizeValue_eq (hxtext.trans hytext.symm)⟩

/-- and the same values have one. -/
theorem SameValue.canonicalText {a b : JsonValue} (h : SameValue a b) :
    ∃ text, canonicalText a = .ok text ∧ canonicalText b = .ok text := by
  obtain ⟨x, y, hx, hy, hsame⟩ := h
  have htext : canonicalizeValue y = canonicalizeValue x := by
    rw [canonicalizeValue_eq_stringify, canonicalizeValue_eq_stringify, hsame]
  exact ⟨canonicalizeValue x, canonicalText_ok_iff.mpr ⟨x, hx, rfl⟩, canonicalText_ok_iff.mpr ⟨y, hy, htext⟩⟩

/-- The canonical text tells values apart, and so a digest is bound to one invocation, unless
    SHA-256 maps the two texts to it. -/
theorem digest_binding :
    (∀ a b, (∃ text, canonicalText a = .ok text ∧ canonicalText b = .ok text) ↔ SameValue a b) ∧
      ∀ a b digest, computeInvocationDigest a = .ok digest → computeInvocationDigest b = .ok digest →
        ¬ Collide (invocationText a) (invocationText b) → SameInvocation a b := by
  constructor
  · intro a b
    constructor
    · rintro ⟨text, ha, hb⟩
      exact sameValue_of_canonicalText ha hb
    · exact SameValue.canonicalText
  · intro a b digest ha hb hcollide
    obtain ⟨-, -, hdigest⟩ := computeInvocationDigest_ok_iff.mp ha
    obtain ⟨-, -, hdigest'⟩ := computeInvocationDigest_ok_iff.mp hb
    exact (sameInvocation_of_sha256_eq (hdigest.symm.trans hdigest')).resolve_left hcollide

def drain : ResolutionArtifactInput where
  resolutionId := ['1']
  policyVersion := ['1']
  agentIdentity := ['a']
  sessionId := ['s']
  tool := ['t']
  toolContractVersion := ['1']
  resolvedTarget := .obj [(['k'], .null), (['n'], .bool true)]
  normalizedResolvedArguments := .obj []

/-- The same with the keys of the target the other way round, under another resolution. -/
def drainAgain : ResolutionArtifactInput :=
  { drain with
    resolutionId := ['2']
    resolvedTarget := .obj [(['n'], .bool true), (['k'], .null)] }

theorem digest_binding_drain : SameInvocation drain drainAgain := by
  have htext : invocationText drain = invocationText drainAgain := by decide +kernel
  have hdigest := computeInvocationDigest_ok_iff.mpr ⟨rfl, rfl, Eq.refl (sha256 (invocationText drain))⟩
  have hagain : computeInvocationDigest drainAgain = .ok (sha256 (invocationText drain)) :=
    computeInvocationDigest_ok_iff.mpr ⟨rfl, rfl, by rw [htext]⟩
  exact digest_binding.2 drain drainAgain _ hdigest hagain fun hcollide => hcollide.1 htext

end narwhal.portal.agent_execution_security
