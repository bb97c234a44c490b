import Narwhal.Lib.JsDate
import Narwhal.Lib.JsDouble
import Narwhal.Lib.JsHeap

open jslib

namespace narwhal.portal.agent_invocation

/-! ### Untrusted values -/

def own (heap : Heap) (value : Value) (key : String) : Value :=
  match heap.object value with
  | some o =>
    match o.property key.toList with
    | some ⟨some v, _⟩ => v
    | _ => .undefined
  | none => .undefined

def plain (heap : Heap) (value : Value) : Bool :=
  match heap.object value with
  | some o => o.prototype = .object ∨ o.prototype = .null
  | none => false

/-- `matches(value, pattern)`: the value, where it is a string of this form. -/
def matched (value : Value) (pattern : Text → Bool) : Option Text :=
  match value with
  | .str s => if pattern s then some s else none
  | _ => none

def isHexDigit (c : Char) : Bool := isDigit c || ('a' ≤ c && c ≤ 'f')

/-- `/^sha256:[0-9a-f]{64}$/`. -/
def isDigest (s : Text) : Bool :=
  s.take 7 = "sha256:".toList ∧ (s.drop 7).length = 64 ∧ (s.drop 7).all isHexDigit

/-- `/^[a-z0-9]([a-z0-9-]{0,61}[a-z0-9])?$/`. -/
def isLabelText (s : Text) : Bool :=
  let edge := fun c => isLower c || isDigit c
  0 < s.length ∧ s.length ≤ 63 ∧ s.all (fun c => edge c || c == '-') ∧ s.head?.all edge ∧ s.getLast?.all edge

/-- `/^[a-z][a-z0-9_.-]{0,63}$/`. -/
def isToolName (s : Text) : Bool :=
  0 < s.length ∧ s.length ≤ 64 ∧ s.head?.all isLower ∧
    s.tail.all fun c => isLower c || isDigit c || c == '_' || c == '.' || c == '-'

/-- `/^[0-9]+\.[0-9]+\.[0-9]+$/`. -/
def isContractVersion (s : Text) : Bool :=
  (s.splitOn '.').length = 3 ∧ (s.splitOn '.').all fun part => part ≠ [] && part.all isDigit

/-- `/^[A-Za-z0-9-]{8,128}$/`. -/
def isApprovalId (s : Text) : Bool :=
  8 ≤ s.length ∧ s.length ≤ 128 ∧ s.all fun c => isUpper c || isLower c || isDigit c || c == '-'

/-! ### Canonical JSON -/

/-- The nodes and the characters that are counted so far. -/
structure Budget where
  nodes : Nat
  length : Nat
deriving DecidableEq

def emit (text : Text) (b : Budget) : Option (Text × Budget) :=
  if 1000000 < b.length + utf16Length text then none
  else some (text, { b with length := b.length + utf16Length text })

/-- `if (i > 0) emit(",")`. -/
def emitComma (i : Nat) (b : Budget) : Option (Text × Budget) := if 0 < i then emit [','] b else some ([], b)

/-- The loop over the indices of an array from `i` on; a missing index stops it. -/
def visitItems (visit : Value → Budget → Option (Text × Budget)) :
    Nat → List (Option Value) → Budget → Option (List Text × Budget)
  | _, [], b => some ([], b)
  | _, none :: _, _ => none
  | i, some value :: rest, b => do
    let (_, b) ← emitComma i b
    let (part, b) ← visit value b
    let (parts, b) ← visitItems visit (i + 1) rest b
    some (part :: parts, b)

/-- The loop over the sorted keys of an object from index `i` on. -/
def visitFields (visit : Value → Budget → Option (Text × Budget)) :
    Nat → List (Text × Value) → Budget → Option (List Text × Budget)
  | _, [], b => some ([], b)
  | i, (key, value) :: rest, b => do
    let (_, b) ← emitComma i b
    let (name, b) ← emit (jsonString key) b
    let (colon, b) ← emit [':'] b
    let (text, b) ← visit value b
    let (parts, b) ← visitFields visit (i + 1) rest b
    some ((name ++ colon ++ text) :: parts, b)

def PROTO : Text := ['_', '_', 'p', 'r', 'o', 't', 'o', '_', '_']

/-- The own properties, where each has a name other than `__proto__`, a value, and can be listed. -/
def dataProperties (o : Object) : Option (List (Text × Value)) :=
  o.properties.mapM fun entry =>
    match entry with
    | (.str key, ⟨some value, true⟩) => if key = PROTO then none else some (key, value)
    | _ => none

/-- The values under the indices of an array of this length. -/
def elements (properties : List (Text × Value)) (size : Nat) : List (Option Value) :=
  (List.range size).map fun i => properties.lookup (natText i)

/-- `visit`, where at most `depth` levels are left; `active` are the objects that are being visited. -/
def visit (heap : Heap) : Nat → List Nat → Value → Budget → Option (Text × Budget)
  | 0, _, _, _ => none
  | depth + 1, active, input, b =>
    if 10000 < b.nodes + 1 then none
    else
      let b := { b with nodes := b.nodes + 1 }
      match input with
      | .null => emit ['n', 'u', 'l', 'l'] b
      | .str s => emit (jsonString s) b
      | .bool true => emit ['t', 'r', 'u', 'e'] b
      | .bool false => emit ['f', 'a', 'l', 's', 'e'] b
      | .num n => emit n.text b
      | .ref address =>
        match heap.object (.ref address) with
        | none => none
        | some o =>
          if address ∈ active then none
          else if 10000 < o.keyCount then none
          else
            match o.arrayLength with
            | some size =>
              if o.prototype ≠ .array then none
              else do
                let properties ← dataProperties o
                if 10000 < size ∨ o.keyCount ≠ size + 1 then none
                else do
                  let (_, b) ← emit ['['] b
                  let (parts, b) ← visitItems (visit heap depth (address :: active)) 0 (elements properties size) b
                  let (_, b) ← emit [']'] b
                  some ('[' :: [','].intercalate parts ++ [']'], b)
            | none =>
              if ¬ plain heap (.ref address) then none
              else do
                let properties ← dataProperties o
                let (_, b) ← emit ['\x7b'] b
                let (parts, b) ← visitFields (visit heap depth (address :: active)) 0 (sortByKey properties) b
                let (_, b) ← emit ['\x7d'] b
                some ('\x7b' :: [','].intercalate parts ++ ['\x7d'], b)
      | _ => none

/-- The root has depth 0, and 16 is the last depth allowed. -/
def canonicalizeJson (heap : Heap) (value : Value) : Option Text :=
  (visit heap 17 [] value ⟨0, 0⟩).map Prod.fst

/-! ### The resolution and its digest -/

def CANONICALIZATION_VERSION : Text := "v1".toList

theorem below_own (heap : Heap) (value : Value) (key : String) : (own heap value key).Below heap.size := by
  unfold own
  split
  · next o ho =>
    split
    · next v enumerable hproperty => exact Heap.below_of_property ho hproperty
    · trivial
  · trivial

/-- A resolution that was read out of a value; its arguments stay where they are in the heap. -/
structure ResolutionArtifact (heap : Heap) where
  tool : Text
  toolContractVersion : Text
  cluster : Text
  namespace_ : Option Text
  normalizedArgs : Value
  below : normalizedArgs.Below heap.size

/-- `namespace === null || matches(namespace, LABEL)`. -/
def namespaceOf (value : Value) : Option (Option Text) :=
  if value = .null then some none else (matched value isLabelText).map some

def resolution (heap : Heap) (value : Value) : Option (ResolutionArtifact heap) := do
  let tool ← matched (own heap value "tool") isToolName
  let toolContractVersion ← matched (own heap value "toolContractVersion") isContractVersion
  let target := own heap value "target"
  let cluster ← matched (own heap target "cluster") isLabelText
  let namespace_ ← namespaceOf (own heap target "namespace")
  if own heap value "canonicalizationVersion" ≠ .str CANONICALIZATION_VERSION then none
  else do
    let _ ← canonicalizeJson heap (own heap value "normalizedArgs")
    some ⟨tool, toolContractVersion, cluster, namespace_, own heap value "normalizedArgs", below_own heap value _⟩

def data (value : Value) : Property := ⟨some value, true⟩

namespace ResolutionArtifact

variable {heap : Heap}

def namespaceValue (r : ResolutionArtifact heap) : Value :=
  match r.namespace_ with
  | some namespace_ => .str namespace_
  | none => .null

def targetObject (r : ResolutionArtifact heap) : Object where
  kind := .ordinary
  prototype := .object
  properties := [(.str "cluster".toList, data (.str r.cluster)), (.str "namespace".toList, data r.namespaceValue)]
  nodup := by simp

def object (r : ResolutionArtifact heap) : Object where
  kind := .ordinary
  prototype := .object
  properties := [
    (.str "tool".toList, data (.str r.tool)),
    (.str "toolContractVersion".toList, data (.str r.toolContractVersion)),
    (.str "target".toList, data (.ref heap.size)),
    (.str "normalizedArgs".toList, data r.normalizedArgs),
    (.str "canonicalizationVersion".toList, data (.str CANONICALIZATION_VERSION))]
  nodup := by simp

theorem below_targetObject (r : ResolutionArtifact heap) : ∀ v ∈ r.targetObject.values, v.Below (heap.size + 1) := by
  intro v hv
  have hcases : v = .str r.cluster ∨ v = r.namespaceValue := by
    simpa [Object.values, targetObject, data] using hv
  obtain rfl | rfl := hcases
  · trivial
  · unfold namespaceValue
    split <;> trivial

def targetHeap (r : ResolutionArtifact heap) : Heap := heap.alloc r.targetObject r.below_targetObject

theorem below_object (r : ResolutionArtifact heap) : ∀ v ∈ r.object.values, v.Below (r.targetHeap.size + 1) := by
  intro v hv
  have hcases : v = .str r.tool ∨ v = .str r.toolContractVersion ∨ v = .ref heap.size ∨ v = r.normalizedArgs ∨
      v = .str CANONICALIZATION_VERSION := by
    simpa [Object.values, object, data] using hv
  have hsize : r.targetHeap.size = heap.size + 1 := Heap.size_alloc
  obtain rfl | rfl | rfl | rfl | rfl := hcases
  · trivial
  · trivial
  · change heap.size < r.targetHeap.size + 1
    omega
  · exact r.below.mono (by omega)
  · trivial

/-- The heap with the object that `resolution` returns, and that object. -/
def alloc (r : ResolutionArtifact heap) : Heap × Value :=
  (r.targetHeap.alloc r.object r.below_object, .ref r.targetHeap.size)

end ResolutionArtifact

def digestText (json : Text) : Text := "sha256:".toList ++ sha256Hex json

def computeInvocationDigest (heap : Heap) (r : Value) : Option Text :=
  match resolution heap r with
  | none => none
  | some resolved => (canonicalizeJson resolved.alloc.1 resolved.alloc.2).map digestText

/-! ### Approvals -/

inductive ApprovalReason where
  | missing | digestMismatch | expired | invalidExpiry | noApprover | agentApprover | invalidDigest | invalidClock
  | invalidApprovalId
deriving DecidableEq

def ApprovalReason.text : ApprovalReason → String
  | .missing => "missing"
  | .digestMismatch => "digest-mismatch"
  | .expired => "expired"
  | .invalidExpiry => "invalid-expiry"
  | .noApprover => "no-approver"
  | .agentApprover => "agent-approver"
  | .invalidDigest => "invalid-digest"
  | .invalidClock => "invalid-clock"
  | .invalidApprovalId => "invalid-approval-id"

/-- Two digits, and what follows. -/
def twoDigits : Text → Option (Nat × Text)
  | a :: b :: rest => if isDigit a && isDigit b then some (number [a, b], rest) else none
  | _ => none

def skip (c : Char) : Text → Option Text
  | d :: rest => if d = c then some rest else none
  | [] => none

/-- The fraction of a second, as the number of its digits over their power of ten. -/
def fraction : Text → Option (Nat × Nat × Text)
  | '.' :: rest =>
    let digits := rest.takeWhile isDigit
    if digits = [] then none else some (number digits, digits.length, rest.dropWhile isDigit)
  | rest => some (0, 1, rest)

/-- The offset from UTC in minutes. -/
def zone : Text → Option Int
  | ['Z'] => some 0
  | sign :: rest => do
    let (hours, rest) ← twoDigits rest
    let (minutes, rest) ← twoDigits (← skip ':' rest)
    if rest ≠ [] ∨ 23 < hours ∨ 59 < minutes then none
    else if sign = '+' then some (hours * 60 + minutes)
    else if sign = '-' then some (-(hours * 60 + minutes))
    else none
  | [] => none

def daysInMonth (year month : Nat) : Nat :=
  let leap := year % 4 = 0 ∧ (year % 100 ≠ 0 ∨ year % 400 = 0)
  [31, if leap then 29 else 28, 31, 30, 31, 30, 31, 31, 30, 31, 30, 31].getD (month - 1) 0

/-- Milliseconds since 1970, in double precision. -/
def timestampText (s : Text) : Option ℚ := do
  let (century, s) ← twoDigits s
  let (yearOfCentury, s) ← twoDigits s
  let (month, s) ← twoDigits (← skip '-' s)
  let (day, s) ← twoDigits (← skip '-' s)
  let (hour, s) ← twoDigits (← skip 'T' s)
  let (minute, s) ← twoDigits (← skip ':' s)
  let (second, s) ← twoDigits (← skip ':' s)
  let (digits, places, s) ← fraction s
  let offset ← zone s
  let year := 100 * century + yearOfCentury
  if month < 1 ∨ 12 < month ∨ day < 1 ∨ 31 < day ∨ 23 < hour ∨ 59 < minute ∨ 59 < second then none
  else if daysInMonth year month < day then none
  else
    let time : Int := daysOfCivil ⟨year, month, day⟩ * 86400000 + (hour * 3600000 + minute * 60000 + second * 1000 : Nat)
    let milliseconds := roundDouble (roundDouble (digits / 10 ^ places) * 1000)
    some (roundDouble (roundDouble (time + milliseconds) - (offset * 60000 : Int)))

def timestamp : Value → Option ℚ
  | .str s => timestampText s
  | _ => none

/-- The identifier of the approval, where it covers the digest. -/
def verifyApprovalBinding (heap : Heap) (approval : Value) (digest : Option Text) (now : Value) :
    Except ApprovalReason Text :=
  match digest.filter isDigest with
  | none => .error .invalidDigest
  | some digest =>
    -- a value that is no date throws, and an invalid date or a proxy has no time
    match heap.getTime now with
    | none | some none => .error .invalidClock
    | some (some clock) =>
      if approval = .null ∨ approval = .undefined then .error .missing
      else if own heap approval "invocationDigest" ≠ .str digest then .error .digestMismatch
      else
        match matched (own heap approval "approvalId") isApprovalId with
        | none => .error .invalidApprovalId
        | some approvalId =>
          if own heap approval "approverKind" ≠ .str "human".toList then .error .agentApprover
          else
            match own heap approval "approvedBy" with
            | .str by_ =>
              if trimText by_ = [] then .error .noApprover
              else
                match timestamp (own heap approval "expiresAt") with
                | none => .error .invalidExpiry
                | some expiry =>
                  if 3600000 < roundDouble (expiry - clock) then .error .invalidExpiry
                  else if ¬ (clock : ℚ) < expiry then .error .expired
                  else .ok approvalId
            | _ => .error .noApprover

/-! ### Authorization -/

inductive ToolRisk where
  | readOnly | mutating | destructive
deriving DecidableEq

def ToolRisk.text : ToolRisk → Text
  | .readOnly => "read-only".toList
  | .mutating => "mutating".toList
  | .destructive => "destructive".toList

def riskValue (value : Value) : Option ToolRisk :=
  if value = .str ToolRisk.readOnly.text then some .readOnly
  else if value = .str ToolRisk.mutating.text then some .mutating
  else if value = .str ToolRisk.destructive.text then some .destructive
  else none

inductive Decision where
  | allow | deny | needsApproval
deriving DecidableEq

structure Verdict where
  decision : Decision
  reasons : List String
  digest : Option Text
  risk : Option ToolRisk
  approvalId : Option Text
deriving DecidableEq

def deny (reason : String) (digest : Option Text) (risk : Option ToolRisk) : Verdict :=
  ⟨.deny, [reason], digest, risk, none⟩

/-- The strings of an array of strings; the outer `none` is a throw. -/
def strings (heap : Heap) (value : Value) : Option (Option (List Text)) :=
  match heap.isArray value with
  | none => none
  | some isArray =>
    if ¬ isArray ∨ heap.isProxy value ∨ canonicalizeJson heap value = none then some none
    else
      match (heap.object value).bind Object.arrayLength with
      | none => some none
      | some size =>
        some ((List.range size).mapM fun i =>
          match own heap value (String.ofList (natText i)) with
          | .str key => some key
          | _ => none)

/-- `has(field, value)`: a throw counts as no. -/
def has (heap : Heap) (scope : Value) (field : String) (value : Text) : Bool :=
  value ≠ ['*'] ∧ heap.setHas (own heap scope field) value = some true

def isBool : Value → Option Bool
  | .bool b => some b
  | _ => none

/-- An entry of the registry, read out of a value. -/
structure ToolRegistryEntry where
  risk : ToolRisk
  allowedArgKeys : List Text
  requiredArgKeys : List Text
  requiresApproval : Bool

/-- The entry, where it is well formed; the outer `none` is a throw. -/
def registryEntry (heap : Heap) (entry : Value) : Option (Option ToolRegistryEntry) := do
  let allowed ← strings heap (own heap entry "allowedArgKeys")
  let required ← strings heap (own heap entry "requiredArgKeys")
  match riskValue (own heap entry "risk"), allowed, required, isBool (own heap entry "requiresApproval") with
  | some risk, some allowed, some required, some approvalRequired =>
    some (if required.all (· ∈ allowed) then some ⟨risk, allowed, required, approvalRequired⟩ else none)
  | _, _, _, _ => some none

/-- Only a tool that reads may do without a namespace. -/
def namespaceInScope (heap : Heap) (scope : Value) (namespace_ : Option Text) (risk : ToolRisk) : Bool :=
  match namespace_ with
  | none => risk = .readOnly
  | some namespace_ => has heap scope "namespaces" namespace_

/-- The checks that come after the tool is known to be registered. -/
def authorizeEntry {heap₀ : Heap} (heap : Heap) (input : Value) (resolved : ResolutionArtifact heap₀) (digest : Text)
    (entry : ToolRegistryEntry) : Verdict :=
  let scope := own heap input "sessionScope"
  let deny (reason : String) := deny reason (some digest) (some entry.risk)
  if ¬ has heap scope "allowedTools" resolved.tool then deny "tool-not-granted"
  else if ¬ has heap scope "clusters" resolved.cluster then deny "cluster-out-of-scope"
  else if ¬ namespaceInScope heap scope resolved.namespace_ entry.risk then deny "namespace-out-of-scope"
  else
    match heap.object resolved.normalizedArgs with
    | none => deny "args-schema"
    | some args =>
      if ¬ plain heap resolved.normalizedArgs ∨ args.names.any (· ∉ entry.allowedArgKeys) ∨
          entry.requiredArgKeys.any (args.property · = none) then
        deny "args-schema"
      else if entry.risk = .destructive ∨ entry.requiresApproval then
        match verifyApprovalBinding heap (own heap input "approval") (some digest) (own heap input "now") with
        | .error reason => ⟨.needsApproval, [reason.text], some digest, some entry.risk, none⟩
        | .ok approvalId => ⟨.allow, [], some digest, some entry.risk, some approvalId⟩
      else ⟨.allow, [], some digest, some entry.risk, none⟩

def authorizeInvocation (heap₀ : Heap) (input : Value) : Verdict :=
  match resolution heap₀ (own heap₀ input "resolution") with
  | none => deny "digest-invalid" none none
  | some resolved =>
    let heap := resolved.alloc.1
    match computeInvocationDigest heap resolved.alloc.2 with
    | none => deny "digest-invalid" none none
    | some digest =>
      -- what is no date throws
      match heap.getTime (own heap input "now") with
      | none | some none => deny "digest-invalid" (some digest) none
      | some (some _) =>
        match heap.mapGet (own heap input "registry") resolved.tool with
        | none => deny "tool-unregistered" (some digest) none
        | some entry =>
          match registryEntry heap entry with
          | none => deny "digest-invalid" (some digest) none
          | some none => deny "tool-unregistered" (some digest) none
          | some (some entry) => authorizeEntry heap input resolved digest entry

end narwhal.portal.agent_invocation
