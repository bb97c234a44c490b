import Narwhal.Lib.JsDate
import Narwhal.Lib.JsRecord
import Narwhal.Lib.Redaction

open jslib redaction

namespace narwhal.portal.flow

/-! ### The source -/

inductive FlowVerdict
  | forwarded | dropped | audit | unknown
  deriving DecidableEq

/-- The scope: whether it is a plain object with data fields, whether its own `all` is `true`,
and its own `namespaces`, if they are a set. -/
structure FlowScope where
  plain : Bool
  all : Bool
  namespaces : Option (List Text)

structure FlowEndpointSummary where
  redacted : Bool
  «namespace» : Option Text
  workload : Option Text
  pod : Option Text
  deriving DecidableEq

inductive Direction
  | egress | ingress
  deriving DecidableEq

inductive Effect
  | allowed | denied
  deriving DecidableEq

structure PolicyRef where
  direction : Direction
  effect : Effect
  name : Option Text
  «namespace» : Option Text
  redacted : Bool
  deriving DecidableEq

structure FlowSummary where
  uuid : Text
  verdict : FlowVerdict
  time : Option Text
  source : FlowEndpointSummary
  destination : FlowEndpointSummary
  dropReason : Option Text
  policies : List PolicyRef
  traceId : Option Text
  deriving DecidableEq

def own (input : Option Json) (key : Text) : Option Json := input.bind fun v => v.get key

def nonempty (input : Option Json) : Option Text := (input.bind Json.string).filter (· ≠ [])

/-- A string that the pattern matches as a whole. -/
def matching (input : Option Json) (pattern : Text → Bool) : Option Text := (input.bind Json.string).filter pattern

/-- `[A-Za-z0-9-]{1,128}` -/
def isUuid (s : Text) : Bool :=
  1 ≤ s.length && s.length ≤ 128 && s.all fun c => isLower c || isUpper c || isDigit c || c == '-'

/-- `[A-Z][A-Z0-9_]{0,63}` -/
def isDropReason (s : Text) : Bool :=
  match s with
  | c :: rest => isUpper c && rest.length ≤ 63 && rest.all fun c => isUpper c || isDigit c || c == '_'
  | [] => false

/-- `[0-9a-f]{32}` -/
def isTraceId (s : Text) : Bool := s.length = 32 && s.all fun c => isDigit c || ('a' ≤ c && c ≤ 'f')

def normalizeFlowVerdict (input : Option Json) : FlowVerdict :=
  match input.bind Json.string with
  | none => .unknown
  | some s =>
    if s = "FORWARDED".toList then .forwarded
    else if s = "DROPPED".toList then .dropped
    else if s = "AUDIT".toList then .audit
    else .unknown

/-- Two digits between these bounds. -/
def twoDigits (low high : Nat) (s : Text) : Bool := s.length = 2 && s.all isDigit && low ≤ number s && number s ≤ high

/-- `(?:Z|[+-](?:[01]\d|2[0-3]):[0-5]\d)` -/
def isOffset : Text → Bool
  | ['Z'] => true
  | [sign, h, h', ':', m, m'] => (sign == '+' || sign == '-') && twoDigits 0 23 [h, h'] && twoDigits 0 59 [m, m']
  | _ => false

/-- `(?:\.\d+)?` and an offset. -/
def isFractionAndOffset : Text → Bool
  | '.' :: rest => rest.takeWhile isDigit ≠ [] && isOffset (rest.dropWhile isDigit)
  | rest => isOffset rest

def isTimestamp (s : Text) : Bool :=
  let part := fun i n => (s.drop i).take n
  (part 0 4).length = 4 && (part 0 4).all isDigit && part 4 1 = ['-'] && twoDigits 1 12 (part 5 2) && part 7 1 = ['-'] &&
    twoDigits 1 31 (part 8 2) && part 10 1 = ['T'] && twoDigits 0 23 (part 11 2) && part 13 1 = [':'] &&
    twoDigits 0 59 (part 14 2) && part 16 1 = [':'] && twoDigits 0 59 (part 17 2) && isFractionAndOffset (s.drop 19)

def strictTime (input : Option Json) : Option Text :=
  match matching input isTimestamp with
  | none => none
  | some value =>
    let part := fun i n => number ((value.drop i).take n)
    if part 8 2 ≤ daysOfMonth (part 0 4) (part 5 2) then some value else none

def visible (scope : FlowScope) (ns : Option Text) : Bool :=
  if scope.all then true
  else
    match ns, scope.namespaces with
    | some ns, some namespaces => namespaces.contains ns
    | _, _ => false

def namespaceOf (input : Option Json) : Option Text := nonempty (own input "namespace".toList)

def workloadOf (input : Option Json) : Option Text :=
  match (own input "workloads".toList).bind Json.array with
  | some workloads => workloads.findSome? fun workload => nonempty (own workload "name".toList)
  | none => none

def endpoint (scope : FlowScope) (input : Option Json) : FlowEndpointSummary :=
  if visible scope (namespaceOf input) = false then ⟨true, none, none, none⟩
  else ⟨false, namespaceOf input, workloadOf input, nonempty (own input "pod_name".toList)⟩

def policyKey : Direction → Effect → Text
  | .egress, .allowed => "egress_allowed_by".toList
  | .egress, .denied => "egress_denied_by".toList
  | .ingress, .allowed => "ingress_allowed_by".toList
  | .ingress, .denied => "ingress_denied_by".toList

def refsOf (raw : Json) (direction : Direction) (effect : Effect) : List Json :=
  ((raw.get (policyKey direction effect)).bind Json.array).getD []

def policy (scope : FlowScope) (direction : Direction) (effect : Effect) (ref : Json) : PolicyRef :=
  let ns := namespaceOf ref
  let redacted := !visible scope ns
  ⟨direction, effect, if redacted then none else nonempty (own ref "name".toList), if redacted then none else ns, redacted⟩

def policies (scope : FlowScope) (raw : Json) : List PolicyRef :=
  [Direction.egress, Direction.ingress].flatMap fun direction =>
    [Effect.allowed, Effect.denied].flatMap fun effect => (refsOf raw direction effect).map (policy scope direction effect)

def normalizeFlow (raw : Json) (scope : FlowScope) : Option FlowSummary :=
  match matching (raw.get "uuid".toList) isUuid with
  | none => none
  | some uuid =>
    if scope.plain = false then none
    else
      let source := raw.get "source".toList
      let destination := raw.get "destination".toList
      if visible scope (namespaceOf source) = false ∧ visible scope (namespaceOf destination) = false then none
      else
        let verdict := normalizeFlowVerdict (raw.get "verdict".toList)
        some {
          uuid, verdict
          time := strictTime (raw.get "time".toList)
          source := endpoint scope source
          destination := endpoint scope destination
          dropReason := if verdict = .dropped then matching (raw.get "drop_reason_desc".toList) isDropReason else none
          policies := policies scope raw
          traceId :=
            matching (own (own (raw.get "trace_context".toList) "parent".toList) "trace_id".toList) isTraceId }

/-! ### What a scope shows -/

section

variable {scope : FlowScope}

/-- An endpoint or a policy reference is visible by its namespace. -/
def shows (scope : FlowScope) (part : Option Json) : Bool := visible scope (namespaceOf part)

def hiddenEndpoint : FlowEndpointSummary := ⟨true, none, none, none⟩

/-- An endpoint outside the scope looks like every other, -/
theorem endpoint_masks : Masks (shows scope) (endpoint scope) hiddenEndpoint := by
  intro input h
  exact if_pos h

/-- and so does a policy. -/
theorem policy_masks (direction : Direction) (effect : Effect) :
    Masks (fun ref : Json => shows scope (some ref)) (policy scope direction effect)
      ⟨direction, effect, none, none, true⟩ := by
  intro ref h
  have hvisible : visible scope (namespaceOf (some ref)) = false := h
  simp [policy, hvisible]

/-- Two flows that differ only inside endpoints and policy references that are hidden in both. -/
structure SameShown (scope : FlowScope) (raw raw' : Json) : Prop where
  fields : ∀ key, key ≠ "source".toList → key ≠ "destination".toList → (∀ direction effect, key ≠ policyKey direction effect) →
    raw'.get key = raw.get key
  source : SameVisible (shows scope) (raw.get "source".toList) (raw'.get "source".toList)
  destination : SameVisible (shows scope) (raw.get "destination".toList) (raw'.get "destination".toList)
  refs : ∀ direction effect, raw'.get (policyKey direction effect) = raw.get (policyKey direction effect) ∨
    ∃ refs refs', raw.get (policyKey direction effect) = some (.arr refs) ∧
      raw'.get (policyKey direction effect) = some (.arr refs') ∧
      List.Forall₂ (SameVisible fun ref : Json => shows scope (some ref)) refs refs'

/-- Flows that show the same agree in the fields that are not masked, -/
theorem SameShown.field {raw raw' : Json} (h : SameShown scope raw raw') (key : Text)
    (hkey : key ∈ ["uuid", "verdict", "time", "drop_reason_desc", "trace_context"].map String.toList) :
    raw'.get key = raw.get key := by
  have hother : ∀ key ∈ ["uuid", "verdict", "time", "drop_reason_desc", "trace_context"].map String.toList,
      key ≠ "source".toList ∧ key ≠ "destination".toList ∧ key ≠ policyKey .egress .allowed ∧ key ≠ policyKey .egress .denied ∧
        key ≠ policyKey .ingress .allowed ∧ key ≠ policyKey .ingress .denied := by
    decide
  obtain ⟨hsource, hdestination, h1, h2, h3, h4⟩ := hother key hkey
  refine h.fields key hsource hdestination ?_
  rintro (_ | _) (_ | _)
  · exact h1
  · exact h2
  · exact h3
  · exact h4

/-- in their policies, -/
theorem SameShown.policies_eq {raw raw' : Json} (h : SameShown scope raw raw') :
    policies scope raw' = policies scope raw := by
  have hrefs : ∀ direction effect, (refsOf raw' direction effect).map (policy scope direction effect) =
      (refsOf raw direction effect).map (policy scope direction effect) := by
    intro direction effect
    unfold refsOf
    rcases h.refs direction effect with heq | ⟨refs, refs', hget, hget', hsame⟩
    · rw [heq]
    · rw [hget, hget']
      exact (policy_masks direction effect).map_eq hsame
  unfold policies
  simp only [hrefs]

/-- and so in their summaries. -/
theorem SameShown.normalizeFlow_eq {raw raw' : Json} (h : SameShown scope raw raw') :
    normalizeFlow raw' scope = normalizeFlow raw scope := by
  have huuid := h.field "uuid".toList (by decide)
  have hverdict := h.field "verdict".toList (by decide)
  have htime := h.field "time".toList (by decide)
  have hreason := h.field "drop_reason_desc".toList (by decide)
  have htrace := h.field "trace_context".toList (by decide)
  have hsource : visible scope (namespaceOf (raw'.get "source".toList)) = visible scope (namespaceOf (raw.get "source".toList)) :=
    h.source.visible_eq
  have hdestination : visible scope (namespaceOf (raw'.get "destination".toList)) =
      visible scope (namespaceOf (raw.get "destination".toList)) := h.destination.visible_eq
  unfold normalizeFlow
  dsimp only
  rw [huuid, hverdict, htime, hreason, htrace, hsource, hdestination, h.policies_eq,
    endpoint_masks.eq_of_sameVisible h.source, endpoint_masks.eq_of_sameVisible h.destination]

end

/-! ### What is reported -/

/-- A part is reported as it is if it is visible, and else without its names. -/
structure ReportedEndpoint (scope : FlowScope) (input : Option Json) (summary : FlowEndpointSummary) : Prop where
  shown : shows scope input = true → summary.redacted = false ∧ summary.namespace = namespaceOf input ∧
    summary.workload = workloadOf input ∧ summary.pod = nonempty (own input "pod_name".toList)
  hidden : shows scope input = false → summary = hiddenEndpoint

structure ReportedPolicy (scope : FlowScope) (ref : Direction × Effect × Json) (summary : PolicyRef) : Prop where
  direction : summary.direction = ref.1
  effect : summary.effect = ref.2.1
  shown : shows scope (some ref.2.2) = true → summary.redacted = false ∧ summary.namespace = namespaceOf (some ref.2.2) ∧
    summary.name = nonempty (own (some ref.2.2) "name".toList)
  hidden : shows scope (some ref.2.2) = false → summary.redacted = true ∧ summary.namespace = none ∧ summary.name = none

/-- The policy references of a flow. -/
def allRefs (raw : Json) : List (Direction × Effect × Json) :=
  [Direction.egress, Direction.ingress].flatMap fun direction =>
    [Effect.allowed, Effect.denied].flatMap fun effect => (refsOf raw direction effect).map fun ref => (direction, effect, ref)

/-- An endpoint is reported as it is, or as hidden. -/
theorem endpoint_reported (scope : FlowScope) (input : Option Json) : ReportedEndpoint scope input (endpoint scope input) where
  shown h := by
    have hvisible : visible scope (namespaceOf input) = true := h
    simp [endpoint, hvisible]
  hidden h := endpoint_masks input h

theorem policy_reported (scope : FlowScope) (direction : Direction) (effect : Effect) (ref : Json) :
    ReportedPolicy scope (direction, effect, ref) (policy scope direction effect ref) where
  direction := rfl
  effect := rfl
  shown h := by
    have hvisible : visible scope (namespaceOf (some ref)) = true := h
    simp [policy, hvisible]
  hidden h := by
    rw [policy_masks direction effect ref h]
    exact ⟨rfl, rfl, rfl⟩

/-- Every policy is reported, in order. -/
theorem policies_reported (scope : FlowScope) (raw : Json) :
    List.Forall₂ (ReportedPolicy scope) (allRefs raw) (policies scope raw) := by
  have hmap : policies scope raw = (allRefs raw).map fun ref => policy scope ref.1 ref.2.1 ref.2.2 := by
    simp only [policies, allRefs, List.flatMap_cons, List.flatMap_nil, List.append_nil, List.map_append, List.map_map]
    rfl
  rw [hmap, List.forall₂_map_right_iff]
  exact List.forall₂_same.mpr fun ref _ => policy_reported scope ref.1 ref.2.1 ref.2.2

/-- A flow that is returned has a well-formed id and a visible endpoint, and shows no more than that. -/
structure Reported (scope : FlowScope) (raw : Json) (summary : FlowSummary) : Prop where
  uuid : raw.get "uuid".toList = some (.str summary.uuid) ∧ isUuid summary.uuid = true
  visible : shows scope (raw.get "source".toList) = true ∨ shows scope (raw.get "destination".toList) = true
  source : ReportedEndpoint scope (raw.get "source".toList) summary.source
  destination : ReportedEndpoint scope (raw.get "destination".toList) summary.destination
  policies : List.Forall₂ (ReportedPolicy scope) (allRefs raw) summary.policies

/-- The summary of a flow reports it field by field. -/
theorem normalizeFlow_reported {scope : FlowScope} {raw : Json} {summary : FlowSummary}
    (h : normalizeFlow raw scope = some summary) : Reported scope raw summary := by
  unfold normalizeFlow at h
  split at h
  · cases h
  · next uuid huuid =>
    dsimp only at h
    by_cases hplain : scope.plain = false
    · rw [if_pos hplain] at h
      cases h
    · rw [if_neg hplain] at h
      split at h
      · cases h
      · next hhidden =>
        obtain rfl := Option.some.inj h
        obtain ⟨hstring, hmatches⟩ := Option.filter_eq_some_iff.mp huuid
        obtain ⟨value, hvalue, hstr⟩ := Option.bind_eq_some_iff.mp hstring
        obtain rfl := Json.string_eq_some hstr
        refine ⟨⟨hvalue, hmatches⟩, ?_, endpoint_reported scope _, endpoint_reported scope _, policies_reported scope raw⟩
        rw [not_and_or, Bool.not_eq_false, Bool.not_eq_false] at hhidden
        exact hhidden

/-- The answer does not depend on what a scope hides, and shows it as hidden. -/
theorem flow_redaction_noninterfering (scope : FlowScope) :
    (∀ raw raw', SameShown scope raw raw' → normalizeFlow raw' scope = normalizeFlow raw scope) ∧
      ∀ raw summary, normalizeFlow raw scope = some summary → Reported scope raw summary :=
  ⟨fun _ _ h => h.normalizeFlow_eq, fun _ _ h => normalizeFlow_reported h⟩

end narwhal.portal.flow
