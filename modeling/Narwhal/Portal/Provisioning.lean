import Narwhal.Lib.Fold
import Narwhal.Lib.JsRecord
import Narwhal.Portal.AgentInvocation

open jslib
open pylib (bind_ok_iff)
open narwhal.portal.agent_invocation (isLabelText)

namespace narwhal.portal.provisioning

inductive ProvisioningMode where
  | preview | apply
deriving DecidableEq

def ProvisioningMode.text : ProvisioningMode → Text
  | .preview => "preview".toList
  | .apply => "apply".toList

structure ProvisioningRequest where
  mode : ProvisioningMode
  templateId : Text
  values : List (Text × Text)
  team : Option Text
  idempotencyKey : Option Text
deriving DecidableEq

/-- The status and the error of a rejected request. -/
structure Invalid where
  status : Nat
  code : Text
  message : Text
deriving DecidableEq

structure Field where
  name : Text
  required : Bool
  options : Option (List Text)

/-- The properties of every object. -/
def inherited : List Text := ["constructor", "hasOwnProperty", "isPrototypeOf", "propertyIsEnumerable", "toLocaleString",
  "toString", "valueOf", "__proto__", "__defineGetter__", "__defineSetter__", "__lookupGetter__", "__lookupSetter__"].map
    String.toList

/-- A name that an object keeps in the order of its fields, and that no object has of itself. -/
def isFieldName (name : Text) : Bool := ¬ inherited.contains name ∧ ¬ name.all isDigit

/-- An entry of the catalog; no two of its fields have one name. -/
structure Template where
  id : Text
  fields : List Field
  nodup : (fields.map Field.name).Nodup
  own : (fields.all fun field => isFieldName field.name) = true

/-- `TEMPLATES`, as far as requests are validated against them. -/
def DEFAULT_TEMPLATE_CATALOG : List Template := [
  { id := "nextjs-web".toList
    fields := [⟨"serviceName".toList, true, none⟩, ⟨"namespace".toList, true, none⟩,
      ⟨"replicas".toList, true, some (["1", "2", "3"].map String.toList)⟩]
    nodup := by decide
    own := by decide },
  { id := "api-service".toList
    fields := [⟨"serviceName".toList, true, none⟩, ⟨"namespace".toList, true, none⟩,
      ⟨"runtime".toList, true, some (["go", "node"].map String.toList)⟩,
      ⟨"database".toList, false, some (["none", "postgresql"].map String.toList)⟩]
    nodup := by decide
    own := by decide },
  { id := "cronjob".toList
    fields := [⟨"serviceName".toList, true, none⟩, ⟨"namespace".toList, true, none⟩, ⟨"schedule".toList, true, none⟩]
    nodup := by decide
    own := by decide }]

structure Dependencies where
  catalog : Option (List Template)
  /-- the owning team of a namespace, where there is one; `error` is an exception -/
  resolveOwningTeam : Option (Text → Text → Except Unit (Option Text))
  sessionTeams : Option (List Text)

def Dependencies.templates (d : Dependencies) : List Template := d.catalog.getD DEFAULT_TEMPLATE_CATALOG

/-! ### Validation -/

def reject {α : Type} (code : String) (message : Text) (status : Nat) : Except Invalid α :=
  .error ⟨status, code.toList, message⟩

/-- `Field ${key} …` -/
def fieldMessage (key : Text) (message : String) : Text := "Field ".toList ++ key ++ ' ' :: message.toList

def modeOf (input : Json) : Except Invalid ProvisioningMode :=
  match input.get "mode".toList with
  | none => .ok .preview
  | some value =>
    if value.string = some "preview".toList then .ok .preview
    else if value.string = some "apply".toList then .ok .apply
    else reject "INVALID_MODE" "Mode must be preview or apply".toList 400

def templateIdOf (input : Json) : Except Invalid Text :=
  match input.getString "templateId".toList with
  | some templateId =>
    if trimText templateId = [] then reject "INVALID_REQUEST" "templateId must be a non-empty string".toList 400
    else .ok templateId
  | none => reject "INVALID_REQUEST" "templateId must be a non-empty string".toList 400

/-- The fields of `values`. -/
def valuesOf (input : Json) : Except Invalid (List (Text × Json)) :=
  match input.get "values".toList with
  | some (.obj given) => .ok given
  | _ => reject "INVALID_REQUEST" "values must be an object".toList 400

def templateOf (d : Dependencies) (templateId : Text) : Except Invalid Template :=
  match d.templates.find? fun template => template.id = templateId with
  | some template => .ok template
  | none => reject "UNKNOWN_TEMPLATE" "Template does not exist".toList 422

/-- Every key of the values is a field, and has a string. -/
def checkKeys (template : Template) (given : List (Text × Json)) : List (Text × Json) → Except Invalid Unit
  | [] => .ok ()
  | (key, _) :: entries =>
    if ¬ (template.fields.map Field.name).contains key then
      reject "UNKNOWN_FIELD" ("Unknown field: ".toList ++ key) 422
    else if ((given.lookup key).bind Json.string).isNone then
      reject "INVALID_FIELD_TYPE" (fieldMessage key "must be a string") 422
    else checkKeys template given entries

/-- `/^([a-z0-9]([a-z0-9-]{0,61}[a-z0-9])?)$/`, with "dev-" at its start -/
def isDevNamespace (value : Text) : Bool := isLabelText value ∧ "dev-".toList.isPrefixOf value

/-- One turn of the loop over the fields: the value of this one, where it has one. -/
def valueOf (given : List (Text × Json)) (field : Field) : Except Invalid (Option Text) :=
  let missing : Except Invalid (Option Text) :=
    if field.required then reject "REQUIRED_FIELD" (fieldMessage field.name "is required") 422 else .ok none
  match given.lookup field.name with
  | none => missing
  | some (.str value) =>
    if value = [] ∨ (field.required ∧ trimText value = []) then missing
    else if field.options.any fun options => ¬ options.contains value then
      reject "VALUE_NOT_ALLOWED" (fieldMessage field.name "has an unsupported value") 422
    else if field.name = "namespace".toList ∧ ¬ isDevNamespace value then
      reject "INVALID_NAMESPACE" "Namespace must be a valid dev- DNS label".toList 422
    else .ok (some value)
  | some _ => reject "INVALID_FIELD_TYPE" (fieldMessage field.name "must be a string") 422

def collect (given : List (Text × Json)) : List Field → Except Invalid (List (Text × Text))
  | [] => .ok []
  | field :: fields => do
    let value ← valueOf given field
    let values ← collect given fields
    return value.toList.map (fun text => (field.name, text)) ++ values

/-- A property that is a string, where it is set. -/
def optionalString (input : Json) (key : String) : Except Invalid (Option Text) :=
  match input.get key.toList with
  | none => .ok none
  | some (.str text) => .ok (some text)
  | some _ => reject "INVALID_REQUEST" (key.toList ++ " must be a string".toList) 400

def isBlank (text : Option Text) : Bool := trimText (text.getD []) = []

/-- The team of an apply request: the one it names, or the first one of the session. -/
def chosenTeam (d : Dependencies) (team : Option Text) : Option Text :=
  if isBlank team then d.sessionTeams.bind List.head? else team

def teamOf (d : Dependencies) (team : Option Text) : Except Invalid Text :=
  match chosenTeam d team with
  | some team => if isBlank (some team) then reject "NO_TEAM" "Apply requires a team".toList 400 else .ok team
  | none => reject "NO_TEAM" "Apply requires a team".toList 400

def checkOwner (d : Dependencies) (values : List (Text × Text)) (team : Text) : Except Invalid Unit :=
  match values.lookup "namespace".toList, d.resolveOwningTeam with
  | some namespace_, some resolveOwningTeam =>
    if namespace_ = [] then reject "INVALID_OWNERSHIP" "Apply requires namespace ownership resolution".toList 422
    else
      match resolveOwningTeam namespace_ team with
      | .error _ => reject "INVALID_OWNERSHIP" "Namespace ownership could not be resolved".toList 422
      | .ok owningTeam =>
        if owningTeam = some team then .ok () else reject "TEAM_MISMATCH" "Team does not own the namespace".toList 422
  | _, _ => reject "INVALID_OWNERSHIP" "Apply requires namespace ownership resolution".toList 422

/-- What only an apply request is checked for; its team may be another one after it. -/
def checkApply (d : Dependencies) (mode : ProvisioningMode) (values : List (Text × Text)) (team idempotencyKey : Option Text) :
    Except Invalid (Option Text) :=
  match mode with
  | .preview => .ok team
  | .apply =>
    if isBlank idempotencyKey then reject "INVALID_REQUEST" "Apply requires an idempotencyKey".toList 400
    else do
      let team ← teamOf d team
      checkOwner d values team
      return some team

/-- A body that is no JSON is `undefined`. -/
def validateProvisioningRequest (d : Dependencies) (input : Option Json) : Except Invalid ProvisioningRequest :=
  match input with
  | some (.obj fields) => do
    let input : Json := .obj fields
    let mode ← modeOf input
    let templateId ← templateIdOf input
    let given ← valuesOf input
    let template ← templateOf d templateId
    checkKeys template given given
    let values ← collect given template.fields
    let team ← optionalString input "team"
    let idempotencyKey ← optionalString input "idempotencyKey"
    let team ← checkApply d mode values team idempotencyKey
    return ⟨mode, templateId, values, team, idempotencyKey⟩
  | _ => reject "INVALID_REQUEST" "Request body must be an object".toList 400

/-! ### The requests that are accepted -/

/-- The text of a key that is not empty. -/
def entered (given : List (Text × Json)) (name : Text) : Option Text :=
  match given.lookup name with
  | some (.str text) => if text = [] then none else some text
  | _ => none

/-- The values in the order of the fields. -/
def valuesFor (fields : List Field) (value : Text → Option Text) : List (Text × Text) :=
  fields.filterMap fun field => (value field.name).map fun text => (field.name, text)

/-- A required field has a value that is not blank, and every value is one that the field allows. -/
structure Field.Meets (field : Field) (value : Option Text) : Prop where
  required : field.required = true → isBlank value = false
  allowed : ∀ text, value = some text → text ≠ [] ∧ (∀ options, field.options = some options → text ∈ options) ∧
    (field.name = "namespace".toList → isDevNamespace text = true)

/-- The team owns the namespace, by the resolver. -/
def Owns (d : Dependencies) (values : List (Text × Text)) (team : Text) : Prop :=
  ∃ namespace_ resolveOwningTeam, values.lookup "namespace".toList = some namespace_ ∧ namespace_ ≠ [] ∧
    d.resolveOwningTeam = some resolveOwningTeam ∧ resolveOwningTeam namespace_ team = .ok (some team)

/-- A request of this template. -/
structure WellFormed (d : Dependencies) (template : Template) (r : ProvisioningRequest) : Prop where
  templateId : trimText r.templateId ≠ [] ∧ d.templates.find? (fun t => t.id = r.templateId) = some template
  values : ∃ value, r.values = valuesFor template.fields value ∧ ∀ field ∈ template.fields, field.Meets (value field.name)
  apply : r.mode = .apply → isBlank r.idempotencyKey = false ∧ ∃ team, r.team = some team ∧ isBlank (some team) = false ∧
    Owns d r.values team

/-- The input says what the request does: an empty value is left out, and an apply request without a team
    has the first one of the session. -/
structure Describes (d : Dependencies) (template : Template) (input : Json) (r : ProvisioningRequest) : Prop where
  mode : input.get "mode".toList = none ∧ r.mode = .preview ∨ input.get "mode".toList = some (.str r.mode.text)
  templateId : input.get "templateId".toList = some (.str r.templateId)
  values : ∃ given, input.get "values".toList = some (.obj given) ∧
    (∀ entry ∈ given, entry.1 ∈ template.fields.map Field.name ∧ ∃ text, given.lookup entry.1 = some (.str text)) ∧
    r.values = valuesFor template.fields (entered given)
  team : ∃ team, input.get "team".toList = team.map Json.str ∧ (r.mode = .preview → r.team = team) ∧
    (r.mode = .apply → r.team = chosenTeam d team)
  idempotencyKey : input.get "idempotencyKey".toList = r.idempotencyKey.map Json.str

theorem modeOf_ok_iff {input : Json} {mode : ProvisioningMode} :
    modeOf input = .ok mode ↔
      input.get "mode".toList = none ∧ mode = .preview ∨ input.get "mode".toList = some (.str mode.text) := by
  unfold modeOf
  cases input.get "mode".toList with
  | none => simp [eq_comm]
  | some value =>
    dsimp only
    split_ifs with hpreview happly
    · rw [Json.string_eq_some hpreview]
      cases mode with
      | preview => exact iff_of_true rfl (.inr rfl)
      | apply => exact iff_of_false (by simp) (by simp [ProvisioningMode.text])
    · rw [Json.string_eq_some happly]
      cases mode with
      | preview => exact iff_of_false (by simp) (by simp [ProvisioningMode.text])
      | apply => exact iff_of_true rfl (.inr rfl)
    · refine iff_of_false (fun h => by cases h) ?_
      rintro (⟨hnone, _⟩ | hmode)
      · cases hnone
      · cases hmode
        cases mode with
        | preview => exact hpreview rfl
        | apply => exact happly rfl

theorem templateIdOf_ok_iff {input : Json} {templateId : Text} :
    templateIdOf input = .ok templateId ↔
      input.get "templateId".toList = some (.str templateId) ∧ trimText templateId ≠ [] := by
  unfold templateIdOf Json.getString
  cases input.get "templateId".toList with
  | none => exact iff_of_false (fun h => by cases h) fun h => by cases h.1
  | some value =>
    cases value with
    | str text =>
      dsimp only [Option.bind_some, Json.string]
      split_ifs with hblank
      · refine iff_of_false (fun h => by cases h) fun h => ?_
        cases h.1
        exact h.2 hblank
      · refine ⟨fun h => ?_, fun h => ?_⟩
        · cases h
          exact ⟨rfl, hblank⟩
        · cases h.1
          rfl
    | _ => exact iff_of_false (fun h => by cases h) fun h => by cases h.1

theorem valuesOf_ok_iff {input : Json} {given : List (Text × Json)} :
    valuesOf input = .ok given ↔ input.get "values".toList = some (.obj given) := by
  unfold valuesOf
  split
  · rename_i values hvalues
    rw [hvalues, Except.ok.injEq, Option.some.injEq, Json.obj.injEq]
  · rename_i hvalues
    exact iff_of_false (fun h => by cases h) fun h => hvalues given h

theorem templateOf_ok_iff {d : Dependencies} {templateId : Text} {template : Template} :
    templateOf d templateId = .ok template ↔ d.templates.find? (fun t => t.id = templateId) = some template := by
  unfold templateOf
  cases d.templates.find? fun t => t.id = templateId with
  | none => exact iff_of_false (fun h => by cases h) fun h => by cases h
  | some found => simp

theorem checkKeys_ok_iff {template : Template} {given entries : List (Text × Json)} {u : Unit} :
    checkKeys template given entries = .ok u ↔ ∀ entry ∈ entries,
      entry.1 ∈ template.fields.map Field.name ∧ ∃ text, given.lookup entry.1 = some (.str text) := by
  induction entries with
  | nil => exact iff_of_true rfl (List.forall_mem_nil _)
  | cons entry entries ih =>
    obtain ⟨key, value⟩ := entry
    rw [List.forall_mem_cons, checkKeys]
    split_ifs with hknown htype
    · refine iff_of_false (fun h => by cases h) ?_
      rintro ⟨⟨_, text, htext⟩, _⟩
      rw [htext] at htype
      cases htype
    · rw [ih]
      refine (and_iff_right ⟨List.contains_iff_mem.mp hknown, ?_⟩).symm
      cases hlookup : given.lookup key with
      | none =>
        rw [hlookup] at htype
        exact absurd rfl htype
      | some value =>
        rw [hlookup] at htype
        cases value with
        | str text => exact ⟨text, rfl⟩
        | _ => exact absurd rfl htype
    · exact iff_of_false (fun h => by cases h) fun h => hknown (List.contains_iff_mem.mpr h.1.1)

/-- The value of a field whose property is a string, where it is set. -/
theorem valueOf_ok_iff {given : List (Text × Json)} {field : Field} {value : Option Text}
    (hstring : ∀ v, given.lookup field.name = some v → ∃ text, v = .str text) :
    valueOf given field = .ok value ↔ value = entered given field.name ∧ field.Meets value := by
  have hmissing : ∀ {text : Text}, text = [] ∨ field.required = true ∧ trimText text = [] →
      ((if field.required then reject "REQUIRED_FIELD" (fieldMessage field.name "is required") 422 else .ok none) =
          Except.ok value ↔ value = (if text = [] then none else some text) ∧ field.Meets value) := by
    intro text htext
    split_ifs with hrequired hempty hempty
    · refine iff_of_false (fun h => by cases h) ?_
      rintro ⟨rfl, hmeets⟩
      exact absurd (hmeets.required hrequired) (by decide)
    · refine iff_of_false (fun h => by cases h) ?_
      rintro ⟨rfl, hmeets⟩
      have hblank := hmeets.required hrequired
      obtain htext | ⟨_, htext⟩ := htext
      · exact hempty htext
      · simp [isBlank, htext] at hblank
    · refine ⟨fun h => ?_, fun h => by rw [h.1]⟩
      cases h
      exact ⟨rfl, fun h => absurd h hrequired, fun _ h => by cases h⟩
    · obtain htext | ⟨htext, _⟩ := htext
      · exact absurd htext hempty
      · exact absurd htext hrequired
  unfold valueOf entered
  cases hlookup : given.lookup field.name with
  | none =>
    have hnone := @hmissing [] (.inl rfl)
    rw [if_pos rfl] at hnone
    exact hnone
  | some v =>
    obtain ⟨text, rfl⟩ := hstring v hlookup
    dsimp only
    by_cases hblank : text = [] ∨ field.required = true ∧ trimText text = []
    · rw [if_pos hblank]
      exact hmissing hblank
    rw [if_neg hblank, if_neg fun hempty => hblank (.inl hempty)]
    split_ifs with hoptions hnamespace
    · refine iff_of_false (fun h => by cases h) ?_
      rintro ⟨rfl, hmeets⟩
      obtain ⟨options, hfield, hforeign⟩ := (Option.any_eq_true _ _).mp hoptions
      have hmem : text ∈ options := (hmeets.allowed text rfl).2.1 options hfield
      exact of_decide_eq_true hforeign (List.contains_iff_mem.mpr hmem)
    · refine iff_of_false (fun h => by cases h) ?_
      rintro ⟨rfl, hmeets⟩
      exact hnamespace.2 ((hmeets.allowed text rfl).2.2 hnamespace.1)
    · refine ⟨fun h => ?_, fun h => by rw [h.1]⟩
      cases h
      refine ⟨rfl, fun hrequired => ?_, fun _ htext => ?_⟩
      · exact decide_eq_false fun htrim => hblank (.inr ⟨hrequired, htrim⟩)
      · cases htext
        refine ⟨fun hempty => hblank (.inl hempty), fun options hfield => ?_, fun hname => ?_⟩
        · by_contra hforeign
          exact hoptions ((Option.any_eq_true _ _).mpr
            ⟨options, hfield, decide_eq_true fun h => hforeign (List.contains_iff_mem.mp h)⟩)
        · by_contra hno
          exact hnamespace ⟨hname, hno⟩

theorem collect_ok_iff {given : List (Text × Json)} {fields : List Field} {values : List (Text × Text)}
    (hstring : ∀ field ∈ fields, ∀ v, given.lookup field.name = some v → ∃ text, v = .str text) :
    collect given fields = .ok values ↔
      values = valuesFor fields (entered given) ∧ ∀ field ∈ fields, field.Meets (entered given field.name) := by
  induction fields generalizing values with
  | nil => simp [collect, valuesFor, eq_comm]
  | cons field fields ih =>
    obtain ⟨hfield, hfields⟩ := List.forall_mem_cons.mp hstring
    simp only [collect, bind_ok_iff, valueOf_ok_iff hfield, ih hfields, pure, Except.pure, Except.ok.injEq]
    rw [List.forall_mem_cons]
    have hcons : valuesFor (field :: fields) (entered given) =
        (entered given field.name).toList.map (fun text => (field.name, text)) ++ valuesFor fields (entered given) := by
      unfold valuesFor
      cases hvalue : entered given field.name <;> simp [hvalue]
    constructor
    · rintro ⟨_, ⟨rfl, hmeets⟩, _, ⟨rfl, hall⟩, rfl⟩
      exact ⟨hcons.symm, hmeets, hall⟩
    · rintro ⟨rfl, hmeets, hall⟩
      exact ⟨_, ⟨rfl, hmeets⟩, _, ⟨rfl, hall⟩, hcons.symm⟩

theorem optionalString_ok_iff {input : Json} {key : String} {value : Option Text} :
    optionalString input key = .ok value ↔ input.get key.toList = value.map Json.str := by
  unfold optionalString
  cases input.get key.toList with
  | none => cases value <;> simp
  | some v =>
    cases v with
    | str text => cases value <;> simp
    | _ => cases value <;> simp [reject]

theorem teamOf_ok_iff {d : Dependencies} {given : Option Text} {team : Text} :
    teamOf d given = .ok team ↔
      some team = chosenTeam d given ∧ isBlank (some team) = false := by
  unfold teamOf
  cases chosenTeam d given with
  | none => exact iff_of_false (fun h => by cases h) fun h => by cases h.1
  | some chosen =>
    dsimp only
    split_ifs with hblank
    · refine iff_of_false (fun h => by cases h) ?_
      rintro ⟨heq, hteam⟩
      cases heq
      rw [hblank] at hteam
      cases hteam
    · refine ⟨fun h => ?_, fun h => ?_⟩
      · cases h
        exact ⟨rfl, Bool.eq_false_of_not_eq_true hblank⟩
      · cases h.1
        rfl

theorem checkOwner_ok_iff {d : Dependencies} {values : List (Text × Text)} {team : Text} {u : Unit} :
    checkOwner d values team = .ok u ↔ Owns d values team := by
  unfold checkOwner Owns
  cases values.lookup "namespace".toList with
  | none => exact iff_of_false (fun h => by cases h) (by rintro ⟨_, _, hnone, _⟩; cases hnone)
  | some namespace_ =>
    cases d.resolveOwningTeam with
    | none => exact iff_of_false (fun h => by cases h) (by rintro ⟨_, _, _, _, hnone, _⟩; cases hnone)
    | some resolveOwningTeam =>
      dsimp only
      split_ifs with hempty
      · refine iff_of_false (fun h => by cases h) ?_
        rintro ⟨_, _, hnamespace, hne, _⟩
        cases hnamespace
        exact hne hempty
      · have howns : (∃ n r, some namespace_ = some n ∧ n ≠ [] ∧ some resolveOwningTeam = some r ∧ r n team = .ok (some team)) ↔
            resolveOwningTeam namespace_ team = .ok (some team) := by
          constructor
          · rintro ⟨_, _, hn, _, hr, howner⟩
            cases hn
            cases hr
            exact howner
          · exact fun howner => ⟨namespace_, resolveOwningTeam, rfl, hempty, rfl, howner⟩
        rw [howns]
        cases resolveOwningTeam namespace_ team with
        | error u => exact iff_of_false (fun h => by cases h) fun h => by cases h
        | ok owningTeam =>
          dsimp only
          split_ifs with howner
          · exact iff_of_true rfl (by rw [howner])
          · exact iff_of_false (fun h => by cases h) fun h => howner (Except.ok.inj h)

theorem checkApply_ok_iff {d : Dependencies} {mode : ProvisioningMode} {values : List (Text × Text)}
    {given idempotencyKey team : Option Text} :
    checkApply d mode values given idempotencyKey = .ok team ↔
      (mode = .preview → team = given) ∧
      (mode = .apply → team = chosenTeam d given ∧ isBlank idempotencyKey = false ∧
        ∃ t, team = some t ∧ isBlank (some t) = false ∧ Owns d values t) := by
  cases mode with
  | preview =>
    rw [checkApply, Except.ok.injEq]
    exact ⟨fun h => ⟨fun _ => h.symm, fun happly => by cases happly⟩, fun h => (h.1 rfl).symm⟩
  | apply =>
    rw [checkApply]
    by_cases hblank : isBlank idempotencyKey = true
    · rw [if_pos hblank]
      refine iff_of_false (fun h => by cases h) ?_
      rintro ⟨_, happly⟩
      rw [(happly rfl).2.1] at hblank
      cases hblank
    · rw [if_neg hblank]
      simp only [bind_ok_iff, teamOf_ok_iff, checkOwner_ok_iff, pure, Except.pure, Except.ok.injEq]
      constructor
      · rintro ⟨t, ⟨hteam, ht⟩, _, howns, rfl⟩
        exact ⟨fun h => (by cases h), fun _ => ⟨hteam, Bool.eq_false_of_not_eq_true hblank, t, rfl, ht, howns⟩⟩
      · rintro ⟨_, happly⟩
        obtain ⟨hteam, _, t, rfl, ht, howns⟩ := happly trivial
        exact ⟨t, ⟨hteam, ht⟩, (), howns, rfl⟩

theorem mem_of_lookup_eq_some {given : List (Text × Json)} {key : Text} {value : Json} (h : given.lookup key = some value) :
    (key, value) ∈ given := by
  induction given with
  | nil => cases h
  | cons entry given ih =>
    obtain ⟨k, v⟩ := entry
    rw [List.lookup_cons] at h
    split at h
    · rename_i hkey
      cases h
      rw [eq_of_beq hkey]
      exact List.mem_cons_self
    · exact List.mem_cons_of_mem _ (ih h)

/-- What is found under a key is a string. -/
theorem string_of_keys {template : Template} {given : List (Text × Json)} (hkeys : ∀ entry ∈ given,
    entry.1 ∈ template.fields.map Field.name ∧ ∃ text, given.lookup entry.1 = some (.str text)) :
    ∀ field ∈ template.fields, ∀ v, given.lookup field.name = some v → ∃ text, v = .str text := by
  intro field _ v hv
  obtain ⟨text, htext⟩ := (hkeys _ (mem_of_lookup_eq_some hv)).2
  rw [hv] at htext
  exact ⟨text, Option.some.inj htext⟩

/-- Under the name of a field stands its value. -/
theorem lookup_valuesFor {fields : List Field} (hnodup : (fields.map Field.name).Nodup) (value : Text → Option Text)
    {field : Field} (hfield : field ∈ fields) : (valuesFor fields value).lookup field.name = value field.name := by
  have hother : ∀ {fields : List Field} {name : Text}, name ∉ fields.map Field.name →
      (valuesFor fields value).lookup name = none := by
    intro fields name hname
    rw [List.lookup_eq_none_iff]
    intro entry hentry
    obtain ⟨other, hmem, heq⟩ := List.mem_filterMap.mp hentry
    obtain ⟨text, _, rfl⟩ := Option.map_eq_some_iff.mp heq
    have hne : name ≠ other.name := by
      rintro rfl
      exact hname (List.mem_map_of_mem hmem)
    simpa using hne
  induction fields with
  | nil => cases hfield
  | cons first fields ih =>
    rw [List.map_cons, List.nodup_cons] at hnodup
    have hcons : valuesFor (first :: fields) value =
        (value first.name).toList.map (fun text => (first.name, text)) ++ valuesFor fields value := by
      unfold valuesFor
      cases hvalue : value first.name <;> simp [hvalue]
    rw [hcons]
    obtain rfl | hfield := List.mem_cons.mp hfield
    · cases hvalue : value field.name with
      | none => exact hother hnodup.1
      | some text => simp
    · have hne : field.name ≠ first.name := by
        intro hsame
        exact hnodup.1 (hsame ▸ List.mem_map_of_mem hfield)
      cases hvalue : value first.name with
      | none => exact ih hnodup.2 hfield
      | some text =>
        simp only [Option.toList_some, List.map_cons, List.map_nil, List.cons_append, List.nil_append]
        rw [List.lookup_cons, beq_false_of_ne hne]
        exact ih hnodup.2 hfield

/-- The validator accepts exactly the inputs that describe a well-formed request of a template. -/
theorem validate_ok_iff (d : Dependencies) (input : Option Json) (r : ProvisioningRequest) :
    validateProvisioningRequest d input = .ok r ↔ ∃ fields template, input = some (.obj fields) ∧
      Describes d template (.obj fields) r ∧ WellFormed d template r := by
  unfold validateProvisioningRequest
  split
  · rename_i fields
    simp only [bind_ok_iff, modeOf_ok_iff, templateIdOf_ok_iff, valuesOf_ok_iff, templateOf_ok_iff, checkKeys_ok_iff,
      optionalString_ok_iff, checkApply_ok_iff, pure, Except.pure, Except.ok.injEq]
    constructor
    · rintro ⟨mode, hmode, templateId, ⟨hid, htrim⟩, given, hgiven, template, htemplate, _, hkeys, values, hvalues, team, hteam,
        key, hkey, chosen, ⟨hpreview, happly⟩, rfl⟩
      have hstring := string_of_keys hkeys
      obtain ⟨rfl, hmeets⟩ := (collect_ok_iff hstring).mp hvalues
      exact ⟨fields, template, rfl, ⟨hmode, hid, ⟨given, hgiven, hkeys, rfl⟩, ⟨team, hteam, hpreview, fun h => (happly h).1⟩, hkey⟩,
        ⟨⟨htrim, htemplate⟩, ⟨entered given, rfl, hmeets⟩, fun h => (happly h).2⟩⟩
    · rintro ⟨_, template, hinput, ⟨hmode, hid, ⟨given, hgiven, hkeys, hvalues⟩, ⟨team, hteam, hpreview, hchosen⟩, hkey⟩,
        ⟨⟨htrim, htemplate⟩, ⟨value, hvalue, hmeets⟩, happly⟩⟩
      cases hinput
      have hstring := string_of_keys hkeys
      have hentered : ∀ field ∈ template.fields, field.Meets (entered given field.name) := by
        intro field hfield
        have hsame : value field.name = entered given field.name := by
          rw [← lookup_valuesFor template.nodup value hfield, ← hvalue, hvalues, lookup_valuesFor template.nodup _ hfield]
        exact hsame ▸ hmeets field hfield
      exact ⟨r.mode, hmode, r.templateId, ⟨hid, htrim⟩, given, hgiven, template, htemplate, (), hkeys, r.values,
        (collect_ok_iff hstring).mpr ⟨hvalues, hentered⟩, team, hteam, r.idempotencyKey, hkey, r.team,
        ⟨hpreview, fun h => ⟨hchosen h, happly h⟩⟩, rfl⟩
  · rename_i hobject
    refine iff_of_false (fun h => by cases h) ?_
    rintro ⟨fields, _, hinput, _⟩
    exact hobject fields hinput

/-! ### A request as an input -/

def optionalField (name : String) (value : Option Text) : List (Text × Json) :=
  value.toList.map fun text => (name.toList, .str text)

def ProvisioningRequest.json (r : ProvisioningRequest) : Json :=
  .obj ([("mode".toList, .str r.mode.text), ("templateId".toList, .str r.templateId),
    ("values".toList, .obj (r.values.map fun entry => (entry.1, .str entry.2)))] ++
      optionalField "team" r.team ++ optionalField "idempotencyKey" r.idempotencyKey)

theorem lookup_map_str (values : List (Text × Text)) (key : Text) :
    (values.map fun entry => (entry.1, Json.str entry.2)).lookup key = (values.lookup key).map Json.str := by
  induction values with
  | nil => rfl
  | cons entry values ih =>
    obtain ⟨k, text⟩ := entry
    rw [List.map_cons, List.lookup_cons, List.lookup_cons]
    cases key == k with
    | true => rfl
    | false => exact ih

/-- What was accepted validates to itself. -/
theorem validate_json {d : Dependencies} {input : Option Json} {r : ProvisioningRequest}
    (h : validateProvisioningRequest d input = .ok r) : validateProvisioningRequest d (some r.json) = .ok r := by
  obtain ⟨fields, template, rfl, hdescribes, hformed⟩ := (validate_ok_iff d input r).mp h
  obtain ⟨value, hvalues, hmeets⟩ := hformed.values
  have hlookup : ∀ field ∈ template.fields, r.values.lookup field.name = value field.name := by
    intro field hfield
    rw [hvalues, lookup_valuesFor template.nodup value hfield]
  refine (validate_ok_iff d _ r).mpr ⟨_, template, rfl, ⟨.inr rfl, rfl, ⟨_, rfl, ?_, ?_⟩, ⟨r.team, ?_, fun _ => rfl, ?_⟩, ?_⟩, hformed⟩
  · intro entry hentry
    obtain ⟨given, hgiven, rfl⟩ := List.mem_map.mp hentry
    rw [hvalues] at hgiven
    obtain ⟨field, hfield, heq⟩ := List.mem_filterMap.mp hgiven
    obtain ⟨text, htext, rfl⟩ := Option.map_eq_some_iff.mp heq
    refine ⟨List.mem_map_of_mem hfield, text, ?_⟩
    rw [lookup_map_str, hlookup field hfield, htext]
    rfl
  · rw [hvalues]
    refine List.filterMap_congr fun field hfield => ?_
    have hsame : entered ((valuesFor template.fields value).map fun entry => (entry.1, .str entry.2)) field.name =
        value field.name := by
      rw [entered, lookup_map_str, lookup_valuesFor template.nodup value hfield]
      cases htext : value field.name with
      | none => rfl
      | some text => exact if_neg ((hmeets field hfield).allowed text htext).1
    rw [hsame]
  · cases r.team <;> cases r.idempotencyKey <;> rfl
  · intro happly
    obtain ⟨_, team, hteam, hblank, _⟩ := hformed.apply happly
    rw [hteam, chosenTeam, hblank]
    rfl
  · cases r.team <;> cases r.idempotencyKey <;> rfl

/-- The accepted inputs are those that describe a well-formed request of a template, and an accepted request,
    sent back as it is, is accepted as the same one. -/
theorem provisioning_accepted_iff (d : Dependencies) (r : ProvisioningRequest) :
    (∀ input, validateProvisioningRequest d input = .ok r ↔ ∃ fields template, input = some (.obj fields) ∧
      Describes d template (.obj fields) r ∧ WellFormed d template r) ∧
    ((∃ input, validateProvisioningRequest d input = .ok r) ↔ validateProvisioningRequest d (some r.json) = .ok r) := by
  refine ⟨fun input => validate_ok_iff d input r, ?_, fun h => ⟨_, h⟩⟩
  rintro ⟨input, h⟩
  exact validate_json h

end narwhal.portal.provisioning
