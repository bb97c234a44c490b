import Narwhal.Lib.JsDouble
import Narwhal.Lib.JsRecord

open jslib

namespace narwhal.portal.data_catalog

/-! ### The source -/

def KINDS : List Text :=
  ["source", "dataset", "data_product", "pipeline", "query", "model", "embedding", "vector_index", "endpoint"].map
    String.toList

def classificationValues : List Text := ["public", "internal", "confidential", "restricted", "unknown"].map String.toList

def freshnessStates : List Text := ["fresh", "stale", "unknown", "unavailable"].map String.toList

def evidenceKinds : List Text := ["provider-record", "event", "report", "artifact"].map String.toList

def SCOPE_KEYS : List Text := ["clusterId", "namespace", "teamId", "tenantId"].map String.toList

def nonEmptyString (value : Option Json) : Bool := (value.bind Json.string).any nonBlank

def isPlainObject (value : Option Json) : Bool := value.any Json.isRecord

/-- `value === null || nonEmptyString(value)` -/
def nullOrNonEmpty : Option Json → Bool
  | some .null => true
  | value => nonEmptyString value

def isValidScope (value : Option Json) : Bool :=
  isPlainObject value && SCOPE_KEYS.all fun key => nullOrNonEmpty (value.bind fun v => v.get key)

/-- `^\d{4}-\d\d-\d\dT\d\d:\d\d:\d\d(?:\.\d+)?Z$` -/
def isTimestamp (s : Text) : Bool :=
  let part := fun i n => (s.drop i).take n
  let digits := fun i n => (part i n).length = n && (part i n).all isDigit
  digits 0 4 && part 4 1 = ['-'] && digits 5 2 && part 7 1 = ['-'] && digits 8 2 && part 10 1 = ['T'] && digits 11 2 &&
    part 13 1 = [':'] && digits 14 2 && part 16 1 = [':'] && digits 17 2 &&
    match s.drop 19 with
    | ['Z'] => true
    | '.' :: rest => rest.takeWhile isDigit ≠ [] && rest.dropWhile isDigit = ['Z']
    | _ => false

/-- `test.has(String(value))`; `none` is an exception. -/
def hasText (words : List Text) (value : Option Json) : Option Bool := (textOf value).map words.contains

/-- `a && b`, where either may throw. -/
def both (a b : Option Bool) : Option Bool :=
  match a with
  | some true => b
  | a => a

/-- Checks in their order, up to the first that fails or throws. -/
def allChecks (checks : List (Option Bool)) : Option Bool := checks.foldr both (some true)

/-- `Date.parse` is `parse`, with `none` for `NaN`. -/
def validTimestamp (parse : Text → Option Int) (value : Option Json) : Bool :=
  (value.bind Json.string).any fun s => isTimestamp s && (parse s).isSome

def evidenceChecks (parse : Text → Option Int) (ref : Json) : List (Option Bool) :=
  [some ref.isRecord, some (nonEmptyString (ref.get "id".toList)), hasText evidenceKinds (ref.get "kind".toList),
    some (nonEmptyString (ref.get "provider".toList)), some (nonEmptyString (ref.get "locator".toList)),
    some (nullOrNonEmpty (ref.get "digest".toList)), some (validTimestamp parse (ref.get "observedAt".toList)),
    some (isValidScope (ref.get "scope".toList))]

/-- `Number.isFinite(value) && value >= 0` -/
def nonNegative (value : Option Json) : Bool := (finiteNumber value).any fun q => 0 ≤ q

/-- A property of a property. -/
def inner (value : Json) (key key' : Text) : Option Json := (value.get key).bind fun v => v.get key'

def evidenceRefs (value : Json) : Option (List Json) := (value.get "evidenceRefs".toList).bind Json.array

def entityChecks (parse : Text → Option Int) (value : Json) : List (Option Bool) :=
  [some value.isRecord, some (isPlainObject (value.get "identifier".toList)), some (isPlainObject (value.get "scope".toList)),
    some (isPlainObject (value.get "provenance".toList)), some (isPlainObject (value.get "classification".toList)),
    some (isPlainObject (value.get "freshness".toList)),
    some (nonEmptyString (value.get "id".toList)), hasText KINDS (value.get "kind".toList),
    some (nonEmptyString (value.get "name".toList)),
    some (nonEmptyString (inner value "identifier".toList "provider".toList)),
    some (nonEmptyString (inner value "identifier".toList "nativeId".toList)),
    some (SCOPE_KEYS.all fun key => nullOrNonEmpty (inner value "scope".toList key)),
    hasText classificationValues (inner value "classification".toList "value".toList),
    some (nonEmptyString (inner value "classification".toList "source".toList)),
    some (validTimestamp parse (inner value "classification".toList "observedAt".toList)),
    some (nullOrNonEmpty (inner value "classification".toList "version".toList)),
    some (evidenceRefs value).isSome, hasText freshnessStates (inner value "freshness".toList "state".toList),
    some (validTimestamp parse (inner value "freshness".toList "observedAt".toList)),
    some (nonNegative (inner value "freshness".toList "staleAfterSeconds".toList)),
    allChecks (((evidenceRefs value).getD []).map fun ref => allChecks (evidenceChecks parse ref)),
    some (nonEmptyString (inner value "provenance".toList "source".toList)),
    some (validTimestamp parse (inner value "provenance".toList "observedAt".toList)),
    some (match inner value "provenance".toList "evidenceLink".toList with
      | none => true
      | link => nonEmptyString link)]

/-- `none` is an exception. -/
def validateEntity (parse : Text → Option Int) (value : Json) : Option Bool := allChecks (entityChecks parse value)

inductive InvalidReason
  | invalid_entity | duplicate_id

inductive DataCatalogValidation
  | valid (entities : List Json)
  | invalid (reason : InvalidReason)

def idOf (item : Json) : Text := (item.getString "id".toList).getD []

/-- The loop over the records, with the ids and the records so far. -/
def validateLoop (parse : Text → Option Int) (ids : List Text) (entities : List Json) : List Json → DataCatalogValidation
  | [] => .valid entities
  | item :: rest =>
    match validateEntity parse item with
    | some true =>
      if ids.contains (idOf item) then .invalid .duplicate_id
      else validateLoop parse (ids ++ [idOf item]) (entities ++ [item]) rest
    | _ => .invalid .invalid_entity

def validateDataCatalogEntities (parse : Text → Option Int) (input : Json) : DataCatalogValidation :=
  match input.array with
  | some items => validateLoop parse [] [] items
  | none => .invalid .invalid_entity

/-! ### Checks in a row -/

theorem both_eq_true_iff {a b : Option Bool} : both a b = some true ↔ a = some true ∧ b = some true := by
  rcases a with _ | _ | _ <;> simp [both]

theorem allChecks_eq_true_iff {checks : List (Option Bool)} :
    allChecks checks = some true ↔ ∀ check ∈ checks, check = some true := by
  induction checks with
  | nil => simp [allChecks]
  | cons check checks ih =>
    rw [List.forall_mem_cons, ← ih]
    exact both_eq_true_iff

/-- Checks throw only where one of them does. -/
theorem exists_none_of_allChecks {checks : List (Option Bool)} (h : allChecks checks = none) : none ∈ checks := by
  induction checks with
  | nil => cases h
  | cons check checks ih =>
    have hboth : both check (allChecks checks) = none := h
    rcases check with _ | _ | _
    · exact List.mem_cons_self
    · cases hboth
    · exact List.mem_cons_of_mem _ (ih hboth)

/-! ### The type of a record -/

def IsText (value : Option Json) : Prop := ∃ s, value = some (.str s)

def TextOrNull (value : Option Json) : Prop := value = some .null ∨ IsText value

def EnumOf (words : List Text) (value : Option Json) : Prop := ∃ word ∈ words, value = some (.str word)

/-- The number of some characters of a text. -/
def field (s : Text) (i n : Nat) : Nat := number ((s.drop i).take n)

/-- The elements of a timestamp are within their bounds; the end of a day is its hour 24. -/
def inRange (s : Text) : Bool :=
  1 ≤ field s 5 2 && field s 5 2 ≤ 12 && 1 ≤ field s 8 2 && field s 8 2 ≤ 31 &&
    (field s 11 2 ≤ 23 ||
      (field s 11 2 = 24 && field s 14 2 = 0 && field s 17 2 = 0 && (s.drop 19).all fun c => c = '.' || c = '0' || c = 'Z')) &&
    field s 14 2 ≤ 59 && field s 17 2 ≤ 59

/-- The month of a timestamp has its day. -/
def dayExists (s : Text) : Bool := field s 8 2 ≤ daysOfMonth (field s 0 4) (field s 5 2)

/-- A UTC instant of the calendar. -/
def IsInstant (value : Option Json) : Prop :=
  ∃ s, value = some (.str s) ∧ isTimestamp s = true ∧ inRange s = true ∧ dayExists s = true

structure ScopeType (scope : Option Json) : Prop where
  record : isPlainObject scope = true
  parts : ∀ key ∈ SCOPE_KEYS, TextOrNull (scope.bind fun v => v.get key)

structure EvidenceType (ref : Json) : Prop where
  id : IsText (ref.get "id".toList)
  kind : EnumOf evidenceKinds (ref.get "kind".toList)
  provider : IsText (ref.get "provider".toList)
  locator : IsText (ref.get "locator".toList)
  digest : TextOrNull (ref.get "digest".toList)
  observedAt : IsInstant (ref.get "observedAt".toList)
  scope : ScopeType (ref.get "scope".toList)

/-- The type `DataCatalogEntity`. -/
structure EntityType (value : Json) : Prop where
  id : IsText (value.get "id".toList)
  kind : EnumOf KINDS (value.get "kind".toList)
  name : IsText (value.get "name".toList)
  provider : IsText (inner value "identifier".toList "provider".toList)
  nativeId : IsText (inner value "identifier".toList "nativeId".toList)
  scope : ScopeType (value.get "scope".toList)
  source : IsText (inner value "provenance".toList "source".toList)
  observedAt : IsInstant (inner value "provenance".toList "observedAt".toList)
  evidenceLink : inner value "provenance".toList "evidenceLink".toList = none ∨
    IsText (inner value "provenance".toList "evidenceLink".toList)
  classification : EnumOf classificationValues (inner value "classification".toList "value".toList)
  classifiedBy : IsText (inner value "classification".toList "source".toList)
  classifiedAt : IsInstant (inner value "classification".toList "observedAt".toList)
  version : TextOrNull (inner value "classification".toList "version".toList)
  evidenceRefs : ∃ refs, value.get "evidenceRefs".toList = some (.arr refs) ∧ ∀ ref ∈ refs, EvidenceType ref
  freshness : EnumOf freshnessStates (inner value "freshness".toList "state".toList)
  freshAt : IsInstant (inner value "freshness".toList "observedAt".toList)
  staleAfterSeconds : ∃ n, inner value "freshness".toList "staleAfterSeconds".toList = some (.num n)

/-! ### What the checks leave open -/

/-- The fields that `String()` is applied to. -/
def enumFields (value : Json) : List (Option Json) :=
  [value.get "kind".toList, inner value "classification".toList "value".toList, inner value "freshness".toList "state".toList] ++
    ((evidenceRefs value).getD []).map fun ref => ref.get "kind".toList

def timestamps (value : Json) : List (Option Json) :=
  [inner value "provenance".toList "observedAt".toList, inner value "classification".toList "observedAt".toList,
    inner value "freshness".toList "observedAt".toList] ++
    ((evidenceRefs value).getD []).map fun ref => ref.get "observedAt".toList

/-- No enumeration field is an array, and no timestamp names a day that its month does not have. -/
structure Plain (value : Json) : Prop where
  enums : ∀ v ∈ enumFields value, v.bind Json.array = none
  days : ∀ v ∈ timestamps value, ∀ s, v = some (.str s) → dayExists s = true

/-- `Date.parse` gives `NaN` for elements that are out of bounds. -/
def RejectsIllegal (parse : Text → Option Int) : Prop :=
  ∀ s, isTimestamp s = true → (parse s).isSome = true → inRange s = true

section

variable {parse : Text → Option Int} {value : Option Json}

theorem isText_of_nonEmptyString (h : nonEmptyString value = true) : IsText value := by
  obtain ⟨s, hs, -⟩ := string_any_eq_true_iff.mp h
  exact ⟨s, hs⟩

theorem textOrNull_of_nullOrNonEmpty (h : nullOrNonEmpty value = true) : TextOrNull value := by
  unfold nullOrNonEmpty at h
  split at h
  · exact .inl rfl
  · exact .inr (isText_of_nonEmptyString h)

/-- What is converted to a word of an enumeration is of the enumeration unless it is an array. -/
theorem enumOf_iff {words : List Text} (hwords : plainWords words = true) (h : hasText words value = some true) :
    EnumOf words value ↔ value.bind Json.array = none := by
  obtain ⟨word, hword, hmem⟩ := Option.map_eq_some_iff.mp h
  rw [List.contains_iff_mem] at hmem
  constructor
  · rintro ⟨other, -, rfl⟩
    rfl
  · intro harray
    rcases eq_or_array_of_textOf hwords hmem hword with rfl | ⟨items, rfl⟩
    · exact ⟨word, hmem, rfl⟩
    · cases harray

theorem isInstant_iff (hparse : RejectsIllegal parse) (h : validTimestamp parse value = true) :
    IsInstant value ↔ ∀ s, value = some (.str s) → dayExists s = true := by
  obtain ⟨s, rfl, hs⟩ := string_any_eq_true_iff.mp h
  rw [Bool.and_eq_true] at hs
  constructor
  · rintro ⟨other, hother, -, -, hday⟩ t ht
    obtain rfl := Json.str.inj (Option.some.inj (hother.symm.trans ht))
    exact hday
  · intro hday
    exact ⟨s, rfl, hs.1, hparse s hs.1 hs.2, hday s rfl⟩

theorem scopeType_of_isValidScope (h : isValidScope value = true) : ScopeType value := by
  rw [isValidScope, Bool.and_eq_true, List.all_eq_true] at h
  exact ⟨h.1, fun key hkey => textOrNull_of_nullOrNonEmpty (h.2 key hkey)⟩

theorem plainWords_enums : plainWords KINDS = true ∧ plainWords classificationValues = true ∧
    plainWords freshnessStates = true ∧ plainWords evidenceKinds = true := by
  decide

end

section

variable {parse : Text → Option Int} {value : Json}

/-- What the checks of an evidence reference make sure of. -/
theorem evidenceType_iff (hparse : RejectsIllegal parse) {ref : Json} (h : allChecks (evidenceChecks parse ref) = some true) :
    EvidenceType ref ↔ (ref.get "kind".toList).bind Json.array = none ∧
      ∀ s, ref.get "observedAt".toList = some (.str s) → dayExists s = true := by
  have hchecks := allChecks_eq_true_iff.mp h
  simp only [evidenceChecks, List.forall_mem_cons, Option.some.injEq] at hchecks
  obtain ⟨-, hid, hkind, hprovider, hlocator, hdigest, hobserved, hscope, -⟩ := hchecks
  rw [← enumOf_iff plainWords_enums.2.2.2 hkind, ← isInstant_iff hparse hobserved]
  constructor
  · intro htype
    exact ⟨htype.kind, htype.observedAt⟩
  · rintro ⟨hkind, hobserved⟩
    exact ⟨isText_of_nonEmptyString hid, hkind, isText_of_nonEmptyString hprovider, isText_of_nonEmptyString hlocator,
      textOrNull_of_nullOrNonEmpty hdigest, hobserved, scopeType_of_isValidScope hscope⟩

theorem plain_iff : Plain value ↔
    ((value.get "kind".toList).bind Json.array = none ∧
      (inner value "classification".toList "value".toList).bind Json.array = none ∧
      (inner value "freshness".toList "state".toList).bind Json.array = none ∧
      ∀ ref ∈ (evidenceRefs value).getD [], (ref.get "kind".toList).bind Json.array = none) ∧
    (∀ s, inner value "provenance".toList "observedAt".toList = some (.str s) → dayExists s = true) ∧
      (∀ s, inner value "classification".toList "observedAt".toList = some (.str s) → dayExists s = true) ∧
      (∀ s, inner value "freshness".toList "observedAt".toList = some (.str s) → dayExists s = true) ∧
      ∀ ref ∈ (evidenceRefs value).getD [], ∀ s, ref.get "observedAt".toList = some (.str s) → dayExists s = true := by
  constructor
  · rintro ⟨henums, hdays⟩
    simp only [enumFields, timestamps, List.forall_mem_append, List.forall_mem_cons, List.forall_mem_map] at henums hdays
    exact ⟨⟨henums.1.1, henums.1.2.1, henums.1.2.2.1, henums.2⟩, hdays.1.1, hdays.1.2.1, hdays.1.2.2.1, hdays.2⟩
  · rintro ⟨⟨h1, h2, h3, h4⟩, h5, h6, h7, h8⟩
    constructor
    · simp only [enumFields, List.forall_mem_append, List.forall_mem_cons, List.forall_mem_map]
      exact ⟨⟨h1, h2, h3, by simp⟩, h4⟩
    · simp only [timestamps, List.forall_mem_append, List.forall_mem_cons, List.forall_mem_map]
      exact ⟨⟨h5, h6, h7, by simp⟩, h8⟩

theorem evidenceLink_type {link : Option Json}
    (h : (match link with
      | none => true
      | link => nonEmptyString link) = true) : link = none ∨ IsText link := by
  cases link with
  | none => exact .inl rfl
  | some link => exact .inr (isText_of_nonEmptyString h)

/-- What is accepted has its type if nothing in it is left open. -/
theorem entityType_iff (hparse : RejectsIllegal parse) (h : validateEntity parse value = some true) :
    EntityType value ↔ Plain value := by
  have hchecks := allChecks_eq_true_iff.mp h
  simp only [entityChecks, List.forall_mem_cons, Option.some.injEq] at hchecks
  obtain ⟨-, -, hscopeRecord, -, -, -, hid, hkind, hname, hprovider, hnativeId, hscope, hvalue, hsource, hclassifiedAt,
    hversion, hrefs, hstate, hfreshAt, hstale, hevidence, hprovenance, hobservedAt, hlink, -⟩ := hchecks
  obtain ⟨refs, hrefs⟩ := Option.isSome_iff_exists.mp hrefs
  obtain ⟨array, hget, harray⟩ := Option.bind_eq_some_iff.mp hrefs
  obtain rfl := Json.array_eq_some harray
  rw [hrefs, Option.getD_some, allChecks_eq_true_iff, List.forall_mem_map] at hevidence
  rw [plain_iff, hrefs, Option.getD_some, ← enumOf_iff plainWords_enums.1 hkind, ← enumOf_iff plainWords_enums.2.1 hvalue,
    ← enumOf_iff plainWords_enums.2.2.1 hstate, ← isInstant_iff hparse hobservedAt, ← isInstant_iff hparse hclassifiedAt,
    ← isInstant_iff hparse hfreshAt]
  constructor
  · intro htype
    obtain ⟨refs', hget', htypes⟩ := htype.evidenceRefs
    obtain rfl := Json.arr.inj (Option.some.inj (hget'.symm.trans hget))
    exact ⟨⟨htype.kind, htype.classification, htype.freshness,
        fun ref href => ((evidenceType_iff hparse (hevidence ref href)).mp (htypes ref href)).1⟩,
      htype.observedAt, htype.classifiedAt, htype.freshAt,
      fun ref href => ((evidenceType_iff hparse (hevidence ref href)).mp (htypes ref href)).2⟩
  · rintro ⟨⟨hkind, hvalue, hstate, hkinds⟩, hobservedAt, hclassifiedAt, hfreshAt, hdays⟩
    have hnumber : ∃ n, inner value "freshness".toList "staleAfterSeconds".toList = some (.num n) := by
      unfold nonNegative finiteNumber at hstale
      split at hstale
      · next n hn => exact ⟨n, hn⟩
      · cases hstale
    exact {
      id := isText_of_nonEmptyString hid
      kind := hkind
      name := isText_of_nonEmptyString hname
      provider := isText_of_nonEmptyString hprovider
      nativeId := isText_of_nonEmptyString hnativeId
      scope := ⟨hscopeRecord, fun key hkey => textOrNull_of_nullOrNonEmpty (List.all_eq_true.mp hscope key hkey)⟩
      source := isText_of_nonEmptyString hprovenance
      observedAt := hobservedAt
      evidenceLink := evidenceLink_type hlink
      classification := hvalue
      classifiedBy := isText_of_nonEmptyString hsource
      classifiedAt := hclassifiedAt
      version := textOrNull_of_nullOrNonEmpty hversion
      evidenceRefs := ⟨refs, hget, fun ref href =>
        (evidenceType_iff hparse (hevidence ref href)).mpr ⟨hkinds ref href, hdays ref href⟩⟩
      freshness := hstate
      freshAt := hfreshAt
      staleAfterSeconds := hnumber }

/-- A list that is answered valid is returned as it is, with ids that are accepted and distinct. -/
theorem validateLoop_eq_valid {ids : List Text} {before items entities : List Json}
    (h : validateLoop parse ids before items = .valid entities) :
    entities = before ++ items ∧ (∀ item ∈ items, validateEntity parse item = some true) ∧
      (ids.Nodup → (ids ++ items.map idOf).Nodup) := by
  induction items generalizing ids before with
  | nil =>
    obtain rfl := DataCatalogValidation.valid.inj h
    simp
  | cons item rest ih =>
    unfold validateLoop at h
    split at h
    · next haccepted =>
      split_ifs at h with hseen
      obtain ⟨hentities, hall, hnodup⟩ := ih h
      refine ⟨by simpa using hentities, List.forall_mem_cons.mpr ⟨haccepted, hall⟩, fun hids => ?_⟩
      have hfresh : (ids ++ [idOf item]).Nodup := by
        rw [List.contains_iff_mem] at hseen
        exact List.nodup_append.mpr ⟨hids, List.nodup_singleton _, fun id hid id' hid' heq => by
          obtain rfl := List.mem_singleton.mp hid'
          exact hseen (heq ▸ hid)⟩
      simpa using hnodup hfresh
    · cases h

/-- A list that is answered valid has distinct ids, and its records have their type where no
enumeration field is an array and every day exists. -/
theorem accepted_well_typed_iff (parse : Text → Option Int) (hparse : RejectsIllegal parse) :
    (∀ input entities, validateDataCatalogEntities parse input = .valid entities →
      (((entities.map idOf).Nodup ∧ ∀ entity ∈ entities, EntityType entity) ↔
        ∀ record ∈ input.array.getD [], Plain record)) ∧
      ∀ value, validateEntity parse value = some true → (EntityType value ↔ Plain value) := by
  refine ⟨fun input entities h => ?_, fun value h => entityType_iff hparse h⟩
  unfold validateDataCatalogEntities at h
  cases harray : input.array with
  | none =>
    rw [harray] at h
    cases h
  | some items =>
    rw [harray] at h
    obtain ⟨rfl, haccepted, hnodup⟩ := validateLoop_eq_valid h
    rw [Option.getD_some]
    constructor
    · rintro ⟨-, htypes⟩ record hrecord
      exact (entityType_iff hparse (haccepted record hrecord)).mp (htypes record hrecord)
    · intro hplain
      refine ⟨by simpa using hnodup .nil, fun entity hentity => ?_⟩
      exact (entityType_iff hparse (haccepted entity hentity)).mpr (hplain entity hentity)

end

/-- `Date.parse` of a timestamp, where a day that the month does not have is one of the next month. -/
def utcParse (s : Text) : Option Int :=
  if isTimestamp s = true ∧ inRange s = true then
    let fraction := ((s.drop 20).takeWhile isDigit ++ ['0', '0', '0']).take 3
    some ((daysOfCivil ⟨field s 0 4, field s 5 2, 1⟩ + field s 8 2 - 1) * 86400000 +
      (field s 11 2 * 3600000 + field s 14 2 * 60000 + field s 17 2 * 1000 + number fraction : Nat))
  else none

theorem utcParse_rejectsIllegal : RejectsIllegal utcParse := by
  intro s _ hsome
  unfold utcParse at hsome
  split_ifs at hsome with h
  · exact h.2
  · cases hsome

/-- A catalog record with this id and kind. -/
def sampleRecord (id : Text) (kind : Json) : Json :=
  .obj [("id".toList, .str id), ("kind".toList, kind), ("name".toList, .str "Orders".toList),
    ("identifier".toList, .obj [("provider".toList, .str "iceberg".toList), ("nativeId".toList, .str "orders".toList)]),
    ("scope".toList, .obj [("clusterId".toList, .str "c1".toList), ("namespace".toList, .str "analytics".toList),
      ("teamId".toList, .str "data".toList), ("tenantId".toList, .null)]),
    ("provenance".toList, .obj [("source".toList, .str "provider".toList),
      ("observedAt".toList, .str "2026-09-30T10:00:00Z".toList)]),
    ("classification".toList, .obj [("value".toList, .str "unknown".toList), ("source".toList, .str "provider".toList),
      ("observedAt".toList, .str "2026-09-30T10:00:00Z".toList), ("version".toList, .null)]),
    ("evidenceRefs".toList, .arr []),
    ("freshness".toList, .obj [("state".toList, .str "fresh".toList), ("observedAt".toList, .str "2026-09-30T10:00:00Z".toList),
      ("staleAfterSeconds".toList, .num ⟨['0'], by decide, List.all_eq_true.mp (by decide)⟩)])]

theorem validate_single {parse : Text → Option Int} {item : Json} (h : validateEntity parse item = some true) :
    validateDataCatalogEntities parse (.arr [item]) = .valid [item] := by
  simp only [validateDataCatalogEntities, Json.array, validateLoop, h]
  rfl

def ordersRecord : Json := sampleRecord "orders".toList (.str "dataset".toList)

theorem ordersRecord_accepted : validateEntity utcParse ordersRecord = some true := by decide +kernel

/-- A record with these references instead of none. -/
def withEvidence (refs : List Json) : Json → Json
  | .obj fields => .obj (fields.map fun field => if field.1 = "evidenceRefs".toList then (field.1, .arr refs) else field)
  | value => value

def queryEvidence : Json :=
  .obj [("id".toList, .str "q1".toList), ("kind".toList, .str "event".toList), ("provider".toList, .str "trino".toList),
    ("locator".toList, .str "queries/1".toList), ("digest".toList, .null),
    ("observedAt".toList, .str "2026-09-30T10:00:00Z".toList),
    ("scope".toList, .obj [("clusterId".toList, .str "c1".toList), ("namespace".toList, .str "analytics".toList),
      ("teamId".toList, .str "data".toList), ("tenantId".toList, .null)])]

/-- A record with one reference. -/
def tracedRecord : Json := withEvidence [queryEvidence] (sampleRecord "shipments".toList (.str "dataset".toList))

theorem traced_accepted :
    validateDataCatalogEntities utcParse (.arr [ordersRecord, tracedRecord]) = .valid [ordersRecord, tracedRecord] := by
  have htraced : validateEntity utcParse tracedRecord = some true := by decide +kernel
  simp only [validateDataCatalogEntities, Json.array, validateLoop, ordersRecord_accepted, htraced]
  rfl

theorem accepted_well_typed_traced :
    ([ordersRecord, tracedRecord].map idOf).Nodup ∧ ∀ entity ∈ [ordersRecord, tracedRecord], EntityType entity := by
  have hday : ∀ s, some (Json.str "2026-09-30T10:00:00Z".toList) = some (.str s) → dayExists s = true := by
    rintro s hs
    obtain rfl := Json.str.inj (Option.some.inj hs)
    decide
  refine ((accepted_well_typed_iff utcParse utcParse_rejectsIllegal).1 _ _ traced_accepted).mpr ?_
  have horders : Plain ordersRecord :=
    plain_iff.mpr ⟨⟨rfl, rfl, rfl, fun ref href => by cases href⟩, hday, hday, hday, fun ref href => by cases href⟩
  have hrefs : (evidenceRefs tracedRecord).getD [] = [queryEvidence] := rfl
  have htraced : Plain tracedRecord := by
    refine plain_iff.mpr ⟨⟨rfl, rfl, rfl, ?_⟩, hday, hday, hday, ?_⟩
    · rw [hrefs, List.forall_mem_singleton]
      rfl
    · rw [hrefs, List.forall_mem_singleton]
      exact hday
  exact List.forall_mem_cons.mpr ⟨horders, List.forall_mem_singleton.mpr htraced⟩

def arrayKindRecord : Json := sampleRecord "orders".toList (.arr [.str "source".toList])

/-- An array that is converted to the name of a kind is accepted as a kind. -/
theorem array_kind_accepted :
    validateDataCatalogEntities utcParse (.arr [arrayKindRecord]) = .valid [arrayKindRecord] ∧
      ¬ EntityType arrayKindRecord := by
  refine ⟨validate_single (by decide +kernel), fun h => ?_⟩
  obtain ⟨word, -, hword⟩ := h.kind
  cases hword

end narwhal.portal.data_catalog
