import Mathlib.Data.List.Count
import Narwhal.Portal.DataCatalog

open jslib

namespace narwhal.portal.data_catalog

/-! ### The source -/

/-- `a.localeCompare(b) <= 0`, a total preorder of texts. -/
structure Locale where
  le : Text → Text → Bool
  total : ∀ a b, le a b || le b a
  trans : ∀ a b c, le a b → le b c → le a c

def scopeParts (scope : Option Json) : List Json := SCOPE_KEYS.map fun key => (scope.bind fun v => v.get key).getD .null

def scopeKey (scope : Option Json) : Text := stringify (.arr (scopeParts scope))

def visibleScopes (allowedScopes : List Json) : List Text :=
  (allowedScopes.filter fun scope => isValidScope (some scope)).map fun scope => scopeKey (some scope)

def isVisible (allowedScopes : List Json) (item : Json) : Bool :=
  item.isRecord && isValidScope (item.get "scope".toList) &&
    (visibleScopes allowedScopes).contains (scopeKey (item.get "scope".toList))

/-- How many of these items have this id. -/
def idCount (visibleItems : List Json) (id : Text) : Nat :=
  visibleItems.countP fun item => nonEmptyString (item.get "id".toList) && idOf item = id

/-- An id that is well formed and not used twice. -/
def hasUniqueId (visibleItems : List Json) (item : Json) : Bool :=
  nonEmptyString (item.get "id".toList) && idCount visibleItems (idOf item) = 1

/-- The records that are kept; `none` is an exception of `validateEntity`, which nothing catches. -/
def keepAccepted (parse : Text → Option Int) (visibleItems : List Json) : List Json → Option (List Json)
  | [] => some []
  | item :: rest =>
    if hasUniqueId visibleItems item = false then keepAccepted parse visibleItems rest
    else
      match validateEntity parse item with
      | none => none
      | some true => (keepAccepted parse visibleItems rest).map fun kept => item :: kept
      | some false => keepAccepted parse visibleItems rest

def exportDataCatalog (parse : Text → Option Int) (locale : Locale) (input allowedScopes : Json) : Option (List Json) :=
  match input.array, allowedScopes.array with
  | some items, some allowedScopes =>
    let visibleItems := items.filter (isVisible allowedScopes)
    (keepAccepted parse visibleItems visibleItems).map fun visible =>
      visible.mergeSort fun a b => locale.le (idOf a) (idOf b)
  | _, _ => some []

/-! ### Visible records -/

section

variable {allowedScopes : List Json} {item : Json}

/-- The scope of a record is one of the allowed ones in all four parts. -/
def Visible (allowedScopes : List Json) (item : Json) : Prop :=
  ∃ scope ∈ allowedScopes, isValidScope (some scope) = true ∧
    ∀ key ∈ SCOPE_KEYS, inner item "scope".toList key = scope.get key

theorem isRecord_of_get {v w : Json} {key : Text} (h : v.get key = some w) : v.isRecord = true := by
  cases v with
  | obj fields => rfl
  | _ => cases h

theorem part_isSome {scope : Option Json} (h : isValidScope scope = true) (key : Text) (hkey : key ∈ SCOPE_KEYS) :
    ∃ part, (scope.bind fun v => v.get key) = some part := by
  rw [isValidScope, Bool.and_eq_true, List.all_eq_true] at h
  have hpart := h.2 key hkey
  cases hget : scope.bind fun v => v.get key with
  | none =>
    rw [hget] at hpart
    cases hpart
  | some part => exact ⟨part, rfl⟩

/-- Two scopes have one key only if they agree in all parts. -/
theorem scopeKey_eq_iff {scope scope' : Option Json} (h : isValidScope scope = true) (h' : isValidScope scope' = true) :
    scopeKey scope = scopeKey scope' ↔
      ∀ key ∈ SCOPE_KEYS, (scope.bind fun v => v.get key) = scope'.bind fun v => v.get key := by
  constructor
  · intro heq key hkey
    have hparts := List.map_inj_left.mp (Json.arr.inj (stringify_inj heq)) key hkey
    obtain ⟨part, hpart⟩ := part_isSome h key hkey
    obtain ⟨part', hpart'⟩ := part_isSome h' key hkey
    rw [hpart, hpart', Option.getD_some, Option.getD_some] at hparts
    rw [hpart, hpart', hparts]
  · intro hall
    have hparts : scopeParts scope = scopeParts scope' := List.map_congr_left fun key hkey => by rw [hall key hkey]
    rw [scopeKey, scopeKey, hparts]

theorem isVisible_iff : isVisible allowedScopes item = true ↔ Visible allowedScopes item := by
  unfold isVisible visibleScopes Visible
  rw [Bool.and_eq_true, Bool.and_eq_true, List.contains_iff_mem, List.mem_map]
  constructor
  · rintro ⟨⟨-, hscope⟩, scope, hmem, hkey⟩
    obtain ⟨hallowed, hvalid⟩ := List.mem_filter.mp hmem
    exact ⟨scope, hallowed, hvalid, fun key hmem => ((scopeKey_eq_iff hvalid hscope).mp hkey key hmem).symm⟩
  · rintro ⟨scope, hallowed, hvalid, hparts⟩
    obtain ⟨part, hpart⟩ := part_isSome hvalid "clusterId".toList (by decide)
    obtain ⟨value, hvalue, hget⟩ := Option.bind_eq_some_iff.mp ((hparts _ (by decide)).trans hpart)
    have hscope : isValidScope (item.get "scope".toList) = true := by
      rw [isValidScope, Bool.and_eq_true, List.all_eq_true] at hvalid ⊢
      refine ⟨?_, fun key hmem => ?_⟩
      · rw [hvalue]
        exact isRecord_of_get hget
      · have hpart := hparts key hmem
        unfold inner at hpart
        rw [hpart]
        exact hvalid.2 key hmem
    refine ⟨⟨isRecord_of_get hvalue, hscope⟩, scope, List.mem_filter.mpr ⟨hallowed, hvalid⟩, ?_⟩
    · exact (scopeKey_eq_iff hvalid hscope).mpr fun key hmem => (hparts key hmem).symm

end

/-! ### What is kept -/

section

variable {parse : Text → Option Int} {visibleItems items items' out : List Json}

/-- A record is exported if its id is unique and it is accepted. -/
def isKept (parse : Text → Option Int) (visibleItems : List Json) (item : Json) : Bool :=
  hasUniqueId visibleItems item && validateEntity parse item = some true

theorem keepAccepted_eq_some_iff : keepAccepted parse visibleItems items = some out ↔
    (∀ item ∈ items, hasUniqueId visibleItems item = true → validateEntity parse item ≠ none) ∧
      out = items.filter (isKept parse visibleItems) := by
  induction items generalizing out with
  | nil =>
    constructor
    · intro h
      obtain rfl := Option.some.inj h
      exact ⟨by simp, rfl⟩
    · rintro ⟨-, rfl⟩
      rfl
  | cons item items ih =>
    rw [List.forall_mem_cons]
    unfold keepAccepted
    by_cases hunique : hasUniqueId visibleItems item = false
    · have hkept : ¬ isKept parse visibleItems item = true := by simp [isKept, hunique]
      rw [if_pos hunique, ih, List.filter_cons_of_neg hkept]
      simp [hunique]
    · rw [if_neg hunique]
      rw [Bool.not_eq_false] at hunique
      cases hvalid : validateEntity parse item with
      | none => simp [hunique]
      | some ok =>
        cases ok with
        | true =>
          have hkept : isKept parse visibleItems item = true := by simp [isKept, hunique, hvalid]
          rw [List.filter_cons_of_pos hkept]
          simp only [Option.map_eq_some_iff, ih]
          constructor
          · rintro ⟨kept, ⟨hall, rfl⟩, rfl⟩
            exact ⟨⟨fun _ => Option.some_ne_none _, hall⟩, rfl⟩
          · rintro ⟨⟨-, hall⟩, rfl⟩
            exact ⟨_, ⟨hall, rfl⟩, rfl⟩
        | false =>
          have hkept : ¬ isKept parse visibleItems item = true := by simp [isKept, hvalid]
          rw [ih, List.filter_cons_of_neg hkept]
          simp

/-- The ids of the records that are kept are distinct. -/
theorem nodup_ids_kept : ((visibleItems.filter (isKept parse visibleItems)).map idOf).Nodup := by
  rw [List.nodup_iff_count_le_one]
  intro id
  by_cases hid : id ∈ (visibleItems.filter (isKept parse visibleItems)).map idOf
  · obtain ⟨item, hmem, rfl⟩ := List.mem_map.mp hid
    have hkept := (List.mem_filter.mp hmem).2
    rw [isKept, hasUniqueId, Bool.and_eq_true, Bool.and_eq_true, decide_eq_true_eq] at hkept
    rw [← hkept.1.2, idCount, List.count, List.countP_map, List.countP_filter]
    refine List.countP_mono_left fun other _ hother => ?_
    simp only [Function.comp_apply, Bool.and_eq_true, beq_iff_eq, isKept, hasUniqueId] at hother
    exact Bool.and_eq_true_iff.mpr ⟨hother.2.1.1, decide_eq_true hother.1⟩
  · rw [List.count_eq_zero_of_not_mem hid]
    exact Nat.zero_le 1

theorem idCount_perm (h : items.Perm items') (id : Text) : idCount items' id = idCount items id :=
  (h.countP_eq _).symm

theorem hasUniqueId_perm (h : items.Perm items') (item : Json) : hasUniqueId items' item = hasUniqueId items item := by
  unfold hasUniqueId
  rw [idCount_perm h]

theorem isKept_perm (h : items.Perm items') : isKept parse items' = isKept parse items := by
  funext item
  rw [isKept, isKept, hasUniqueId_perm h]

end

/-! ### The export -/

section

variable (parse : Text → Option Int) (locale : Locale) (allowedScopes items : List Json)

/-- What is exported of a list: the visible records that are accepted and whose id no other
visible record has, whatever else is in the list and in whatever order. -/
structure Exports (out : List Json) : Prop where
  exported : exportDataCatalog parse locale (.arr items) (.arr allowedScopes) = some out
  mem_iff : ∀ item, item ∈ out ↔ item ∈ items ∧ Visible allowedScopes item ∧
    hasUniqueId (items.filter (isVisible allowedScopes)) item = true ∧ validateEntity parse item = some true
  once : (out.map idOf).Nodup
  hidden : ∀ items', items'.filter (isVisible allowedScopes) = items.filter (isVisible allowedScopes) →
    exportDataCatalog parse locale (.arr items') (.arr allowedScopes) = some out
  order : ∀ items', items.Perm items' →
    ∃ out', exportDataCatalog parse locale (.arr items') (.arr allowedScopes) = some out' ∧ out.Perm out'

/-- On no visible record with a unique id an exception comes out of `validateEntity`. -/
def NoneThrows : Prop :=
  ∀ item ∈ items, Visible allowedScopes item → hasUniqueId (items.filter (isVisible allowedScopes)) item = true →
    validateEntity parse item ≠ none

end

section

variable {parse : Text → Option Int} {locale : Locale} {allowedScopes items items' out : List Json}

theorem export_eq_some_iff : exportDataCatalog parse locale (.arr items) (.arr allowedScopes) = some out ↔
    NoneThrows parse allowedScopes items ∧
      out = ((items.filter (isVisible allowedScopes)).filter
        (isKept parse (items.filter (isVisible allowedScopes)))).mergeSort fun a b => locale.le (idOf a) (idOf b) := by
  simp only [exportDataCatalog, Json.array, Option.map_eq_some_iff, keepAccepted_eq_some_iff, NoneThrows, ← isVisible_iff]
  constructor
  · rintro ⟨kept, ⟨hall, rfl⟩, rfl⟩
    exact ⟨fun item hmem hvisible => hall item (List.mem_filter.mpr ⟨hmem, hvisible⟩), rfl⟩
  · rintro ⟨hall, rfl⟩
    exact ⟨_, ⟨fun item hmem => hall item (List.mem_filter.mp hmem).1 (List.mem_filter.mp hmem).2, rfl⟩, rfl⟩

/-- Hidden records play no part, also where an exception is thrown. -/
theorem export_congr (h : items'.filter (isVisible allowedScopes) = items.filter (isVisible allowedScopes)) :
    exportDataCatalog parse locale (.arr items') (.arr allowedScopes) =
      exportDataCatalog parse locale (.arr items) (.arr allowedScopes) := by
  simp only [exportDataCatalog, Json.array, h]

theorem NoneThrows.perm (h : NoneThrows parse allowedScopes items) (hperm : items.Perm items') :
    NoneThrows parse allowedScopes items' := by
  intro item hmem hvisible hunique
  rw [hasUniqueId_perm (hperm.filter _)] at hunique
  exact h item (hperm.mem_iff.mpr hmem) hvisible hunique

/-- A list is exported as it should be exactly where no visible record makes `validateEntity` throw. -/
theorem export_noninterfering_iff (parse : Text → Option Int) (locale : Locale) (allowedScopes items : List Json) :
    (∃ out, Exports parse locale allowedScopes items out) ↔ NoneThrows parse allowedScopes items := by
  constructor
  · rintro ⟨out, h⟩
    exact (export_eq_some_iff.mp h.exported).1
  · intro hnone
    refine ⟨_, export_eq_some_iff.mpr ⟨hnone, rfl⟩, fun item => ?_, ?_, fun items' hsame => ?_, fun items' hperm => ?_⟩
    · rw [List.mem_mergeSort, List.mem_filter, List.mem_filter, isKept, Bool.and_eq_true, decide_eq_true_eq, isVisible_iff,
        and_assoc]
    · exact ((List.mergeSort_perm _ _).map idOf).nodup_iff.mpr nodup_ids_kept
    · rw [export_congr hsame]
      exact export_eq_some_iff.mpr ⟨hnone, rfl⟩
    · refine ⟨_, export_eq_some_iff.mpr ⟨hnone.perm hperm, rfl⟩, ?_⟩
      have hvisible := hperm.filter (isVisible allowedScopes)
      rw [isKept_perm hvisible]
      exact (List.mergeSort_perm _ _).trans ((hvisible.filter _).trans (List.mergeSort_perm _ _).symm)

end

/-! ### Exceptions -/

theorem textOf_of_hasText {words : List Text} {value : Option Json} (h : hasText words value = none) : textOf value = none :=
  Option.map_eq_none_iff.mp h

/-- A record makes `validateEntity` throw only by a field that `String()` cannot convert. -/
theorem exists_unprintable_of_throws {parse : Text → Option Int} {value : Json} (h : validateEntity parse value = none) :
    ∃ v ∈ enumFields value, textOf v = none := by
  have hmem := exists_none_of_allChecks h
  simp only [entityChecks, List.mem_cons, List.not_mem_nil, or_false, reduceCtorEq, false_or] at hmem
  unfold enumFields
  rcases hmem with hkind | hclassification | hfreshness | hevidence
  · exact ⟨_, by simp, textOf_of_hasText hkind.symm⟩
  · exact ⟨_, by simp, textOf_of_hasText hclassification.symm⟩
  · exact ⟨_, by simp, textOf_of_hasText hfreshness.symm⟩
  · obtain ⟨ref, href, hnone⟩ := List.mem_map.mp (exists_none_of_allChecks hevidence.symm)
    have hchecks := exists_none_of_allChecks hnone
    simp only [evidenceChecks, List.mem_cons, List.not_mem_nil, or_false, reduceCtorEq, false_or] at hchecks
    exact ⟨_, List.mem_append_right _ (List.mem_map_of_mem href), textOf_of_hasText hchecks.symm⟩

/-- The scope of the sample records. -/
def sampleScope : Json :=
  .obj [("clusterId".toList, .str "c1".toList), ("namespace".toList, .str "analytics".toList),
    ("teamId".toList, .str "data".toList), ("tenantId".toList, .null)]

/-- A record whose kind is an object with a `toString` that is no function. -/
def unprintableRecord : Json := sampleRecord "broken".toList (.obj [("toString".toList, .null)])

/-- The order of code units, which on lower case letters is that of `localeCompare`. -/
def unitLocale : Locale where
  le a b := utf16 a ≤ utf16 b
  total a b := by simpa using le_total (utf16 a) (utf16 b)
  trans a b c hab hbc := by simpa using le_trans (of_decide_eq_true hab) (of_decide_eq_true hbc)

/-- One malformed record makes the whole export throw. -/
theorem unprintable_record_throws :
    exportDataCatalog utcParse unitLocale (.arr [ordersRecord, unprintableRecord]) (.arr [sampleScope]) = none ∧
      isVisible [sampleScope] ordersRecord = true ∧ hasUniqueId [ordersRecord, unprintableRecord] ordersRecord = true ∧
      validateEntity utcParse ordersRecord = some true := by
  have hall : isVisible [sampleScope] ordersRecord = true ∧ isVisible [sampleScope] unprintableRecord = true ∧
      hasUniqueId [ordersRecord, unprintableRecord] ordersRecord = true ∧
      hasUniqueId [ordersRecord, unprintableRecord] unprintableRecord = true := by
    decide +kernel
  obtain ⟨hvisible, hvisible', hunique, hunique'⟩ := hall
  have hthrows : validateEntity utcParse unprintableRecord = none := by decide +kernel
  refine ⟨?_, hvisible, hunique, ordersRecord_accepted⟩
  rw [Option.eq_none_iff_forall_ne_some]
  intro out hout
  have hfilter : [ordersRecord, unprintableRecord].filter (isVisible [sampleScope]) = [ordersRecord, unprintableRecord] := by
    simp [hvisible, hvisible']
  have hnone := (export_eq_some_iff.mp hout).1
  exact hnone unprintableRecord (by simp) (isVisible_iff.mp hvisible') (by rw [hfilter]; exact hunique') hthrows

end narwhal.portal.data_catalog
