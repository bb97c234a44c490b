import Narwhal.Research.RecordChecks

open pylib jsonschema narwhal.check_research_evidence narwhal.record_evidence

namespace narwhal.run_recorded

/-! Which records of a run the two checks accept. -/

/-- There is no first error exactly if every check has passed. -/
theorem firstError_ok_iff {checks : List (Bool × String)} : firstError checks = .ok () ↔ ∀ check ∈ checks, check.1 = true := by
  induction checks with
  | nil => exact iff_of_true rfl (List.forall_mem_nil _)
  | cons check checks ih =>
    obtain ⟨passed, message⟩ := check
    rw [firstError, List.forall_mem_cons]
    cases passed with
    | true => exact ih.trans (iff_of_eq (by simp))
    | false => exact iff_of_false (fun h => by cases h) fun h => by cases h.1

/-! ### The fields of a record -/

section

variable (w : World) (args : Args) (revision : Option Str) (result : String) (environment : Str) (metadata : List (Str × Json))

/-- The record of a run has the required fields, in their order. -/
theorem keys_recordOf :
    (recordOf w args revision result environment metadata).map Prod.fst = requiredFields.map lit := rfl

theorem keys_nodup : (requiredFields.map lit).Nodup :=
  (List.nodup_map_iff_inj_on (by decide)).mpr fun _ _ _ _ h => lit_inj.mp h

end

/-! ### The check of this script -/

section

variable {metadata : List (Str × Json)} {name : String} {check : Json → Bool}

/-- An item of the metadata passes the check of its name, if it is there. -/
theorem Metadata.all_item (h : Metadata metadata) {kind : String × (Json → Bool)} (hmem : kind ∈ KINDS) :
    (lookupField (lit kind.1) metadata).all kind.2 = true := by
  cases hvalue : lookupField (lit kind.1) metadata with
  | none => rfl
  | some value => exact h.check hmem hvalue

/-- An item that is always there passes every weaker check. -/
theorem Metadata.any_item (h : Metadata metadata) (hmem : (name, check) ∈ KINDS) (hkey : lit name ∈ metadata.map Prod.fst)
    {check' : Json → Bool} (hweaker : ∀ value, check value = true → check' value = true) :
    (lookupField (lit name) metadata).any check' = true := by
  obtain ⟨value, hvalue⟩ := exists_lookupField_iff.mpr hkey
  rw [hvalue]
  exact hweaker value (h.check hmem hvalue)

/-- The metadata has no other names than the check knows. -/
theorem Metadata.keys (h : Metadata metadata) : ∀ key ∈ metadata.map Prod.fst, key ∈ metadataFields.map lit := by
  intro key hkey
  obtain ⟨item, hitem, rfl⟩ := List.mem_map.mp hkey
  obtain ⟨kind, hkind, hname, -⟩ := h.kinds item hitem
  have hnames : KINDS.map Prod.fst ⊆ metadataFields := by decide
  rw [← hname]
  exact List.mem_map_of_mem (hnames (List.mem_map_of_mem hkind))

end

/-- Labels that are taken from lists are safe. -/
theorem safe_labels :
    (∀ task ∈ TASK_EVENTS.map Prod.fst, fullmatch (labelPattern 79) (lit task) = true) ∧
      (∀ environment ∈ ENVIRONMENTS, fullmatch (labelPattern 79) environment = true) ∧
      ∀ platform ∈ PLATFORMS, fullmatch (labelPattern 63) platform = true := by
  decide +kernel

section

variable {decimal : Nat → Bool} {w : World} {args : Args}
  {revision : Option Str} {result : String} {environment : Str} {metadata : List (Str × Json)}

/-- The check of this script passes the record of a run exactly if its task is of its event type, its revision is a
    full SHA or unknown, and its digest is not empty. -/
theorem validate_ok_iff (hdecimal : ∀ c, isDigit c = true → decimal c = true) (hargs : args.Checked)
    (hresult : result ∈ RESULTS) (henvironment : environment ∈ ENVIRONMENTS) (hmetadata : Metadata metadata)
    (hdigest : lookupField (lit "artifact_digest") metadata = args.options.artifact_digest.map Json.str) :
    validate_public_record decimal (recordOf w args revision result environment metadata) = .ok () ↔
      (args.options.task.1, args.options.event_type.1) ∈ TASK_EVENTS ∧ (∀ r, revision = some r → IsSha r) ∧
        args.options.artifact_digest ≠ some [] := by
  obtain ⟨record, hrecord⟩ : ∃ record, record = recordOf w args revision result environment metadata := ⟨_, rfl⟩
  have hkeys : record.map Prod.fst = requiredFields.map lit := hrecord ▸ keys_recordOf w args revision result environment metadata
  have hfields : ∀ field ∈ recordOf w args revision result environment metadata,
      (lookupField field.1 record).getD .null = field.2 := by
    intro field hfield
    rw [lookupField_of_mem (hkeys ▸ keys_nodup) (hrecord ▸ hfield)]
    rfl
  have hsecret : (∀ r, revision = some r → IsSha r) →
      searchFolded SECRET_PATTERN (spaced quoteAscii (sortKeys (.obj record))) = false := by
    intro hrevision
    rw [hrecord]
    exact (no_secret (recordOf_made hrevision hresult (written_of_mem_ENVIRONMENTS henvironment) hmetadata).sortKeys).1
  have hitems : ∀ kind ∈ KINDS, (lookupField (lit kind.1) metadata).all kind.2 = true := fun kind hkind =>
    hmetadata.all_item hkind
  simp only [KINDS, List.forall_mem_cons] at hitems
  obtain ⟨hcode, -, -, havailable, hpass, hfail, hskip, hwarning, hcpu, hmemory, hstorage, -, hstage, hrecovered, -⟩ := hitems
  rw [← hrecord]
  simp only [recordOf, List.forall_mem_cons] at hfields
  obtain ⟨h1, h2, h3, h4, h5, h6, h7, h8, h9, h10, h11, h12, h13, h14, -⟩ := hfields
  have hshape : ((requiredFields.map lit).all (fun key => (requiredFields.map lit).contains key) &&
      requiredFields.all fun name => (requiredFields.map lit).contains (lit name)) = true := by decide
  have hcounts : (["human_interventions", "review_corrections", "ci_retries"].all fun name =>
      atLeast 0 ((lookupField (lit name) record).getD .null)) = true := by
    simp [h11, h12, h13, atLeast, hargs.human_interventions, hargs.review_corrections, hargs.ci_retries]
  have hduration : atLeast 0 (.int (w.elapsed_ns / 1000000 : Nat)) = true := by
    rw [atLeast, decide_eq_true_eq]
    exact Int.natCast_nonneg _
  have hattempt : atLeast 1 (.int args.attempt) = true := decide_eq_true hargs.attempt
  have hints : ∀ n, isInt (.int n) = true := fun _ => rfl
  have hevent : isText (fun s => (EVENT_TYPES.map lit).contains s) (.str (lit args.options.event_type.1)) = true :=
    isText_contains args.options.event_type.2
  have hresult : isText (fun s => (RESULTS.map lit).contains s) (.str (lit result)) = true := isText_contains hresult
  have htime : isText (isTimestamp decimal) (.str w.start.isoformat) = true := isTimestamp_isoformat hdecimal w.start
  have htask : isText (fullmatch (labelPattern 79)) (.str (lit args.options.task.1)) = true :=
    safe_labels.1 _ args.options.task.2
  have hlabel : isText (fullmatch (labelPattern 79)) (.str environment) = true := safe_labels.2.1 _ henvironment
  have hpairs : (TASK_EVENTS.any fun entry => Json.str (lit args.options.task.1) = .str (lit entry.1) &&
      Json.str (lit args.options.event_type.1) = .str (lit entry.2)) = true ↔
        (args.options.task.1, args.options.event_type.1) ∈ TASK_EVENTS := by
    simp [List.any_eq_true, lit_inj]
  have hkeys' : ((metadata.map Prod.fst).all fun key => (metadataFields.map lit).contains key) = true :=
    List.all_eq_true.mpr fun key hkey => List.contains_iff_mem.mpr (hmetadata.keys key hkey)
  have hdirty : (lookupField (lit "working_tree_dirty") metadata).any isBool = true :=
    hmetadata.any_item (show (_, isBool) ∈ KINDS by simp [KINDS]) hmetadata.dirty fun _ h => h
  have hplatform : (lookupField (lit "platform") metadata).any (isText (fullmatch (labelPattern 63))) = true := by
    refine hmetadata.any_item (show (_, isText fun s => PLATFORMS.contains s) ∈ KINDS by simp [KINDS]) hmetadata.platform ?_
    intro value hvalue
    cases value <;> first | exact safe_labels.2.2 _ (List.contains_iff_mem.mp hvalue) | cases hvalue
  have hrecovery : (lookupField (lit "recovery_result") metadata).all (fun value =>
      value = .null || isText (fun s => (RECOVERY_RESULTS.map lit).contains s) value) = true := by
    cases hvalue : lookupField (lit "recovery_result") metadata with
    | none => rfl
    | some value =>
      rw [hvalue, Option.all_some] at hrecovered
      rw [Option.all_some, hrecovered, Bool.or_true]
  have hdigest : (lookupField (lit "artifact_digest") metadata).all (isText (fullmatch digestPattern)) = true ↔
      args.options.artifact_digest ≠ some [] := by
    rw [hdigest]
    cases hgiven : args.options.artifact_digest with
    | none => simp
    | some digest =>
      have hempty : fullmatch digestPattern [] = false := by decide +kernel
      obtain rfl | hfull := hargs.options.digest digest hgiven
      · simp [isText, hempty]
      · have hne : digest ≠ [] := by
          rintro rfl
          exact Bool.false_ne_true (hempty.symm.trans hfull)
        simp [isText, hfull, hne]
  have hrevision : ((orNull Json.str revision = Json.null) ||
      isText (fullmatch (Regex.times 40 (anyOf hexRanges))) (orNull Json.str revision)) = true ↔ ∀ r, revision = some r → IsSha r := by
    cases revision <;> simp [orNull, isText, IsSha]
  rw [validate_public_record, firstError_ok_iff, publicChecks]
  simp only [h1, h2, h3, h4, h5, h6, h7, h8, h9, h10, h11, h12, h13, h14, hkeys, List.forall_mem_append, List.forall_mem_cons,
    List.map_cons, List.map_nil, hshape, hcounts, hduration, hattempt, hevent, hresult, htime, htask, hlabel, hpairs, hkeys',
    hdirty, hplatform, hdigest, hrevision, hcode, havailable, hpass, hfail, hskip, hwarning, hcpu, hmemory, hstorage, hstage,
    hrecovery, hints]
  simp only [decide_true, Bool.and_true, Bool.not_eq_true', List.not_mem_nil, false_imp_iff, implies_true, true_and, and_true]
  constructor
  · rintro ⟨⟨htask, hrevision⟩, hdigest, -⟩
    exact ⟨htask, hrevision, hdigest⟩
  · rintro ⟨htask, hrevision, hdigest⟩
    exact ⟨⟨htask, hrevision⟩, hdigest, hsecret hrevision⟩

end

/-! ### The schema of the shared recorder -/

/-- The environments as the shared recorder writes them. -/
def SAFE_ENVIRONMENTS : List Str := environments (lit "local-") ++ environments (lit "github-actions-")

/-- The shared recorder makes safe labels of the environments. -/
theorem safe_label_mem : ∀ environment ∈ ENVIRONMENTS,
    (safe_label false environment).any (fun label => SAFE_ENVIRONMENTS.contains label) = true := by
  decide +kernel

/-- Metadata of some names and of simple values, in any order. -/
structure Flat (metadata : List (Str × Json)) : Prop where
  nodup : (metadata.map Prod.fst).Nodup
  keys : ∀ key ∈ metadata.map Prod.fst, key ∈ metadataFields.map lit
  values : ∀ item ∈ metadata, type [.string, .number, .integer, .boolean, .null] item.2 = true

/-- The schema accepts such metadata. -/
theorem Flat.accepted {metadata : List (Str × Json)} (h : Flat metadata) :
    schema [type [.object], properties [] (schema [type [.string, .number, .integer, .boolean, .null]]),
      propertyNames (schema [pattern (Regex.between 1 80 (anyOf labelRanges))]), maxProperties 40] (.obj metadata) = true := by
  have hnames : ∀ key ∈ metadataFields.map lit, matchesLine (Regex.between 1 80 (anyOf labelRanges)) key = true := by
    decide +kernel
  have hlength : metadata.length ≤ 40 := by
    have hsub := (List.subperm_of_subset h.nodup h.keys).length_le
    rw [List.length_map] at hsub
    exact hsub.trans (by decide)
  simp only [schema, List.all_cons, List.all_nil, Bool.and_true, Bool.and_eq_true]
  refine ⟨rfl, List.all_eq_true.mpr fun item hitem => ?_, List.all_eq_true.mpr fun item hitem => ?_, decide_eq_true hlength⟩
  · exact (Bool.and_true _).trans (h.values item hitem)
  · exact (Bool.and_true _).trans (hnames _ (h.keys _ (List.mem_map_of_mem hitem)))

/-- A full SHA is a revision to the schema. -/
theorem matchesLine_revision {r : Str} (h : IsSha r) : matchesLine revisionPattern r = true := by
  rw [matchesLine, Bool.or_eq_true]
  exact .inl (Regex.fits_iff.mpr (Regex.mem_lang_between_of_times (by decide) (by decide) (Regex.fits_iff.mp h)))

/-- The schema accepts every task and every safe environment. -/
theorem safe_schemas :
    (∀ task ∈ TASK_EVENTS.map Prod.fst, schema [type [.string], minLength 1, maxLength 160,
        pattern (Regex.plus (anyOf (labelRanges ++ CodeClass.chars ":/() ")))] (.str (lit task)) = true) ∧
      ∀ environment ∈ SAFE_ENVIRONMENTS, schema [type [.string], minLength 1, maxLength 80,
        pattern (Regex.plus (anyOf labelRanges))] (.str environment) = true := by
  decide +kernel

/-- The schema accepts a record with the fields of a run's record exactly if its revision is known. -/
theorem SCHEMA_iff {decimal : Nat → Bool} (hdecimal : ∀ c, isDigit c = true → decimal c = true) {w : World} {args : Args}
    {revision : Option Str} {result : String} {environment : Str} {metadata record : List (Str × Json)} (hargs : args.Checked)
    (hresult : result ∈ RESULTS) (hrevision : ∀ r, revision = some r → IsSha r) (henvironment : environment ∈ SAFE_ENVIRONMENTS)
    (hmetadata : Flat metadata) (hnodup : (record.map Prod.fst).Nodup)
    (hfields : ∀ key, lookupField key record = lookupField key (recordOf w args revision result environment metadata)) :
    SCHEMA decimal (.obj record) = true ↔ revision ≠ none := by
  have hkeys : ∀ key, key ∈ record.map Prod.fst ↔ key ∈ requiredFields.map lit := by
    intro key
    rw [← exists_lookupField_iff, hfields, exists_lookupField_iff]
    rfl
  have hvalues : ∀ field ∈ recordOf w args revision result environment metadata,
      ∀ value, lookupField field.1 record = some value ↔ field.2 = value := by
    intro field hfield value
    have hnodup : ((recordOf w args revision result environment metadata).map Prod.fst).Nodup := keys_nodup
    rw [hfields, lookupField_of_mem hnodup hfield, Option.some.injEq]
  simp only [recordOf, List.forall_mem_cons] at hvalues
  obtain ⟨h1, h2, h3, h4, h5, h6, h7, h8, h9, h10, h11, h12, h13, h14, -⟩ := hvalues
  have hrequired : required requiredFields (.obj record) = true :=
    List.all_eq_true.mpr fun name hname => List.contains_iff_mem.mpr ((hkeys _).mpr (List.mem_map_of_mem hname))
  have hversion : schema [const "1.0"] (.str (lit "1.0")) = true := by decide
  have htime : schema [type [.string], format (utc_datetime decimal)] (.str w.start.isoformat) = true := by
    simp [schema, type, TypeName.admits, format, utc_datetime, isTimestamp_isoformat hdecimal, isMoment_isoformat]
  have hrepository : schema [type [.string], pattern repositoryPattern, maxLength 200] (.str (lit REPOSITORY)) = true := by
    decide +kernel
  have hrevision : schema [type [.string], pattern revisionPattern] (orNull Json.str revision) = true ↔ revision ≠ none := by
    cases revision with
    | none => simp [orNull, schema, type, TypeName.admits]
    | some r => simp [orNull, schema, type, TypeName.admits, pattern, onString, matchesLine_revision (hrevision r rfl)]
  have hchoice : ∀ {names : List String} {name : String}, name ∈ names → schema [enum names] (.str (lit name)) = true := by
    intro names name hname
    simpa [schema, enum, lit_inj] using hname
  have hduration : schema [type [.integer, .null], minimum 0] (.int (w.elapsed_ns / 1000000 : Nat)) = true := by
    simp only [schema, type, TypeName.admits, minimum, List.all_cons, List.all_nil, List.any_cons, Bool.true_or, Bool.true_and,
      Bool.and_true, decide_eq_true_eq]
    exact Int.natCast_nonneg _
  have hcount : ∀ n : Int, 0 ≤ n → schema [type [.integer], minimum 0] (.int n) = true := by
    intro n hn
    simp [schema, type, TypeName.admits, minimum, hn]
  rw [SCHEMA, schema, List.all_eq_true]
  simp only [List.forall_mem_cons]
  rw [properties_iff ?names hnodup ?keys]
  case names => exact show requiredFields.Nodup by decide
  case keys => exact fun key hkey => (hkeys key).mp hkey
  simp only [List.forall_mem_cons, h1, h2, h3, h4, h5, h6, h7, h8, h9, h10, h11, h12, h13, h14, forall_eq', hversion, htime,
    hrepository, hrevision, hchoice args.options.event_type.2, safe_schemas.1 _ args.options.task.2, hchoice hresult, hduration,
    safe_schemas.2 _ henvironment, hcount _ (Int.le_trans Int.one_nonneg hargs.attempt), hcount _ hargs.human_interventions,
    hcount _ hargs.review_corrections, hcount _ hargs.ci_retries, hmetadata.accepted, List.not_mem_nil, false_imp_iff, implies_true,
    true_and, and_true]
  exact (and_iff_right rfl).trans (and_iff_right hrequired)

end narwhal.run_recorded
