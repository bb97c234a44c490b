import Narwhal.Research.EvidenceCheck
import Narwhal.Research.RecordAccepted

open pylib jsonschema narwhal.check_research_evidence narwhal.record_evidence

namespace narwhal.run_recorded

/-! Runs of recorded commands, and what the check of the evidence says after them. -/

/-- The validator of the records finds no error exactly in those that pass the schema. -/
def Conforms (iter_errors : Json → List SchemaError) (decimal : Nat → Bool) : Prop :=
  ∀ record, iter_errors record = [] ↔ SCHEMA decimal record = true

/-! ### The line of a record -/

/-- The strings of a record are ASCII, and so need no surrogates. -/
theorem escapable_of_written {s : Str} (h : Written s) : ∀ c ∈ s, Escapable c := by
  have hwords : ∀ s ∈ WORDS.map lit, ∀ c ∈ s, c < 128 := by decide +kernel
  have hpieces : ∀ piece ∈ PIECES, ∀ c ∈ piece, c < 128 := by decide +kernel
  intro c hc
  apply escapable_of_ascii
  obtain hword | ⟨pieces, hall, rfl⟩ := h
  · exact hwords s hword c hc
  · obtain ⟨piece, hpiece, hc⟩ := List.mem_flatten.mp hc
    exact hpieces piece (hall piece hpiece) c hc

theorem escapable_of_key {key : Str} (h : key ∈ KEYS) : ∀ c ∈ key, Escapable c := by
  have hkeys : ∀ key ∈ KEYS, ∀ c ∈ key, c < 128 := by decide +kernel
  exact fun c hc => escapable_of_ascii (hkeys key h c hc)

/-- A record has a line of one piece, which is read back as the record in the order of its keys. -/
theorem exists_line {record : Json} (h : record.Made (· ∈ KEYS) Written) :
    ∃ body : Bytes, utf8Encode (recordLine record) = some (body ++ [10]) ∧ 10 ∉ body ∧ 13 ∉ body ∧
      loadsBytes (body ++ [10]) = some (sortKeys record) := by
  have hsorted : (sortKeys record).Fixed lastValues :=
    Json.WF.fixed (fun _ hkvs => congrArg some (dictOf_of_sorted hkvs)) (sortKeys_wf record)
  have hread : (sortKeys record).Readable lastValues fun s => ∀ c ∈ s, Escapable c :=
    Json.Made.readable (fun _ => escapable_of_key) (fun _ => escapable_of_written) h.sortKeys hsorted
  have hprintable : ∀ c ∈ printed compactAscii 0 (sortKeys record), Printable c := fun c hc =>
    compactAscii_within.printed hread hc
  have hbyte : ∀ n ∈ [10, 13], UInt8.ofNat n ∉ asciiBytes (printed compactAscii 0 (sortKeys record)) := by
    intro n hn hmem
    obtain ⟨c, hc, heq⟩ := List.mem_map.mp hmem
    obtain ⟨hlow, hhigh⟩ := hprintable c hc
    have hnat := congrArg UInt8.toNat heq
    have hn' : n ≤ 13 := (show ∀ n ∈ [10, 13], n ≤ 13 by decide) n hn
    rw [toNat_ascii (by omega), toNat_ascii (by omega)] at hnat
    omega
  have hascii : ∀ c ∈ recordLine record, 0 < c ∧ c < 128 := by
    intro c hc
    obtain hc | hc := List.mem_append.mp hc
    · obtain ⟨hlow, hhigh⟩ := hprintable c hc
      omega
    · rw [List.mem_singleton.mp hc]
      decide
  have hline : asciiBytes (recordLine record) = asciiBytes (printed compactAscii 0 (sortKeys record)) ++ [10] := List.map_append
  refine ⟨asciiBytes (printed compactAscii 0 (sortKeys record)), ?_, hbyte 10 (by decide), hbyte 13 (by decide), ?_⟩
  · rw [utf8Encode_of_ascii fun c hc => (hascii c hc).2, ← hline]
    rfl
  · rw [← hline, loadsBytes_ascii hascii, recordLine, loads_printed compactAscii_sound hread]

/-! ### The record in the order of its keys -/

/-- The metadata of a run has simple values, -/
theorem Metadata.flat {metadata : List (Str × Json)} (h : Metadata metadata) : Flat metadata where
  nodup := h.nodup
  keys := h.keys
  values item hitem := by
    have hflat : ∀ kind ∈ KINDS, (∀ items, kind.2 (.arr items) = false) ∧ ∀ fields, kind.2 (.obj fields) = false := by
      simp [KINDS, isInt, isBool, isText, atLeast]
    obtain ⟨kind, hkind, -, hvalue⟩ := h.kinds item hitem
    obtain ⟨key, value⟩ := item
    cases value with
    | arr items => exact absurd hvalue (Bool.eq_false_iff.mp ((hflat kind hkind).1 items))
    | obj fields => exact absurd hvalue (Bool.eq_false_iff.mp ((hflat kind hkind).2 fields))
    | _ => rfl

/-- also in the order of its keys. -/
theorem Flat.sorted {metadata : List (Str × Json)} (h : Flat metadata) : Flat (dictOf (sortKeysFields metadata)) where
  nodup := (sorted_dictOf _).imp fun hlt => ne_of_lt hlt
  keys key hkey := by
    obtain ⟨item, hitem, rfl⟩ := List.mem_map.mp hkey
    have hmem := List.mem_map_of_mem (f := Prod.fst) (mem_of_mem_dictOf hitem)
    rw [keys_sortKeysFields] at hmem
    exact h.keys _ hmem
  values item hitem := by
    have hmem := mem_of_mem_dictOf hitem
    rw [sortKeysFields_eq_map] at hmem
    obtain ⟨⟨key, value⟩, hold, rfl⟩ := List.mem_map.mp hmem
    have hvalue := h.values _ hold
    cases value <;> exact hvalue

/-- The fields of a record in the order of their keys are found as those of the record. -/
theorem lookupField_sorted (w : World) (args : Args) (revision : Option Str) (result : String) (environment : Str)
    (metadata : List (Str × Json)) (key : Str) :
    lookupField key (dictOf (sortKeysFields (recordOf w args revision result environment metadata))) =
      lookupField key (recordOf w args revision result environment (dictOf (sortKeysFields metadata))) := by
  have hnodup : ((sortKeysFields (recordOf w args revision result environment metadata)).map Prod.fst).Nodup := by
    rw [keys_sortKeysFields]
    exact keys_nodup
  rw [lookupField_dictOf hnodup]
  cases revision <;> rfl

section

variable {iter_errors : Json → List SchemaError} {decimal : Nat → Bool} {w : World} {args : Args} {revision : Option Str}
  {result : String} {environment : Str} {metadata : List (Str × Json)}

/-- The errors of a record with the fields of a run's record, in any order. -/
theorem errors_eq_nil_iff (hconforms : Conforms iter_errors decimal) (hdecimal : ∀ c, isDigit c = true → decimal c = true)
    (hargs : args.Checked) (hresult : result ∈ RESULTS) (hrevision : ∀ r, revision = some r → IsSha r)
    (henvironment : environment ∈ SAFE_ENVIRONMENTS) (hmetadata : Flat metadata) {record : List (Str × Json)}
    (hnodup : (record.map Prod.fst).Nodup) (hmade : (Json.obj record).Made (· ∈ KEYS) Written)
    (hfields : ∀ key, lookupField key record = lookupField key (recordOf w args revision result environment metadata))
    {commits : Str → Bool} {slug : Str} :
    record_errors iter_errors commits (.obj record) slug = [] ↔
      slug = lit REPOSITORY ∧ ∃ r, revision = some r ∧ commits r = true := by
  have hlookup : lookupField (lit "repository") record = some (.str (lit REPOSITORY)) ∧
      lookupField (lit "revision") record = some (orNull Json.str revision) := by
    have hkeys : ((recordOf w args revision result environment metadata).map Prod.fst).Nodup := keys_nodup
    rw [hfields, hfields]
    exact ⟨lookupField_of_mem hkeys (by simp [recordOf]), lookupField_of_mem hkeys (by simp [recordOf])⟩
  rw [record_errors_eq_nil_iff, hconforms,
    SCHEMA_iff hdecimal hargs hresult hrevision henvironment hmetadata hnodup hfields, hlookup.1, hlookup.2,
    and_iff_right (no_secret hmade).2]
  cases revision with
  | none => simp
  | some r =>
    have hfull : fullmatch revisionPattern r = true := Regex.fits_iff.mpr
      (Regex.mem_lang_between_of_times (by decide) (by decide) (Regex.fits_iff.mp (hrevision r rfl)))
    constructor
    · rintro ⟨-, hslug, hcommits⟩
      exact ⟨(Json.str.inj (Option.some.inj hslug)).symm, r, rfl, hcommits r rfl hfull⟩
    · rintro ⟨rfl, r', hr, hcommits⟩
      obtain rfl := Option.some.inj hr
      refine ⟨Option.some_ne_none r, rfl, fun r' hr' _ => ?_⟩
      obtain rfl : r = r' := Json.str.inj (Option.some.inj hr')
      exact hcommits

/-- The line of a run, which is read back as a record without errors. -/
structure Logged (iter_errors : Json → List SchemaError) (w : World) (result : String) (body : Bytes)
    (record : List (Str × Json)) : Prop where
  one_line : 10 ∉ body ∧ 13 ∉ body
  reads : loadsBytes (body ++ [10]) = some (.obj record)
  valid : ∀ commits : Str → Bool, (∀ r, w.commits r = true → commits r = true) →
    record_errors iter_errors commits (.obj record) (lit REPOSITORY) = []
  result : lookupField (lit "result") record = some (.str (lit result))

/-- Writing another environment into a record gives the record with that environment. -/
theorem putField_environment (environment' : Str) :
    putField (lit "environment") (.str environment') (recordOf w args revision result environment metadata) =
      recordOf w args revision result environment' metadata := by
  simp [recordOf, putField]

/-- The condition under which the record of a run is appended. -/
structure Appendable (w : World) (args : Args) (revision : Option Str) : Prop where
  pair : (args.options.task.1, args.options.event_type.1) ∈ TASK_EVENTS
  digest : args.options.artifact_digest ≠ some []
  origin : repository_slug w.origin = some (lit REPOSITORY)
  revision : ∃ r, revision = some r ∧ IsSha r ∧ w.commits r = true

/-- An environment has a safe label. -/
theorem exists_safe_label (h : environment ∈ ENVIRONMENTS) :
    ∃ label ∈ SAFE_ENVIRONMENTS, safe_label false environment = some label := by
  have hsafe := safe_label_mem environment h
  rw [Option.any_eq_true] at hsafe
  obtain ⟨label, hlabel, hmem⟩ := hsafe
  exact ⟨label, List.contains_iff_mem.mp hmem, hlabel⟩

theorem written_of_mem_SAFE {label : Str} (h : label ∈ SAFE_ENVIRONMENTS) : Written label := by
  obtain hlocal | hgithub := List.mem_append.mp h
  · exact @written_of_mem_environments "local-" label (by decide) hlocal
  · exact @written_of_mem_environments "github-actions-" label (by decide) hgithub

/-- A record that passes the check of this script goes to the shared recorder, with its environment as a safe label. -/
theorem append_record_eq (henvironment : environment ∈ ENVIRONMENTS) : ∃ label ∈ SAFE_ENVIRONMENTS, ∀ files,
    append_record iter_errors decimal w (recordOf w args revision result environment metadata) files =
      match validate_public_record decimal (recordOf w args revision result environment metadata) with
      | .error message => (.error (.invalid message), files)
      | .ok () =>
        let (ended, files) := record_evidence.append_record iter_errors w.disk w.origin w.commits
          (.obj (recordOf w args revision result label metadata)) (evidence_path w.host w.finish) files
        (ended.mapError Lost.refused, files) := by
  obtain ⟨label, hlabel, hsafe⟩ := exists_safe_label henvironment
  have hkeys : ((recordOf w args revision result environment metadata).map Prod.fst).Nodup := keys_nodup
  have hlookup : lookupField (lit "environment") (recordOf w args revision result environment metadata) =
      some (.str environment) := lookupField_of_mem hkeys (by simp [recordOf])
  refine ⟨label, hlabel, fun files => ?_⟩
  rw [append_record]
  cases validate_public_record decimal (recordOf w args revision result environment metadata) with
  | error message => rfl
  | ok _ =>
    rw [hlookup]
    dsimp only [Option.bind_some]
    rw [hsafe]
    dsimp only
    rw [putField_environment]

section

variable (hconforms : Conforms iter_errors decimal) (hdecimal : ∀ c, isDigit c = true → decimal c = true)
  (hargs : args.Checked) (hresult : result ∈ RESULTS) (hmetadata : Metadata metadata)

include hconforms hdecimal hargs hresult hmetadata

/-- The shared recorder appends the record of a known commit of this repository. -/
theorem shared_appends {r : Str} (hrevision : IsSha r) (hcommits : w.commits r = true)
    (horigin : repository_slug w.origin = some (lit REPOSITORY)) {label : Str} (hlabel : label ∈ SAFE_ENVIRONMENTS) (files : Files) :
    ∃ ended files' taken body record,
      record_evidence.append_record iter_errors w.disk w.origin w.commits
        (.obj (recordOf w args (some r) result label metadata)) (evidence_path w.host w.finish) files = (ended, files') ∧
      Appends w.disk (evidence_path w.host w.finish) (body ++ [10]) files ended files' taken ∧
      Logged iter_errors w result body record := by
  have hsha : ∀ r', some r = some r' → IsSha r' := fun r' hr => Option.some.inj hr ▸ hrevision
  have hmade : (Json.obj (recordOf w args (some r) result label metadata)).Made (· ∈ KEYS) Written :=
    recordOf_made hsha hresult (written_of_mem_SAFE hlabel) hmetadata
  have hkeys : ((recordOf w args (some r) result label metadata).map Prod.fst).Nodup := keys_nodup
  have herrors : record_errors iter_errors w.commits (.obj (recordOf w args (some r) result label metadata)) (lit REPOSITORY) = [] :=
    (errors_eq_nil_iff hconforms hdecimal hargs hresult hsha hlabel hmetadata.flat hkeys hmade fun _ => rfl).mpr
      ⟨rfl, r, rfl, hcommits⟩
  obtain ⟨body, hline, hlf, hcr, hreads⟩ := exists_line hmade
  obtain ⟨ended, files', taken, happend, happends⟩ :=
    @append_record_appends iter_errors w.disk w.origin w.commits _ (evidence_path w.host w.finish) files _ _ horigin herrors hline
  refine ⟨ended, files', taken, body, dictOf (sortKeysFields (recordOf w args (some r) result label metadata)), happend, happends,
    ⟨hlf, hcr⟩, hreads, ?_, ?_⟩
  · intro commits hgrown
    exact (errors_eq_nil_iff hconforms hdecimal hargs hresult hsha hlabel hmetadata.flat.sorted
      ((sorted_dictOf _).imp fun hlt => ne_of_lt hlt) hmade.sortKeys fun key => lookupField_sorted w args (some r) result label metadata key).mpr
        ⟨rfl, r, rfl, hgrown r hcommits⟩
  · rw [lookupField_sorted]
    have hkeys : ((recordOf w args (some r) result label (dictOf (sortKeysFields metadata))).map Prod.fst).Nodup := keys_nodup
    exact lookupField_of_mem hkeys (by simp [recordOf])

/-- It refuses every other record that this script has checked. -/
theorem shared_refused (hrevision : ∀ r, revision = some r → IsSha r) {label : Str} (hlabel : label ∈ SAFE_ENVIRONMENTS)
    (h : ¬ (repository_slug w.origin = some (lit REPOSITORY) ∧ ∃ r, revision = some r ∧ w.commits r = true)) (files : Files) :
    ∃ why, record_evidence.append_record iter_errors w.disk w.origin w.commits
      (.obj (recordOf w args revision result label metadata)) (evidence_path w.host w.finish) files = (.error why, files) := by
  have hmade : (Json.obj (recordOf w args revision result label metadata)).Made (· ∈ KEYS) Written :=
    recordOf_made hrevision hresult (written_of_mem_SAFE hlabel) hmetadata
  have hkeys : ((recordOf w args revision result label metadata).map Prod.fst).Nodup := keys_nodup
  apply append_record_refused
  intro slug hslug herrors
  obtain ⟨rfl, hknown⟩ := (errors_eq_nil_iff hconforms hdecimal hargs hresult hrevision hlabel hmetadata.flat hkeys hmade
    fun _ => rfl).mp herrors
  exact h ⟨hslug, hknown⟩

variable (henvironment : environment ∈ ENVIRONMENTS)
  (hdigest : lookupField (lit "artifact_digest") metadata = args.options.artifact_digest.map Json.str)

include henvironment hdigest

/-- A record under that condition is appended as far as the system allows. -/
theorem appendable_appends (h : Appendable w args revision) (files : Files) : ∃ ended files' taken body record,
    append_record iter_errors decimal w (recordOf w args revision result environment metadata) files =
      (ended.mapError Lost.refused, files') ∧
    Appends w.disk (evidence_path w.host w.finish) (body ++ [10]) files ended files' taken ∧
    Logged iter_errors w result body record := by
  obtain ⟨label, hlabel, heq⟩ := @append_record_eq iter_errors decimal w args revision result environment metadata henvironment
  obtain ⟨r, rfl, hsha, hcommits⟩ := h.revision
  have hvalid : validate_public_record decimal (recordOf w args (some r) result environment metadata) = .ok () :=
    (validate_ok_iff hdecimal hargs hresult henvironment hmetadata hdigest).mpr
      ⟨h.pair, fun r' hr => Option.some.inj hr ▸ hsha, h.digest⟩
  obtain ⟨ended, files', taken, body, record, hshared, happends, hlogged⟩ :=
    shared_appends hconforms hdecimal hargs hresult hmetadata hsha hcommits h.origin hlabel files
  refine ⟨ended, files', taken, body, record, ?_, happends, hlogged⟩
  rw [heq, hvalid]
  dsimp only
  rw [hshared]

/-- Any other record is refused, and no file changes. -/
theorem not_appendable_refused (h : ¬ Appendable w args revision) (files : Files) : ∃ why,
    append_record iter_errors decimal w (recordOf w args revision result environment metadata) files = (.error why, files) := by
  obtain ⟨label, hlabel, heq⟩ := @append_record_eq iter_errors decimal w args revision result environment metadata henvironment
  rw [heq]
  cases hvalid : validate_public_record decimal (recordOf w args revision result environment metadata) with
  | error message => exact ⟨_, rfl⟩
  | ok _ =>
    obtain ⟨hpair, hrevision, hgiven⟩ := (validate_ok_iff hdecimal hargs hresult henvironment hmetadata hdigest).mp hvalid
    have hunknown : ¬ (repository_slug w.origin = some (lit REPOSITORY) ∧ ∃ r, revision = some r ∧ w.commits r = true) := by
      rintro ⟨horigin, r, hr, hcommits⟩
      exact h ⟨hpair, hgiven, horigin, r, hr, hrevision r hr, hcommits⟩
    obtain ⟨why, hshared⟩ := shared_refused hconforms hdecimal hargs hresult hmetadata hrevision hlabel hunknown files
    dsimp only
    rw [hshared]
    exact ⟨_, rfl⟩

end

end

/-! ### One run -/

/-- A run whose record is one to append. -/
structure Recordable (w : World) (args : Args) : Prop where
  pair : (args.options.task.1, args.options.event_type.1) ∈ TASK_EVENTS
  digest : args.options.artifact_digest ≠ some []
  origin : repository_slug w.origin = some (lit REPOSITORY)
  revision : ∃ head changes, w.head = .text head ∧ w.status = .text changes ∧ IsSha (strip head) ∧
    w.commits (strip head) = true
  report : ∀ path, args.options.test_report = some path → w.report path ≠ .tooDeep

theorem foldlM_addCount_ne {summary counts : List (Str × Json)} (names : List (String × String)) :
    names.foldlM (addCount summary) counts ≠ .error .recursion := by
  induction names generalizing counts with
  | nil => rintro ⟨⟩
  | cons name names ih =>
    rw [List.foldlM_cons]
    cases hcount : addCount summary counts name with
    | error error =>
      rintro ⟨⟩
      rw [addCount] at hcount
      split at hcount
      · split_ifs at hcount
        cases hcount
      · cases hcount
    | ok counts' => exact ih

/-- Only a report that is nested too deeply stops a run. -/
theorem summaryOf_eq_error_iff {report : Option Report} : (∃ error, summaryOf report = .error error) ↔ report = some .tooDeep := by
  constructor
  · rintro ⟨error, h⟩
    rw [summaryOf] at h
    split at h
    · cases h
    · next hsummary =>
      unfold regression_summary at hsummary
      split at hsummary
      case h_5 => rfl
      case h_6 =>
        split at hsummary
        · cases hsummary
        · split at hsummary
          · exact absurd hsummary (foldlM_addCount_ne _)
          · cases hsummary
      all_goals cases hsummary
    · cases h
  · rintro rfl
    exact ⟨.recursion, rfl⟩

/-- The result that is recorded. -/
def resultOf (outcome : Outcome) (summary : List (Str × Json)) (report_error : Bool) : String :=
  if report_error || hasFailures summary then "fail" else outcome.result

/-- The recorded result is one of those that the checks know. -/
theorem resultOf_mem (outcome : Outcome) (summary : List (Str × Json)) (report_error : Bool) :
    resultOf outcome summary report_error ∈ RESULTS := by
  rw [resultOf]
  split_ifs
  · decide
  · cases outcome with
    | exited returncode =>
      rw [Outcome.result]
      split_ifs <;> decide
    | interrupted => decide
    | notStarted _ =>
      rw [Outcome.result]
      decide

/-- The status of a run whose record is appended. -/
def statusOf (outcome : Outcome) (result : String) : Int :=
  if result = "fail" ∧ outcome.exit_code = some 0 then 1 else outcome.exit_code.getD 130

/-- A run ends with status 0 exactly if its record says `pass`. -/
theorem statusOf_eq_zero_iff {outcome : Outcome} {summary : List (Str × Json)} {report_error : Bool} :
    statusOf outcome (resultOf outcome summary report_error) = 0 ↔ resultOf outcome summary report_error = "pass" := by
  rw [statusOf, resultOf]
  cases outcome with
  | exited returncode =>
    by_cases hfail : (report_error || hasFailures summary) = true
    · by_cases hzero : returncode = 0 <;> simp [hfail, hzero, Outcome.exit_code]
    · by_cases hzero : returncode = 0 <;> simp [hfail, hzero, Outcome.exit_code, Outcome.result]
  | interrupted => by_cases hfail : (report_error || hasFailures summary) = true <;> simp [hfail, Outcome.exit_code, Outcome.result]
  | notStarted _ => by_cases hfail : (report_error || hasFailures summary) = true <;> simp [hfail, Outcome.exit_code, Outcome.result]

section

variable {iter_errors : Json → List SchemaError} {decimal : Nat → Bool} {w : World} {args : Args} {revision : Option Str}
  {dirty report_error : Bool} {summary : List (Str × Json)} {files : Files}

/-- The record of a run, before its environment is a safe label. -/
def runRecord (w : World) (args : Args) (revision : Option Str) (dirty : Bool) (summary : List (Str × Json))
    (report_error : Bool) : List (Str × Json) :=
  recordOf w args revision (resultOf w.outcome summary report_error) (environment_label w.host).1
    (metadataOf w.outcome dirty (environment_label w.host).2 summary report_error args.options)

/-- How a run ends once its record is built is decided by the append. -/
theorem main_of_append (hgit : git_revision_and_dirty w.head w.status = some (revision, dirty))
    (hsummary : summaryOf (args.options.test_report.map w.report) = .ok (summary, report_error)) {ended : Except Lost Unit}
    {files' : Files}
    (happend : append_record iter_errors decimal w (runRecord w args revision dirty summary report_error) files = (ended, files')) :
    main iter_errors decimal w args files =
      (match ended with
        | .error why => .lost why
        | .ok () => .recorded (statusOf w.outcome (resultOf w.outcome summary report_error)), files') := by
  rw [runRecord, resultOf] at happend
  rw [main, hgit, hsummary, statusOf, resultOf]
  dsimp only
  rw [happend]
  cases ended with
  | error why => rfl
  | ok _ =>
    dsimp only
    split_ifs <;> rfl

/-- A report that was summarized is not nested too deeply. -/
theorem report_ne_tooDeep (hsummary : summaryOf (args.options.test_report.map w.report) = .ok (summary, report_error)) :
    ∀ path, args.options.test_report = some path → w.report path ≠ .tooDeep := by
  intro path hpath hdeep
  have hreport : args.options.test_report.map w.report = some .tooDeep := by rw [hpath, Option.map_some, hdeep]
  obtain ⟨error, herror⟩ := summaryOf_eq_error_iff.mpr hreport
  cases hsummary.symm.trans herror

/-- The condition on a run is that on its record, where the run gets as far as that. -/
theorem recordable_iff (hgit : git_revision_and_dirty w.head w.status = some (revision, dirty))
    (hsummary : summaryOf (args.options.test_report.map w.report) = .ok (summary, report_error)) :
    Recordable w args ↔ Appendable w args revision := by
  have hreport := report_ne_tooDeep hsummary
  constructor
  · intro h
    obtain ⟨head, changes, hhead, hstatus, hsha, hcommits⟩ := h.revision
    rw [hhead, hstatus] at hgit
    obtain ⟨rfl, -⟩ := Prod.mk.inj (Option.some.inj hgit)
    exact ⟨h.pair, h.digest, h.origin, strip head, rfl, hsha, hcommits⟩
  · intro h
    obtain ⟨r, rfl, hsha, hcommits⟩ := h.revision
    refine ⟨h.pair, h.digest, h.origin, ?_, hreport⟩
    unfold git_revision_and_dirty at hgit
    split at hgit
    · cases hgit
    · cases hgit
    · cases hgit
    · cases hgit
    · next head changes hhead hstatus =>
      obtain ⟨hr, -⟩ := Prod.mk.inj (Option.some.inj hgit)
      obtain rfl := Option.some.inj hr
      exact ⟨head, changes, hhead, hstatus, hsha, hcommits⟩

/-- What comes of a run whose record is one to append: the evidence file gets its line, or a part of it where the
    system fails. -/
structure Recorded (iter_errors : Json → List SchemaError) (w : World) (files : Files) (result : String) (body taken : Bytes)
    (record : List (Str × Json)) (ended : Ended) (files' : Files) : Prop where
  line : Logged iter_errors w result body record
  grown : files.Grown (evidence_path w.host w.finish) taken files'
  part : taken <+: body ++ [10]
  ended : (w.disk.Completes (evidence_path w.host w.finish).1 files (body ++ [10]) ∧ taken = body ++ [10] ∧
      ∃ status, ended = .recorded status ∧ (status = 0 ↔ result = "pass")) ∨
    (¬ w.disk.Completes (evidence_path w.host w.finish).1 files (body ++ [10]) ∧ ∃ why, ended = .lost (.refused (.os why)))
  whole : w.disk.Whole → taken = body ++ [10] ∨ taken = []

/-- One run: the line of its record goes to the evidence file exactly when the record is one to append, as far as the
    system allows. The run has a status exactly when the whole line is written, and that is 0 exactly when the line says
    that the command passed; a run with nothing to append leaves every file as it was. -/
theorem main_recorded (hconforms : Conforms iter_errors decimal) (hdecimal : ∀ c, isDigit c = true → decimal c = true)
    {github_attempt : Option Int} {options : Options} (hargs : parse_args github_attempt options = .ok args) (w : World)
    (files : Files) :
    (Recordable w args → ∃ result body taken record, Recorded iter_errors w files result body taken record
        (main iter_errors decimal w args files).1 (main iter_errors decimal w args files).2) ∧
      (¬ Recordable w args → (∀ status, (main iter_errors decimal w args files).1 ≠ .recorded status) ∧
        (main iter_errors decimal w args files).2 = files) := by
  have hchecked := parse_args_ok hargs
  obtain ⟨hlabel, hplatform⟩ := environment_label_mem w.host
  cases hgit : git_revision_and_dirty w.head w.status with
  | none =>
    have hmain : main iter_errors decimal w args files = (.stopped, files) := by rw [main, hgit]
    rw [hmain]
    refine ⟨fun h => ?_, fun _ => ⟨by rintro _ ⟨⟩, rfl⟩⟩
    obtain ⟨head, changes, hhead, hstatus, -⟩ := h.revision
    rw [hhead, hstatus] at hgit
    cases hgit
  | some git =>
    obtain ⟨revision, dirty⟩ := git
    cases hsummary : summaryOf (args.options.test_report.map w.report) with
    | error error =>
      have hmain : main iter_errors decimal w args files = (.lost .recursion, files) := by rw [main, hgit, hsummary]
      rw [hmain]
      refine ⟨fun h => ?_, fun _ => ⟨by rintro _ ⟨⟩, rfl⟩⟩
      obtain ⟨path, hpath, hreport⟩ := Option.map_eq_some_iff.mp (summaryOf_eq_error_iff.mp ⟨error, hsummary⟩)
      exact absurd hreport (h.report path hpath)
    | ok summary =>
      obtain ⟨summary, report_error⟩ := summary
      have hitems := summaryOf_ok hsummary
      have hmetadata := metadataOf_metadata w.outcome dirty report_error hplatform hitems hchecked.options
      have hdigest := @lookupField_digest w.outcome dirty (environment_label w.host).2 summary report_error args.options hitems
      have hresult := resultOf_mem w.outcome summary report_error
      rw [recordable_iff hgit hsummary]
      constructor
      · intro h
        obtain ⟨ended, files', taken, body, record, happend, happends, hlogged⟩ :=
          appendable_appends hconforms hdecimal hchecked hresult hmetadata hlabel hdigest h files
        rw [main_of_append hgit hsummary happend]
        refine ⟨_, body, taken, record, hlogged, happends.grown, happends.part, ?_, happends.whole⟩
        obtain ⟨hcompletes, rfl, htaken⟩ | ⟨hfails, why, rfl⟩ := happends.ended
        · exact .inl ⟨hcompletes, htaken, _, rfl, statusOf_eq_zero_iff⟩
        · exact .inr ⟨hfails, why, rfl⟩
      · intro h
        obtain ⟨why, happend⟩ := not_appendable_refused hconforms hdecimal hchecked hresult hmetadata hlabel hdigest h files
        rw [main_of_append hgit hsummary happend]
        exact ⟨by rintro _ ⟨⟩, rfl⟩

end

/-- A validator that says nothing but whether a record passes. -/
def plainValidator (record : Json) : List SchemaError := if SCHEMA isDigit record = true then [] else [⟨[], []⟩]

theorem plainValidator_conforms : Conforms plainValidator isDigit := by
  intro record
  rw [plainValidator]
  split_ifs with h <;> simp [h]

/-- A disk that takes at most `k + 1` bytes at a time. -/
def slowDisk (k : Nat) : Disk where
  parents := []
  mkdir := .ok ()
  open_ := .ok ()
  takes n := .ok (min n (k + 1))
  takes_pos := by
    rintro n _ ⟨⟩ hpos
    omega
  close := .ok ()

/-- A run of the static regression tests on a clean tree. -/
def regressionWorld : World where
  host := ⟨lit "Linux", lit "x86_64", fun _ => none, fun s => s.map fun c => if 65 ≤ c ∧ c ≤ 90 then c + 32 else c, id⟩
  start := ⟨2026, 9, 30, 12, 0, 0, 5, by decide, by decide, by decide, by decide⟩
  finish := ⟨2026, 9, 30, 12, 0, 1, 5, by decide, by decide, by decide, by decide⟩
  elapsed_ns := 1000000000
  head := .text (List.replicate 40 97 ++ [10])
  status := .text []
  outcome := .exited 0
  report := fun _ => .missing
  origin := .text (lit "https://github.com/dasomel/narwhal.git")
  commits := fun revision => revision = List.replicate 40 97
  disk := slowDisk 99

def regressionOptions : Options where
  task := ⟨"regression-static", by decide⟩
  event_type := ⟨"test", by decide⟩
  attempt := none
  human_interventions := none
  review_corrections := none
  ci_retries := none
  pass_count := none
  fail_count := none
  skip_count := none
  cpu_time_ms := none
  peak_memory_mib := none
  storage_bytes := none
  artifact_digest := none
  failure_stage := none
  recovery_result := none
  test_report := none
  command := [lit "--", lit "make", lit "test"]

def regressionArgs : Args := ⟨regressionOptions, 1, 0, 0, 0, [lit "make", lit "test"]⟩

theorem regressionArgs_parsed : parse_args (some 1) regressionOptions = .ok regressionArgs := rfl

theorem regression_recordable : Recordable regressionWorld regressionArgs where
  pair := by decide
  digest := by decide
  origin := by decide +kernel
  revision := ⟨_, _, rfl, rfl, show fullmatch _ _ = true by decide +kernel, by decide +kernel⟩
  report := fun _ h => by cases h

theorem main_recorded_regression : ∃ result body taken record,
    Recorded plainValidator regressionWorld ⟨[], ∅⟩ result body taken record
      (main plainValidator isDigit regressionWorld regressionArgs ⟨[], ∅⟩).1
      (main plainValidator isDigit regressionWorld regressionArgs ⟨[], ∅⟩).2 :=
  (main_recorded plainValidator_conforms (fun _ h => h) regressionArgs_parsed regressionWorld ⟨[], ∅⟩).1 regression_recordable

/-! ### Many runs -/

section

variable {iter_errors : Json → List SchemaError} {decimal : Nat → Bool} {decodeError : Bytes → Str} {commits : Str → Bool}
  {origin : Answer} {directory : Str} {files : Files}

/-- The files after some runs. -/
def runs (iter_errors : Json → List SchemaError) (decimal : Nat → Bool) (recorded : List (World × Args)) (files : Files) : Files :=
  recorded.foldl (fun files run => (main iter_errors decimal run.1 run.2 files).2) files

/-- The check accepts the evidence, and every file ends where a line ends. -/
structure Sound (iter_errors : Json → List SchemaError) (decimal : Nat → Bool) (decodeError : Bytes → Str)
    (commits : Str → Bool) (origin : Answer) (directory : Str) (files : Files) : Prop where
  accepted : check iter_errors decimal decodeError commits origin directory files = some []
  ended : ∀ path, EndsLine (files.read path)

/-- No run writes to the list of allowed lines. -/
theorem evidence_path_ne (host : Host) (m : Moment) : (evidence_path host m).2 ≠ lit "known-invalid.json" := by
  intro heq
  have hlast := congrArg List.getLast? heq
  have hsuffix : (evidence_path host m).2.getLast? = some 108 := by
    rw [evidence_path]
    simp [lit, List.getLast?_cons, List.getLast?_append]
  rw [hsuffix] at hlast
  exact absurd hlast (by decide)

/-- Files that have only grown, beside lists of allowed lines that are as they were. -/
structure Kept (files files' : Files) : Prop where
  grows : ∀ path, files.read path <+: files'.read path
  allowlists : ∀ directory, files'.contents.lookup (directory, lit "known-invalid.json") =
    files.contents.lookup (directory, lit "known-invalid.json")

theorem Kept.refl (files : Files) : Kept files files := ⟨fun _ => List.prefix_rfl, fun _ => rfl⟩

theorem Kept.trans {files files' files'' : Files} (h : Kept files files') (h' : Kept files' files'') : Kept files files'' where
  grows path := (h.grows path).trans (h'.grows path)
  allowlists directory := (h'.allowlists directory).trans (h.allowlists directory)

/-- No file loses what it had, whatever fails. -/
theorem main_kept (hconforms : Conforms iter_errors decimal) (hdecimal : ∀ c, isDigit c = true → decimal c = true)
    {github_attempt : Option Int} {options : Options} {args : Args} (hargs : parse_args github_attempt options = .ok args)
    (w : World) (files : Files) : Kept files (main iter_errors decimal w args files).2 := by
  obtain ⟨hrecorded, hleft⟩ := main_recorded hconforms hdecimal hargs w files
  by_cases hrun : Recordable w args
  · obtain ⟨_, _, _, _, h⟩ := hrecorded hrun
    refine ⟨h.grown.isPrefix, fun directory => ?_⟩
    have hne : (directory, lit "known-invalid.json") ≠ evidence_path w.host w.finish := fun heq =>
      evidence_path_ne w.host w.finish (heq ▸ rfl)
    obtain ⟨hsame, -⟩ | hinsert := h.grown.contents
    · rw [hsame]
    · rw [hinsert, AList.lookup_insert_ne hne]
  · rw [(hleft hrun).2]
    exact Kept.refl files

/-- A run that leaves no part of a line keeps the evidence acceptable. -/
theorem main_sound (hconforms : Conforms iter_errors decimal) (hdecimal : ∀ c, isDigit c = true → decimal c = true)
    {github_attempt : Option Int} {options : Options} {args : Args} (hargs : parse_args github_attempt options = .ok args)
    {w : World} (horigin : w.origin = origin) (hcommits : ∀ r, w.commits r = true → commits r = true) (hwhole : w.disk.Whole)
    (h : Sound iter_errors decimal decodeError commits origin directory files) :
    Sound iter_errors decimal decodeError commits origin directory (main iter_errors decimal w args files).2 := by
  obtain ⟨hrecorded, hleft⟩ := main_recorded hconforms hdecimal hargs w files
  by_cases hrun : Recordable w args
  · obtain ⟨result, body, taken, record, hrecord⟩ := hrecorded hrun
    obtain ⟨slug, allowed, hslug, haccepts⟩ := check_eq_nil_iff.mp h.accepted
    obtain rfl : slug = lit REPOSITORY := Option.some.inj (hslug.symm.trans (horigin ▸ hrun.origin))
    have hlogged := hrecord.line
    have hlines : ∀ line ∈ splitlines taken, lineErrors iter_errors decodeError commits (lit REPOSITORY) line = [] := by
      obtain rfl | rfl := hrecord.whole hwhole
      · rw [splitlines_body_cons hlogged.one_line.1 hlogged.one_line.2]
        intro line hline
        obtain rfl := List.mem_singleton.mp hline
        rw [lineErrors, hlogged.reads]
        exact hlogged.valid commits hcommits
      · exact List.forall_mem_nil _
    refine ⟨check_eq_nil_iff.mpr ⟨_, allowed, hslug, haccepts.grown (evidence_path_ne w.host w.finish) (h.ended _) hlines
      hrecord.grown⟩, fun path => ?_⟩
    by_cases hpath : path = evidence_path w.host w.finish
    · rw [hpath, hrecord.grown.read_self]
      obtain rfl | rfl := hrecord.whole hwhole
      · exact .inr (by simp)
      · rw [List.append_nil]
        exact h.ended _
    · rw [hrecord.grown.read_of_ne hpath]
      exact h.ended path
  · rw [(hleft hrun).2]
    exact h

/-- Whatever runs are recorded, no file loses what it had. Evidence that the check accepts stays evidence that it accepts
    where no run leaves a part of its line. -/
theorem runs_sound (hconforms : Conforms iter_errors decimal) (hdecimal : ∀ c, isDigit c = true → decimal c = true)
    (recorded : List (World × Args))
    (hargs : ∀ run ∈ recorded, ∃ github_attempt options, parse_args github_attempt options = .ok run.2) :
    Kept files (runs iter_errors decimal recorded files) ∧
      ((∀ run ∈ recorded, run.1.origin = origin ∧ (∀ r, run.1.commits r = true → commits r = true) ∧ run.1.disk.Whole) →
        Sound iter_errors decimal decodeError commits origin directory files →
          Sound iter_errors decimal decodeError commits origin directory (runs iter_errors decimal recorded files)) := by
  induction recorded generalizing files with
  | nil => exact ⟨Kept.refl files, fun _ h => h⟩
  | cons run recorded ih =>
    obtain ⟨⟨github_attempt, options, hparsed⟩, hargs⟩ := List.forall_mem_cons.mp hargs
    obtain ⟨hkept, hsounds⟩ := @ih (main iter_errors decimal run.1 run.2 files).2 hargs
    refine ⟨(main_kept hconforms hdecimal hparsed run.1 files).trans hkept, fun hgood h => ?_⟩
    obtain ⟨⟨horigin, hcommits, hwhole⟩, hgood⟩ := List.forall_mem_cons.mp hgood
    exact hsounds hgood (main_sound hconforms hdecimal hparsed horigin hcommits hwhole h)

end

/-- A directory with one line that is no record, and is allowed to stay. -/
def pinnedFiles : Files where
  directories := [lit "research/evidence"]
  contents := [⟨(lit "research/evidence", lit "2026-08.jsonl"), asciiBytes (lit "\x7b\x7d\n")⟩,
    ⟨(lit "research/evidence", lit "known-invalid.json"), asciiBytes (lit
      "[\x7b\"file\":\"2026-08.jsonl\",\"line\":1,\"sha256\":\"ca3d163bab055381827226140568f3bef7eaac187cebd76878e0b63e9e442356\",\"reason\":\"before the schema\"\x7d]\n")⟩].toAList

/-- The check accepts them: the line is pinned by its digest. -/
theorem pinnedFiles_sound : Sound plainValidator isDigit (fun _ => []) (fun _ => true) regressionWorld.origin
    (lit "research/evidence") pinnedFiles where
  accepted := by decide +kernel
  ended path := by
    by_cases hevidence : path = (lit "research/evidence", lit "2026-08.jsonl")
    · subst hevidence
      exact .inr (by decide +kernel)
    by_cases hallowed : path = (lit "research/evidence", lit "known-invalid.json")
    · subst hallowed
      exact .inr (by decide +kernel)
    · refine .inl ?_
      rw [Files.read, AList.lookup_eq_none.mpr fun hmem => ?_]
      · rfl
      · have hkeys : path ∈ pinnedFiles.contents.keys := AList.mem_keys.mp hmem
        have hlist : pinnedFiles.contents.keys =
            [(lit "research/evidence", lit "2026-08.jsonl"), (lit "research/evidence", lit "known-invalid.json")] := by
          decide +kernel
        rw [hlist] at hkeys
        obtain h | h := List.mem_pair.mp hkeys
        · exact hevidence h
        · exact hallowed h

/-- A command that failed in the month before, on a disk that takes seven bytes at a time. -/
def augustWorld : World :=
  { regressionWorld with
    finish := ⟨2026, 8, 31, 23, 59, 59, 5, by decide, by decide, by decide, by decide⟩
    outcome := .exited 2
    disk := slowDisk 6 }

/-- A run on a disk that is full. -/
def fullWorld : World :=
  { regressionWorld with
    disk := { slowDisk 99 with
      takes := fun _ => .error (lit "[Errno 28] No space left on device")
      takes_pos := fun _ _ h => by cases h } }

theorem slowDisk_whole (k : Nat) : (slowDisk k).Whole := Disk.whole_of_takes fun _ => ⟨_, rfl⟩

/-- Where every write fails, none has written a part of its line. -/
theorem fullWorld_whole : fullWorld.disk.Whole := by
  intro line
  refine .inr ?_
  rw [writeAll]
  split_ifs <;> rfl

/-- A run in each of the three surroundings. -/
def threeRuns : List (World × Args) :=
  [(regressionWorld, regressionArgs), (augustWorld, regressionArgs), (fullWorld, regressionArgs)]

theorem runs_sound_regression :
    Kept pinnedFiles (runs plainValidator isDigit threeRuns pinnedFiles) ∧
      Sound plainValidator isDigit (fun _ => []) (fun _ => true) regressionWorld.origin (lit "research/evidence")
        (runs plainValidator isDigit threeRuns pinnedFiles) := by
  have hparsed : ∃ github_attempt options, parse_args github_attempt options = .ok regressionArgs := ⟨_, _, regressionArgs_parsed⟩
  have hall : ∀ run ∈ threeRuns, ∃ github_attempt options, parse_args github_attempt options = .ok run.2 :=
    List.forall_mem_cons.mpr ⟨hparsed, List.forall_mem_cons.mpr ⟨hparsed, List.forall_mem_singleton.mpr hparsed⟩⟩
  obtain ⟨hkept, hsound⟩ := @runs_sound plainValidator isDigit (fun _ => []) (fun _ => true) regressionWorld.origin
    (lit "research/evidence") pinnedFiles plainValidator_conforms (fun _ h => h) threeRuns hall
  refine ⟨hkept, hsound (List.forall_mem_cons.mpr ⟨?_, List.forall_mem_cons.mpr ⟨?_, List.forall_mem_singleton.mpr ?_⟩⟩)
    pinnedFiles_sound⟩
  · exact ⟨rfl, fun _ _ => rfl, slowDisk_whole 99⟩
  · exact ⟨rfl, fun _ _ => rfl, slowDisk_whole 6⟩
  · exact ⟨rfl, fun _ _ => rfl, fullWorld_whole⟩

end narwhal.run_recorded
