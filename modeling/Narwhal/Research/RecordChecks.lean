import Narwhal.Lib.Fold
import Narwhal.Research.RecordText

open pylib jsonschema narwhal.check_research_evidence narwhal.record_evidence

namespace narwhal.run_recorded

/-! What the two checks say about the record of a run. -/

/-! ### Times -/

theorem padded_two (n : Nat) : padded 2 n = [48 + n / 10 % 10, 48 + n % 10] := rfl

theorem padded_three (n : Nat) : padded 3 n = [48 + n / 10 / 10 % 10, 48 + n / 10 % 10, 48 + n % 10] := rfl

theorem padded_four (n : Nat) :
    padded 4 n = [48 + n / 10 / 10 / 10 % 10, 48 + n / 10 / 10 % 10, 48 + n / 10 % 10, 48 + n % 10] := rfl

theorem isDigit_ofMod (n : Nat) : isDigit (48 + n % 10) = true := by
  rw [isDigit, Bool.and_eq_true, decide_eq_true_eq, decide_eq_true_eq]
  omega

/-- Padded numbers are read back. -/
theorem natOfDigits_two {n : Nat} (h : n < 100) : natOfDigits [48 + n / 10 % 10, 48 + n % 10] = n := by
  simp only [natOfDigits, List.reverse_cons, List.reverse_nil, List.nil_append, List.cons_append, List.map_cons, List.map_nil,
    Nat.ofDigits_cons, Nat.ofDigits_nil, Nat.add_sub_cancel_left]
  omega

theorem natOfDigits_four {n : Nat} (h : n < 10000) :
    natOfDigits [48 + n / 10 / 10 / 10 % 10, 48 + n / 10 / 10 % 10, 48 + n / 10 % 10, 48 + n % 10] = n := by
  simp only [natOfDigits, List.reverse_cons, List.reverse_nil, List.nil_append, List.cons_append, List.map_cons, List.map_nil,
    Nat.ofDigits_cons, Nat.ofDigits_nil, Nat.add_sub_cancel_left]
  omega

/-- The time of a record has the form that both checks ask for, -/
theorem isTimestamp_isoformat {decimal : Nat → Bool} (hdecimal : ∀ c, isDigit c = true → decimal c = true) (m : Moment) :
    isTimestamp decimal m.isoformat = true := by
  have hd : ∀ n, decimal (48 + n % 10) = true := fun n => hdecimal _ (isDigit_ofMod n)
  have hform : lit "dddd-dd-ddTdd:dd:dd" =
      [100, 100, 100, 100, 45, 100, 100, 45, 100, 100, 84, 100, 100, 58, 100, 100, 58, 100, 100] := by decide
  simp [isTimestamp, hform, Moment.isoformat, padded_two, padded_three, padded_four, afterForm, hd, endsMoment]

/-- and names a moment. -/
theorem isMoment_isoformat (m : Moment) : isMoment m.isoformat = true := by
  have hyear := m.year_mem
  have hmonth := m.month_mem
  have hday := m.day_mem
  obtain ⟨hhour, hminute, hsecond, -⟩ := m.time_mem
  have hdays : daysInMonth m.year m.month ≤ 31 := by
    unfold daysInMonth
    split_ifs <;> omega
  have hyearField : natOfDigits ((m.isoformat.drop 0).take 4) = m.year := natOfDigits_four (by omega)
  have hmonthField : natOfDigits ((m.isoformat.drop 5).take 2) = m.month := natOfDigits_two (by omega)
  have hdayField : natOfDigits ((m.isoformat.drop 8).take 2) = m.day := natOfDigits_two (by omega)
  have hhourField : natOfDigits ((m.isoformat.drop 11).take 2) = m.hour := natOfDigits_two (by omega)
  have hminuteField : natOfDigits ((m.isoformat.drop 14).take 2) = m.minute := natOfDigits_two (by omega)
  have hsecondField : natOfDigits ((m.isoformat.drop 17).take 2) = m.second := natOfDigits_two (by omega)
  simp only [isMoment, isTimestamp_isoformat (fun _ h => h) m, hyearField, hmonthField, hdayField, hhourField, hminuteField,
    hsecondField, Bool.and_eq_true, decide_eq_true_eq, true_and]
  exact ⟨⟨⟨⟨⟨⟨⟨hyear.1, hmonth.1⟩, hmonth.2⟩, hday.1⟩, hday.2⟩, hhour⟩, hminute⟩, hsecond⟩

/-! ### Revisions and digests -/

/-- A full lowercase SHA. -/
def IsSha (revision : Str) : Prop := fullmatch (Regex.times 40 (anyOf hexRanges)) revision = true

/-- Hexadecimal digits are among the letters of times and digests. -/
theorem plain_of_hex {s : Str} (h : ∀ c ∈ s, (CodeClass.mk false hexRanges).has c = true) : ∀ c ∈ s, c ∈ PLAIN := by
  have hsmall : ∀ c < 103, (CodeClass.mk false hexRanges).has c = true → c ∈ PLAIN := by decide +kernel
  intro c hc
  have hhas := h c hc
  refine hsmall c ?_ hhas
  simp only [CodeClass.has, hexRanges, CodeClass.digits, List.cons_append, List.nil_append, List.any_cons, List.any_nil,
    Bool.or_false, Bool.false_bne, Bool.or_eq_true, Bool.and_eq_true, decide_eq_true_eq] at hhas
  omega

theorem plain_of_isSha {revision : Str} (h : IsSha revision) : ∀ c ∈ revision, c ∈ PLAIN :=
  plain_of_hex (fullmatch_times_iff.mp h).2

theorem plain_of_digest {digest : Str} (h : fullmatch digestPattern digest = true) : ∀ c ∈ digest, c ∈ PLAIN := by
  rw [fullmatch, Regex.fits_iff] at h
  obtain ⟨u, hu, v, hv, rfl⟩ := Language.mem_mul.mp h
  rw [mem_lang_literal.mp hu]
  have hplain : ∀ c ∈ lit "sha256:", c ∈ PLAIN := by decide
  exact List.forall_mem_append.mpr ⟨hplain, plain_of_hex (Regex.mem_lang_times_sym.mp hv).2⟩

/-! ### The metadata -/

/-- What the metadata of a run has under a name. -/
def KINDS : List (String × (Json → Bool)) :=
  [("exit_code", fun value => value = .null || isInt value), ("working_tree_dirty", isBool),
    ("platform", isText fun s => PLATFORMS.contains s), ("summary_available", isBool),
    ("pass_count", atLeast 0), ("fail_count", atLeast 0), ("skip_count", atLeast 0), ("warning_count", atLeast 0),
    ("cpu_time_ms", atLeast 0), ("peak_memory_mib", atLeast 0), ("storage_bytes", atLeast 0),
    ("artifact_digest", isText fun s => s = [] || fullmatch digestPattern s),
    ("failure_stage", isText fun s => (FAILURE_STAGES.map lit).contains s),
    ("recovery_result", isText fun s => (RECOVERY_RESULTS.map lit).contains s)]

/-- An item of the metadata has a value of the kind of its name. -/
def OfKind (item : Str × Json) : Prop := ∃ kind ∈ KINDS, lit kind.1 = item.1 ∧ kind.2 item.2 = true

/-- Metadata as `main` builds it. -/
structure Metadata (metadata : List (Str × Json)) : Prop where
  nodup : (metadata.map Prod.fst).Nodup
  kinds : ∀ item ∈ metadata, OfKind item
  dirty : lit "working_tree_dirty" ∈ metadata.map Prod.fst
  platform : lit "platform" ∈ metadata.map Prod.fst

/-- An item of a known kind may be added to the metadata, or take the place of another. -/
theorem Metadata.putField {metadata : List (Str × Json)} (h : Metadata metadata) {key : Str} {value : Json}
    (hkind : OfKind (key, value)) : Metadata (putField key value metadata) where
  nodup := nodup_keys_putField h.nodup
  kinds item hitem := by
    obtain rfl | hitem := mem_putField hitem
    · exact hkind
    · exact h.kinds item hitem
  dirty := mem_keys_putField_iff.mpr (.inr h.dirty)
  platform := mem_keys_putField_iff.mpr (.inr h.platform)

/-- The check of a name passes what the metadata has under it. -/
theorem Metadata.check {metadata : List (Str × Json)} (h : Metadata metadata) {name : String} {check : Json → Bool}
    (hmem : (name, check) ∈ KINDS) {value : Json} (hvalue : lookupField (lit name) metadata = some value) :
    check value = true := by
  obtain ⟨kind, hkind, hname, hcheck⟩ := h.kinds _ (mem_of_lookupField hvalue)
  have hnodup : (KINDS.map Prod.fst).Nodup := by decide
  have heq : kind = (name, check) :=
    List.inj_on_of_nodup_map hnodup hkind hmem (lit_inj.mp hname)
  rw [heq] at hcheck
  exact hcheck

/-- The names under which a report adds to the metadata. -/
def SUMMARY_NAMES : List String := ["summary_available", "pass_count", "fail_count", "warning_count"]

/-- An item that a report adds to the metadata. -/
def OfSummary (item : Str × Json) : Prop := OfKind item ∧ ∃ name ∈ SUMMARY_NAMES, item.1 = lit name

theorem ofSummary_count {name : String} (hname : name ∈ ["pass_count", "fail_count", "warning_count"]) {count : Int}
    (hcount : 0 ≤ count) : OfSummary (lit name, .int count) := by
  refine ⟨⟨(name, atLeast 0), ?_, rfl, decide_eq_true hcount⟩, name, List.mem_cons_of_mem _ hname, rfl⟩
  simp only [List.mem_cons, List.not_mem_nil, or_false] at hname
  obtain rfl | rfl | rfl := hname <;> simp [KINDS]

theorem ofSummary_available (b : Bool) : OfSummary (lit "summary_available", .bool b) :=
  ⟨⟨("summary_available", isBool), by simp [KINDS], rfl, rfl⟩, "summary_available", List.mem_cons_self, rfl⟩

/-- A count of a report is added where it is not negative. -/
theorem addCount_ok {summary counts counts' : List (Str × Json)} {names : String × String}
    (hname : names.2 ∈ ["pass_count", "fail_count", "warning_count"]) (h : addCount summary counts names = .ok counts')
    (hcounts : ∀ item ∈ counts, OfSummary item) : ∀ item ∈ counts', OfSummary item := by
  rw [addCount] at h
  split at h
  · split_ifs at h with hneg
    obtain rfl := Except.ok.inj h
    intro item hitem
    obtain rfl | hitem := mem_putField hitem
    · exact ofSummary_count hname (not_lt.mp hneg)
    · exact hcounts item hitem
  · cases h

/-- What is read from a report is of the kinds of a summary, -/
theorem regression_summary_ok {report : Option Report} {summary : List (Str × Json)}
    (h : regression_summary report = .ok summary) : ∀ item ∈ summary, OfSummary item := by
  unfold regression_summary at h
  split at h
  case h_1 =>
    obtain rfl := Except.ok.inj h
    exact List.forall_mem_singleton.mpr (ofSummary_available false)
  case h_6 =>
    split_ifs at h
    split at h
    · obtain ⟨_, hpass, h⟩ := foldlM_cons_ok_iff.mp h
      obtain ⟨_, hfail, h⟩ := foldlM_cons_ok_iff.mp h
      obtain ⟨_, hwarn, h⟩ := foldlM_cons_ok_iff.mp h
      obtain rfl := Except.ok.inj h
      have hstart := List.forall_mem_singleton.mpr (ofSummary_available true)
      exact addCount_ok (by decide) hwarn (addCount_ok (by decide) hfail (addCount_ok (by decide) hpass hstart))
    · cases h
  all_goals cases h

/-- also where the report could not be read. -/
theorem summaryOf_ok {report : Option Report} {summary : List (Str × Json)} {report_error : Bool}
    (h : summaryOf report = .ok (summary, report_error)) : ∀ item ∈ summary, OfSummary item := by
  rw [summaryOf] at h
  split at h
  case h_1 summary' hok =>
    obtain ⟨rfl, -⟩ := Prod.mk.inj (Except.ok.inj h)
    exact regression_summary_ok hok
  case h_2 => cases h
  case h_3 =>
    obtain ⟨rfl, -⟩ := Prod.mk.inj (Except.ok.inj h)
    exact List.forall_mem_singleton.mpr (ofSummary_available false)

/-- What `parse_args` leaves to be true of the options. -/
structure Options.Checked (options : Options) : Prop where
  counts : ∀ count ∈ options.counts, ∀ n, count.2 = some n → 0 ≤ n
  digest : ∀ digest, options.artifact_digest = some digest → digest = [] ∨ fullmatch digestPattern digest = true

/-- What `parse_args` leaves to be true of the arguments. -/
structure Args.Checked (args : Args) : Prop where
  options : args.options.Checked
  attempt : 1 ≤ args.attempt
  human_interventions : 0 ≤ args.human_interventions
  review_corrections : 0 ≤ args.review_corrections
  ci_retries : 0 ≤ args.ci_retries

/-- The counts and the digest of the options are checked before anything runs, -/
theorem checkCounts_ok {args args' : Args} (h : checkCounts args = .ok args') : args'.Checked := by
  rw [checkCounts] at h
  split at h
  · cases h
  · next hfind =>
    split at h
    · cases h
    · next hcounts =>
      split_ifs at h with hdigest
      obtain rfl := Except.ok.inj h
      simp only [List.find?_eq_none, List.forall_mem_cons, decide_eq_true_eq, not_lt] at hfind
      obtain ⟨hattempt, hhuman, hreview, hci, -⟩ := hfind
      refine ⟨⟨fun count hcount n hn => ?_, fun digest hsome => ?_⟩, hattempt, hhuman, hreview, hci⟩
      · have hnot := List.find?_eq_none.mp hcounts count hcount
        rw [hn] at hnot
        simpa using hnot
      · rw [hsome] at hdigest
        simpa [or_iff_not_imp_left] using hdigest

/-- so the arguments that a run starts with are checked ones. -/
theorem parse_args_ok {github_attempt : Option Int} {options : Options} {args : Args}
    (h : parse_args github_attempt options = .ok args) : args.Checked := by
  unfold parse_args at h
  split_ifs at h
  cases github_attempt with
  | none => cases h
  | some github_attempt => exact checkCounts_ok h

theorem ofKind_of_mem {name : String} (check : Json → Bool) (hmem : (name, check) ∈ KINDS) {value : Json}
    (hvalue : check value = true) : OfKind (lit name, value) :=
  ⟨(name, check), hmem, rfl, hvalue⟩

theorem isText_contains {names : List String} {name : String} (h : name ∈ names) :
    isText (fun s => (names.map lit).contains s) (.str (lit name)) = true :=
  List.contains_iff_mem.mpr (List.mem_map_of_mem h)

/-- Every option that is given has a value of its kind. -/
theorem Options.Checked.ofKind {options : Options} (h : options.Checked) {option : String × Option Json}
    (hoption : option ∈ options.metadata) {value : Json} (hvalue : option.2 = some value) : OfKind (lit option.1, value) := by
  obtain hmeasured | hother := List.mem_append.mp hoption
  · obtain ⟨count, hcount, rfl⟩ := List.mem_map.mp hmeasured
    obtain ⟨n, hn, rfl⟩ := Option.map_eq_some_iff.mp hvalue
    have hkind : (count.1, atLeast 0) ∈ KINDS := by
      have hname : count.1 ∈ options.counts.map Prod.fst := List.mem_map_of_mem hcount
      simp only [Options.counts, List.map_cons, List.map_nil, List.mem_cons, List.not_mem_nil, or_false] at hname
      obtain heq | heq | heq | heq | heq | heq := hname <;> simp [KINDS, heq]
    exact ofKind_of_mem _ hkind (decide_eq_true (h.counts count hcount n hn))
  · simp only [List.mem_cons, List.not_mem_nil, or_false] at hother
    obtain rfl | rfl | rfl := hother
    · obtain ⟨digest, hdigest, rfl⟩ := Option.map_eq_some_iff.mp hvalue
      refine ofKind_of_mem (isText fun s => s = [] || fullmatch digestPattern s) (by simp [KINDS]) ?_
      simpa [isText] using h.digest digest hdigest
    · obtain ⟨stage, -, rfl⟩ := Option.map_eq_some_iff.mp hvalue
      exact ofKind_of_mem (isText fun s => (FAILURE_STAGES.map lit).contains s) (by simp [KINDS])
        (isText_contains stage.2)
    · obtain ⟨result, -, rfl⟩ := Option.map_eq_some_iff.mp hvalue
      exact ofKind_of_mem (isText fun s => (RECOVERY_RESULTS.map lit).contains s) (by simp [KINDS])
        (isText_contains result.2)

/-- What a run has measured comes first in its metadata. -/
theorem base_metadata (outcome : Outcome) (dirty : Bool) {platform : Str} (hplatform : platform ∈ PLATFORMS) :
    Metadata [(lit "exit_code", orNull Json.int outcome.exit_code),
      (lit "working_tree_dirty", .bool dirty), (lit "platform", .str platform)] where
  nodup := show [lit "exit_code", lit "working_tree_dirty", lit "platform"].Nodup by decide
  kinds := by
    simp only [List.forall_mem_cons]
    refine ⟨ofKind_of_mem (fun value => value = .null || isInt value) (by simp [KINDS]) ?_,
      ofKind_of_mem isBool (by simp [KINDS]) rfl,
      ofKind_of_mem (isText fun s => PLATFORMS.contains s) (by simp [KINDS])
        (List.contains_iff_mem.mpr hplatform), List.forall_mem_nil _⟩
    cases outcome <;> rfl
  dirty := List.mem_cons_of_mem _ List.mem_cons_self
  platform := List.mem_cons_of_mem _ (List.mem_cons_of_mem _ List.mem_cons_self)

/-- Items of known kinds, one after the other, leave metadata, -/
theorem Metadata.foldl_putField {metadata items : List (Str × Json)} (h : Metadata metadata)
    (hitems : ∀ item ∈ items, OfKind item) :
    Metadata (items.foldl (fun metadata item => pylib.putField item.1 item.2 metadata) metadata) := by
  induction items generalizing metadata with
  | nil => exact h
  | cons item items ih =>
    obtain ⟨hitem, hitems⟩ := List.forall_mem_cons.mp hitems
    exact ih (h.putField hitem) hitems

/-- and so do the options that are given. -/
theorem Metadata.foldl_putOption {metadata : List (Str × Json)} {options : List (String × Option Json)} (h : Metadata metadata)
    (hoptions : ∀ option ∈ options, ∀ value, option.2 = some value → OfKind (lit option.1, value)) :
    Metadata (options.foldl putOption metadata) := by
  induction options generalizing metadata with
  | nil => exact h
  | cons option options ih =>
    obtain ⟨hoption, hoptions⟩ := List.forall_mem_cons.mp hoptions
    refine ih ?_ hoptions
    rw [putOption]
    cases hvalue : option.2 with
    | none => exact h
    | some value => exact h.putField (hoption value hvalue)

section

variable (outcome : Outcome) (dirty : Bool) {platform : Str} {summary : List (Str × Json)} (report_error : Bool)
  {options : Options}

/-- What `main` builds is metadata. -/
theorem metadataOf_metadata (hplatform : platform ∈ PLATFORMS) (hsummary : ∀ item ∈ summary, OfSummary item)
    (hoptions : options.Checked) : Metadata (metadataOf outcome dirty platform summary report_error options) := by
  have hbase := (base_metadata outcome dirty hplatform).foldl_putField fun item hitem => (hsummary item hitem).1
  rw [metadataOf]
  refine Metadata.foldl_putOption ?_ fun option hoption value => hoptions.ofKind hoption
  split_ifs
  · exact hbase.putField (ofKind_of_mem (isText fun s => (FAILURE_STAGES.map lit).contains s) (by simp [KINDS])
      (isText_contains (by decide)))
  · exact hbase

/-- An option leaves what the metadata has under other names. -/
theorem lookupField_putOption_of_ne {option : String × Option Json} {name : String} (h : option.1 ≠ name)
    (metadata : List (Str × Json)) : lookupField (lit name) (putOption metadata option) = lookupField (lit name) metadata := by
  rw [putOption]
  cases option.2 with
  | none => rfl
  | some value => exact lookupField_putField_of_ne fun heq => h (lit_inj.mp heq)

/-- Each option is found in the metadata under its name. -/
theorem lookupField_foldl_putOption {given : List (String × Option Json)} (hnodup : (given.map Prod.fst).Nodup)
    {name : String} {value : Option Json} (h : (name, value) ∈ given) (metadata : List (Str × Json)) :
    lookupField (lit name) (given.foldl putOption metadata) = value.or (lookupField (lit name) metadata) := by
  have hothers : ∀ (given : List (String × Option Json)) (metadata : List (Str × Json)), name ∉ given.map Prod.fst →
      lookupField (lit name) (given.foldl putOption metadata) = lookupField (lit name) metadata := by
    intro given
    induction given with
    | nil => intro metadata _; rfl
    | cons option given ih =>
      intro metadata hnot
      rw [List.map_cons, List.mem_cons, not_or] at hnot
      obtain ⟨hne, hnot⟩ := hnot
      rw [List.foldl_cons, ih _ hnot, lookupField_putOption_of_ne (Ne.symm hne)]
  induction given generalizing metadata with
  | nil => cases h
  | cons option given ih =>
    obtain ⟨hfresh, hnodup⟩ := List.nodup_cons.mp hnodup
    rw [List.foldl_cons]
    obtain rfl | h := List.mem_cons.mp h
    · rw [hothers given _ hfresh, putOption]
      cases value with
      | none => rfl
      | some value => exact lookupField_putField_self
    · have hne : option.1 ≠ name := fun heq => hfresh (heq ▸ List.mem_map_of_mem h)
      rw [ih hnodup h, lookupField_putOption_of_ne hne]

/-- The metadata has the digest that was given, and no other. -/
theorem lookupField_digest (hsummary : ∀ item ∈ summary, OfSummary item) :
    lookupField (lit "artifact_digest") (metadataOf outcome dirty platform summary report_error options) =
      options.artifact_digest.map Json.str := by
  have hsum : ∀ (summary metadata : List (Str × Json)), (∀ item ∈ summary, OfSummary item) →
      lookupField (lit "artifact_digest") (summary.foldl (fun metadata item => putField item.1 item.2 metadata) metadata) =
        lookupField (lit "artifact_digest") metadata := by
    intro summary
    induction summary with
    | nil => intro metadata _; rfl
    | cons item summary ih =>
      intro metadata hitems
      obtain ⟨⟨-, name, hname, hkey⟩, hitems⟩ := List.forall_mem_cons.mp hitems
      rw [List.foldl_cons, ih _ hitems, lookupField_putField_of_ne]
      rw [hkey]
      intro heq
      rw [lit_inj.mp heq] at hname
      exact absurd hname (by decide)
  have hnodup : (options.metadata.map Prod.fst).Nodup := by
    rw [show options.metadata.map Prod.fst = ["pass_count", "fail_count", "skip_count", "cpu_time_ms", "peak_memory_mib",
      "storage_bytes", "artifact_digest", "failure_stage", "recovery_result"] from rfl]
    decide
  have hgiven : ("artifact_digest", options.artifact_digest.map Json.str) ∈ options.metadata :=
    List.mem_append_right _ List.mem_cons_self
  rw [metadataOf, lookupField_foldl_putOption hnodup hgiven]
  have hbase : ∀ metadata : List (Str × Json), lookupField (lit "artifact_digest") metadata = none →
      lookupField (lit "artifact_digest") (if report_error = true then putField (lit "failure_stage")
        (.str (lit "validation")) metadata else metadata) = none := by
    intro metadata hnone
    split_ifs
    · rw [lookupField_putField_of_ne (by decide), hnone]
    · exact hnone
  rw [hbase _ ((hsum summary _ hsummary).trans (by simp [lookupField]))]
  exact Option.or_none

end

/-! ### The strings of a record -/

theorem made_of_atLeast {n : Int} {value : Json} (h : atLeast n value = true) : value.Made (· ∈ KEYS) Written := by
  cases value <;> trivial

theorem made_of_isText {check : Str → Bool} {value : Json} (h : isText check value = true)
    (hcheck : ∀ s, check s = true → Written s) : value.Made (· ∈ KEYS) Written := by
  cases value <;> first | exact hcheck _ h | cases h

theorem made_of_isBool {value : Json} (h : isBool value = true) : value.Made (· ∈ KEYS) Written := by
  cases value <;> trivial

theorem written_of_mem {names : List String} (hnames : names ⊆ WORDS) {s : Str}
    (h : (names.map lit).contains s = true) : Written s := by
  obtain ⟨name, hname, rfl⟩ := List.mem_map.mp (List.contains_iff_mem.mp h)
  exact .inl (List.mem_map_of_mem (hnames hname))

/-- Values of a known kind are made of the strings of records. -/
theorem made_of_kind : ∀ kind ∈ KINDS, ∀ value, kind.2 value = true → value.Made (· ∈ KEYS) Written := by
  have hdigest : ∀ s : Str, (s = [] || fullmatch digestPattern s) = true → Written s := by
    intro s hs
    rw [Bool.or_eq_true, decide_eq_true_eq] at hs
    obtain rfl | hs := hs
    · exact written_of_plain (List.forall_mem_nil _)
    · exact written_of_plain (plain_of_digest hs)
  have hcode : ∀ value : Json, (value = .null || isInt value) = true → value.Made (· ∈ KEYS) Written := by
    intro value hvalue
    cases value <;> trivial
  have hatLeast : ∀ value, atLeast 0 value = true → value.Made (· ∈ KEYS) Written := fun _ => made_of_atLeast
  have hbool : ∀ value, isBool value = true → value.Made (· ∈ KEYS) Written := fun _ => made_of_isBool
  simp only [KINDS, List.forall_mem_cons]
  refine ⟨hcode, hbool, ?_, hbool, hatLeast, hatLeast, hatLeast, hatLeast, hatLeast, hatLeast, hatLeast, ?_, ?_, ?_,
    List.forall_mem_nil _⟩
  · exact fun value h => made_of_isText h fun s hs => written_of_mem_platforms (List.contains_iff_mem.mp hs)
  · exact fun value h => made_of_isText h hdigest
  · exact fun value h => made_of_isText h fun s => written_of_mem (by decide)
  · exact fun value h => made_of_isText h fun s => written_of_mem (by decide)

/-- So is the metadata of a run, -/
theorem Metadata.made {metadata : List (Str × Json)} (h : Metadata metadata) :
    (Json.obj metadata).Made (· ∈ KEYS) Written := by
  refine madeFields_iff.mpr fun item hitem => ?_
  obtain ⟨kind, hkind, hname, hvalue⟩ := h.kinds item hitem
  have hnames : KINDS.map Prod.fst ⊆ requiredFields ++ metadataFields := by decide
  refine ⟨?_, made_of_kind kind hkind _ hvalue⟩
  rw [← hname]
  exact List.mem_map_of_mem (hnames (List.mem_map_of_mem hkind))

/-- and its record. -/
theorem recordOf_made {w : World} {args : Args} {revision : Option Str} {result : String} {environment : Str}
    {metadata : List (Str × Json)} (hrevision : ∀ r, revision = some r → IsSha r) (hresult : result ∈ RESULTS)
    (henvironment : Written environment) (hmetadata : Metadata metadata) :
    (Json.obj (recordOf w args revision result environment metadata)).Made (· ∈ KEYS) Written := by
  have hword : ∀ {name : String} (names : List String), names ⊆ WORDS → name ∈ names → Written (lit name) :=
    fun _ hnames hname => .inl (List.mem_map_of_mem (hnames hname))
  have htime : Written w.start.isoformat := by
    apply written_of_plain
    have hdigit : ∀ n, 48 + n % 10 ∈ PLAIN := by
      intro n
      have hsmall : ∀ d < 10, 48 + d ∈ PLAIN := by decide
      exact hsmall _ (Nat.mod_lt n (by decide))
    have hpunctuation : ∀ c ∈ [45, 84, 58, 46, 90], c ∈ PLAIN := by decide
    simp only [List.forall_mem_cons] at hpunctuation
    simp [Moment.isoformat, padded_two, padded_three, padded_four, hdigit, hpunctuation]
  have hkeys : ∀ key ∈ requiredFields, lit key ∈ KEYS := fun key hkey =>
    List.mem_map_of_mem (List.mem_append_left _ hkey)
  simp only [requiredFields, List.forall_mem_cons] at hkeys
  obtain ⟨h1, h2, h3, h4, h5, h6, h7, h8, h9, h10, h11, h12, h13, h14, -⟩ := hkeys
  refine ⟨h1, hword ["1.0"] (by decide) (by decide), h2, htime, h3, hword [REPOSITORY] (by decide)
    (by decide), h4, ?_, h5, hword EVENT_TYPES (by decide) args.options.event_type.2, h6,
    hword (TASK_EVENTS.map Prod.fst) (by decide) args.options.task.2, h7, hword RESULTS (by decide) hresult,
    h8, trivial, h9, henvironment, h10, trivial, h11, trivial, h12, trivial, h13, trivial, h14, hmetadata.made, trivial⟩
  cases revision with
  | none => trivial
  | some r => exact written_of_plain (plain_of_isSha (hrevision r rfl))

end narwhal.run_recorded
