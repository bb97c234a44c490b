import Narwhal.Evidence.VerifyAgree

open pylib

namespace narwhal.evidence

def isIntent (entry : Json) : Bool := Json.get entry "kind" = some (.str (lit "intent"))

def isResult (entry : Json) : Bool := Json.get entry "kind" = some (.str (lit "result"))

/-- A result that names the entry with this number as its intent. -/
def settlesIntent (i : Nat) (entry : Json) : Bool :=
  isResult entry && Json.get entry "intent_seq" = some (.int i)

theorem not_isIntent_of_isResult {entry : Json} (h : isResult entry = true) : isIntent entry = false := by
  simp only [isResult, isIntent, decide_eq_true_eq, decide_eq_false_iff_not] at h ⊢
  rw [h]
  decide

/-- The intents with their numbers, in order. -/
def intents (entries : List Json) : List (Int × Json) :=
  (entries.zipIdx.filter fun entry => isIntent entry.1).map fun entry => ((entry.2 : Int), entry.1)

theorem intents_concat (entries : List Json) (entry : Json) :
    intents (entries ++ [entry]) =
      intents entries ++ if isIntent entry then [((entries.length : Int), entry)] else [] := by
  simp only [intents, List.zipIdx_append, List.filter_append, List.map_append]
  by_cases h : isIntent entry = true
  · simp [List.zipIdx, h]
  · simp [List.zipIdx, h]

theorem mem_intents_iff {entries : List Json} {seq : Int} {entry : Json} :
    (seq, entry) ∈ intents entries ↔ ∃ i : Nat, seq = i ∧ entries[i]? = some entry ∧ isIntent entry = true := by
  simp only [intents, List.mem_map, List.mem_filter, Prod.exists, List.mem_zipIdx_iff_getElem?, Prod.mk.injEq]
  constructor
  · rintro ⟨e, i, ⟨hget, hintent⟩, rfl, rfl⟩
    exact ⟨i, rfl, hget, hintent⟩
  · rintro ⟨i, rfl, hget, hintent⟩
    exact ⟨entry, i, ⟨hget, hintent⟩, rfl, rfl⟩

/-! ### What a round without errors does -/

/-- An entry that is scanned without an error, and what the tables take from it. -/
inductive Scans (s : EntryScan) (entry : Json) : EntryScan → Prop where
  | intent {s' : EntryScan} (gid : Str) (kind : isIntent entry = true)
      (grant : Json.get entry "grant_id" = some (.str gid)) (fresh : s.intents_by_grant.lookup gid = none)
      (i : s'.i = s.i + 1) (intents : s'.intents_by_seq = ((s.i : Int), entry) :: s.intents_by_seq)
      (grants : s'.intents_by_grant = (gid, s.i) :: s.intents_by_grant)
      (results : s'.results_by_intent = s.results_by_intent) : Scans s entry s'
  | result {s' : EntryScan} (iseq : Int) (intent : Json) (kind : isResult entry = true)
      (settles : Json.get entry "intent_seq" = some (.int iseq)) (nonneg : 0 ≤ iseq) (earlier : iseq < s.i)
      (found : s.intents_by_seq.lookup iseq = some intent)
      (grant : Json.get intent "grant_id" = Json.get entry "grant_id")
      (invocation : Json.get intent "invocation_hash" = Json.get entry "invocation_hash")
      (open_ : s.results_by_intent.lookup iseq = none)
      (i : s'.i = s.i + 1) (intents : s'.intents_by_seq = s.intents_by_seq)
      (grants : s'.intents_by_grant = s.intents_by_grant)
      (results : s'.results_by_intent = (iseq, s.i) :: s.results_by_intent) : Scans s entry s'

/-- A silent look at the result of an intent finds it, with the same grant and invocation. -/
theorem scan_result_eq_nil {s : EntryScan} {entry : Json} {iseq : Int} (h : scan_result s entry iseq = []) :
    0 ≤ iseq ∧ iseq < s.i ∧ ∃ intent, s.intents_by_seq.lookup iseq = some intent ∧
      Json.get intent "grant_id" = Json.get entry "grant_id" ∧
      Json.get intent "invocation_hash" = Json.get entry "invocation_hash" := by
  unfold scan_result at h
  split at h
  · cases h
  · next hrange =>
    split at h
    · cases h
    · next intent hintent =>
      rw [List.append_eq_nil_iff, report_eq_nil_iff, report_eq_nil_iff] at h
      simp only [decide_eq_false_iff_not, not_not] at h
      exact ⟨by omega, by omega, intent, hintent, h⟩

theorem HasField.get_str {rec : Json} {field : String} (h : HasField rec field is_nonempty_str) :
    ∃ s, Json.get rec field = some (.str s) := by
  obtain ⟨value, hvalue, hok⟩ := h
  cases value with
  | str s => exact ⟨s, hvalue⟩
  | _ => cases hok

theorem scans_of_scan_entry {verifier : Verifier} {s : EntryScan} {entry : Json}
    (h : (scan_entry verifier s entry).1 = []) : Scans s entry (scan_entry verifier s entry).2 := by
  unfold scan_entry at h ⊢
  cases hshape : validate_entry_shape entry s.i with
  | cons first more =>
    rw [hshape] at h
    cases h
  | nil =>
    have hok := validate_entry_shape_eq_nil_iff.mp hshape
    simp only [hshape, List.append_eq_nil_iff] at h ⊢
    obtain ⟨-, hkind⟩ := h
    obtain ⟨gid, hgid⟩ := hok.grant_id.get_str
    rcases hok.kind with hintent | ⟨hresult, hseq, -⟩
    · have hget : Json.getStr entry "grant_id" [] = gid := by simp [Json.getStr, hgid]
      simp only [scan_kind, hintent, hget, if_true] at hkind ⊢
      cases hfresh : s.intents_by_grant.lookup gid with
      | some i =>
        simp [hfresh] at hkind
      | none =>
        simp only [Option.isSome_none, Bool.false_eq_true, if_false]
        exact .intent gid (by simp [isIntent, hintent]) hgid hfresh rfl rfl rfl rfl
    · obtain ⟨iseq, hiseq, -⟩ := hseq.get_nonneg
      have hnot : ¬ Json.get entry "kind" = some (.str (lit "intent")) := by
        rw [hresult]
        decide
      simp only [scan_kind, if_neg hnot, if_pos hresult, hiseq] at hkind ⊢
      cases hopen : s.results_by_intent.lookup iseq with
      | some i =>
        simp [hopen] at hkind
      | none =>
        simp only [hopen, Option.isSome_none, Bool.false_eq_true, if_false] at hkind ⊢
        obtain ⟨hnonneg, hearlier, intent, hintent, hgrant, hinvocation⟩ := scan_result_eq_nil hkind
        exact .result iseq intent (by simp [isResult, hresult]) hiseq hnonneg hearlier hintent hgrant hinvocation hopen rfl
          rfl rfl rfl

/-! ### What the tables hold -/

/-- The entry with this number is an intent of the grant. -/
def Consumes (entries : List Json) (i : Nat) (gid : Str) : Prop :=
  ∃ entry, entries[i]? = some entry ∧ isIntent entry = true ∧ Json.get entry "grant_id" = some (.str gid)

/-- The result with number `j` settles the earlier intent with number `i`, of the same grant and
    invocation. -/
structure Settles (entries : List Json) (i j : Nat) (entry : Json) : Prop where
  earlier : i < j
  names : Json.get entry "intent_seq" = some (.int i)
  intent : ∃ intent, entries[i]? = some intent ∧ isIntent intent = true ∧
    Json.get intent "grant_id" = Json.get entry "grant_id" ∧
    Json.get intent "invocation_hash" = Json.get entry "invocation_hash"

theorem Settles.concat {entries : List Json} {i j : Nat} {entry : Json} (h : Settles entries i j entry) (last : Json) :
    Settles (entries ++ [last]) i j entry := by
  obtain ⟨hearlier, hnames, intent, hget, hrest⟩ := h
  refine ⟨hearlier, hnames, intent, ?_, hrest⟩
  rw [List.getElem?_append_left (List.getElem?_eq_some_iff.mp hget).1, hget]

/-- The tables after a prefix that was scanned without an error, and what holds of the prefix. -/
structure Scanned (done : List Json) (s : EntryScan) : Prop where
  i : s.i = done.length
  intents_by_seq : s.intents_by_seq.reverse = intents done
  intents_by_grant : ∀ gid, s.intents_by_grant.lookup gid = none ↔ ∀ i, ¬ Consumes done i gid
  results_by_intent : ∀ iseq : Int, s.results_by_intent.lookup iseq = none ↔
    ∀ r ∈ done, isResult r = true → Json.get r "intent_seq" ≠ some (.int iseq)
  kind : ∀ entry ∈ done, isIntent entry = true ∨ isResult entry = true
  grant : ∀ entry ∈ done, isIntent entry = true → ∃ gid, Json.get entry "grant_id" = some (.str gid)
  once : ∀ i j gid, Consumes done i gid → Consumes done j gid → i = j
  settled : ∀ (j : Nat) entry, done[j]? = some entry → isResult entry = true → ∃ i, Settles done i j entry
  settled_once : ∀ (j k : Nat) entry entry', done[j]? = some entry → done[k]? = some entry' → isResult entry = true →
    isResult entry' = true → Json.get entry "intent_seq" = Json.get entry' "intent_seq" → j = k

theorem getElem?_concat_cases {α : Type} {l : List α} {a b : α} {i : Nat} (h : (l ++ [a])[i]? = some b) :
    l[i]? = some b ∨ i = l.length ∧ b = a := by
  obtain hlt | hge := Nat.lt_or_ge i l.length
  · rw [List.getElem?_append_left hlt] at h
    exact .inl h
  · rw [List.getElem?_append_right hge, List.getElem?_singleton] at h
    split at h
    · next hzero => exact .inr ⟨by omega, (Option.some.inj h).symm⟩
    · cases h

theorem consumes_concat_iff {entries : List Json} {last : Json} {i : Nat} {gid : Str} :
    Consumes (entries ++ [last]) i gid ↔ Consumes entries i gid ∨
      i = entries.length ∧ isIntent last = true ∧ Json.get last "grant_id" = some (.str gid) := by
  constructor
  · rintro ⟨entry, hget, hintent, hgid⟩
    obtain hold | ⟨hi, rfl⟩ := getElem?_concat_cases hget
    · exact .inl ⟨entry, hold, hintent, hgid⟩
    · exact .inr ⟨hi, hintent, hgid⟩
  · rintro (⟨entry, hget, hrest⟩ | ⟨rfl, hrest⟩)
    · refine ⟨entry, ?_, hrest⟩
      rw [List.getElem?_append_left (List.getElem?_eq_some_iff.mp hget).1, hget]
    · exact ⟨last, by simp, hrest⟩

theorem scanned_start : Scanned [] .start := by
  refine ⟨rfl, rfl, fun gid => ?_, fun iseq => ?_, ?_, ?_, ?_, ?_, ?_⟩
  · simp [EntryScan.start, Consumes]
  · simp [EntryScan.start]
  · simp
  · simp
  · rintro i j gid ⟨entry, hget, -⟩
    cases hget
  · intro j entry hget
    cases hget
  · intro j k entry entry' hget
    cases hget

theorem lookup_cons_eq_none_iff {α β : Type} [BEq α] [LawfulBEq α] {k a : α} {b : β} {l : List (α × β)} :
    ((a, b) :: l).lookup k = none ↔ k ≠ a ∧ l.lookup k = none := by
  rw [List.lookup_cons]
  by_cases h : k = a
  · simp [h]
  · simp [beq_eq_false_iff_ne.mpr h, h]

/-- A number is bound to an intent exactly where the intent stands. -/
theorem Scanned.lookup_intent {done : List Json} {s : EntryScan} (h : Scanned done s) {iseq : Int} {intent : Json}
    (hlookup : s.intents_by_seq.lookup iseq = some intent) :
    ∃ i : Nat, iseq = i ∧ done[i]? = some intent ∧ isIntent intent = true := by
  obtain ⟨before, after, heq, -⟩ := List.lookup_eq_some_iff.mp hlookup
  have hmem : (iseq, intent) ∈ intents done := by
    rw [← h.intents_by_seq, List.mem_reverse, heq]
    simp
  exact mem_intents_iff.mp hmem

theorem Scanned.next {done : List Json} {s s' : EntryScan} {entry : Json} (h : Scanned done s)
    (hscans : Scans s entry s') : Scanned (done ++ [entry]) s' := by
  cases hscans with
  | intent gid kind grant fresh i intents grants results =>
    have hnotResult : isResult entry = false := by
      by_contra hresult
      rw [not_isIntent_of_isResult (Bool.not_eq_false _ ▸ hresult)] at kind
      cases kind
    have hfresh := (h.intents_by_grant gid).mp fresh
    refine ⟨by simp [i, h.i], ?_, fun gid' => ?_, fun iseq => ?_, ?_, ?_, ?_, ?_, ?_⟩
    · rw [intents, List.reverse_cons, h.intents_by_seq, intents_concat, if_pos kind, h.i]
    · rw [grants, lookup_cons_eq_none_iff, h.intents_by_grant]
      simp only [consumes_concat_iff, not_or, kind, grant, true_and, Option.some.injEq, Json.str.injEq]
      constructor
      · rintro ⟨hne, hnone⟩ j
        exact ⟨hnone j, fun hj => hne hj.2.symm⟩
      · intro hnone
        exact ⟨fun heq => (hnone done.length).2 ⟨rfl, heq.symm⟩, fun j => (hnone j).1⟩
    · rw [results, h.results_by_intent]
      simp only [List.forall_mem_append, List.forall_mem_singleton, hnotResult, Bool.false_eq_true, false_implies, and_true]
    · simp only [List.forall_mem_append, List.forall_mem_singleton]
      exact ⟨h.kind, .inl kind⟩
    · simp only [List.forall_mem_append, List.forall_mem_singleton]
      exact ⟨h.grant, fun _ => ⟨gid, grant⟩⟩
    · intro j k gid' hj hk
      have hlast : ∀ j, j = done.length ∧ isIntent entry = true ∧ Json.get entry "grant_id" = some (.str gid') →
          gid' = gid := by
        rintro j ⟨-, -, hgid⟩
        rw [grant] at hgid
        exact (Json.str.inj (Option.some.inj hgid)).symm
      obtain hj | hj := consumes_concat_iff.mp hj
      · obtain hk | hk := consumes_concat_iff.mp hk
        · exact h.once j k gid' hj hk
        · obtain rfl := hlast k hk
          exact absurd hj (hfresh j)
      · obtain rfl := hlast j hj
        obtain hk | hk := consumes_concat_iff.mp hk
        · exact absurd hk (hfresh k)
        · exact hj.1.trans hk.1.symm
    · intro j r hget hresult
      obtain hold | ⟨-, rfl⟩ := getElem?_concat_cases hget
      · obtain ⟨i, hi⟩ := h.settled j r hold hresult
        exact ⟨i, hi.concat entry⟩
      · rw [hnotResult] at hresult
        cases hresult
    · intro j k r r' hj hk hr hr' hsame
      obtain hj | ⟨-, rfl⟩ := getElem?_concat_cases hj
      · obtain hk | ⟨-, rfl⟩ := getElem?_concat_cases hk
        · exact h.settled_once j k r r' hj hk hr hr' hsame
        · rw [hnotResult] at hr'
          cases hr'
      · rw [hnotResult] at hr
        cases hr
  | result iseq intent kind settles nonneg earlier found grant invocation open_ i intents grants results =>
    have hnotIntent := not_isIntent_of_isResult kind
    have hopen := (h.results_by_intent iseq).mp open_
    obtain ⟨i', rfl, hintent, hisIntent⟩ := h.lookup_intent found
    have hconsumes : ∀ j gid', Consumes (done ++ [entry]) j gid' ↔ Consumes done j gid' := by
      intro j gid'
      rw [consumes_concat_iff, hnotIntent]
      simp
    refine ⟨by simp [i, h.i], ?_, fun gid' => ?_, fun iseq => ?_, ?_, ?_, ?_, ?_, ?_⟩
    · rw [intents, h.intents_by_seq, intents_concat, hnotIntent]
      simp
    · rw [grants, h.intents_by_grant]
      simp only [hconsumes]
    · rw [results, lookup_cons_eq_none_iff, h.results_by_intent]
      simp only [List.forall_mem_append, List.forall_mem_singleton, kind, settles, true_implies, ne_eq, Option.some.injEq,
        Json.int.injEq]
      constructor
      · rintro ⟨hne, hnone⟩
        exact ⟨hnone, fun heq => hne heq.symm⟩
      · rintro ⟨hnone, hne⟩
        exact ⟨fun heq => hne heq.symm, hnone⟩
    · simp only [List.forall_mem_append, List.forall_mem_singleton]
      exact ⟨h.kind, .inr kind⟩
    · simp only [List.forall_mem_append, List.forall_mem_singleton]
      refine ⟨h.grant, fun hbad => ?_⟩
      rw [hnotIntent] at hbad
      cases hbad
    · intro j k gid' hj hk
      exact h.once j k gid' ((hconsumes j gid').mp hj) ((hconsumes k gid').mp hk)
    · intro j r hget hresult
      obtain hold | ⟨hj, rfl⟩ := getElem?_concat_cases hget
      · obtain ⟨i, hi⟩ := h.settled j r hold hresult
        exact ⟨i, hi.concat entry⟩
      · have hlt := (List.getElem?_eq_some_iff.mp hintent).1
        refine ⟨i', by omega, settles, intent, ?_, hisIntent, grant, invocation⟩
        rw [List.getElem?_append_left hlt, hintent]
    · intro j k r r' hj hk hr hr' hsame
      obtain hjold | ⟨hjlast, rfl⟩ := getElem?_concat_cases hj
      · obtain hkold | ⟨-, rfl⟩ := getElem?_concat_cases hk
        · exact h.settled_once j k r r' hjold hkold hr hr' hsame
        · exact absurd (hsame.trans settles) (hopen r (List.mem_of_getElem? hjold) hr)
      · obtain hkold | ⟨hklast, rfl⟩ := getElem?_concat_cases hk
        · exact absurd (hsame.symm.trans settles) (hopen r' (List.mem_of_getElem? hkold) hr')
        · exact hjlast.trans hklast.symm

/-- A whole scan without errors. -/
theorem Scanned.collect {verifier : Verifier} {done : List Json} {s : EntryScan} (h : Scanned done s)
    (entries : List Json) (hnil : (pylib.collect (scan_entry verifier) s entries).1 = []) :
    Scanned (done ++ entries) (pylib.collect (scan_entry verifier) s entries).2 := by
  induction entries generalizing done s with
  | nil => simpa [pylib.collect] using h
  | cons entry rest ih =>
    simp only [pylib.collect, List.append_eq_nil_iff] at hnil ⊢
    have hnext := ih (h.next (scans_of_scan_entry hnil.1)) hnil.2
    simpa using hnext

/-! ### Reports without errors -/

/-- The intents that no later entry settles, with their numbers, in order. -/
def unsettled (entries : List Json) : List (Int × Json) :=
  (entries.zipIdx.filter fun entry =>
    isIntent entry.1 && (entries.drop (entry.2 + 1)).all fun r => !settlesIntent entry.2 r).map
      fun entry => ((entry.2 : Int), entry.1)

/-- What a chain without errors says about its grants and its results. -/
structure Settled (entries : List Json) : Prop where
  grant : ∀ entry ∈ entries, ∃ gid, Json.get entry "grant_id" = some (.str gid) ∧ ∃! i, Consumes entries i gid
  result : ∀ (j : Nat) entry, entries[j]? = some entry → isResult entry = true → ∃ i, Settles entries i j entry ∧
    ∀ (k : Nat) other, entries[k]? = some other → settlesIntent i other = true → k = j

theorem settlesIntent_iff {i : Nat} {entry : Json} :
    settlesIntent i entry = true ↔ isResult entry = true ∧ Json.get entry "intent_seq" = some (.int i) := by
  simp [settlesIntent]

theorem Scanned.settled_of {entries : List Json} {s : EntryScan} (h : Scanned entries s) : Settled entries := by
  refine ⟨?_, ?_⟩
  · have hunique : ∀ i gid, Consumes entries i gid → ∃! i, Consumes entries i gid :=
      fun i gid hi => ⟨i, hi, fun j hj => h.once j i gid hj hi⟩
    intro entry hmem
    obtain ⟨j, hj⟩ := List.mem_iff_getElem?.mp hmem
    obtain hintent | hresult := h.kind entry hmem
    · obtain ⟨gid, hgid⟩ := h.grant entry hmem hintent
      exact ⟨gid, hgid, hunique j gid ⟨entry, hj, hintent, hgid⟩⟩
    · obtain ⟨i, -, -, intent, hget, hintent, hgrant, -⟩ := h.settled j entry hj hresult
      obtain ⟨gid, hgid⟩ := h.grant intent (List.mem_of_getElem? hget) hintent
      exact ⟨gid, hgrant ▸ hgid, hunique i gid ⟨intent, hget, hintent, hgid⟩⟩
  · intro j entry hj hresult
    obtain ⟨i, hi⟩ := h.settled j entry hj hresult
    refine ⟨i, hi, fun k other hk hsettles => ?_⟩
    obtain ⟨hother, hnames⟩ := settlesIntent_iff.mp hsettles
    exact h.settled_once k j other entry hk hj hother hresult (hnames.trans hi.names.symm)

/-- Only a later entry settles an intent. -/
theorem Scanned.settles_later {entries : List Json} {s : EntryScan} (h : Scanned entries s) {i : Nat} :
    s.results_by_intent.lookup (i : Int) = none ↔ ∀ r ∈ entries.drop (i + 1), settlesIntent i r = false := by
  rw [h.results_by_intent]
  constructor
  · intro hnone r hr
    by_contra hsettles
    obtain ⟨hresult, hnames⟩ := settlesIntent_iff.mp (Bool.not_eq_false _ ▸ hsettles)
    exact hnone r (List.mem_of_mem_drop hr) hresult hnames
  · intro hnone r hr hresult hnames
    obtain ⟨j, hj⟩ := List.mem_iff_getElem?.mp hr
    obtain ⟨i', hearlier, hnames', -⟩ := h.settled j r hj hresult
    obtain rfl : i = i' := by
      have heq := hnames.symm.trans hnames'
      simpa using heq
    have hdrop : r ∈ entries.drop (i + 1) := by
      apply List.mem_iff_getElem?.mpr
      refine ⟨j - (i + 1), ?_⟩
      rw [List.getElem?_drop, show i + 1 + (j - (i + 1)) = j by omega, hj]
    have hfalse := hnone r hdrop
    rw [settlesIntent_iff.mpr ⟨hresult, hnames⟩] at hfalse
    cases hfalse

theorem Scanned.findings_eq {entries : List Json} {s : EntryScan} (h : Scanned entries s) :
    (s.intents_by_seq.reverse.filter fun intent => (s.results_by_intent.lookup intent.1).isNone) = unsettled entries := by
  rw [h.intents_by_seq, intents, unsettled, List.filter_map, List.filter_filter]
  congr 1
  apply List.filter_congr
  rintro ⟨entry, i⟩ -
  have hlater := h.settles_later (i := i)
  simp only [Function.comp_apply]
  rw [Bool.and_comm]
  congr 1
  rw [Bool.eq_iff_iff, Option.isNone_iff_eq_none, hlater]
  simp

/-- A clean run of the two loops. -/
theorem verify_records_findings {key_errors : List ReportError} {entry_v cp_v : Verifier} {entry_list : List Json}
    {cp_list : Option (List Json)} (h : (verify_records key_errors entry_v cp_v entry_list cp_list).errors = []) :
    (verify_records key_errors entry_v cp_v entry_list cp_list).findings = unsettled entry_list ∧ Settled entry_list := by
  have hnil : (collect (scan_entry entry_v) .start entry_list).1 = [] := by
    cases cp_list with
    | none =>
      simp only [verify_records, List.append_eq_nil_iff] at h
      exact h.2
    | some cps =>
      simp only [verify_records, List.append_eq_nil_iff] at h
      exact h.1.2
  have hscanned := scanned_start.collect entry_list hnil
  refine ⟨?_, hscanned.settled_of⟩
  cases cp_list <;> exact hscanned.findings_eq

/-- A chain on which `verify` reports no errors has as findings its unsettled intents in order,
    each grant in one intent, and each result settles an earlier intent that no other settles. -/
theorem verify_findings {entries : Source} {entry_pub cp_pub : KeyArg} {checkpoints : Option Source}
    {allow_no_checkpoints : Bool} {no_checkpoints : Option Bool} {r : Report}
    (h : verify entries entry_pub checkpoints cp_pub allow_no_checkpoints no_checkpoints = .ok r)
    (hok : r.errors = []) :
    ∃ entry_list, entries.read read_chain = .ok entry_list ∧ r.findings = unsettled entry_list ∧ Settled entry_list := by
  unfold verify at h
  split at h
  · cases h
  · cases h
  · simp only at h
    split at h
    · cases h
      cases hok
    · split at h
      · cases h
        cases hok
      · split at h
        · split at h
          · cases h
            simp at hok
          · next entry_list hread =>
            split at h
            · cases h
              exact ⟨entry_list, hread, verify_records_findings hok⟩
            · split at h
              · cases h
                simp at hok
              · cases h
                simp at hok
              · cases h
                exact ⟨entry_list, hread, verify_records_findings hok⟩
        · cases h
          cases hok

/-- Two intents, and a result for the first. -/
def settledFile : Bytes :=
  let first := append_intent sampleWriter (lit "g") (lit "h") calmEnv []
  let second := append_intent first.writer (lit "k") (lit "h") calmEnv first.file
  (append_result second.writer 0 (lit "ok") none calmEnv second.file).file

set_option maxRecDepth 100000 in
theorem settled_accepted : Accepted (verify (.list (sampleEntries settledFile)) (.loaded sampleEntryKey) none
    (.loaded sampleCheckpointKey) true none) := by
  decide +kernel

set_option maxRecDepth 100000 in
theorem unsettled_settledFile : (unsettled (sampleEntries settledFile)).map Prod.fst = [1] := by
  decide +kernel

theorem verify_findings_settled :
    ∃ r, verify (.list (sampleEntries settledFile)) (.loaded sampleEntryKey) none (.loaded sampleCheckpointKey) true none =
      .ok r ∧ r.errors = [] ∧ r.findings.map Prod.fst = [1] ∧
        ∃ entry_list, (Source.list (sampleEntries settledFile)).read read_chain = .ok entry_list ∧
          r.findings = unsettled entry_list ∧ Settled entry_list := by
  obtain ⟨r, hr, hnil⟩ := settled_accepted
  obtain ⟨entry_list, hread, hfindings, hsettled⟩ := verify_findings hr hnil
  refine ⟨r, hr, hnil, ?_, entry_list, hread, hfindings, hsettled⟩
  have heq : sampleEntries settledFile = entry_list := Except.ok.inj hread
  rw [hfindings, ← heq, unsettled_settledFile]

end narwhal.evidence
