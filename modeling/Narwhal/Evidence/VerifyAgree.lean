import Narwhal.Evidence.Verify

open pylib

namespace narwhal.evidence

@[simp] theorem report_eq_nil_iff {bad : Bool} {error : ReportError} : report bad error = [] ↔ bad = false := by
  cases bad <;> simp [report]

/-! ### One record -/

theorem scan_instance_eq_nil_iff {subject : Subject} {i : Nat} {expected_instance_id : Option Str} {rec : Json} :
    scan_instance subject i expected_instance_id rec = [] ↔
      ∀ expected, expected_instance_id = some expected → Json.get rec "instance_id" = some (.str expected) := by
  cases expected_instance_id <;> simp [scan_instance]

/-- The hash and signature checks are silent exactly when the stored hash is the body's
    and the signature over it verifies. -/
theorem scan_hash_eq_nil_iff {subject : Subject} {i : Nat} {pre : Bytes} {hash_field : String}
    {verifier : Verifier} {rec : Json} {prev_h : Str} (hfield : HasField rec hash_field is_hex64) :
    (scan_hash subject i pre hash_field verifier rec prev_h).1 = [] ↔
      body_hash pre rec hash_field = .ok (Json.getStr rec hash_field []) ∧
        ∃ sig_bytes, fromHex (Json.getStr rec "sig" []) = some sig_bytes ∧
          verifier (pre ++ asciiBytes (Json.getStr rec hash_field [])) sig_bytes = true := by
  obtain ⟨hash, hget⟩ := hfield.get_hex64
  rw [Json.getStr_of_get hget]
  unfold scan_hash
  cases hbody : body_hash pre rec hash_field with
  | error e => simp
  | ok calc_hash =>
    by_cases hcalc : calc_hash = hash
    · subst hcalc
      cases hsig : fromHex (Json.getStr rec "sig" []) with
      | none => simp [hget]
      | some sig_bytes => simp [hget]
    · simp [hget, hcalc]

theorem scan_hash_snd {subject : Subject} {i : Nat} {pre : Bytes} {hash_field : String} {verifier : Verifier}
    {rec : Json} {prev_h hash : Str} (h : body_hash pre rec hash_field = .ok hash) :
    (scan_hash subject i pre hash_field verifier rec prev_h).2 = Json.getStr rec hash_field [] := by
  rw [scan_hash, h]

/-- The collecting pass over the entries and the stopping one know the same. -/
structure Agrees (instance_id : Str) (s : ChainView) (t : EntryScan) : Prop where
  i : t.i = s.count
  expected : t.expected_instance_id = some instance_id
  prev_h : t.prev_h = s.prev_h
  last_epoch : t.last_epoch = s.last_epoch
  intents : t.intents_by_seq = s.tables.intents_by_seq
  grants : ∀ gid, (t.intents_by_grant.lookup gid).isSome = true ↔ gid ∈ s.tables.consumed_grants
  results : ∀ iseq, (t.results_by_intent.lookup iseq).isSome = (s.tables.results_by_intent.lookup iseq).isSome
  earlier : ∀ iseq intent, s.tables.intents_by_seq.lookup iseq = some intent → 0 ≤ iseq ∧ iseq < s.count

section Agrees

variable {instance_id : Str} {verifier : Verifier} {s : ChainView} {t : EntryScan} {entry : Json}

private theorem Agrees.scan_kind_intent (h : Agrees instance_id s t)
    (hkind : Json.get entry "kind" = some (.str (lit "intent"))) :
    (scan_kind t entry).1 = [] ↔ KindOk s.tables entry := by
  have hgrant := h.grants (Json.getStr entry "grant_id" [])
  by_cases hmem : Json.getStr entry "grant_id" [] ∈ s.tables.consumed_grants
  · simp [scan_kind, KindOk, hkind, hgrant.mpr hmem, hmem]
  · simp [scan_kind, KindOk, hkind, mt hgrant.mp hmem, hmem]

private theorem Agrees.scan_kind_result (h : Agrees instance_id s t)
    (hkind : Json.get entry "kind" = some (.str (lit "result"))) {iseq : Int}
    (hiseq : Json.get entry "intent_seq" = some (.int iseq)) :
    (scan_kind t entry).1 = [] ↔ KindOk s.tables entry := by
  have hscan : (scan_kind t entry).1 = [] ↔
      scan_result t entry iseq = [] ∧ (s.tables.results_by_intent.lookup iseq).isSome = false := by
    rw [← h.results iseq]
    cases hres : (t.results_by_intent.lookup iseq).isSome <;> simp [scan_kind, hkind, hiseq, hres]
  rw [hscan, Option.isSome_eq_false_iff, Option.isNone_iff_eq_none]
  cases hint : s.tables.intents_by_seq.lookup iseq with
  | none =>
    have hne : scan_result t entry iseq ≠ [] := by
      unfold scan_result
      rw [h.intents, hint]
      split <;> simp
    simp [KindOk, hkind, hiseq, hint, hne]
  | some intent =>
    obtain ⟨hge, hlt⟩ := h.earlier iseq intent hint
    have hrange : ¬ ((t.i : Int) ≤ iseq ∨ iseq < 0) := by
      rw [h.i]
      omega
    rw [scan_result, if_neg hrange, h.intents, hint]
    simp [KindOk, hkind, hiseq, hint, -List.lookup_eq_none_iff]
    tauto

theorem Agrees.scan_entry_eq_nil_iff (h : Agrees instance_id s t) :
    (scan_entry verifier t entry).1 = [] ↔ Admits instance_id verifier s entry := by
  unfold scan_entry
  cases hshape : validate_entry_shape entry t.i with
  | cons first more =>
    simp only [List.map_cons, reduceCtorEq, false_iff]
    intro hadmits
    rw [validate_entry_shape_eq_nil_iff.mpr hadmits.integral.shape] at hshape
    cases hshape
  | nil =>
    have hok := validate_entry_shape_eq_nil_iff.mp hshape
    have hkind : (scan_kind t entry).1 = [] ↔ KindOk s.tables entry := by
      rcases hok.kind with hk | ⟨hk, hiseq, _⟩
      · exact h.scan_kind_intent hk
      · obtain ⟨iseq, hget, _⟩ := hiseq.get_nonneg
        exact h.scan_kind_result hk hget
    simp only [h.expected, List.append_eq_nil_iff, scan_instance_eq_nil_iff, Option.some.injEq, forall_eq',
      report_eq_nil_iff, hkind, scan_hash_eq_nil_iff hok.entry_hash,
      decide_eq_false_iff_not, not_not, h.i, h.prev_h, h.last_epoch, not_lt]
    constructor
    · rintro ⟨⟨⟨⟨⟨hinst, hseq⟩, hepoch⟩, hprev⟩, hhash, hsig⟩, hk⟩
      exact ⟨⟨hok, hseq, hinst, hepoch, hprev, hhash, hsig⟩, hk⟩
    · rintro ⟨hint, hk⟩
      exact ⟨⟨⟨⟨⟨hint.instance_id, hint.seq⟩, hint.epoch⟩, hint.prev_hash⟩, hint.hash, hint.sig⟩, hk⟩

private theorem scan_entry_snd (hshape : EntryShape entry)
    (hhash : body_hash ENTRY_PREFIX entry "entry_hash" = .ok (Json.getStr entry "entry_hash" [])) :
    (scan_entry verifier t entry).2 =
      { (scan_kind t entry).2 with
        i := t.i + 1
        expected_instance_id := some (t.expected_instance_id.getD (Json.getStr entry "instance_id" []))
        prev_h := Json.getStr entry "entry_hash" []
        last_epoch := Json.getInt entry "epoch" 0 } := by
  unfold scan_entry
  rw [validate_entry_shape_eq_nil_iff.mpr hshape]
  simp only [scan_hash_snd hhash]

private theorem lookup_cons_isSome {α β : Type} [BEq α] [LawfulBEq α] (k a : α) (b : β) (l : List (α × β)) :
    (((a, b) :: l).lookup k).isSome = true ↔ k = a ∨ (l.lookup k).isSome = true := by
  rw [List.lookup_cons]
  by_cases h : k = a
  · simp [h]
  · simp only [beq_eq_false_iff_ne.mpr h, h, false_or]

/-- An admitted entry leaves the two passes knowing the same. -/
theorem Agrees.next (h : Agrees instance_id s t) (hadmits : Admits instance_id verifier s entry) :
    Agrees instance_id (s.absorb entry) (scan_entry verifier t entry).2 := by
  have hint := hadmits.integral
  rw [scan_entry_snd hint.shape hint.hash, h.expected]
  rcases hadmits.kind with ⟨hkind, hfresh⟩ | ⟨hkind, iseq, intent, hiseq, hlook, hnone, _, _⟩
  · have hnot : (t.intents_by_grant.lookup (Json.getStr entry "grant_id" [])).isSome = false := by
      rw [Bool.eq_false_iff]
      exact fun hsome => hfresh ((h.grants _).mp hsome)
    have hscan : (scan_kind t entry).2 =
        { t with intents_by_seq := ((t.i : Int), entry) :: t.intents_by_seq,
                 intents_by_grant := (Json.getStr entry "grant_id" [], t.i) :: t.intents_by_grant } := by
      simp [scan_kind, hkind, hnot]
    rw [hscan]
    unfold ChainView.absorb Tables.record
    rw [if_pos hkind]
    refine ⟨by simp [h.i], rfl, rfl, rfl, by simp [h.i, h.intents], fun gid => ?_, h.results, fun k e hk => ?_⟩
    · rw [lookup_cons_isSome, List.mem_cons, h.grants]
    · rw [List.lookup_cons] at hk
      by_cases hkey : k = (s.count : Int)
      · subst hkey
        simp only [Nat.cast_add, Nat.cast_one]
        omega
      · simp only [beq_eq_false_iff_ne.mpr hkey] at hk
        have := h.earlier k e hk
        simp only [Nat.cast_add, Nat.cast_one]
        omega
  · have hnone' : (t.results_by_intent.lookup iseq).isSome = false := by
      rw [h.results, hnone]
      rfl
    have hscan : (scan_kind t entry).2 = { t with results_by_intent := (iseq, t.i) :: t.results_by_intent } := by
      simp [scan_kind, hkind, hiseq, hnone']
    rw [hscan]
    unfold ChainView.absorb Tables.record
    rw [if_neg (by rw [hkind]; simp), Json.getInt_of_get hiseq]
    refine ⟨by simp [h.i], rfl, rfl, rfl, h.intents, h.grants, fun k => ?_, fun k e hk => ?_⟩
    · rw [Bool.eq_iff_iff, lookup_cons_isSome, lookup_cons_isSome, h.results]
    · have := h.earlier k e hk
      simp only [Nat.cast_add, Nat.cast_one]
      omega

end Agrees

/-! ### The entry loop -/

/-- The scan that starts with the instance it expects. -/
def EntryScan.expecting (instance_id : Str) : EntryScan := { EntryScan.start with expected_instance_id := some instance_id }

theorem agrees_start (instance_id : Str) : Agrees instance_id .genesis (.expecting instance_id) := by
  refine ⟨rfl, rfl, rfl, rfl, rfl, fun gid => ?_, fun _ => rfl, fun iseq intent h => ?_⟩
  · simp [EntryScan.expecting, EntryScan.start, ChainView.genesis, Tables.empty]
  · simp [ChainView.genesis, Tables.empty] at h

/-- The instance of the first record, which the chain's other records must share. -/
def first_instance_id : List Json → Str
  | [] => []
  | entry :: _ => Json.getStr entry "instance_id" []

/-- The checks about the kind of an entry do not read the expected instance. -/
private theorem scan_kind_expected (t : EntryScan) (expected : Option Str) (entry : Json) :
    scan_kind { t with expected_instance_id := expected } entry =
      ((scan_kind t entry).1, { (scan_kind t entry).2 with expected_instance_id := expected }) := by
  unfold scan_kind
  simp only [scan_result]
  split
  · split <;> rfl
  · split
    · split
      · split <;> rfl
      · rfl
    · rfl

/-- Taking the instance from the first record, or knowing it before, comes to the same. -/
private theorem collect_expecting (verifier : Verifier) (entry : Json) (rest : List Json) :
    (collect (scan_entry verifier) .start (entry :: rest) =
        collect (scan_entry verifier) (.expecting (Json.getStr entry "instance_id" [])) (entry :: rest)) ∨
      ((collect (scan_entry verifier) .start (entry :: rest)).1 ≠ [] ∧
        ¬ EntryShape entry) := by
  cases hshape : validate_entry_shape entry 0 with
  | cons first more =>
    refine .inr ⟨?_, fun hok => ?_⟩
    · have hscan : (scan_entry verifier .start entry).1 = (first :: more).map .shape := by
        rw [scan_entry]
        simp only [EntryScan.start, hshape]
      simp [collect, hscan]
    · rw [validate_entry_shape_eq_nil_iff.mpr hok] at hshape
      cases hshape
  | nil =>
    left
    obtain ⟨inst, hinst, _⟩ := (validate_entry_shape_eq_nil_iff.mp hshape).instance_id.get_nonempty
    have hscan : scan_entry verifier .start entry =
        scan_entry verifier (.expecting (Json.getStr entry "instance_id" [])) entry := by
      have hkind : scan_kind (.expecting inst) entry = ((scan_kind .start entry).1,
          { (scan_kind .start entry).2 with expected_instance_id := some inst }) :=
        scan_kind_expected .start (some inst) entry
      have hzero : EntryScan.start.i = 0 ∧ (EntryScan.expecting inst).i = 0 := ⟨rfl, rfl⟩
      have hexpected : EntryScan.start.expected_instance_id = none ∧
          (EntryScan.expecting inst).expected_instance_id = some inst := ⟨rfl, rfl⟩
      rw [Json.getStr_of_get hinst]
      unfold scan_entry
      have hself : scan_instance .entry 0 (some inst) entry = [] := by simp [scan_instance_eq_nil_iff, hinst]
      simp only [hzero, hexpected, hshape, hkind, Json.getStr_of_get hinst, hself]
      rfl
    simp only [collect, hscan]

/-- The entry loop of the report is silent exactly when the writer's loop raises on no
    record, and it then ends with the instance of the first record. -/
theorem collect_scan_entry_eq_nil_iff (verifier : Verifier) (entries : List Json) :
    (collect (scan_entry verifier) .start entries).1 = [] ↔
      ∃ view, check_entries (first_instance_id entries) verifier .genesis entries = .ok view := by
  cases entries with
  | nil => simp [collect, check_entries, pure, Except.pure]
  | cons entry rest =>
    rcases collect_expecting verifier entry rest with heq | ⟨hne, hshape⟩
    · have hstep : ∀ s t a, Agrees (Json.getStr entry "instance_id" []) s t → ((scan_entry verifier t a).1 = [] ↔
          (∃ s', check_entry (Json.getStr entry "instance_id" []) verifier s a = .ok s') ∧ True) := by
        intro s t a hR
        simp [hR.scan_entry_eq_nil_iff, check_entry_eq_ok_iff]
      have hiff := collect_eq_nil_iff (Q := fun _ => True) hstep
        (fun s t a s' hR hok _ => by
          obtain ⟨hadmits, rfl⟩ := check_entry_eq_ok_iff.mp hok
          exact hR.next hadmits)
        (agrees_start _) (entry :: rest)
      rw [heq, hiff]
      simp [check_entries, first_instance_id]
    · refine iff_of_false hne ?_
      rintro ⟨view, hcheck⟩
      obtain ⟨u, hadmits⟩ := admits_of_check_entries hcheck List.mem_cons_self
      exact hshape hadmits.integral.shape

theorem collect_scan_entry_expected {verifier : Verifier} {entries : List Json}
    (h : (collect (scan_entry verifier) .start entries).1 = []) :
    (collect (scan_entry verifier) .start entries).2.expected_instance_id =
      if entries = [] then none else some (first_instance_id entries) := by
  cases entries with
  | nil => rfl
  | cons entry rest =>
    rcases collect_expecting verifier entry rest with heq | ⟨hne, _⟩
    · obtain ⟨view, hview⟩ := (collect_scan_entry_eq_nil_iff verifier (entry :: rest)).mp h
      have hnext : ∀ s t a s', Agrees (Json.getStr entry "instance_id" []) s t →
          check_entry (Json.getStr entry "instance_id" []) verifier s a = .ok s' → True →
          Agrees (Json.getStr entry "instance_id" []) s' (scan_entry verifier t a).2 := by
        intro s t a s' hR hok _
        obtain ⟨hadmits, rfl⟩ := check_entry_eq_ok_iff.mp hok
        exact hR.next hadmits
      have hagrees := collect_related (Q := fun _ => True) hnext
        (agrees_start _) hview (fun _ _ => trivial)
      rw [heq, hagrees.expected]
      simp [first_instance_id]
    · exact absurd h hne

/-! ### The checkpoint loop -/

/-- What the report asks of a checkpoint beyond `verify_checkpoints_list`: the instance of
    the chain, and the head, instance and epoch of the entry it anchors. -/
def Anchors (entry_list : List Json) (expected_instance_id : Option Str) (cp : Json) : Prop :=
  (∀ expected, expected_instance_id = some expected → Json.get cp "instance_id" = some (.str expected)) ∧
  (Json.getInt cp "count" 0 ≠ 0 → Json.getInt cp "count" 0 ≤ entry_list.length ∧
    ∀ fields, entry_list[(Json.getInt cp "count" 0).toNat - 1]? = some (.obj fields) →
      Json.get (.obj fields) "entry_hash" = Json.get cp "head_hash" ∧
      Json.get (.obj fields) "instance_id" = Json.get cp "instance_id" ∧
      Json.get (.obj fields) "epoch" = Json.get cp "epoch")

/-- The two passes over the checkpoints know the same. -/
structure AgreesOnCheckpoints (s : CheckpointView) (t : CheckpointScan) : Prop where
  j : t.j = s.count
  prev_cp_h : t.prev_cp_h = s.prev_cp_h
  last_cp_epoch : t.last_cp_epoch = s.last_cp_epoch
  last_cp_count : t.last_cp_count = s.last_cp_count

private theorem scan_head_eq_nil_iff {entry_list : List Json} {j : Nat} {cp : Json} {c_count : Int} :
    scan_head entry_list j cp c_count = [] ↔
      (c_count = 0 → Json.get cp "head_hash" = some (.str GENESIS_PREV_HASH)) ∧
      (c_count ≠ 0 → c_count ≤ entry_list.length ∧
        ∀ fields, entry_list[c_count.toNat - 1]? = some (.obj fields) →
          Json.get (.obj fields) "entry_hash" = Json.get cp "head_hash" ∧
          Json.get (.obj fields) "instance_id" = Json.get cp "instance_id" ∧
          Json.get (.obj fields) "epoch" = Json.get cp "epoch") := by
  unfold scan_head
  by_cases hzero : c_count = 0
  · simp [hzero]
  · by_cases hlen : (entry_list.length : Int) < c_count
    · simp [hzero, hlen]
    · rw [if_neg hzero, if_neg hlen]
      split
      · next fields htarget => simp [hzero, htarget, not_lt.mp hlen]
      · next hother =>
        simp only [hzero, false_implies, true_and, ne_eq, not_false_eq_true, true_implies, not_lt.mp hlen, true_iff]
        exact fun fields htarget => absurd htarget (hother fields)

section

variable {cp_verifier : Verifier} {entry_list : List Json} {expected_instance_id : Option Str} {s : CheckpointView}
  {t : CheckpointScan} {cp : Json}

theorem AgreesOnCheckpoints.scan_checkpoint_eq_nil_iff (h : AgreesOnCheckpoints s t) :
    (scan_checkpoint cp_verifier entry_list expected_instance_id t cp).1 = [] ↔
      AdmitsCheckpoint cp_verifier s cp ∧ Anchors entry_list expected_instance_id cp := by
  unfold scan_checkpoint
  cases hshape : validate_checkpoint_shape cp t.j with
  | cons first more =>
    simp only [List.map_cons, reduceCtorEq, false_iff]
    rintro ⟨hadmits, _⟩
    rw [validate_checkpoint_shape_eq_nil_iff.mpr hadmits.shape] at hshape
    cases hshape
  | nil =>
    have hok := validate_checkpoint_shape_eq_nil_iff.mp hshape
    obtain ⟨count, hcount, _⟩ := hok.count.get_nonneg
    obtain ⟨epoch, hepoch, _⟩ := hok.epoch.get_nonneg
    simp only [List.append_eq_nil_iff, report_eq_nil_iff, scan_instance_eq_nil_iff, scan_hash_eq_nil_iff hok.cp_hash,
      scan_head_eq_nil_iff, decide_eq_false_iff_not, not_not, h.j, h.prev_cp_h, h.last_cp_epoch, h.last_cp_count,
      not_lt, Json.getInt_of_get hcount, Json.getInt_of_get hepoch]
    constructor
    · rintro ⟨⟨⟨⟨⟨⟨hseq, hinst⟩, hep⟩, hco⟩, hprev⟩, hhash, hsig⟩, hzero, hhead⟩
      refine ⟨⟨hok, hseq, hprev, ?_, ?_, ?_, hhash, hsig⟩, hinst, ?_⟩
      · rwa [Json.getInt_of_get hcount]
      · rwa [Json.getInt_of_get hepoch]
      · rwa [Json.getInt_of_get hcount]
      · rwa [Json.getInt_of_get hcount]
    · rintro ⟨hadmits, hinst, hhead⟩
      have hco := hadmits.count
      have hep := hadmits.epoch
      have hzero := hadmits.empty_head
      rw [Json.getInt_of_get hcount] at hco hzero hhead
      rw [Json.getInt_of_get hepoch] at hep
      exact ⟨⟨⟨⟨⟨⟨hadmits.cp_seq, hinst⟩, hep⟩, hco⟩, hadmits.prev_cp_hash⟩, hadmits.hash, hadmits.sig⟩, hzero, hhead⟩

theorem AgreesOnCheckpoints.next (h : AgreesOnCheckpoints s t) (hadmits : AdmitsCheckpoint cp_verifier s cp) :
    AgreesOnCheckpoints (s.absorb cp) (scan_checkpoint cp_verifier entry_list expected_instance_id t cp).2 := by
  obtain ⟨count, hcount, _⟩ := hadmits.shape.count.get_nonneg
  obtain ⟨epoch, hepoch, _⟩ := hadmits.shape.epoch.get_nonneg
  unfold scan_checkpoint
  rw [validate_checkpoint_shape_eq_nil_iff.mpr hadmits.shape]
  refine ⟨by simp [h.j, CheckpointView.absorb], scan_hash_snd hadmits.hash, ?_, ?_⟩
  · simp [CheckpointView.absorb, Json.getInt_of_get hepoch]
  · simp [CheckpointView.absorb, Json.getInt_of_get hcount]

end

/-- The checkpoint loop of the report is silent exactly when `verify_checkpoints_list`
    accepts the list and every checkpoint anchors the chain. -/
theorem collect_scan_checkpoint_eq_nil_iff (cp_verifier : Verifier) (entry_list : List Json)
    (expected_instance_id : Option Str) (cps : List Json) :
    (collect (scan_checkpoint cp_verifier entry_list expected_instance_id) .start cps).1 = [] ↔
      (∃ view, verify_checkpoints_list cps cp_verifier = .ok view) ∧
        ∀ cp ∈ cps, Anchors entry_list expected_instance_id cp := by
  have hstep : ∀ s t cp, AgreesOnCheckpoints s t →
      ((scan_checkpoint cp_verifier entry_list expected_instance_id t cp).1 = [] ↔
        (∃ s', check_checkpoint cp_verifier s cp = .ok s') ∧ Anchors entry_list expected_instance_id cp) := by
    intro s t cp hR
    simp [hR.scan_checkpoint_eq_nil_iff, check_checkpoint_eq_ok_iff]
  exact collect_eq_nil_iff hstep
    (fun s t cp s' hR hok _ => by
      obtain ⟨hadmits, rfl⟩ := check_checkpoint_eq_ok_iff.mp hok
      exact hR.next hadmits)
    ⟨rfl, rfl, rfl, rfl⟩ cps

/-! ### The whole verification -/

/-- `verify` returned a report without errors. -/
def Accepted (r : Except EvidenceError Report) : Prop := ∃ report, r = .ok report ∧ report.errors = []

instance (r : Except EvidenceError Report) : Decidable (Accepted r) :=
  match r with
  | .ok report => decidable_of_iff (report.errors = []) ⟨fun h => ⟨report, rfl, h⟩, fun ⟨_, h, hnil⟩ => by cases h; exact hnil⟩
  | .error _ => .isFalse fun ⟨_, h, _⟩ => by cases h

/-- What a clean report over a chain and its checkpoints means. -/
structure AnchoredChain (entry_v cp_v : Verifier) (entry_list cp_list : List Json) : Prop where
  entries : ∃ view, check_entries (first_instance_id entry_list) entry_v .genesis entry_list = .ok view
  checkpoints : ∃ view, verify_checkpoints_list cp_list cp_v = .ok view
  anchors : ∀ cp ∈ cp_list,
    Anchors entry_list (if entry_list = [] then none else some (first_instance_id entry_list)) cp

section

variable {entry_key cp_key : PublicKey}

theorem accepted_without_checkpoints_iff {entries : Source} :
    Accepted (verify entries (.loaded entry_key) none (.loaded cp_key) true none) ↔
      entry_key.der ≠ cp_key.der ∧ ∃ entry_list, entries.read read_chain = .ok entry_list ∧
        ∃ view, check_entries (first_instance_id entry_list) entry_key.verify .genesis entry_list = .ok view := by
  unfold verify Accepted
  cases entries.read read_chain with
  | error e => simp
  | ok entry_list => simp [verify_records, collect_scan_entry_eq_nil_iff]

theorem verify_with_checkpoints_eq {entries checkpoints : Source} {entry_list cp_list : List Json}
    (hentries : entries.read read_chain = .ok entry_list) (hcps : checkpoints.read read_checkpoints = .ok cp_list)
    (hne : cp_list ≠ []) :
    verify entries (.loaded entry_key) (some checkpoints) (.loaded cp_key) false none =
      .ok (verify_records (report (entry_key.der = cp_key.der) .keys_identical) entry_key.verify cp_key.verify
        entry_list (some cp_list)) := by
  unfold verify
  simp only [hentries, hcps]
  cases cp_list with
  | nil => exact absurd rfl hne
  | cons cp cps => simp

theorem verify_records_errors_eq_nil_iff {entry_list cp_list : List Json} :
    (verify_records (report (entry_key.der = cp_key.der) .keys_identical) entry_key.verify cp_key.verify
      entry_list (some cp_list)).errors = [] ↔
      entry_key.der ≠ cp_key.der ∧ AnchoredChain entry_key.verify cp_key.verify entry_list cp_list := by
  simp only [verify_records, List.append_eq_nil_iff, report_eq_nil_iff, decide_eq_false_iff_not, and_assoc]
  refine and_congr_right fun _ => ⟨?_, ?_⟩
  · rintro ⟨hentries, hcps⟩
    rw [collect_scan_entry_expected hentries, collect_scan_checkpoint_eq_nil_iff] at hcps
    exact ⟨(collect_scan_entry_eq_nil_iff _ _).mp hentries, hcps.1, hcps.2⟩
  · rintro ⟨hentries, hcps, hanchors⟩
    have hnil := (collect_scan_entry_eq_nil_iff _ _).mpr hentries
    refine ⟨hnil, ?_⟩
    rw [collect_scan_entry_expected hnil, collect_scan_checkpoint_eq_nil_iff]
    exact ⟨hcps, hanchors⟩

theorem accepted_with_checkpoints_iff {entries checkpoints : Source} :
    Accepted (verify entries (.loaded entry_key) (some checkpoints) (.loaded cp_key) false none) ↔
      entry_key.der ≠ cp_key.der ∧ ∃ entry_list cp_list, entries.read read_chain = .ok entry_list ∧
        checkpoints.read read_checkpoints = .ok cp_list ∧ cp_list ≠ [] ∧
        AnchoredChain entry_key.verify cp_key.verify entry_list cp_list := by
  cases hentries : entries.read read_chain with
  | error e => simp [Accepted, verify, hentries]
  | ok entry_list =>
    cases hcps : checkpoints.read read_checkpoints with
    | error e => simp [Accepted, verify, hentries, hcps]
    | ok cp_list =>
      by_cases hne : cp_list = []
      · simp [Accepted, verify, hentries, hcps, hne]
      · simp [Accepted, verify_with_checkpoints_eq hentries hcps hne, verify_records_errors_eq_nil_iff, hne]

end

/-- The two chain checkers agree: the report over a list of records is clean exactly when
    the writer's loop raises on none of them, and the checkpoints of a clean report pass
    the list check made before a checkpoint file is extended. -/
theorem checkers_agree {entry_key cp_key : PublicKey} (hkeys : entry_key.der ≠ cp_key.der) (entries : List Json) :
    (Accepted (verify (.list entries) (.loaded entry_key) none (.loaded cp_key) true none) ↔
      ∃ view, check_entries (first_instance_id entries) entry_key.verify .genesis entries = .ok view) ∧
    ∀ cps : List Json,
      Accepted (verify (.list entries) (.loaded entry_key) (some (.list cps)) (.loaded cp_key) false none) →
        ∃ view, verify_checkpoints_list cps cp_key.verify = .ok view := by
  constructor
  · rw [accepted_without_checkpoints_iff]
    simp [Source.read, hkeys]
  · intro cps h
    obtain ⟨_, entry_list, cp_list, _, hcps, _, hchain⟩ := accepted_with_checkpoints_iff.mp h
    cases hcps
    exact hchain.checkpoints

set_option maxRecDepth 100000 in
theorem sample_accepted : Accepted (verify (.list (sampleEntries sampleFile)) (.loaded sampleEntryKey) none
    (.loaded sampleCheckpointKey) true none) := by
  decide +kernel

theorem checkers_agree_sample :
    sampleEntryKey.der ≠ sampleCheckpointKey.der ∧
      ∃ view, check_entries (first_instance_id (sampleEntries sampleFile)) sampleVerifier .genesis
        (sampleEntries sampleFile) = .ok view := by
  have hkeys : sampleEntryKey.der ≠ sampleCheckpointKey.der := by decide
  exact ⟨hkeys, (checkers_agree hkeys (sampleEntries sampleFile)).1.mp sample_accepted⟩

end narwhal.evidence
