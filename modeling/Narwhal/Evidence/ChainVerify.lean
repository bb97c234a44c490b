import Narwhal.Evidence.Canonical
import Narwhal.Evidence.Shapes
import Narwhal.Lib.Fold
import Narwhal.Lib.Sha256

open pylib

namespace narwhal.evidence

/-- Why a writer refuses all further work. -/
inductive PoisonReason where
  /-- chain file inaccessible (D-EV-31) -/
  | inaccessible
  /-- file replacement detected (rename swap) (D-EV-31) -/
  | replaced
  /-- chain shrunk from {cached_offset} to {current_size} bytes (D-EV-28) -/
  | chain_shrunk (cached_offset current_size : Nat)
  /-- head re-verify failed: {e} (D-EV-28), where no `e` stands for a cached head hash mismatch -/
  | head_reverify_failed (e : Option CanonicalError)
  /-- unparseable new line {line_idx}: {e} -/
  | unparseable_new_line (line_idx : Nat) (e : CanonicalError)
  /-- the error of a failed write or fsync -/
  | write_failed
deriving DecidableEq, Repr

/-- The violations `ChainIntegrityError` reports. -/
inductive ChainIntegrityError where
  /-- shape error at {expected_seq}: {first message} -/
  | shape (expected_seq : Nat) (first : ShapeError)
  /-- seq mismatch at {expected_seq}: {seq} -/
  | seq_mismatch (expected_seq : Nat) (seq : Option Json)
  /-- instance_id mismatch at {expected_seq} -/
  | instance_id_mismatch (expected_seq : Nat)
  /-- epoch decreased at {expected_seq} -/
  | epoch_decreased (expected_seq : Nat)
  /-- prev_hash mismatch at {expected_seq} -/
  | prev_hash_mismatch (expected_seq : Nat)
  /-- entry_hash mismatch at {expected_seq} -/
  | entry_hash_mismatch (expected_seq : Nat)
  /-- invalid sig hex at {expected_seq} -/
  | invalid_sig_hex (expected_seq : Nat)
  /-- signature verification failed at {expected_seq} -/
  | signature_failed (expected_seq : Nat)
  /-- invalid result intent_seq at {seq} -/
  | invalid_intent_seq (seq : Nat)
  /-- result at seq {seq} grant_id mismatch with intent {iseq} -/
  | grant_id_mismatch (seq : Nat) (iseq : Int)
  /-- result at seq {seq} invocation_hash mismatch with intent {iseq} -/
  | invocation_hash_mismatch (seq : Nat) (iseq : Int)
  /-- unparseable JSON line {line_no}: {e} -/
  | unparseable_line (line_no : Nat) (e : CanonicalError)
  /-- unparseable checkpoint line {line_no}: {e} -/
  | unparseable_checkpoint_line (line_no : Nat) (e : CanonicalError)
  /-- writer epoch {epoch} < chain last epoch {last_epoch} (D-EV-15) -/
  | writer_epoch (epoch last_epoch : Int)
  /-- {reason}, raised where the writer is poisoned -/
  | poisoning (reason : PoisonReason)
  /-- ChainWriter is poisoned due to previous write/fsync failure: {reason} -/
  | poisoned (reason : PoisonReason)
  /-- checkpoint {j} shape error: {first message} -/
  | cp_shape (j : Nat) (first : ShapeError)
  /-- checkpoint {j} cp_seq error: expected {j} -/
  | cp_seq (j : Nat)
  /-- checkpoint {j} prev_cp_hash mismatch -/
  | prev_cp_hash_mismatch (j : Nat)
  /-- checkpoint {j} count decreased -/
  | cp_count_decreased (j : Nat)
  /-- checkpoint {j} epoch decreased -/
  | cp_epoch_decreased (j : Nat)
  /-- checkpoint {j} count=0 must have head_hash == GENESIS (D-EV-41) -/
  | cp_empty_head (j : Nat)
  /-- checkpoint {j} cp_hash mismatch -/
  | cp_hash_mismatch (j : Nat)
  /-- checkpoint {j} invalid sig hex -/
  | cp_invalid_sig_hex (j : Nat)
  /-- checkpoint {j} signature verification failed -/
  | cp_signature_failed (j : Nat)
deriving DecidableEq, Repr

/-- The arguments that `ValueError` is raised about. -/
inductive ArgumentError where
  /-- instance_id must be non-empty str -/
  | instance_id
  /-- epoch must be non-negative int -/
  | epoch
  /-- writer epoch {epoch} < chain last epoch {cached_epoch} (D-EV-29) -/
  | stale_epoch (epoch cached_epoch : Int)
  /-- grant_id must be non-empty str -/
  | grant_id
  /-- invocation_hash must be non-empty str -/
  | invocation_hash
  /-- intent_seq must be non-negative int -/
  | intent_seq
  /-- invalid outcome -/
  | outcome
  /-- unknown intent_seq: {intent_seq} -/
  | unknown_intent_seq (intent_seq : Int)
  /-- intent_seq {intent_seq} already has a result -/
  | has_result (intent_seq : Int)
  /-- result grant_id mismatch -/
  | result_grant_id
  /-- entry_pub is mandatory; cannot verify without entry public key -/
  | entry_pub
  /-- cp_pub is mandatory; cannot verify without checkpoint public key -/
  | cp_pub
deriving DecidableEq, Repr

/-- The exceptions of the evidence package. -/
inductive EvidenceError where
  | integrity (e : ChainIntegrityError)
  /-- grant_id already consumed, in the chain or by the caller (D-EV-8) -/
  | double_spend (grant_id : Str)
  | value (e : ArgumentError)
  | canonical (e : CanonicalError)
  /-- a failed system call or subprocess -/
  | os
deriving DecidableEq, Repr

/-- `OpensslVerifier.verify` for one public key. -/
abbrev Verifier := Bytes → Bytes → Bool

def ENTRY_PREFIX : Bytes := blit "narwhal-evidence-entry-v1\x00"

def GENESIS_PREV_HASH : Str := List.replicate 64 48

/-- `s.encode("ascii")` for a text of hexadecimal digits. -/
def asciiBytes (s : Str) : Bytes := s.map UInt8.ofNat

/-- `{k: v for k, v in rec.items() if k not in (hash_field, "sig")}`. -/
def body (rec : Json) (hash_field : String) : Json :=
  match rec with
  | .obj fields => .obj (fields.filter fun kv => decide (kv.1 ≠ lit hash_field) && decide (kv.1 ≠ lit "sig"))
  | rec => rec

/-- `hashlib.sha256(prefix + canonical(body)).hexdigest()`. -/
def body_hash ( pre : Bytes) (rec : Json) (hash_field : String) : Except CanonicalError Str :=
  match canonical (body rec hash_field) with
  | .error e => .error e
  | .ok bytes => .ok (sha256_hexdigest (pre ++ bytes))

/-- Verify cryptographic, sequential, and structural integrity of an entry. -/
def verify_entry_integrity (entry : Json) (expected_seq : Nat) (expected_instance_id : Str) (last_epoch : Int)
    (prev_h : Str) (verifier : Verifier) : Except EvidenceError (Str × Int) :=
  match validate_entry_shape entry expected_seq with
  | first :: _ => .error (.integrity (.shape expected_seq first))
  | [] =>
    if Json.get entry "seq" ≠ some (.int expected_seq) then
      .error (.integrity (.seq_mismatch expected_seq (Json.get entry "seq")))
    else if Json.get entry "instance_id" ≠ some (.str expected_instance_id) then
      .error (.integrity (.instance_id_mismatch expected_seq))
    else if Json.getInt entry "epoch" 0 < last_epoch then
      .error (.integrity (.epoch_decreased expected_seq))
    else if Json.get entry "prev_hash" ≠ some (.str prev_h) then
      .error (.integrity (.prev_hash_mismatch expected_seq))
    else
      match body_hash ENTRY_PREFIX entry "entry_hash" with
      | .error e => .error (.canonical e)
      | .ok calc_hash =>
        if some (.str calc_hash) ≠ Json.get entry "entry_hash" then
          .error (.integrity (.entry_hash_mismatch expected_seq))
        else
          match fromHex (Json.getStr entry "sig" []) with
          | none => .error (.integrity (.invalid_sig_hex expected_seq))
          | some sig_bytes =>
            if ¬ verifier (ENTRY_PREFIX ++ asciiBytes calc_hash) sig_bytes then
              .error (.integrity (.signature_failed expected_seq))
            else .ok (calc_hash, Json.getInt entry "epoch" 0)

/-- The tables a pass over the chain fills, the newest key first. -/
structure Tables where
  consumed_grants : List Str
  intents_by_seq : List (Int × Json)
  results_by_intent : List (Int × Json)
deriving DecidableEq, Repr

def Tables.empty : Tables := ⟨[], [], []⟩

/-- Validate and record intent/result kind semantics. The shape is checked before, so
    the grant is a `str` and a result's `intent_seq` is an `int`. -/
def process_entry_kind (entry : Json) (seq : Nat) (t : Tables) : Except EvidenceError Tables :=
  let kind := Json.get entry "kind"
  if kind = some (.str (lit "intent")) then
    let gid := Json.getStr entry "grant_id" []
    if gid ∈ t.consumed_grants then .error (.double_spend gid)
    else .ok { t with consumed_grants := gid :: t.consumed_grants,
                      intents_by_seq := ((seq : Int), entry) :: t.intents_by_seq }
  else if kind = some (.str (lit "result")) then
    match Json.get entry "intent_seq" with
    | some (.int iseq) =>
      match t.intents_by_seq.lookup iseq with
      | none => .error (.integrity (.invalid_intent_seq seq))
      | some intent =>
        if (t.results_by_intent.lookup iseq).isSome then .error (.integrity (.invalid_intent_seq seq))
        else if Json.get intent "grant_id" ≠ Json.get entry "grant_id" then
          .error (.integrity (.grant_id_mismatch seq iseq))
        else if Json.get intent "invocation_hash" ≠ Json.get entry "invocation_hash" then
          .error (.integrity (.invocation_hash_mismatch seq iseq))
        else .ok { t with results_by_intent := (iseq, entry) :: t.results_by_intent }
    | _ => .error (.integrity (.invalid_intent_seq seq))
  else .ok t

/-- What a pass over the chain knows after the entries read so far. -/
structure ChainView where
  count : Nat
  prev_h : Str
  last_epoch : Int
  tables : Tables
deriving DecidableEq, Repr

def ChainView.genesis : ChainView := ⟨0, GENESIS_PREV_HASH, -1, .empty⟩

/-- One round of the loop over the entries: `verify_entry_integrity`, then `process_entry_kind`. -/
def check_entry (instance_id : Str) (verifier : Verifier) (s : ChainView) (entry : Json) :
    Except EvidenceError ChainView :=
  match verify_entry_integrity entry s.count instance_id s.last_epoch s.prev_h verifier with
  | .error e => .error e
  | .ok (calc_hash, ep) =>
    match process_entry_kind entry s.count s.tables with
    | .error e => .error e
    | .ok tables => .ok ⟨s.count + 1, calc_hash, ep, tables⟩

/-- The loop over the entries, stopping at the first that is refused. -/
def check_entries (instance_id : Str) (verifier : Verifier) (s : ChainView) (entries : List Json) :
    Except EvidenceError ChainView :=
  entries.foldlM (check_entry instance_id verifier) s

/-! ### What an accepted entry satisfies -/

/-- The conditions of `verify_entry_integrity`. -/
structure Integral (entry : Json) (expected_seq : Nat) (expected_instance_id : Str) (last_epoch : Int)
    (prev_h : Str) (verifier : Verifier) : Prop where
  shape : EntryShape entry
  seq : Json.get entry "seq" = some (.int expected_seq)
  instance_id : Json.get entry "instance_id" = some (.str expected_instance_id)
  epoch : last_epoch ≤ Json.getInt entry "epoch" 0
  prev_hash : Json.get entry "prev_hash" = some (.str prev_h)
  hash : body_hash ENTRY_PREFIX entry "entry_hash" = .ok (Json.getStr entry "entry_hash" [])
  sig : ∃ sig_bytes, fromHex (Json.getStr entry "sig" []) = some sig_bytes ∧
    verifier (ENTRY_PREFIX ++ asciiBytes (Json.getStr entry "entry_hash" [])) sig_bytes = true

/-- The conditions of `process_entry_kind` on an entry of the right shape. -/
def KindOk (t : Tables) (entry : Json) : Prop :=
  (Json.get entry "kind" = some (.str (lit "intent")) ∧ Json.getStr entry "grant_id" [] ∉ t.consumed_grants) ∨
  (Json.get entry "kind" = some (.str (lit "result")) ∧
    ∃ iseq intent, Json.get entry "intent_seq" = some (.int iseq) ∧
      t.intents_by_seq.lookup iseq = some intent ∧ t.results_by_intent.lookup iseq = none ∧
      Json.get intent "grant_id" = Json.get entry "grant_id" ∧
      Json.get intent "invocation_hash" = Json.get entry "invocation_hash")

/-- The tables after an entry, checked or not. -/
def Tables.record (t : Tables) (seq : Nat) (entry : Json) : Tables :=
  if Json.get entry "kind" = some (.str (lit "intent")) then
    { t with consumed_grants := Json.getStr entry "grant_id" [] :: t.consumed_grants,
             intents_by_seq := ((seq : Int), entry) :: t.intents_by_seq }
  else { t with results_by_intent := (Json.getInt entry "intent_seq" 0, entry) :: t.results_by_intent }

/-- The view after an entry, checked or not. -/
def ChainView.absorb (s : ChainView) (entry : Json) : ChainView :=
  ⟨s.count + 1, Json.getStr entry "entry_hash" [], Json.getInt entry "epoch" 0, s.tables.record s.count entry⟩

/-- The view after all the entries, checked or not. -/
def ChainView.absorbAll (s : ChainView) (entries : List Json) : ChainView := entries.foldl ChainView.absorb s

/-- The conditions under which `check_entry` accepts. -/
structure Admits (instance_id : Str) (verifier : Verifier) (s : ChainView) (entry : Json) : Prop where
  integral : Integral entry s.count instance_id s.last_epoch s.prev_h verifier
  kind : KindOk s.tables entry

/-- What a checked field holds: a count, -/
theorem HasField.get_nonneg {rec : Json} {field : String} (h : HasField rec field is_nonneg_int) :
    ∃ n : Int, Json.get rec field = some (.int n) ∧ 0 ≤ n := by
  obtain ⟨value, hvalue, hok⟩ := h
  cases value with
  | int n => exact ⟨n, hvalue, by simpa [is_nonneg_int] using hok⟩
  | _ => cases hok

/-- a digest, -/
theorem HasField.get_hex64 {rec : Json} {field : String} (h : HasField rec field is_hex64) :
    ∃ s : Str, Json.get rec field = some (.str s) := by
  obtain ⟨value, hvalue, hok⟩ := h
  cases value with
  | str s => exact ⟨s, hvalue⟩
  | _ => cases hok

/-- or a string that is not empty. -/
theorem HasField.get_nonempty {rec : Json} {field : String} (h : HasField rec field is_nonempty_str) :
    ∃ s : Str, Json.get rec field = some (.str s) ∧ s ≠ [] := by
  obtain ⟨value, hvalue, hok⟩ := h
  cases value with
  | str s => exact ⟨s, hvalue, by simpa [is_nonempty_str] using hok⟩
  | _ => cases hok

theorem Json.getStr_of_get {rec : Json} {field : String} {s default : Str}
    (h : Json.get rec field = some (.str s)) : Json.getStr rec field default = s := by
  simp [Json.getStr, h]

theorem Json.getInt_of_get {rec : Json} {field : String} {n default : Int}
    (h : Json.get rec field = some (.int n)) : Json.getInt rec field default = n := by
  simp [Json.getInt, h]

/-- The check of an entry passes exactly if the entry is integral, and returns its hash and epoch. -/
theorem verify_entry_integrity_eq_ok_iff {entry : Json} {expected_seq : Nat} {expected_instance_id : Str}
    {last_epoch : Int} {prev_h : Str} {verifier : Verifier} {calc_hash : Str} {ep : Int} :
    verify_entry_integrity entry expected_seq expected_instance_id last_epoch prev_h verifier =
        .ok (calc_hash, ep) ↔
      Integral entry expected_seq expected_instance_id last_epoch prev_h verifier ∧
        calc_hash = Json.getStr entry "entry_hash" [] ∧ ep = Json.getInt entry "epoch" 0 := by
  constructor
  · intro h
    unfold verify_entry_integrity at h
    split at h
    · cases h
    next hshape =>
    split at h
    · cases h
    next hseq =>
    split at h
    · cases h
    next hinst =>
    split at h
    · cases h
    next hepoch =>
    split at h
    · cases h
    next hprev =>
    split at h
    · cases h
    next hash hhash =>
    split at h
    · cases h
    next hentry =>
    split at h
    · cases h
    next sig_bytes hsig =>
    split at h
    · cases h
    next hverify =>
    cases h
    have hget : Json.getStr entry "entry_hash" [] = _ := Json.getStr_of_get (not_not.mp hentry).symm
    refine ⟨⟨validate_entry_shape_eq_nil_iff.mp hshape, not_not.mp hseq, not_not.mp hinst, not_lt.mp hepoch,
      not_not.mp hprev, by rw [hget]; exact hhash, sig_bytes, hsig, ?_⟩, hget.symm, rfl⟩
    rw [hget]
    simpa using hverify
  · rintro ⟨h, rfl, rfl⟩
    obtain ⟨sig_bytes, hsig, hverify⟩ := h.sig
    obtain ⟨hash, hget⟩ := h.shape.entry_hash.get_hex64
    have hstr : Json.getStr entry "entry_hash" [] = hash := Json.getStr_of_get hget
    rw [hstr] at hverify
    unfold verify_entry_integrity
    rw [validate_entry_shape_eq_nil_iff.mpr h.shape]
    simp [h.seq, h.instance_id, not_lt.mpr h.epoch, h.prev_hash, h.hash, hsig, hverify, hget, hstr]

private theorem eq_ok_iff_of {ε α : Type} {x : Except ε α} {P : Prop} {a a' : α} (hx : x = .ok a) (hP : P) :
    x = .ok a' ↔ P ∧ a' = a := by
  rw [hx]
  exact ⟨fun h => ⟨hP, (Except.ok.inj h).symm⟩, fun h => by rw [h.2]⟩

/-- The tables take an intent or a result exactly if its kind is in order. -/
theorem process_entry_kind_eq_ok_iff {entry : Json} {seq : Nat} {t t' : Tables} (hshape : EntryShape entry) :
    process_entry_kind entry seq t = .ok t' ↔ KindOk t entry ∧ t' = t.record seq entry := by
  rcases hshape.kind with hkind | ⟨hkind, hseq, _⟩
  · by_cases hmem : Json.getStr entry "grant_id" [] ∈ t.consumed_grants
    · simp [process_entry_kind, KindOk, hkind, hmem]
    · refine eq_ok_iff_of ?_ (.inl ⟨hkind, hmem⟩)
      simp [process_entry_kind, Tables.record, hkind, hmem]
  · obtain ⟨iseq, hiseq, _⟩ := hseq.get_nonneg
    cases hint : t.intents_by_seq.lookup iseq with
    | none => simp [process_entry_kind, KindOk, hkind, hiseq, hint]
    | some intent =>
      cases hres : t.results_by_intent.lookup iseq with
      | some result => simp [process_entry_kind, KindOk, hkind, hiseq, hint, hres, -List.lookup_eq_none_iff]
      | none =>
        by_cases hgrant : Json.get intent "grant_id" = Json.get entry "grant_id"
        · by_cases hinv : Json.get intent "invocation_hash" = Json.get entry "invocation_hash"
          · refine eq_ok_iff_of ?_ (.inr ⟨hkind, iseq, intent, hiseq, hint, hres, hgrant, hinv⟩)
            simp [process_entry_kind, Tables.record, Json.getInt, hkind, hiseq, hint, hres, hgrant, hinv]
          · simp [process_entry_kind, KindOk, hkind, hiseq, hint, hres, hgrant, hinv]
        · simp [process_entry_kind, KindOk, hkind, hiseq, hint, hres, hgrant]

/-- An entry is accepted exactly when it is admissible, and then it is absorbed. -/
theorem check_entry_eq_ok_iff {instance_id : Str} {verifier : Verifier} {s s' : ChainView} {entry : Json} :
    check_entry instance_id verifier s entry = .ok s' ↔
      Admits instance_id verifier s entry ∧ s' = s.absorb entry := by
  constructor
  · intro h
    unfold check_entry at h
    split at h
    · cases h
    next calc_hash ep hverify =>
    obtain ⟨hint, rfl, rfl⟩ := verify_entry_integrity_eq_ok_iff.mp hverify
    split at h
    · cases h
    next tables hkind =>
    obtain ⟨hok, rfl⟩ := (process_entry_kind_eq_ok_iff hint.shape).mp hkind
    cases h
    exact ⟨⟨hint, hok⟩, rfl⟩
  · rintro ⟨⟨hint, hok⟩, rfl⟩
    unfold check_entry
    rw [verify_entry_integrity_eq_ok_iff.mpr ⟨hint, rfl, rfl⟩]
    simp only
    rw [(process_entry_kind_eq_ok_iff hint.shape).mpr ⟨hok, rfl⟩]
    rfl

/-- What is returned is what the entries amount to. -/
theorem check_entries_eq_absorb {instance_id : Str} {verifier : Verifier} {s s' : ChainView}
    {entries : List Json} (h : check_entries instance_id verifier s entries = .ok s') :
    s' = s.absorbAll entries :=
  foldlM_ok_eq_foldl (fun _ _ _ hstep => (check_entry_eq_ok_iff.mp hstep).2) h

/-- Every entry of an accepted list was admissible where it stood. -/
theorem admits_of_check_entries {instance_id : Str} {verifier : Verifier} {s s' : ChainView}
    {entries : List Json} (h : check_entries instance_id verifier s entries = .ok s') {entry : Json}
    (hmem : entry ∈ entries) : ∃ u, Admits instance_id verifier u entry := by
  obtain ⟨front, back, rfl⟩ := List.append_of_mem hmem
  obtain ⟨u, _, hback⟩ := foldlM_append_ok_iff.mp h
  obtain ⟨u', hentry, _⟩ := foldlM_cons_ok_iff.mp hback
  exact ⟨u, (check_entry_eq_ok_iff.mp hentry).1⟩

/-- Entries pass in a row exactly if the first pass and the others pass after them. -/
theorem check_entries_append_ok_iff {instance_id : Str} {verifier : Verifier} {s s' : ChainView}
    {entries entries' : List Json} :
    check_entries instance_id verifier s (entries ++ entries') = .ok s' ↔
      ∃ u, check_entries instance_id verifier s entries = .ok u ∧
        check_entries instance_id verifier u entries' = .ok s' :=
  foldlM_append_ok_iff

/-- One entry more passes exactly if the state before it admits it. -/
theorem check_entries_concat_ok_iff {instance_id : Str} {verifier : Verifier} {s s' : ChainView}
    {entries : List Json} {entry : Json} :
    check_entries instance_id verifier s (entries ++ [entry]) = .ok s' ↔
      ∃ u, check_entries instance_id verifier s entries = .ok u ∧ Admits instance_id verifier u entry ∧
        s' = u.absorb entry := by
  unfold check_entries
  simp only [foldlM_concat_ok_iff, check_entry_eq_ok_iff]

@[simp] theorem ChainView.absorbAll_nil (s : ChainView) : s.absorbAll [] = s := rfl

theorem ChainView.absorbAll_append (s : ChainView) (entries entries' : List Json) :
    s.absorbAll (entries ++ entries') = (s.absorbAll entries).absorbAll entries' :=
  List.foldl_append

theorem ChainView.absorbAll_concat (s : ChainView) (entries : List Json) (entry : Json) :
    s.absorbAll (entries ++ [entry]) = (s.absorbAll entries).absorb entry :=
  s.absorbAll_append entries [entry]

/-- The entries are counted. -/
@[simp] theorem ChainView.absorbAll_count (s : ChainView) (entries : List Json) :
    (s.absorbAll entries).count = s.count + entries.length := by
  induction entries using List.reverseRecOn with
  | nil => rfl
  | append_singleton entries entry ih =>
    rw [ChainView.absorbAll_concat, ChainView.absorb, ih]
    simp [Nat.add_assoc]

end narwhal.evidence
