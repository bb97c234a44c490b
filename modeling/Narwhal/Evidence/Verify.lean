import Narwhal.Evidence.Checkpoint

open pylib

namespace narwhal.evidence

/-- The messages of the verification report. -/
inductive ReportError where
  /-- cannot specify both checkpoints and allow_no_checkpoints (D-EV-20) -/
  | both_modes
  /-- must specify either checkpoints or allow_no_checkpoints=True (D-EV-20) -/
  | no_mode
  /-- key separation failure: entry_pub and cp_pub are identical -/
  | keys_identical
  /-- key separation check error -/
  | key_check
  /-- failed to load public key -/
  | key_load
  /-- failed to read chain: {e} -/
  | read_chain (e : EvidenceError)
  /-- failed to read checkpoints: {e} -/
  | read_checkpoints (e : EvidenceError)
  /-- checkpoint list is empty (D-EV-20) -/
  | empty_checkpoints
  | shape (e : ShapeError)
  /-- {subject} {i} instance_id mismatch -/
  | instance_id_mismatch (subject : Subject) (i : Nat)
  /-- {subject} {i} seq error: expected {i} -/
  | seq_error (subject : Subject) (i : Nat)
  /-- {subject} {i} epoch decreased -/
  | epoch_decreased (subject : Subject) (i : Nat)
  /-- {subject} {i} prev_hash mismatch -/
  | prev_hash_mismatch (subject : Subject) (i : Nat)
  /-- {subject} {i} canonical format error: {e} -/
  | canonical_error (subject : Subject) (i : Nat) (e : CanonicalError)
  /-- {subject} {i} hash mismatch -/
  | hash_mismatch (subject : Subject) (i : Nat)
  /-- {subject} {i} signature verification failed -/
  | signature_failed (subject : Subject) (i : Nat)
  /-- {subject} {i} invalid signature format -/
  | signature_format (subject : Subject) (i : Nat)
  /-- double spend: grant_id '{gid}' reused at seq {i} -/
  | double_spend (gid : Str) (i : Nat)
  /-- result at seq {i} points to forward/invalid intent_seq {iseq} -/
  | forward_intent_seq (i : Nat) (iseq : Int)
  /-- result at seq {i} references non-intent record {iseq} -/
  | non_intent (i : Nat) (iseq : Int)
  /-- result at seq {i} grant_id mismatch with intent {iseq} -/
  | grant_id_mismatch (i : Nat) (iseq : Int)
  /-- result at seq {i} invocation_hash mismatch with intent {iseq} -/
  | invocation_hash_mismatch (i : Nat) (iseq : Int)
  /-- duplicate result for intent_seq {iseq} at seq {i} -/
  | duplicate_result (i : Nat) (iseq : Int)
  /-- checkpoint {j} count decreased -/
  | count_decreased (j : Nat)
  /-- checkpoint {j} count=0 must have head_hash == GENESIS -/
  | empty_head (j : Nat)
  /-- checkpoint {j} count {c_count} > entries length (tail truncation/rollback) -/
  | truncated (j : Nat) (c_count : Int)
  /-- checkpoint {j} head_hash mismatch -/
  | head_hash_mismatch (j : Nat)
  /-- checkpoint {j} instance_id mismatch with entry -/
  | entry_instance_id_mismatch (j : Nat)
  /-- checkpoint {j} epoch mismatch with entry -/
  | entry_epoch_mismatch (j : Nat)
deriving DecidableEq, Repr

/-- Verification results report. A finding is an intent, by number and entry, that is
    consumed with its outcome unknown. -/
structure Report where
  errors : List ReportError := []
  findings : List (Int × Json) := []
  anchored_count : Int := 0
  unanchored_tail : Int := 0
deriving DecidableEq, Repr

def Report.ok (r : Report) : Bool := r.errors.length == 0

/-! ### The entry loop -/

/-- What the entry loop carries from record to record. -/
structure EntryScan where
  i : Nat
  expected_instance_id : Option Str
  prev_h : Str
  last_epoch : Int
  intents_by_seq : List (Int × Json)
  intents_by_grant : List (Str × Nat)
  results_by_intent : List (Int × Nat)
deriving DecidableEq, Repr

def EntryScan.start : EntryScan := ⟨0, none, GENESIS_PREV_HASH, -1, [], [], []⟩

/-- `if bad: errors.append(error)`. -/
def report (bad : Bool) (error : ReportError) : List ReportError := if bad then [error] else []

/-- The check of a record's instance, once an instance is expected. -/
def scan_instance (subject : Subject) (i : Nat) (expected_instance_id : Option Str) (rec : Json) : List ReportError :=
  match expected_instance_id with
  | none => []
  | some expected =>
    report (Json.get rec "instance_id" ≠ some (.str expected)) (.instance_id_mismatch subject i)

/-- The checks of hash and signature of a record, and the hash the next one is compared
    with: a record whose body cannot be encoded leaves it as it was. -/
def scan_hash (subject : Subject) (i : Nat) ( pre : Bytes) (hash_field : String) (verifier : Verifier) (rec : Json)
    (prev_h : Str) : List ReportError × Str :=
  match body_hash pre rec hash_field with
  | .error e => ([.canonical_error subject i e], prev_h)
  | .ok calc_hash =>
    (report (some (.str calc_hash) ≠ Json.get rec hash_field) (.hash_mismatch subject i) ++
      (match fromHex (Json.getStr rec "sig" []) with
      | none => [.signature_format subject i]
      | some sig_bytes => report (¬ verifier (pre ++ asciiBytes calc_hash) sig_bytes) (.signature_failed subject i)),
      Json.getStr rec hash_field [])

/-- The checks of a result against the intent it names. -/
def scan_result (s : EntryScan) (entry : Json) (iseq : Int) : List ReportError :=
  if (s.i : Int) ≤ iseq ∨ iseq < 0 then [.forward_intent_seq s.i iseq]
  else
    match s.intents_by_seq.lookup iseq with
    | none => [.non_intent s.i iseq]
    | some intent =>
      report (Json.get intent "grant_id" ≠ Json.get entry "grant_id") (.grant_id_mismatch s.i iseq) ++
        report (Json.get intent "invocation_hash" ≠ Json.get entry "invocation_hash")
          (.invocation_hash_mismatch s.i iseq)

/-- The part of the entry loop about the kind of the entry. -/
def scan_kind (s : EntryScan) (entry : Json) : List ReportError × EntryScan :=
  let kind := Json.get entry "kind"
  if kind = some (.str (lit "intent")) then
    let gid := Json.getStr entry "grant_id" []
    let s' := { s with intents_by_seq := ((s.i : Int), entry) :: s.intents_by_seq }
    if (s.intents_by_grant.lookup gid).isSome then ([.double_spend gid s.i], s')
    else ([], { s' with intents_by_grant := (gid, s.i) :: s.intents_by_grant })
  else if kind = some (.str (lit "result")) then
    match Json.get entry "intent_seq" with
    | some (.int iseq) =>
      if (s.results_by_intent.lookup iseq).isSome then
        (scan_result s entry iseq ++ [.duplicate_result s.i iseq], s)
      else (scan_result s entry iseq, { s with results_by_intent := (iseq, s.i) :: s.results_by_intent })
    | _ => ([], s)
  else ([], s)

/-- One round of the entry loop: a record of the wrong shape is skipped, any other is
    checked in every respect. -/
def scan_entry (verifier : Verifier) (s : EntryScan) (entry : Json) : List ReportError × EntryScan :=
  match validate_entry_shape entry s.i with
  | first :: more => ((first :: more).map .shape, { s with i := s.i + 1 })
  | [] =>
    let ep := Json.getInt entry "epoch" 0
    let (hash_errors, prev_h) := scan_hash .entry s.i ENTRY_PREFIX "entry_hash" verifier entry s.prev_h
    let (kind_errors, s') := scan_kind s entry
    (scan_instance .entry s.i s.expected_instance_id entry ++
      report (Json.get entry "seq" ≠ some (.int s.i)) (.seq_error .entry s.i) ++
      report (ep < s.last_epoch) (.epoch_decreased .entry s.i) ++
      report (Json.get entry "prev_hash" ≠ some (.str s.prev_h)) (.prev_hash_mismatch .entry s.i) ++
      hash_errors ++ kind_errors,
      { s' with
        i := s.i + 1
        expected_instance_id := some (s.expected_instance_id.getD (Json.getStr entry "instance_id" []))
        prev_h := prev_h
        last_epoch := ep })

/-! ### The checkpoint loop -/

/-- What the checkpoint loop carries from record to record. -/
structure CheckpointScan where
  j : Nat
  prev_cp_h : Str
  last_cp_epoch : Int
  last_cp_count : Int
deriving DecidableEq, Repr

def CheckpointScan.start : CheckpointScan := ⟨0, GENESIS_PREV_HASH, -1, -1⟩

/-- The checks of a checkpoint's head against the chain. -/
def scan_head (entry_list : List Json) (j : Nat) (cp : Json) (c_count : Int) : List ReportError :=
  if c_count = 0 then report (Json.get cp "head_hash" ≠ some (.str GENESIS_PREV_HASH)) (.empty_head j)
  else if (entry_list.length : Int) < c_count then [.truncated j c_count]
  else
    match entry_list[c_count.toNat - 1]? with
    | some (.obj fields) =>
      let target_entry := Json.obj fields
      report (Json.get target_entry "entry_hash" ≠ Json.get cp "head_hash") (.head_hash_mismatch j) ++
        report (Json.get target_entry "instance_id" ≠ Json.get cp "instance_id") (.entry_instance_id_mismatch j) ++
        report (Json.get target_entry "epoch" ≠ Json.get cp "epoch") (.entry_epoch_mismatch j)
    | _ => []

/-- One round of the checkpoint loop. The shape is checked first, so the epoch and the
    count are non-negative where they are compared. -/
def scan_checkpoint (cp_verifier : Verifier) (entry_list : List Json) (expected_instance_id : Option Str)
    (s : CheckpointScan) (cp : Json) : List ReportError × CheckpointScan :=
  match validate_checkpoint_shape cp s.j with
  | first :: more => ((first :: more).map .shape, { s with j := s.j + 1 })
  | [] =>
    let c_epoch := Json.getInt cp "epoch" (-1)
    let c_count := Json.getInt cp "count" (-1)
    let (hash_errors, prev_cp_h) := scan_hash .checkpoint s.j CHECKPOINT_PREFIX "cp_hash" cp_verifier cp s.prev_cp_h
    (report (Json.get cp "cp_seq" ≠ some (.int s.j)) (.seq_error .checkpoint s.j) ++
      scan_instance .checkpoint s.j expected_instance_id cp ++
      report (c_epoch < s.last_cp_epoch) (.epoch_decreased .checkpoint s.j) ++
      report (c_count < s.last_cp_count) (.count_decreased s.j) ++
      report (Json.get cp "prev_cp_hash" ≠ some (.str s.prev_cp_h)) (.prev_hash_mismatch .checkpoint s.j) ++
      hash_errors ++ scan_head entry_list s.j cp c_count,
      ⟨s.j + 1, prev_cp_h, c_epoch, c_count⟩)

/-- The count of the last checkpoint that has one. -/
def last_count (cp_list : List Json) : Int :=
  match (cp_list.filter fun cp => (Json.get cp "count").any is_nonneg_int).getLast? with
  | some cp => Json.getInt cp "count" 0
  | none => 0

/-! ### The whole verification -/

/-- A public key file: its canonical DER form and what it verifies. -/
structure PublicKey where
  der : Bytes
  verify : Verifier

/-- A key argument: absent, a file that is no public key, or a public key. -/
inductive KeyArg where
  | absent
  | invalid
  | loaded (key : PublicKey)

/-- Records given as a list, or by the path of a file, `none` where no regular file is there. -/
inductive Source where
  | list (records : List Json)
  | path (content : Option Bytes)

def Source.read (source : Source) (reader : Bytes → Except EvidenceError (List Json)) :
    Except EvidenceError (List Json) :=
  match source with
  | .list records => .ok records
  | .path none => .error .os
  | .path (some data) => reader data

/-- The loops of `verify` and the figures of the report, after the arguments are read. -/
def verify_records (key_errors : List ReportError) (entry_v cp_v : Verifier) (entry_list : List Json)
    (cp_list : Option (List Json)) : Report :=
  let (entry_errors, s) := collect (scan_entry entry_v) .start entry_list
  let findings := s.intents_by_seq.reverse.filter fun intent => (s.results_by_intent.lookup intent.1).isNone
  match cp_list with
  | some cp_list =>
    let (cp_errors, _) := collect (scan_checkpoint cp_v entry_list s.expected_instance_id) .start cp_list
    { errors := key_errors ++ entry_errors ++ cp_errors
      findings := findings
      anchored_count := last_count cp_list
      unanchored_tail := max 0 (entry_list.length - last_count cp_list) }
  | none =>
    { errors := key_errors ++ entry_errors
      findings := findings
      anchored_count := 0
      unanchored_tail := entry_list.length }

/-- Strictly verify an evidence chain against entry and checkpoint keys. Only an absent
    key raises; everything else is reported. -/
def verify (entries : Source) (entry_pub : KeyArg) (checkpoints : Option Source) (cp_pub : KeyArg)
    (allow_no_checkpoints : Bool) (no_checkpoints : Option Bool) : Except EvidenceError Report :=
  match entry_pub, cp_pub with
  | .absent, _ => .error (.value .entry_pub)
  | _, .absent => .error (.value .cp_pub)
  | _, _ =>
    let allow_no_checkpoints := allow_no_checkpoints || no_checkpoints.getD false
    if checkpoints.isSome ∧ allow_no_checkpoints then .ok { errors := [.both_modes] }
    else if checkpoints.isNone ∧ ¬ allow_no_checkpoints then .ok { errors := [.no_mode] }
    else
      match entry_pub, cp_pub with
      | .loaded entry_key, .loaded cp_key =>
        let key_errors := report (entry_key.der = cp_key.der) .keys_identical
        match entries.read read_chain with
        | .error e => .ok { errors := key_errors ++ [.read_chain e] }
        | .ok entry_list =>
          match checkpoints with
          | none => .ok (verify_records key_errors entry_key.verify cp_key.verify entry_list none)
          | some source =>
            match source.read read_checkpoints with
            | .error e => .ok { errors := key_errors ++ [.read_checkpoints e] }
            | .ok [] => .ok { errors := key_errors ++ [.empty_checkpoints] }
            | .ok cp_list => .ok (verify_records key_errors entry_key.verify cp_key.verify entry_list (some cp_list))
      | _, _ => .ok { errors := [.key_check, .key_load] }

/-- A key for entries and one for checkpoints, for concrete runs. -/
def sampleEntryKey : PublicKey := ⟨[1], sampleVerifier⟩

def sampleCheckpointKey : PublicKey := ⟨[2], sampleVerifier⟩

end narwhal.evidence
