import Narwhal.Lib.Json

open pylib

namespace narwhal.evidence

/-- `rec.get(key)`; a value that is not a dictionary has no keys. -/
def Json.get (rec : Json) (key : String) : Option Json :=
  match rec with
  | .obj fields => lookupField (lit key) fields
  | _ => none

/-- `rec.get(key, default)` for a field whose shape is an `int`. -/
def Json.getInt (rec : Json) (key : String) (default : Int) : Int :=
  match Json.get rec key with
  | some (.int n) => n
  | _ => default

/-- `rec.get(key, default)` for a field whose shape is a `str`. -/
def Json.getStr (rec : Json) (key : String) (default : Str) : Str :=
  match Json.get rec key with
  | some (.str s) => s
  | _ => default

/-- Which record a message is about. -/
inductive Subject where
  | entry
  | checkpoint
deriving DecidableEq, Repr

/-- The messages of the two shape validators, with the values they print. -/
inductive ShapeError where
  /-- {subject} {i} is not a dict: {type} -/
  | not_dict (subject : Subject) (i : Nat) (value : Json)
  /-- {subject} {i} missing required field: {field} -/
  | missing_field (subject : Subject) (i : Nat) (field : String)
  /-- {subject} {i} invalid version: {value} -/
  | invalid_version (subject : Subject) (i : Nat) (value : Json)
  /-- {subject} {i} {field} is not non-negative int: {value} -/
  | not_nonneg_int (subject : Subject) (i : Nat) (field : String) (value : Json)
  /-- {subject} {i} {field} is not non-empty str: {value} -/
  | not_nonempty_str (subject : Subject) (i : Nat) (field : String) (value : Json)
  /-- {subject} {i} {field} is not 64-hex str: {value} -/
  | not_hex64 (subject : Subject) (i : Nat) (field : String) (value : Json)
  /-- {subject} {i} sig is not valid hex str: {value} -/
  | not_hex_str (subject : Subject) (i : Nat) (value : Json)
  /-- {subject} {i} invalid kind: {value} -/
  | invalid_kind (subject : Subject) (i : Nat) (value : Option Json)
  /-- result at seq {i} has invalid intent_seq: {value} -/
  | invalid_intent_seq (i : Nat) (value : Option Json)
  /-- result at seq {i} invalid outcome: {value} -/
  | invalid_outcome (i : Nat) (value : Option Json)
deriving DecidableEq, Repr

def REQUIRED_ENTRY_FIELDS : List String :=
  ["v", "seq", "ts_ms", "kind", "instance_id", "epoch", "grant_id",
    "invocation_hash", "prev_hash", "entry_hash", "sig"]

def REQUIRED_CP_FIELDS : List String :=
  ["v", "kind", "cp_seq", "instance_id", "epoch", "count",
    "head_hash", "ts_ms", "prev_cp_hash", "cp_hash", "sig"]

def is_hex64 : Json → Bool
  | .str s => s.length == 64 && s.all isLowerHex
  | _ => false

def is_hex_str : Json → Bool
  | .str s => 0 < s.length && s.length % 2 == 0 && s.all isLowerHex
  | _ => false

/-- `type(val) is int and val == 1`; a `bool` is not an `int` here. -/
def is_version_one : Json → Bool
  | .int n => n == 1
  | _ => false

def is_nonneg_int : Json → Bool
  | .int n => 0 ≤ n
  | _ => false

def is_nonempty_str : Json → Bool
  | .str s => s ≠ []
  | _ => false

def is_checkpoint_kind (val : Json) : Bool := val == .str (lit "checkpoint")

def is_outcome : Option Json → Bool
  | some (.str s) => s = lit "ok" ∨ s = lit "error" ∨ s = lit "aborted"
  | _ => false

/-- The required fields that are absent, one message each. -/
def missing_fields (subject : Subject) (i : Nat) (rec : Json) (required : List String) : List ShapeError :=
  required.filterMap fun field =>
    if (Json.get rec field).isSome then none else some (.missing_field subject i field)

/-- A check of one field: its name, what it must satisfy, and the message otherwise. -/
abbrev FieldCheck := String × (Json → Bool) × (Json → ShapeError)

/-- `if field in rec and not ok(rec[field])`: one message about a present field. -/
def check_field (rec : Json) : FieldCheck → List ShapeError
  | (field, ok, message) =>
    match Json.get rec field with
    | some value => if ok value then [] else [message value]
    | none => []

/-- The checks on `kind` and on the two fields only a result has. -/
def check_kind (entry : Json) (i : Nat) : List ShapeError :=
  let kind := Json.get entry "kind"
  if kind = some (.str (lit "intent")) then []
  else if kind = some (.str (lit "result")) then
    (if (Json.get entry "intent_seq").any is_nonneg_int then []
      else [.invalid_intent_seq i (Json.get entry "intent_seq")]) ++
    (if is_outcome (Json.get entry "outcome") then []
      else [.invalid_outcome i (Json.get entry "outcome")])
  else [.invalid_kind .entry i kind]

def entry_checks (i : Nat) : List FieldCheck :=
  [("v", is_version_one, .invalid_version .entry i),
    ("seq", is_nonneg_int, .not_nonneg_int .entry i "seq"),
    ("ts_ms", is_nonneg_int, .not_nonneg_int .entry i "ts_ms"),
    ("epoch", is_nonneg_int, .not_nonneg_int .entry i "epoch"),
    ("instance_id", is_nonempty_str, .not_nonempty_str .entry i "instance_id"),
    ("grant_id", is_nonempty_str, .not_nonempty_str .entry i "grant_id"),
    ("invocation_hash", is_nonempty_str, .not_nonempty_str .entry i "invocation_hash"),
    ("prev_hash", is_hex64, .not_hex64 .entry i "prev_hash"),
    ("entry_hash", is_hex64, .not_hex64 .entry i "entry_hash"),
    ("sig", is_hex_str, .not_hex_str .entry i)]

/-- Validate entry fields and types, collecting every message. -/
def validate_entry_shape (entry : Json) (i : Nat) : List ShapeError :=
  match entry with
  | .obj _ =>
    missing_fields .entry i entry REQUIRED_ENTRY_FIELDS ++ (entry_checks i).flatMap (check_field entry) ++
      check_kind entry i
  | value => [.not_dict .entry i value]

def checkpoint_checks (j : Nat) : List FieldCheck :=
  [("v", is_version_one, .invalid_version .checkpoint j),
    ("kind", is_checkpoint_kind, fun kind => .invalid_kind .checkpoint j (some kind)),
    ("cp_seq", is_nonneg_int, .not_nonneg_int .checkpoint j "cp_seq"),
    ("epoch", is_nonneg_int, .not_nonneg_int .checkpoint j "epoch"),
    ("count", is_nonneg_int, .not_nonneg_int .checkpoint j "count"),
    ("ts_ms", is_nonneg_int, .not_nonneg_int .checkpoint j "ts_ms"),
    ("instance_id", is_nonempty_str, .not_nonempty_str .checkpoint j "instance_id"),
    ("head_hash", is_hex64, .not_hex64 .checkpoint j "head_hash"),
    ("prev_cp_hash", is_hex64, .not_hex64 .checkpoint j "prev_cp_hash"),
    ("cp_hash", is_hex64, .not_hex64 .checkpoint j "cp_hash"),
    ("sig", is_hex_str, .not_hex_str .checkpoint j)]

/-- Validate checkpoint fields and types, collecting every message. -/
def validate_checkpoint_shape (cp : Json) (j : Nat) : List ShapeError :=
  match cp with
  | .obj _ =>
    missing_fields .checkpoint j cp REQUIRED_CP_FIELDS ++ (checkpoint_checks j).flatMap (check_field cp)
  | value => [.not_dict .checkpoint j value]

/-! ### What a record of the right shape holds -/

/-- The field is present and passes its check. -/
def HasField (rec : Json) (field : String) (ok : Json → Bool) : Prop :=
  ∃ value, Json.get rec field = some value ∧ ok value = true

/-- An entry that passes `validate_entry_shape`. -/
structure EntryShape (entry : Json) : Prop where
  v : HasField entry "v" is_version_one
  seq : HasField entry "seq" is_nonneg_int
  ts_ms : HasField entry "ts_ms" is_nonneg_int
  epoch : HasField entry "epoch" is_nonneg_int
  instance_id : HasField entry "instance_id" is_nonempty_str
  grant_id : HasField entry "grant_id" is_nonempty_str
  invocation_hash : HasField entry "invocation_hash" is_nonempty_str
  prev_hash : HasField entry "prev_hash" is_hex64
  entry_hash : HasField entry "entry_hash" is_hex64
  sig : HasField entry "sig" is_hex_str
  kind : Json.get entry "kind" = some (.str (lit "intent")) ∨
    (Json.get entry "kind" = some (.str (lit "result")) ∧ HasField entry "intent_seq" is_nonneg_int ∧
      is_outcome (Json.get entry "outcome") = true)

/-- A checkpoint that passes `validate_checkpoint_shape`. -/
structure CheckpointShape (cp : Json) : Prop where
  v : HasField cp "v" is_version_one
  kind : HasField cp "kind" is_checkpoint_kind
  cp_seq : HasField cp "cp_seq" is_nonneg_int
  epoch : HasField cp "epoch" is_nonneg_int
  count : HasField cp "count" is_nonneg_int
  ts_ms : HasField cp "ts_ms" is_nonneg_int
  instance_id : HasField cp "instance_id" is_nonempty_str
  head_hash : HasField cp "head_hash" is_hex64
  prev_cp_hash : HasField cp "prev_cp_hash" is_hex64
  cp_hash : HasField cp "cp_hash" is_hex64
  sig : HasField cp "sig" is_hex_str

private theorem missing_fields_eq_nil_iff {subject : Subject} {i : Nat} {rec : Json} {required : List String} :
    missing_fields subject i rec required = [] ↔ ∀ field ∈ required, (Json.get rec field).isSome = true := by
  simp only [missing_fields, List.filterMap_eq_nil_iff]
  refine forall₂_congr fun field _ => ?_
  split <;> simp_all

/-- A present field passes its check exactly when the check says nothing. -/
private theorem check_field_eq_nil_iff {rec : Json} {check : FieldCheck}
    (h : (Json.get rec check.1).isSome = true) :
    check_field rec check = [] ↔ HasField rec check.1 check.2.1 := by
  obtain ⟨field, ok, message⟩ := check
  obtain ⟨value, hvalue⟩ := Option.isSome_iff_exists.mp h
  simp only [check_field, HasField, hvalue]
  cases hok : ok value <;> simp [hok]

/-- A dictionary whose checked fields are all required draws no message exactly
    when it has the required fields and each checked one passes. -/
private theorem messages_eq_nil_iff {subject : Subject} {i : Nat} {rec : Json} {required : List String}
    {checks : List FieldCheck} (hsub : ∀ check ∈ checks, check.1 ∈ required) :
    missing_fields subject i rec required ++ checks.flatMap (check_field rec) = [] ↔
      (∀ field ∈ required, (Json.get rec field).isSome = true) ∧
        ∀ check ∈ checks, HasField rec check.1 check.2.1 := by
  rw [List.append_eq_nil_iff, missing_fields_eq_nil_iff, List.flatMap_eq_nil_iff]
  refine and_congr_right fun hsome => forall₂_congr fun check hcheck => ?_
  exact check_field_eq_nil_iff (hsome check.1 (hsub check hcheck))

private theorem HasField.isSome {rec : Json} {field : String} {ok : Json → Bool} (h : HasField rec field ok) :
    (Json.get rec field).isSome = true := by
  obtain ⟨value, hvalue, _⟩ := h
  simp [hvalue]

private theorem HasField.is_obj {rec : Json} {field : String} {ok : Json → Bool} (h : HasField rec field ok) :
    ∃ fields, rec = .obj fields := by
  obtain ⟨value, hvalue, _⟩ := h
  cases rec with
  | obj fields => exact ⟨fields, rfl⟩
  | _ => cases hvalue

private theorem check_kind_eq_nil_iff {entry : Json} {i : Nat} :
    check_kind entry i = [] ↔ Json.get entry "kind" = some (.str (lit "intent")) ∨
      (Json.get entry "kind" = some (.str (lit "result")) ∧ HasField entry "intent_seq" is_nonneg_int ∧
        is_outcome (Json.get entry "outcome") = true) := by
  have hseq : (Json.get entry "intent_seq").any is_nonneg_int = true ↔
      HasField entry "intent_seq" is_nonneg_int := by
    unfold HasField
    cases Json.get entry "intent_seq" <;> simp
  unfold check_kind
  by_cases hintent : Json.get entry "kind" = some (.str (lit "intent"))
  · simp [hintent]
  · by_cases hresult : Json.get entry "kind" = some (.str (lit "result"))
    · simp [hresult, hseq]
    · simp [hintent, hresult]

theorem validate_entry_shape_eq_nil_iff {entry : Json} {i : Nat} :
    validate_entry_shape entry i = [] ↔ EntryShape entry := by
  have hsub : ∀ check ∈ entry_checks i, check.1 ∈ REQUIRED_ENTRY_FIELDS := by
    simp [entry_checks, REQUIRED_ENTRY_FIELDS]
  constructor
  · intro h
    cases entry with
    | obj fields =>
      simp only [validate_entry_shape] at h
      rw [List.append_eq_nil_iff, messages_eq_nil_iff hsub, check_kind_eq_nil_iff] at h
      obtain ⟨⟨_, hchecks⟩, hkind⟩ := h
      simp only [entry_checks, List.forall_mem_cons] at hchecks
      obtain ⟨hv, hseq, hts, hepoch, hinst, hgrant, hinv, hprev, hhash, hsig, _⟩ := hchecks
      exact ⟨hv, hseq, hts, hepoch, hinst, hgrant, hinv, hprev, hhash, hsig, hkind⟩
    | _ => cases h
  · intro h
    obtain ⟨fields, rfl⟩ := h.v.is_obj
    have hkind : (Json.get (.obj fields) "kind").isSome = true := by
      rcases h.kind with hk | ⟨hk, _⟩ <;> simp [hk]
    simp only [validate_entry_shape]
    rw [List.append_eq_nil_iff, messages_eq_nil_iff hsub, check_kind_eq_nil_iff]
    refine ⟨⟨?_, ?_⟩, h.kind⟩
    · simp [REQUIRED_ENTRY_FIELDS, h.v.isSome, h.seq.isSome, h.ts_ms.isSome, hkind, h.instance_id.isSome,
        h.epoch.isSome, h.grant_id.isSome, h.invocation_hash.isSome, h.prev_hash.isSome, h.entry_hash.isSome,
        h.sig.isSome]
    · simp [entry_checks, h.v, h.seq, h.ts_ms, h.epoch, h.instance_id, h.grant_id, h.invocation_hash,
        h.prev_hash, h.entry_hash, h.sig]

theorem validate_checkpoint_shape_eq_nil_iff {cp : Json} {j : Nat} :
    validate_checkpoint_shape cp j = [] ↔ CheckpointShape cp := by
  have hsub : ∀ check ∈ checkpoint_checks j, check.1 ∈ REQUIRED_CP_FIELDS := by
    simp [checkpoint_checks, REQUIRED_CP_FIELDS]
  constructor
  · intro h
    cases cp with
    | obj fields =>
      simp only [validate_checkpoint_shape] at h
      rw [messages_eq_nil_iff hsub] at h
      have hchecks := h.2
      simp only [checkpoint_checks, List.forall_mem_cons] at hchecks
      obtain ⟨hv, hkind, hseq, hepoch, hcount, hts, hinst, hhead, hprev, hhash, hsig, _⟩ := hchecks
      exact ⟨hv, hkind, hseq, hepoch, hcount, hts, hinst, hhead, hprev, hhash, hsig⟩
    | _ => cases h
  · intro h
    obtain ⟨fields, rfl⟩ := h.v.is_obj
    simp only [validate_checkpoint_shape]
    rw [messages_eq_nil_iff hsub]
    constructor
    · simp [REQUIRED_CP_FIELDS, h.v.isSome, h.kind.isSome, h.cp_seq.isSome, h.instance_id.isSome,
        h.epoch.isSome, h.count.isSome, h.head_hash.isSome, h.ts_ms.isSome, h.prev_cp_hash.isSome,
        h.cp_hash.isSome, h.sig.isSome]
    · simp [checkpoint_checks, h.v, h.kind, h.cp_seq, h.epoch, h.count, h.ts_ms, h.instance_id, h.head_hash,
        h.prev_cp_hash, h.cp_hash, h.sig]

end narwhal.evidence
