import Narwhal.Evidence.Reader

open pylib

namespace narwhal.evidence

/-- `OpensslSigner.sign` for one private key; `none` where the subprocess fails. -/
abbrev Signer := Bytes → Option Bytes

/-- The state of a `ChainWriter`. `poison` is the reason once the writer is poisoned. -/
structure ChainWriter where
  instance_id : Str
  epoch : Int
  signer : Signer
  verifier : Verifier
  tables : Tables
  seq : Nat
  last_hash : Str
  poison : Option PoisonReason
  cached_offset : Nat
  cached_count : Nat
  cached_head_hash : Str
  cached_epoch : Int
  cached_last_entry_offset : Nat

/-- What `os.stat(path)` says about the file behind the descriptor. -/
inductive PathStat where
  | same
  | inaccessible
  | replaced
deriving DecidableEq, Repr

/-- What the system does during one call: the state of the path, the clock, what each
    `os.write` returns (`none` where it raises; further calls write all that is left),
    and whether `os.fsync` succeeds. -/
structure Env where
  stat : PathStat
  now_ms : Nat
  writes : List (Option Nat)
  fsync : Bool
deriving DecidableEq, Repr

/-- What a method leaves: its value or exception, the writer, and the file. -/
structure Outcome (α : Type) where
  result : Except EvidenceError α
  writer : ChainWriter
  file : Bytes

def ChainWriter.poisoned (w : ChainWriter) (reason : PoisonReason) : ChainWriter :=
  { w with poison := some reason }

/-- The writer before the chain is read. -/
def ChainWriter.fresh (instance_id : Str) (epoch : Int) (signer : Signer) (verifier : Verifier) : ChainWriter where
  instance_id := instance_id
  epoch := epoch
  signer := signer
  verifier := verifier
  tables := .empty
  seq := 0
  last_hash := GENESIS_PREV_HASH
  poison := none
  cached_offset := 0
  cached_count := 0
  cached_head_hash := GENESIS_PREV_HASH
  cached_epoch := -1
  cached_last_entry_offset := 0

def check_poisoned (w : ChainWriter) : Except EvidenceError Unit :=
  match w.poison with
  | some reason => .error (.integrity (.poisoned reason))
  | none => .ok ()

/-- Taking the lock: a poisoned writer is refused, and one whose path no longer names
    the open file is poisoned. -/
def lock (w : ChainWriter) (stat : PathStat) : Except EvidenceError Unit × ChainWriter :=
  match check_poisoned w with
  | .error e => (.error e, w)
  | .ok _ =>
    match stat with
    | .same => (.ok (), w)
    | .inaccessible => (.error (.integrity (.poisoning .inaccessible)), w.poisoned .inaccessible)
    | .replaced => (.error (.integrity (.poisoning .replaced)), w.poisoned .replaced)

/-! ### Reading the chain -/

/-- What the loops of `_full_load_and_verify` compute before the writer is touched. -/
structure Loaded where
  view : ChainView
  size : Nat
  last_entry_offset : Nat
deriving DecidableEq, Repr

/-- The offset at which the last of the first `n` lines starts. -/
def last_entry_offset (n i last_offset current_offset : Nat) : List Bytes → Nat
  | [] => last_offset
  | line :: lines =>
    if i < n then last_entry_offset n (i + 1) current_offset (current_offset + line.length) lines
    else last_entry_offset n (i + 1) last_offset current_offset lines

/-- The loops of `_full_load_and_verify`. -/
def load_entries (instance_id : Str) (verifier : Verifier) (file : Bytes) : Except EvidenceError Loaded :=
  match read_chain file with
  | .error e => .error e
  | .ok entries =>
    match check_entries instance_id verifier .genesis entries with
    | .error e => .error e
    | .ok view => .ok ⟨view, file.length, last_entry_offset entries.length 0 0 0 (fileLines file)⟩

/-- The assignments at the end of `_full_load_and_verify`. -/
def ChainWriter.assign (w : ChainWriter) (l : Loaded) : ChainWriter :=
  { w with
    tables := l.view.tables
    seq := l.view.count
    last_hash := l.view.prev_h
    cached_count := l.view.count
    cached_head_hash := l.view.prev_h
    cached_epoch := l.view.last_epoch
    cached_offset := l.size
    cached_last_entry_offset := l.last_entry_offset }

/-- Full chain load and verification on open. -/
def full_load_and_verify (w : ChainWriter) (file : Bytes) : Except EvidenceError ChainWriter :=
  match load_entries w.instance_id w.verifier file with
  | .error e => .error e
  | .ok l =>
    if 0 < l.view.count ∧ w.epoch < l.view.last_epoch then
      .error (.integrity (.writer_epoch w.epoch l.view.last_epoch))
    else .ok (w.assign l)

/-- `ChainWriter.__init__` on a file with these contents. -/
def ChainWriter.init (instance_id : Str) (epoch : Int) (signer : Signer) (verifier : Verifier) (stat : PathStat)
    (file : Bytes) : Except EvidenceError ChainWriter :=
  if instance_id = [] then .error (.value .instance_id)
  else if epoch < 0 then .error (.value .epoch)
  else
    match lock (.fresh instance_id epoch signer verifier) stat with
    | (.error e, _) => .error e
    | (.ok _, w) => if 0 < file.length then full_load_and_verify w file else .ok w

/-- What the writer knows of the chain. -/
def ChainWriter.view (w : ChainWriter) : ChainView := ⟨w.seq, w.last_hash, w.cached_epoch, w.tables⟩

/-- The assignments of one round over the new lines, for a line that starts at `offset`. -/
def ChainWriter.advance (w : ChainWriter) (view : ChainView) (offset : Nat) : ChainWriter :=
  { w with
    tables := view.tables
    cached_last_entry_offset := offset
    seq := view.count
    last_hash := view.prev_h
    cached_epoch := view.last_epoch }

/-- The assignments after the new lines. -/
def ChainWriter.commit (w : ChainWriter) (current_size : Nat) : ChainWriter :=
  { w with cached_offset := current_size, cached_count := w.seq, cached_head_hash := w.last_hash }

/-- The loop of `_sync_under_lock` over the new lines. Each accepted line changes the
    writer at once, so an error further down finds those changes made. -/
def sync_lines (w : ChainWriter) (offset line_idx : Nat) : List Bytes → Except EvidenceError Unit × ChainWriter
  | [] => (.ok (), w)
  | raw_line :: rest =>
    match parse_strict_json_line raw_line line_idx with
    | .error e =>
      (.error (.integrity (.poisoning (.unparseable_new_line line_idx e))), w.poisoned (.unparseable_new_line line_idx e))
    | .ok rec =>
      match check_entry w.instance_id w.verifier w.view rec with
      | .error e => (.error e, w)
      | .ok view => sync_lines (w.advance view offset) (offset + raw_line.length) (line_idx + 1) rest

/-- `os.lseek(fd, offset)` and `os.read(fd, length)`; a negative length is refused. -/
def os_read (file : Bytes) (offset : Nat) (length : Int) : Option Bytes :=
  if length < 0 then none else some ((file.drop offset).take length.toNat)

/-- Re-reading the last entry known: `none` where it still hashes to the cached head. -/
def head_mismatch (w : ChainWriter) (last_bytes : Bytes) : Option PoisonReason :=
  match parse_strict_json_line last_bytes w.cached_count with
  | .error e => some (.head_reverify_failed (some e))
  | .ok last_rec =>
    match body_hash ENTRY_PREFIX last_rec "entry_hash" with
    | .error e => some (.head_reverify_failed (some e))
    | .ok calc_hash => if calc_hash ≠ w.cached_head_hash then some (.head_reverify_failed none) else none

/-- The part of `_sync_under_lock` before the new lines. -/
def check_cached_head (w : ChainWriter) (file : Bytes) : Except EvidenceError Unit × ChainWriter :=
  if file.length < w.cached_offset then
    let reason := .chain_shrunk w.cached_offset file.length
    (.error (.integrity (.poisoning reason)), w.poisoned reason)
  else if 0 < w.cached_count then
    match os_read file w.cached_last_entry_offset ((w.cached_offset : Int) - w.cached_last_entry_offset) with
    | none => (.error .os, w)
    | some last_bytes =>
      match head_mismatch w last_bytes with
      | some reason => (.error (.integrity (.poisoning reason)), w.poisoned reason)
      | none => (.ok (), w)
  else (.ok (), w)

/-- Incremental verification under the held lock, with poisoning on shrink and mismatch. -/
def sync_under_lock (w : ChainWriter) (file : Bytes) : Except EvidenceError Unit × ChainWriter :=
  match check_cached_head w file with
  | (.error e, w) => (.error e, w)
  | (.ok _, w) =>
    if w.cached_offset < file.length then
      match sync_lines w w.cached_offset (w.cached_count + 1) (splitlines (file.drop w.cached_offset)) with
      | (.error e, w) => (.error e, w)
      | (.ok _, w) => (.ok (), w.commit file.length)
    else (.ok (), w)

/-! ### Writing the chain -/

/-- The `os.write` loop: whether all of `line` was written, and the file it leaves. -/
def write_all (file line : Bytes) : List (Option Nat) → Bool × Bytes
  | [] => (true, file ++ line)
  | n :: writes =>
    if line = [] then (true, file)
    else
      match n with
      | none | some 0 => (false, file)
      | some n => write_all (file ++ line.take n) (line.drop n) writes

/-- A record's body with its hash and signature. -/
def sealed (rec : List (Str × Json)) (hash_field : String) (hash : Str) (sig : Bytes) : Json :=
  .obj (setField (lit "sig") (.str (toHex sig)) (setField (lit hash_field) (.str hash) rec))

/-- The assignments after an entry is on disk. -/
def ChainWriter.appended (w : ChainWriter) (entry : Json) (entry_hash : Str) (length : Nat) : ChainWriter :=
  { w with
    cached_last_entry_offset := w.cached_offset
    cached_offset := w.cached_offset + length
    cached_count := w.cached_count + 1
    cached_head_hash := entry_hash
    cached_epoch := Json.getInt entry "epoch" 0
    seq := w.seq + 1
    last_hash := entry_hash }

/-- Hash, sign and append a record. -/
def sign_and_append (w : ChainWriter) (env : Env) (file : Bytes) (rec : List (Str × Json)) : Outcome Json :=
  match canonical (.obj rec) with
  | .error e => ⟨.error (.canonical e), w, file⟩
  | .ok bytes =>
    let entry_hash := sha256_hexdigest (ENTRY_PREFIX ++ bytes)
    match w.signer (ENTRY_PREFIX ++ asciiBytes entry_hash) with
    | none => ⟨.error .os, w, file⟩
    | some sig =>
      let entry := sealed rec "entry_hash" entry_hash sig
      match canonical entry with
      | .error e => ⟨.error (.canonical e), w, file⟩
      | .ok line =>
        let line_bytes := line ++ [10]
        match write_all file line_bytes env.writes with
        | (false, file) => ⟨.error .os, w.poisoned .write_failed, file⟩
        | (true, file) =>
          if env.fsync then
            ⟨.ok entry, w.appended entry entry_hash line_bytes.length, file⟩
          else ⟨.error .os, w.poisoned .write_failed, file⟩

/-- The guard both append methods begin with, before the lock is taken. -/
def validate_writer_state (w : ChainWriter) : Except EvidenceError Unit :=
  match check_poisoned w with
  | .error e => .error e
  | .ok _ =>
    if w.instance_id = [] then .error (.value .instance_id)
    else if w.epoch < 0 then .error (.value .epoch)
    else if 0 ≤ w.cached_epoch ∧ w.epoch < w.cached_epoch then
      .error (.value (.stale_epoch w.epoch w.cached_epoch))
    else .ok ()

/-- `with self._lock() as fd: self._sync_under_lock(fd)`. -/
def lock_and_sync (w : ChainWriter) (stat : PathStat) (file : Bytes) : Except EvidenceError Unit × ChainWriter :=
  match lock w stat with
  | (.error e, w) => (.error e, w)
  | (.ok _, w) => sync_under_lock w file

/-- Return `(count, head_hash)` for countersigning checkpoints. -/
def get_head (w : ChainWriter) (env : Env) (file : Bytes) : Outcome (Nat × Str) :=
  match check_poisoned w with
  | .error e => ⟨.error e, w, file⟩
  | .ok _ =>
    match lock_and_sync w env.stat file with
    | (.error e, w) => ⟨.error e, w, file⟩
    | (.ok _, w) => ⟨.ok (w.seq, w.last_hash), w, file⟩

def intent_record (w : ChainWriter) (ts_ms : Nat) (grant_id invocation_hash : Str) : List (Str × Json) :=
  dictOf
    [(lit "v", .int 1), (lit "seq", .int w.seq), (lit "ts_ms", .int ts_ms), (lit "kind", .str (lit "intent")),
      (lit "instance_id", .str w.instance_id), (lit "epoch", .int w.epoch), (lit "grant_id", .str grant_id),
      (lit "invocation_hash", .str invocation_hash), (lit "prev_hash", .str w.last_hash)]

/-- The intent comes from the table, where its `grant_id` and `invocation_hash` are `str`. -/
def result_record (w : ChainWriter) (ts_ms : Nat) (intent : Json) (intent_seq : Int) (outcome : Str) :
    List (Str × Json) :=
  dictOf
    [(lit "v", .int 1), (lit "seq", .int w.seq), (lit "ts_ms", .int ts_ms), (lit "kind", .str (lit "result")),
      (lit "instance_id", .str w.instance_id), (lit "epoch", .int w.epoch),
      (lit "grant_id", .str (Json.getStr intent "grant_id" [])),
      (lit "invocation_hash", .str (Json.getStr intent "invocation_hash" [])),
      (lit "intent_seq", .int intent_seq), (lit "outcome", .str outcome), (lit "prev_hash", .str w.last_hash)]

/-- Append an intent record to the chain under the lock. -/
def append_intent (w : ChainWriter) (grant_id invocation_hash : Str) (env : Env) (file : Bytes) : Outcome Json :=
  match validate_writer_state w with
  | .error e => ⟨.error e, w, file⟩
  | .ok _ =>
    if grant_id = [] then ⟨.error (.value .grant_id), w, file⟩
    else if invocation_hash = [] then ⟨.error (.value .invocation_hash), w, file⟩
    else
      match lock_and_sync w env.stat file with
      | (.error e, w) => ⟨.error e, w, file⟩
      | (.ok _, w) =>
        if grant_id ∈ w.tables.consumed_grants then ⟨.error (.double_spend grant_id), w, file⟩
        else
          match sign_and_append w env file (intent_record w env.now_ms grant_id invocation_hash) with
          | ⟨.error e, w', file⟩ => ⟨.error e, w', file⟩
          | ⟨.ok entry, w', file⟩ =>
            ⟨.ok entry,
              { w' with tables := { w'.tables with
                  consumed_grants := grant_id :: w'.tables.consumed_grants,
                  intents_by_seq := ((w.seq : Int), entry) :: w'.tables.intents_by_seq } },
              file⟩

/-- Append a result record matching an earlier intent under the lock. -/
def append_result (w : ChainWriter) (intent_seq : Int) (outcome : Str) (grant_id : Option Str) (env : Env)
    (file : Bytes) : Outcome Json :=
  match validate_writer_state w with
  | .error e => ⟨.error e, w, file⟩
  | .ok _ =>
    if intent_seq < 0 then ⟨.error (.value .intent_seq), w, file⟩
    else if ¬ (outcome = lit "ok" ∨ outcome = lit "error" ∨ outcome = lit "aborted") then
      ⟨.error (.value .outcome), w, file⟩
    else if grant_id = some [] then ⟨.error (.value .grant_id), w, file⟩
    else
      match lock_and_sync w env.stat file with
      | (.error e, w) => ⟨.error e, w, file⟩
      | (.ok _, w) =>
        match w.tables.intents_by_seq.lookup intent_seq with
        | none => ⟨.error (.value (.unknown_intent_seq intent_seq)), w, file⟩
        | some intent =>
          if (w.tables.results_by_intent.lookup intent_seq).isSome then
            ⟨.error (.value (.has_result intent_seq)), w, file⟩
          else if grant_id.any (fun gid => decide (some (.str gid) ≠ Json.get intent "grant_id")) then
            ⟨.error (.value .result_grant_id), w, file⟩
          else
            match sign_and_append w env file (result_record w env.now_ms intent intent_seq outcome) with
            | ⟨.error e, w', file⟩ => ⟨.error e, w', file⟩
            | ⟨.ok entry, w', file⟩ =>
              ⟨.ok entry,
                { w' with tables := { w'.tables with
                    results_by_intent := (intent_seq, entry) :: w'.tables.results_by_intent } },
                file⟩

/-! ### Concrete runs -/

/-- A key pair for concrete runs: the signature of a message is a tag and its last octets. -/
def sampleSigner : Signer := fun msg => some (48 :: msg.drop (msg.length - 8))

def sampleVerifier : Verifier := fun msg sig => sig == 48 :: msg.drop (msg.length - 8)

/-- A call during which nothing fails. -/
def calmEnv : Env := ⟨.same, 0, [], true⟩

def sampleWriter : ChainWriter := .fresh (lit "i") 0 sampleSigner sampleVerifier

/-- A chain of one intent, and the same with a second one. -/
def sampleFile : Bytes := (append_intent sampleWriter (lit "g") (lit "h") calmEnv []).file

def longerSampleFile : Bytes :=
  (append_intent (append_intent sampleWriter (lit "g") (lit "h") calmEnv []).writer (lit "k") (lit "h") calmEnv
    sampleFile).file

def sampleEntries (file : Bytes) : List Json := (read_chain file).toOption.getD []

end narwhal.evidence
