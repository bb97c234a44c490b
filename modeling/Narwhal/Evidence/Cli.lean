import Narwhal.Evidence.ChainWorld
import Narwhal.Evidence.Verify

open pylib

namespace narwhal.evidence

/-- A private key file: the public key derived from it, and what it signs. -/
structure PrivateKey where
  pub : PublicKey
  sign : Signer

/-- `priv_matches_pub`; `none` where one of the two files cannot be read as a key. -/
def priv_matches_pub (priv : Option PrivateKey) (pub : Option PublicKey) : Option Bool :=
  match priv, pub with
  | some priv, some pub => some (priv.pub.der = pub.der)
  | _, _ => none

/-- The arguments of the `checkpoint` command; a key is `none` where its file holds none,
    and `cp_pub` is the key given with `--cp-pub`, if any. -/
structure CheckpointArgs where
  key : Option PrivateKey
  entry_pub : Option PublicKey
  cp_pub : Option (Option PublicKey) := none
  instance_id : Str := lit "inst-1"
  epoch : Int := 0

/-- What the system shows a run of the command while it reads. -/
structure CheckpointEnv where
  cp_stat : PathStat
  chain_stat : PathStat
  now_ms : Nat
deriving DecidableEq, Repr

/-- The messages with which the command returns 1. -/
inductive CommandError where
  | chain_not_found
  | keys_identical
  | key_separation_check
  | key_mismatch
  | load_verifier
  | cp_replaced
  | cp_inaccessible
  | read_checkpoints (e : EvidenceError)
  | existing_checkpoint (e : EvidenceError)
  | chain_inaccessible
  | chain_replaced
  | no_instance_id
  | chain_verification (e : EvidenceError)
  | nothing_to_extend (count : Nat) (prev_count : Int)
  | not_extending
deriving DecidableEq, Repr

/-- The checks on the keys: the signer and the verifier of the run. -/
def checkpoint_keys (args : CheckpointArgs) : Except CommandError (PrivateKey × PublicKey × Verifier) :=
  match args.key, args.entry_pub with
  | some key, some entry_pub =>
    if priv_matches_pub (some key) (some entry_pub) = some true then .error .keys_identical
    else
      match args.cp_pub with
      | none => .ok (key, entry_pub, key.pub.verify)
      | some none => .error .load_verifier
      | some (some cp_pub) =>
        if priv_matches_pub (some key) (some cp_pub) = some true then .ok (key, entry_pub, cp_pub.verify)
        else .error .key_mismatch
  | _, _ => .error .key_separation_check

/-- The existing checkpoints, read and verified under the lock of their file. -/
def existing_checkpoints (cp_stat : PathStat) (cp_verifier : Verifier) (cp_file : Bytes) :
    Except CommandError (List Json) :=
  match cp_stat with
  | .replaced => .error .cp_replaced
  | .inaccessible => .error .cp_inaccessible
  | .same =>
    match read_checkpoints cp_file with
    | .error e => .error (.read_checkpoints e)
    | .ok [] => .ok []
    | .ok cps =>
      match verify_checkpoints_list cps cp_verifier with
      | .error e => .error (.existing_checkpoint e)
      | .ok _ => .ok cps

/-- What a checkpoint says of the chain. -/
structure Head where
  inst : Str
  ep : Int
  count : Nat
  head_hash : Str
deriving DecidableEq, Repr

/-- The loop over the entries and the head it ends with; an empty chain gets the
    instance and epoch of the command line. -/
def chain_head (args : CheckpointArgs) (entry_verifier : Verifier) (entries : List Json) : Except CommandError Head :=
  match entries with
  | [] => .ok ⟨args.instance_id, args.epoch, 0, GENESIS_PREV_HASH⟩
  | first :: rest =>
    match Json.get first "instance_id" with
    | none => .error .no_instance_id
    | some _ =>
      let inst := Json.getStr first "instance_id" []
      match check_entries inst entry_verifier .genesis (first :: rest) with
      | .error e => .error (.chain_verification e)
      | .ok _ =>
        let last := rest.getLastD first
        .ok ⟨inst, Json.getInt last "epoch" 0, rest.length + 1, Json.getStr last "entry_hash" []⟩

/-- The new head must extend the head of the last checkpoint; gives `(prev_cp_hash, cp_seq)`. -/
def extension (cps entries : List Json) (count : Nat) : Except CommandError (Str × Nat) :=
  match cps.getLast? with
  | none => .ok (GENESIS_PREV_HASH, 0)
  | some prev_cp =>
    let prev_count := Json.getInt prev_cp "count" 0
    if (count : Int) ≤ prev_count then .error (.nothing_to_extend count prev_count)
    else if 0 < prev_count ∧ ((count : Int) < prev_count ∨
        (entries[prev_count.toNat - 1]?.bind fun entry => Json.get entry "entry_hash") ≠
          Json.get prev_cp "head_hash") then
      .error .not_extending
    else .ok (Json.getStr prev_cp "cp_hash" [], cps.length)

/-- `cmd_checkpoint` up to the release of the chain's lock: the record to append. -/
def prepare_checkpoint (args : CheckpointArgs) (env : CheckpointEnv) (chain : Option Bytes) (cp_file : Bytes) :
    Except CommandError Json :=
  match chain with
  | none => .error .chain_not_found
  | some chain =>
    match checkpoint_keys args with
    | .error e => .error e
    | .ok (key, entry_pub, cp_verifier) =>
      match existing_checkpoints env.cp_stat cp_verifier cp_file with
      | .error e => .error e
      | .ok cps =>
        match env.chain_stat with
        | .inaccessible => .error .chain_inaccessible
        | .replaced => .error .chain_replaced
        | .same =>
          match read_chain chain with
          | .error e => .error (.chain_verification e)
          | .ok entries =>
            match chain_head args entry_pub.verify entries with
            | .error e => .error e
            | .ok head =>
              match extension cps entries head.count with
              | .error e => .error e
              | .ok (prev_cp_hash, cp_seq) =>
                match build_checkpoint cp_seq head.inst head.ep head.count head.head_hash prev_cp_hash key.sign
                    env.now_ms with
                | .error e => .error (.chain_verification e)
                | .ok cp => .ok cp

/-! ### Runs -/

/-- The chain with its writers, the checkpoint file, and the record of the run of the
    command that holds the checkpoint file's lock and has released the chain's. -/
structure Archive where
  world : World
  cp_file : Bytes
  pending : Option Json

/-- What can happen to the two files. A run of the command is two steps, since writers may
    append once it has released the chain's lock. -/
inductive ArchiveOp where
  | chain (op : Op)
  | prepare (args : CheckpointArgs) (env : CheckpointEnv)
  | append_checkpoint (writes : List (Option Nat)) (fsync : Bool)

def Archive.step (s : Archive) : ArchiveOp → Archive
  | .chain op => { s with world := s.world.step op }
  | .prepare args env =>
    match s.pending with
    | some _ => s
    | none =>
      match prepare_checkpoint args env (some s.world.chain) s.cp_file with
      | .error _ => s
      | .ok cp => { s with pending := some cp }
  | .append_checkpoint writes fsync =>
    match s.pending with
    | none => s
    | some cp => { s with cp_file := (append_checkpoint_fd s.cp_file cp writes fsync).2, pending := none }

section Step

variable {s : Archive} {args : CheckpointArgs} {env : CheckpointEnv} {cp : Json}

theorem Archive.step_prepare_waits (h : s.pending = some cp) : s.step (.prepare args env) = s := by
  simp only [Archive.step, h]

theorem Archive.step_prepare_error (h : s.pending = none) {e : CommandError}
    (hprepare : prepare_checkpoint args env (some s.world.chain) s.cp_file = .error e) :
    s.step (.prepare args env) = s := by
  simp only [Archive.step, h, hprepare]

theorem Archive.step_prepare_ok (h : s.pending = none)
    (hprepare : prepare_checkpoint args env (some s.world.chain) s.cp_file = .ok cp) :
    s.step (.prepare args env) = { s with pending := some cp } := by
  simp only [Archive.step, h, hprepare]

theorem Archive.step_append_checkpoint (h : s.pending = some cp) (writes : List (Option Nat)) (fsync : Bool) :
    s.step (.append_checkpoint writes fsync) =
      { s with cp_file := (append_checkpoint_fd s.cp_file cp writes fsync).2, pending := none } := by
  simp only [Archive.step, h]

theorem Archive.step_append_checkpoint_none (h : s.pending = none) (writes : List (Option Nat)) (fsync : Bool) :
    s.step (.append_checkpoint writes fsync) = s := by
  simp only [Archive.step, h]

end Step

/-- Two empty files. -/
def Archive.start : Archive := ⟨.start [], [], none⟩

def Archive.run (s : Archive) (ops : List ArchiveOp) : Archive := ops.foldl Archive.step s

end narwhal.evidence
