import Narwhal.Evidence.Chain

open pylib

namespace narwhal.evidence

def CHECKPOINT_PREFIX : Bytes := blit "narwhal-evidence-checkpoint-v1\x00"

/-- What the loop of `verify_checkpoints_list` carries from record to record. -/
structure CheckpointView where
  count : Nat
  prev_cp_h : Str
  last_cp_epoch : Int
  last_cp_count : Int
deriving DecidableEq, Repr

def CheckpointView.genesis : CheckpointView := ⟨0, GENESIS_PREV_HASH, -1, -1⟩

/-- One round of the loop of `verify_checkpoints_list`. -/
def check_checkpoint (cp_verifier : Verifier) (s : CheckpointView) (cp : Json) :
    Except EvidenceError CheckpointView :=
  let j := s.count
  let c_count := Json.getInt cp "count" 0
  let c_epoch := Json.getInt cp "epoch" 0
  match validate_checkpoint_shape cp j with
  | first :: _ => .error (.integrity (.cp_shape j first))
  | [] =>
    if Json.get cp "cp_seq" ≠ some (.int j) then .error (.integrity (.cp_seq j))
    else if Json.get cp "prev_cp_hash" ≠ some (.str s.prev_cp_h) then .error (.integrity (.prev_cp_hash_mismatch j))
    else if c_count < s.last_cp_count then .error (.integrity (.cp_count_decreased j))
    else if c_epoch < s.last_cp_epoch then .error (.integrity (.cp_epoch_decreased j))
    else if c_count = 0 ∧ Json.get cp "head_hash" ≠ some (.str GENESIS_PREV_HASH) then
      .error (.integrity (.cp_empty_head j))
    else
      match body_hash CHECKPOINT_PREFIX cp "cp_hash" with
      | .error e => .error (.canonical e)
      | .ok calc_cp_hash =>
        if some (.str calc_cp_hash) ≠ Json.get cp "cp_hash" then .error (.integrity (.cp_hash_mismatch j))
        else
          match fromHex (Json.getStr cp "sig" []) with
          | none => .error (.integrity (.cp_invalid_sig_hex j))
          | some cp_sig_bytes =>
            if ¬ cp_verifier (CHECKPOINT_PREFIX ++ asciiBytes calc_cp_hash) cp_sig_bytes then
              .error (.integrity (.cp_signature_failed j))
            else .ok ⟨j + 1, Json.getStr cp "cp_hash" [], c_epoch, c_count⟩

/-- Verify cryptographic, sequential, and structural integrity of checkpoints. -/
def verify_checkpoints_list (cps : List Json) (cp_verifier : Verifier) : Except EvidenceError CheckpointView :=
  cps.foldlM (check_checkpoint cp_verifier) .genesis

def checkpoint_record (cp_seq : Nat) (instance_id : Str) (epoch : Int) (count : Nat) (head_hash : Str) (ts_ms : Nat)
    (prev_cp_hash : Str) : List (Str × Json) :=
  dictOf
    [(lit "v", .int 1), (lit "kind", .str (lit "checkpoint")), (lit "cp_seq", .int cp_seq),
      (lit "instance_id", .str instance_id), (lit "epoch", .int epoch), (lit "count", .int count),
      (lit "head_hash", .str head_hash), (lit "ts_ms", .int ts_ms), (lit "prev_cp_hash", .str prev_cp_hash)]

/-- Build and sign a checkpoint record. -/
def build_checkpoint (cp_seq : Nat) (instance_id : Str) (epoch : Int) (count : Nat) (head_hash : Str)
    (prev_cp_hash : Str) (signer : Signer) (now_ms : Nat) : Except EvidenceError Json :=
  if instance_id = [] then .error (.value .instance_id)
  else
    let record := checkpoint_record cp_seq instance_id epoch count head_hash now_ms prev_cp_hash
    match canonical (.obj record) with
    | .error e => .error (.canonical e)
    | .ok raw_body =>
      let cp_hash := sha256_hexdigest (CHECKPOINT_PREFIX ++ raw_body)
      match signer (CHECKPOINT_PREFIX ++ asciiBytes cp_hash) with
      | none => .error .os
      | some sig => .ok (sealed record "cp_hash" cp_hash sig)

/-- Append the canonical checkpoint record to the open export store and fsync: whether
    that succeeded, and the file it leaves. -/
def append_checkpoint_fd (cp_file : Bytes) (cp : Json) (writes : List (Option Nat)) (fsync : Bool) : Bool × Bytes :=
  match canonical cp with
  | .error _ => (false, cp_file)
  | .ok line =>
    match write_all cp_file (line ++ [10]) writes with
    | (false, cp_file) => (false, cp_file)
    | (true, cp_file) => (fsync, cp_file)

/-! ### What an accepted checkpoint satisfies -/

/-- The conditions under which `check_checkpoint` accepts. -/
structure AdmitsCheckpoint (cp_verifier : Verifier) (s : CheckpointView) (cp : Json) : Prop where
  shape : CheckpointShape cp
  cp_seq : Json.get cp "cp_seq" = some (.int s.count)
  prev_cp_hash : Json.get cp "prev_cp_hash" = some (.str s.prev_cp_h)
  count : s.last_cp_count ≤ Json.getInt cp "count" 0
  epoch : s.last_cp_epoch ≤ Json.getInt cp "epoch" 0
  empty_head : Json.getInt cp "count" 0 = 0 → Json.get cp "head_hash" = some (.str GENESIS_PREV_HASH)
  hash : body_hash CHECKPOINT_PREFIX cp "cp_hash" = .ok (Json.getStr cp "cp_hash" [])
  sig : ∃ cp_sig_bytes, fromHex (Json.getStr cp "sig" []) = some cp_sig_bytes ∧
    cp_verifier (CHECKPOINT_PREFIX ++ asciiBytes (Json.getStr cp "cp_hash" [])) cp_sig_bytes = true

/-- The view after a checkpoint, checked or not. -/
def CheckpointView.absorb (s : CheckpointView) (cp : Json) : CheckpointView :=
  ⟨s.count + 1, Json.getStr cp "cp_hash" [], Json.getInt cp "epoch" 0, Json.getInt cp "count" 0⟩

/-- A checkpoint is accepted exactly when it is admissible, and then it is absorbed. -/
theorem check_checkpoint_eq_ok_iff {cp_verifier : Verifier} {s s' : CheckpointView} {cp : Json} :
    check_checkpoint cp_verifier s cp = .ok s' ↔ AdmitsCheckpoint cp_verifier s cp ∧ s' = s.absorb cp := by
  constructor
  · intro h
    unfold check_checkpoint at h
    simp only at h
    split at h
    · cases h
    next hshape =>
    split at h
    · cases h
    next hseq =>
    split at h
    · cases h
    next hprev =>
    split at h
    · cases h
    next hcount =>
    split at h
    · cases h
    next hepoch =>
    split at h
    · cases h
    next hempty =>
    split at h
    · cases h
    next hash hhash =>
    split at h
    · cases h
    next hcp =>
    split at h
    · cases h
    next sig_bytes hsig =>
    split at h
    · cases h
    next hverify =>
    cases h
    have hget : Json.getStr cp "cp_hash" [] = _ := Json.getStr_of_get (not_not.mp hcp).symm
    refine ⟨⟨validate_checkpoint_shape_eq_nil_iff.mp hshape, not_not.mp hseq, not_not.mp hprev, not_lt.mp hcount,
      not_lt.mp hepoch, fun hzero => ?_, by rw [hget]; exact hhash, sig_bytes, hsig, ?_⟩, rfl⟩
    · by_contra hne
      exact hempty ⟨hzero, hne⟩
    · rw [hget]
      simpa using hverify
  · rintro ⟨h, rfl⟩
    obtain ⟨sig_bytes, hsig, hverify⟩ := h.sig
    obtain ⟨hash, hget⟩ := h.shape.cp_hash.get_hex64
    have hstr : Json.getStr cp "cp_hash" [] = hash := Json.getStr_of_get hget
    have hempty : ¬ (Json.getInt cp "count" 0 = 0 ∧ Json.get cp "head_hash" ≠ some (.str GENESIS_PREV_HASH)) :=
      fun ⟨hzero, hne⟩ => hne (h.empty_head hzero)
    rw [hstr] at hverify
    unfold check_checkpoint
    simp only [validate_checkpoint_shape_eq_nil_iff.mpr h.shape, if_neg hempty]
    simp [h.cp_seq, h.prev_cp_hash, not_lt.mpr h.count, not_lt.mpr h.epoch, h.hash, hsig, hverify, hget, hstr,
      CheckpointView.absorb]

/-- Every checkpoint of an accepted list was admissible where it stood. -/
theorem admits_of_verify_checkpoints_list {cps : List Json} {cp_verifier : Verifier} {view : CheckpointView}
    (h : verify_checkpoints_list cps cp_verifier = .ok view) {cp : Json} (hmem : cp ∈ cps) :
    ∃ u, AdmitsCheckpoint cp_verifier u cp := by
  obtain ⟨front, back, rfl⟩ := List.append_of_mem hmem
  obtain ⟨u, _, hback⟩ := foldlM_append_ok_iff.mp h
  obtain ⟨u', hcp, _⟩ := foldlM_cons_ok_iff.mp hback
  exact ⟨u, (check_checkpoint_eq_ok_iff.mp hcp).1⟩

end narwhal.evidence
