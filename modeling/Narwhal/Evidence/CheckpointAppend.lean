import Narwhal.Evidence.Cli
import Narwhal.Evidence.Interleaving

open pylib

namespace narwhal.evidence

/-! ### The records the command makes -/

theorem checkpoint_record_eq (cp_seq : Nat) (instance_id : Str) (epoch : Int) (count : Nat) (head_hash : Str)
    (ts_ms : Nat) (prev_cp_hash : Str) :
    checkpoint_record cp_seq instance_id epoch count head_hash ts_ms prev_cp_hash =
      [(lit "count", .int count), (lit "cp_seq", .int cp_seq), (lit "epoch", .int epoch),
        (lit "head_hash", .str head_hash), (lit "instance_id", .str instance_id), (lit "kind", .str (lit "checkpoint")),
        (lit "prev_cp_hash", .str prev_cp_hash), (lit "ts_ms", .int ts_ms), (lit "v", .int 1)] :=
  rfl

theorem sealed_checkpoint_record (cp_seq : Nat) (instance_id : Str) (epoch : Int) (count : Nat) (head_hash : Str)
    (ts_ms : Nat) (prev_cp_hash hash : Str) (sig : Bytes) :
    sealed (checkpoint_record cp_seq instance_id epoch count head_hash ts_ms prev_cp_hash) "cp_hash" hash sig = .obj
      [(lit "count", .int count), (lit "cp_hash", .str hash), (lit "cp_seq", .int cp_seq),
        (lit "epoch", .int epoch), (lit "head_hash", .str head_hash), (lit "instance_id", .str instance_id),
        (lit "kind", .str (lit "checkpoint")), (lit "prev_cp_hash", .str prev_cp_hash), (lit "sig", .str (toHex sig)),
        (lit "ts_ms", .int ts_ms), (lit "v", .int 1)] := by
  rw [checkpoint_record_eq]
  rfl

/-- The record is the checkpoint `build_checkpoint` makes of these values. -/
structure Built (cp_seq : Nat) (head : Head) (prev_cp_hash : Str) (signer : Signer) (cp : Json) : Prop where
  wf : ∃ fields, cp = .obj fields ∧ (Json.obj fields).WF
  inst_ne : head.inst ≠ []
  v : Json.get cp "v" = some (.int 1)
  kind : Json.get cp "kind" = some (.str (lit "checkpoint"))
  cp_seq : Json.get cp "cp_seq" = some (.int cp_seq)
  instance_id : Json.get cp "instance_id" = some (.str head.inst)
  epoch : Json.get cp "epoch" = some (.int head.ep)
  count : Json.get cp "count" = some (.int head.count)
  head_hash : Json.get cp "head_hash" = some (.str head.head_hash)
  ts_ms : ∃ now : Nat, Json.get cp "ts_ms" = some (.int now)
  prev_cp_hash : Json.get cp "prev_cp_hash" = some (.str prev_cp_hash)
  hash : ∃ hash sig, Json.get cp "cp_hash" = some (.str hash) ∧ Json.get cp "sig" = some (.str (toHex sig)) ∧
    body_hash CHECKPOINT_PREFIX cp "cp_hash" = .ok hash ∧
    signer (CHECKPOINT_PREFIX ++ asciiBytes hash) = some sig

theorem built_of_build_checkpoint {cp_seq : Nat} {head : Head} {prev_cp_hash : Str} {signer : Signer} {now_ms : Nat}
    {cp : Json}
    (h : build_checkpoint cp_seq head.inst head.ep head.count head.head_hash prev_cp_hash signer now_ms = .ok cp) :
    Built cp_seq head prev_cp_hash signer cp := by
  unfold build_checkpoint at h
  split at h
  · cases h
  next hinst =>
  simp only at h
  split at h
  · cases h
  next raw_body hbody =>
  split at h
  · cases h
  next sig hsig =>
  cases h
  have hrec := sealed_checkpoint_record cp_seq head.inst head.ep head.count head.head_hash now_ms prev_cp_hash
    (sha256_hexdigest (CHECKPOINT_PREFIX ++ raw_body)) sig
  have hstripped : body (sealed (checkpoint_record cp_seq head.inst head.ep head.count head.head_hash now_ms
      prev_cp_hash) "cp_hash" (sha256_hexdigest (CHECKPOINT_PREFIX ++ raw_body)) sig) "cp_hash" =
      .obj (checkpoint_record cp_seq head.inst head.ep head.count head.head_hash now_ms prev_cp_hash) := by
    rw [hrec, checkpoint_record_eq]
    simp [body]
  refine ⟨?_, hinst, ?_, ?_, ?_, ?_, ?_, ?_, ?_, ⟨now_ms, ?_⟩, ?_, _, sig, ?_, ?_, ?_, hsig⟩
  · refine ⟨_, hrec, ?_, by simp [Json.WFFields, Json.WF]⟩
    simp only [List.map]
    decide
  all_goals try simp [hrec]
  rw [← hrec, body_hash, hstripped, hbody]

/-- A checkpoint built for the place where the list ends is accepted there. -/
theorem Built.admits {cp_seq : Nat} {head : Head} {prev_cp_hash : Str} {signer : Signer} {cp : Json}
    (h : Built cp_seq head prev_cp_hash signer cp) {cp_verifier : Verifier} (hsigns : Signs signer cp_verifier)
    {view : CheckpointView} (hseq : view.count = cp_seq) (hprev : view.prev_cp_h = prev_cp_hash)
    (hhex : is_hex64 (.str prev_cp_hash) = true) (hhead : is_hex64 (.str head.head_hash) = true)
    (hcount : view.last_cp_count ≤ head.count) (hepoch : view.last_cp_epoch ≤ head.ep) (hnonneg : 0 ≤ head.ep)
    (hempty : head.count = 0 → head.head_hash = GENESIS_PREV_HASH) : AdmitsCheckpoint cp_verifier view cp := by
  obtain ⟨now, hnow⟩ := h.ts_ms
  obtain ⟨hash, sig, hhash, hsig, hbody, hsigned⟩ := h.hash
  obtain ⟨hsig_ne, hverify⟩ := hsigns _ _ hsigned
  have hnat : ∀ n : Nat, is_nonneg_int (.int n) = true := fun n => by simp [is_nonneg_int]
  exact
    { shape :=
        { v := ⟨_, h.v, rfl⟩
          kind := ⟨_, h.kind, by decide⟩
          cp_seq := ⟨_, h.cp_seq, hnat cp_seq⟩
          epoch := ⟨_, h.epoch, by simpa [is_nonneg_int] using hnonneg⟩
          count := ⟨_, h.count, hnat head.count⟩
          ts_ms := ⟨_, hnow, hnat now⟩
          instance_id := ⟨_, h.instance_id, by simpa [is_nonempty_str] using h.inst_ne⟩
          head_hash := ⟨_, h.head_hash, hhead⟩
          prev_cp_hash := ⟨_, h.prev_cp_hash, hhex⟩
          cp_hash := ⟨_, hhash, is_hex64_of_body_hash hbody⟩
          sig := ⟨_, hsig, is_hex_str_toHex hsig_ne⟩ }
      cp_seq := by rw [h.cp_seq, hseq]
      prev_cp_hash := by rw [h.prev_cp_hash, hprev]
      count := by rwa [Json.getInt_of_get h.count]
      epoch := by rwa [Json.getInt_of_get h.epoch]
      empty_head := fun hzero => by
        rw [Json.getInt_of_get h.count] at hzero
        rw [h.head_hash, hempty (by omega)]
      hash := by rw [Json.getStr_of_get hhash]; exact hbody
      sig := ⟨sig, by rw [Json.getStr_of_get hsig, fromHex_toHex], by rw [Json.getStr_of_get hhash]; exact hverify⟩ }

/-! ### The checkpoint file -/

/-- A partial line at the end of a file of records makes it unreadable. -/
theorem records_of_partial_line {file written line : Bytes} {rec : Json} {records records' : List Json}
    (hfile : Encodes (fileLines file) records) (hline : Parses line rec) (hfront : written <+: line)
    (h : Encodes (fileLines (file ++ written)) records') : records' = records ∨ written = line := by
  have hsplit : fileLines (file ++ written) = fileLines file ++ fileLines written := by
    have := fileLines_flatten_append hfile.isLine written
    rwa [flatten_fileLines] at this
  rw [hsplit] at h
  obtain ⟨front, back, rfl, hfirst, hback⟩ := h.of_append
  obtain rfl := hfirst.unique hfile
  rcases List.eq_nil_or_concat written with rfl | ⟨start, last, rfl⟩
  · cases hback
    exact .inl (List.append_nil _)
  · obtain ⟨body, rfl, hbody⟩ := hline.isLine
    -- what was written ends in a line feed, and the line has only one, at its end
    have hlast : last = 10 := by
      rcases List.eq_nil_or_concat (fileLines (start.concat last)) with hnil | ⟨lines, final, hlines⟩
      · have hflat := flatten_fileLines (start.concat last)
        rw [hnil] at hflat
        simp at hflat
      · have hfinal : IsLine final := hback.isLine final (by rw [hlines]; simp)
        obtain ⟨tail, rfl, _⟩ := hfinal
        have hflat := flatten_fileLines (start.concat last)
        rw [hlines] at hflat
        simp only [List.concat_eq_append, List.flatten_append, List.flatten_cons, List.flatten_nil, List.append_nil,
          ← List.append_assoc] at hflat
        simpa using (List.append_inj' hflat rfl).2.symm
    subst hlast
    rw [List.concat_eq_append] at hfront ⊢
    refine .inr ?_
    rcases List.prefix_concat_iff.mp (by simpa using hfront) with heq | hpre
    · simpa using heq
    · exact absurd (hpre.subset (by simp)) hbody

/-- Everything `append_checkpoint_fd` can do with a well-formed record. -/
theorem append_checkpoint_fd_cases (cp_file : Bytes) {cp : Json}
    (hwf : ∃ fields, cp = .obj fields ∧ (Json.obj fields).WF) (writes : List (Option Nat)) (fsync : Bool) :
    append_checkpoint_fd cp_file cp writes fsync = (false, cp_file) ∨
      ∃ line written, Parses line cp ∧ written <+: line ∧
        (append_checkpoint_fd cp_file cp writes fsync).2 = cp_file ++ written ∧
        ((append_checkpoint_fd cp_file cp writes fsync).1 = true → written = line) := by
  obtain ⟨fields, rfl, hwf⟩ := hwf
  unfold append_checkpoint_fd
  cases hcanonical : canonical (.obj fields) with
  | error e => exact .inl rfl
  | ok bytes =>
    have hparses : Parses (bytes ++ [10]) (.obj fields) := parse_strict_json_line_canonical hwf hcanonical 0
    rcases write_all_cases cp_file (bytes ++ [10]) writes with hall | ⟨written, hfront, _, hcut⟩
    · simp only [hall]
      exact .inr ⟨_, _, hparses, List.prefix_rfl, rfl, fun _ => rfl⟩
    · simp only [hcut]
      exact .inr ⟨_, written, hparses, hfront, rfl, fun h => by cases h⟩

end narwhal.evidence
