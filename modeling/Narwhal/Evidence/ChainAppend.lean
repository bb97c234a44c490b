import Narwhal.Evidence.ChainSync

open pylib

namespace narwhal.evidence

/-! ### The write loop -/

/-- Some `os.write` raises or returns 0. -/
def Stalls (writes : List (Option Nat)) : Prop := none ∈ writes ∨ some 0 ∈ writes

/-- A write that is cut short leaves a front of the line; one that is not leaves it all. -/
theorem write_all_cases (file line : Bytes) (writes : List (Option Nat)) :
    write_all file line writes = (true, file ++ line) ∨
      ∃ written, written <+: line ∧ Stalls writes ∧ write_all file line writes = (false, file ++ written) := by
  induction writes generalizing file line with
  | nil => exact .inl rfl
  | cons n writes ih =>
    by_cases hline : line = []
    · exact .inl (by simp [write_all, hline])
    · rcases n with _ | _ | n
      · exact .inr ⟨[], List.nil_prefix, .inl List.mem_cons_self, by simp [write_all, hline]⟩
      · exact .inr ⟨[], List.nil_prefix, .inr List.mem_cons_self, by simp [write_all, hline]⟩
      · have hstep : write_all file line (some (n + 1) :: writes) =
            write_all (file ++ line.take (n + 1)) (line.drop (n + 1)) writes := by
          simp [write_all, hline]
        rw [hstep]
        rcases ih (file ++ line.take (n + 1)) (line.drop (n + 1)) with
          hall | ⟨written, hpre, hstall, hcut⟩
        · exact .inl (by rw [hall, List.append_assoc, List.take_append_drop])
        · refine .inr ⟨line.take (n + 1) ++ written, ?_,
            hstall.imp (List.mem_cons_of_mem _) (List.mem_cons_of_mem _), by rw [hcut, List.append_assoc]⟩
          obtain ⟨after, hafter⟩ := hpre
          exact ⟨after, by rw [List.append_assoc, hafter, List.take_append_drop]⟩

/-! ### The records the writer makes -/

/-- The fields every record of the writer has, whatever its hash and signature. -/
structure Drafted (w : ChainWriter) (rec : List (Str × Json)) : Prop where
  body_sealed : ∀ hash sig, body (sealed rec "entry_hash" hash sig) "entry_hash" = .obj rec
  wf : ∀ hash sig, (sealed rec "entry_hash" hash sig).WF
  v : ∀ hash sig, Json.get (sealed rec "entry_hash" hash sig) "v" = some (.int 1)
  seq : ∀ hash sig, Json.get (sealed rec "entry_hash" hash sig) "seq" = some (.int w.seq)
  ts_ms : ∃ now : Nat, ∀ hash sig, Json.get (sealed rec "entry_hash" hash sig) "ts_ms" = some (.int now)
  instance_id : ∀ hash sig, Json.get (sealed rec "entry_hash" hash sig) "instance_id" = some (.str w.instance_id)
  epoch : ∀ hash sig, Json.get (sealed rec "entry_hash" hash sig) "epoch" = some (.int w.epoch)
  prev_hash : ∀ hash sig, Json.get (sealed rec "entry_hash" hash sig) "prev_hash" = some (.str w.last_hash)
  entry_hash : ∀ hash sig, Json.get (sealed rec "entry_hash" hash sig) "entry_hash" = some (.str hash)
  sig : ∀ hash sig, Json.get (sealed rec "entry_hash" hash sig) "sig" = some (.str (toHex sig))

@[simp] theorem Json.get_cons (k : String) (v : Json) (rest : List (Str × Json)) (key : String) :
    Json.get (.obj ((lit k, v) :: rest)) key = if k = key then some v else Json.get (.obj rest) key := by
  simp [Json.get, lookupField]

theorem intent_record_eq (w : ChainWriter) (ts_ms : Nat) (grant_id invocation_hash : Str) :
    intent_record w ts_ms grant_id invocation_hash =
      [(lit "epoch", .int w.epoch), (lit "grant_id", .str grant_id), (lit "instance_id", .str w.instance_id),
        (lit "invocation_hash", .str invocation_hash), (lit "kind", .str (lit "intent")),
        (lit "prev_hash", .str w.last_hash), (lit "seq", .int w.seq), (lit "ts_ms", .int ts_ms), (lit "v", .int 1)] :=
  rfl

theorem sealed_intent_record (w : ChainWriter) (ts_ms : Nat) (grant_id invocation_hash hash : Str) (sig : Bytes) :
    sealed (intent_record w ts_ms grant_id invocation_hash) "entry_hash" hash sig = .obj
      [(lit "entry_hash", .str hash), (lit "epoch", .int w.epoch), (lit "grant_id", .str grant_id),
        (lit "instance_id", .str w.instance_id), (lit "invocation_hash", .str invocation_hash),
        (lit "kind", .str (lit "intent")), (lit "prev_hash", .str w.last_hash), (lit "seq", .int w.seq),
        (lit "sig", .str (toHex sig)), (lit "ts_ms", .int ts_ms), (lit "v", .int 1)] := by
  rw [intent_record_eq]
  rfl

theorem result_record_eq (w : ChainWriter) (ts_ms : Nat) (intent : Json) (intent_seq : Int) (outcome : Str) :
    result_record w ts_ms intent intent_seq outcome =
      [(lit "epoch", .int w.epoch), (lit "grant_id", .str (Json.getStr intent "grant_id" [])),
        (lit "instance_id", .str w.instance_id), (lit "intent_seq", .int intent_seq),
        (lit "invocation_hash", .str (Json.getStr intent "invocation_hash" [])), (lit "kind", .str (lit "result")),
        (lit "outcome", .str outcome), (lit "prev_hash", .str w.last_hash), (lit "seq", .int w.seq),
        (lit "ts_ms", .int ts_ms), (lit "v", .int 1)] :=
  rfl

theorem sealed_result_record (w : ChainWriter) (ts_ms : Nat) (intent : Json) (intent_seq : Int)
    (outcome hash : Str) (sig : Bytes) :
    sealed (result_record w ts_ms intent intent_seq outcome) "entry_hash" hash sig = .obj
      [(lit "entry_hash", .str hash), (lit "epoch", .int w.epoch),
        (lit "grant_id", .str (Json.getStr intent "grant_id" [])), (lit "instance_id", .str w.instance_id),
        (lit "intent_seq", .int intent_seq), (lit "invocation_hash", .str (Json.getStr intent "invocation_hash" [])),
        (lit "kind", .str (lit "result")), (lit "outcome", .str outcome), (lit "prev_hash", .str w.last_hash),
        (lit "seq", .int w.seq), (lit "sig", .str (toHex sig)), (lit "ts_ms", .int ts_ms), (lit "v", .int 1)] := by
  rw [result_record_eq]
  rfl

theorem drafted_intent (w : ChainWriter) (ts_ms : Nat) (grant_id invocation_hash : Str) :
    Drafted w (intent_record w ts_ms grant_id invocation_hash) where
  body_sealed hash sig := by rw [sealed_intent_record, intent_record_eq]; simp [body]
  wf hash sig := by
    rw [sealed_intent_record]
    refine ⟨?_, by simp [Json.WFFields, Json.WF]⟩
    simp only [List.map]
    decide
  v hash sig := by simp [sealed_intent_record]
  seq hash sig := by simp [sealed_intent_record]
  ts_ms := ⟨ts_ms, fun hash sig => by simp [sealed_intent_record]⟩
  instance_id hash sig := by simp [sealed_intent_record]
  epoch hash sig := by simp [sealed_intent_record]
  prev_hash hash sig := by simp [sealed_intent_record]
  entry_hash hash sig := by simp [sealed_intent_record]
  sig hash sig := by simp [sealed_intent_record]

theorem drafted_result (w : ChainWriter) (ts_ms : Nat) (intent : Json) (intent_seq : Int) (outcome : Str) :
    Drafted w (result_record w ts_ms intent intent_seq outcome) where
  body_sealed hash sig := by rw [sealed_result_record, result_record_eq]; simp [body]
  wf hash sig := by
    rw [sealed_result_record]
    refine ⟨?_, by simp [Json.WFFields, Json.WF]⟩
    simp only [List.map]
    decide
  v hash sig := by simp [sealed_result_record]
  seq hash sig := by simp [sealed_result_record]
  ts_ms := ⟨ts_ms, fun hash sig => by simp [sealed_result_record]⟩
  instance_id hash sig := by simp [sealed_result_record]
  epoch hash sig := by simp [sealed_result_record]
  prev_hash hash sig := by simp [sealed_result_record]
  entry_hash hash sig := by simp [sealed_result_record]
  sig hash sig := by simp [sealed_result_record]

/-- A record on disk: hashed, signed, and encoded as the line. -/
structure Written (w : ChainWriter) (rec : List (Str × Json)) (hash : Str) (sig line : Bytes) : Prop where
  hash_eq : body_hash ENTRY_PREFIX (sealed rec "entry_hash" hash sig) "entry_hash" = .ok hash
  signed : w.signer (ENTRY_PREFIX ++ asciiBytes hash) = some sig
  parses : Parses line (sealed rec "entry_hash" hash sig)

/-- Everything `sign_and_append` can do. -/
theorem sign_and_append_cases {w : ChainWriter} {rec : List (Str × Json)} (hrec : Drafted w rec) (env : Env)
    (file : Bytes) :
    (∃ e, sign_and_append w env file rec = ⟨.error e, w, file⟩) ∨
    (∃ hash sig line written, Written w rec hash sig line ∧ written <+: line ∧
      (written = line ∨ Stalls env.writes) ∧
      sign_and_append w env file rec = ⟨.error .os, w.poisoned .write_failed, file ++ written⟩) ∨
    (∃ hash sig line, Written w rec hash sig line ∧
      sign_and_append w env file rec = ⟨.ok (sealed rec "entry_hash" hash sig),
        w.appended (sealed rec "entry_hash" hash sig) hash line.length, file ++ line⟩) := by
  unfold sign_and_append
  cases hbody : canonical (.obj rec) with
  | error e => exact .inl ⟨_, rfl⟩
  | ok bytes =>
    simp only
    cases hsign : w.signer (ENTRY_PREFIX ++ asciiBytes (sha256_hexdigest (ENTRY_PREFIX ++ bytes))) with
    | none => exact .inl ⟨_, rfl⟩
    | some sig =>
      simp only
      cases hline : canonical (sealed rec "entry_hash" (sha256_hexdigest (ENTRY_PREFIX ++ bytes)) sig) with
      | error e => exact .inl ⟨_, rfl⟩
      | ok line =>
        right
        have hwritten : Written w rec (sha256_hexdigest (ENTRY_PREFIX ++ bytes)) sig (line ++ [10]) :=
          ⟨by rw [body_hash, hrec.body_sealed, hbody], hsign,
            parse_strict_json_line_canonical (hrec.wf _ _) hline 0⟩
        rcases write_all_cases file (line ++ [10]) env.writes with hall | ⟨written, hpre, hstall, hcut⟩
        · simp only [hall]
          cases env.fsync with
          | true => exact .inr ⟨_, _, _, hwritten, rfl⟩
          | false => exact .inl ⟨_, _, _, _, hwritten, List.prefix_rfl, .inl rfl, rfl⟩
        · simp only [hcut]
          exact .inl ⟨_, _, _, _, hwritten, hpre, .inr hstall, rfl⟩

/-! ### The append methods -/

/-- A call of one of the two append methods, with its arguments. -/
inductive AppendCall where
  | intent (grant_id invocation_hash : Str)
  | result (intent_seq : Int) (outcome : Str) (grant_id : Option Str)
deriving DecidableEq, Repr

def AppendCall.run (call : AppendCall) (w : ChainWriter) (env : Env) (file : Bytes) : Outcome Json :=
  match call with
  | .intent grant_id invocation_hash => append_intent w grant_id invocation_hash env file
  | .result intent_seq outcome grant_id => append_result w intent_seq outcome grant_id env file

/-- The record a call drafts in a writer that is in step with the file, with the checks
    that lead to it. -/
inductive Drafts (w : ChainWriter) (env : Env) : AppendCall → List (Str × Json) → Prop where
  | intent {grant_id invocation_hash : Str} (hgrant : grant_id ≠ []) (hinv : invocation_hash ≠ [])
      (hfresh : grant_id ∉ w.tables.consumed_grants) :
      Drafts w env (.intent grant_id invocation_hash) (intent_record w env.now_ms grant_id invocation_hash)
  | result {intent_seq : Int} {outcome : Str} {grant_id : Option Str} {intent : Json} (hseq : 0 ≤ intent_seq)
      (houtcome : outcome = lit "ok" ∨ outcome = lit "error" ∨ outcome = lit "aborted")
      (hintent : w.tables.intents_by_seq.lookup intent_seq = some intent)
      (hresult : w.tables.results_by_intent.lookup intent_seq = none) :
      Drafts w env (.result intent_seq outcome grant_id) (result_record w env.now_ms intent intent_seq outcome)

theorem Drafts.drafted {w : ChainWriter} {env : Env} {call : AppendCall} {rec : List (Str × Json)}
    (h : Drafts w env call rec) : Drafted w rec := by
  cases h with
  | intent => exact drafted_intent w _ _ _
  | result => exact drafted_result w _ _ _ _

/-- The writer after an entry it appended. -/
def ChainWriter.recorded (w : ChainWriter) (entry : Json) (hash : Str) (length : Nat) : ChainWriter :=
  { w.appended entry hash length with tables := w.tables.record w.seq entry }

/-- What a call can leave, given the writer as it stands after taking the lock. -/
inductive Appends (w : ChainWriter) (env : Env) (file : Bytes) (call : AppendCall) : Outcome Json → Prop where
  /-- a check made before the lock refuses the call, or the writer was poisoned already -/
  | refused (e : EvidenceError) : Appends w env file call ⟨.error e, w, file⟩
  /-- the path no longer names the open file -/
  | unlocked (e : EvidenceError) (reason : PoisonReason) :
      Appends w env file call ⟨.error e, w.poisoned reason, file⟩
  /-- the synchronisation raises -/
  | unsynced (e : EvidenceError) (w' : ChainWriter) (hclean : w.poison = none) (hsync : sync_under_lock w file = (.error e, w')) :
      Appends w env file call ⟨.error e, w', file⟩
  /-- a check made after the synchronisation, the encoder or the signer refuses -/
  | declined (e : EvidenceError) (w' : ChainWriter) (hclean : w.poison = none) (hsync : sync_under_lock w file = (.ok (), w')) :
      Appends w env file call ⟨.error e, w', file⟩
  /-- the write or the fsync fails and leaves a front of the line -/
  | torn (w' : ChainWriter) (rec : List (Str × Json)) (hash : Str) (sig line written : Bytes)
      (hclean : w.poison = none) (hsync : sync_under_lock w file = (.ok (), w')) (hdraft : Drafts w' env call rec)
      (hwritten : Written w' rec hash sig line) (hfront : written <+: line)
      (hcut : written = line ∨ Stalls env.writes) :
      Appends w env file call ⟨.error .os, w'.poisoned .write_failed, file ++ written⟩
  /-- the entry is on disk -/
  | appended (w' : ChainWriter) (rec : List (Str × Json)) (hash : Str) (sig line : Bytes)
      (hclean : w.poison = none) (hstate : validate_writer_state w = .ok ()) (hsync : sync_under_lock w file = (.ok (), w'))
      (hdraft : Drafts w' env call rec) (hwritten : Written w' rec hash sig line) :
      Appends w env file call ⟨.ok (sealed rec "entry_hash" hash sig),
        w'.recorded (sealed rec "entry_hash" hash sig) hash line.length, file ++ line⟩

theorem lock_cases (w : ChainWriter) (stat : PathStat) :
    (w.poison = none ∧ lock w stat = (.ok (), w)) ∨ (∃ e, lock w stat = (.error e, w)) ∨
      ∃ e reason, lock w stat = (.error e, w.poisoned reason) := by
  unfold lock check_poisoned
  cases w.poison with
  | some reason => exact .inr (.inl ⟨_, rfl⟩)
  | none =>
    cases stat with
    | same => exact .inl ⟨rfl, rfl⟩
    | inaccessible => exact .inr (.inr ⟨_, _, rfl⟩)
    | replaced => exact .inr (.inr ⟨_, _, rfl⟩)

/-- Everything an append call can do. -/
theorem AppendCall.run_cases (call : AppendCall) (w : ChainWriter) (env : Env) (file : Bytes) :
    Appends w env file call (call.run w env file) := by
  cases call with
  | intent grant_id invocation_hash =>
    simp only [AppendCall.run, append_intent]
    cases hstate : validate_writer_state w with
    | error e => exact .refused e
    | ok _ =>
      simp only
      split
      · exact .refused _
      next hgrant =>
      split
      · exact .refused _
      next hinv =>
      unfold lock_and_sync
      rcases lock_cases w env.stat with ⟨hclean, hlock⟩ | ⟨e, hlock⟩ | ⟨e, reason, hlock⟩
      · simp only [hlock]
        cases hsync : sync_under_lock w file with
        | mk result w' =>
          cases result with
          | error e => exact .unsynced e w' hclean hsync
          | ok _ =>
            simp only
            split
            · exact .declined _ w' hclean hsync
            next hfresh =>
            have hdraft : Drafts w' env _ _ := Drafts.intent hgrant hinv hfresh
            rcases sign_and_append_cases hdraft.drafted env file with
              ⟨e, hrun⟩ | ⟨hash, sig, line, written, hwritten, hfront, hcut, hrun⟩ | ⟨hash, sig, line, hwritten, hrun⟩
            · simp only [hrun]
              exact .declined e w' hclean hsync
            · simp only [hrun]
              exact .torn w' _ hash sig line written hclean hsync hdraft hwritten hfront hcut
            · simp only [hrun]
              have := Appends.appended w' _ hash sig line hclean hstate hsync hdraft hwritten
              simpa [ChainWriter.recorded, Tables.record, ChainWriter.appended, sealed_intent_record, Json.getStr]
                using this
      · simp only [hlock]
        exact .refused e
      · simp only [hlock]
        exact .unlocked e reason
  | result intent_seq outcome grant_id =>
    simp only [AppendCall.run, append_result]
    cases hstate : validate_writer_state w with
    | error e => exact .refused e
    | ok _ =>
      simp only
      split
      · exact .refused _
      next hseq =>
      split
      · exact .refused _
      next houtcome =>
      split
      · exact .refused _
      unfold lock_and_sync
      rcases lock_cases w env.stat with ⟨hclean, hlock⟩ | ⟨e, hlock⟩ | ⟨e, reason, hlock⟩
      · simp only [hlock]
        cases hsync : sync_under_lock w file with
        | mk result w' =>
          cases result with
          | error e => exact .unsynced e w' hclean hsync
          | ok _ =>
            simp only
            cases hintent : w'.tables.intents_by_seq.lookup intent_seq with
            | none => exact .declined _ w' hclean hsync
            | some intent =>
              simp only
              split
              · exact .declined _ w' hclean hsync
              next hresult =>
              split
              · exact .declined _ w' hclean hsync
              have hdraft : Drafts w' env (.result intent_seq outcome grant_id) _ :=
                Drafts.result (not_lt.mp hseq) (not_not.mp houtcome) hintent (Option.not_isSome_iff_eq_none.mp hresult)
              rcases sign_and_append_cases hdraft.drafted env file with
                ⟨e, hrun⟩ | ⟨hash, sig, line, written, hwritten, hfront, hcut, hrun⟩ | ⟨hash, sig, line, hwritten, hrun⟩
              · simp only [hrun]
                exact .declined e w' hclean hsync
              · simp only [hrun]
                exact .torn w' _ hash sig line written hclean hsync hdraft hwritten hfront hcut
              · simp only [hrun]
                have := Appends.appended w' _ hash sig line hclean hstate hsync hdraft hwritten
                simpa [ChainWriter.recorded, Tables.record, ChainWriter.appended, sealed_result_record, Json.getInt]
                  using this
      · simp only [hlock]
        exact .refused e
      · simp only [hlock]
        exact .unlocked e reason

end narwhal.evidence
