import Narwhal.Evidence.ChainWorld
import Narwhal.Evidence.VerifyAgree

open pylib

namespace narwhal.evidence

/-- What the signer makes, the verifier accepts. -/
def Signs (signer : Signer) (verifier : Verifier) : Prop :=
  ∀ msg sig, signer msg = some sig → sig ≠ [] ∧ verifier msg sig = true

/-- The epoch of the last entry in the chain file, `-1` where there is none. -/
def last_recorded_epoch (file : Bytes) : Int :=
  match read_chain file with
  | .ok entries =>
    match entries.getLast? with
    | some entry => Json.getInt entry "epoch" 0
    | none => -1
  | .error _ => -1

/-! ### What an accepted chain guarantees the next entry -/

section

variable {instance_id : Str} {verifier : Verifier} {view : ChainView} {entries : List Json}

theorem last_epoch_absorbAll (entries : List Json) :
    (ChainView.genesis.absorbAll entries).last_epoch =
      match entries.getLast? with
      | some entry => Json.getInt entry "epoch" 0
      | none => -1 := by
  rcases List.eq_nil_or_concat entries with rfl | ⟨front, last, rfl⟩
  · rfl
  · rw [List.concat_eq_append, ChainView.absorbAll_concat, List.getLast?_concat]
    rfl

theorem last_recorded_epoch_eq {file : Bytes} (h : Encodes (fileLines file) entries) :
    last_recorded_epoch file = (ChainView.genesis.absorbAll entries).last_epoch := by
  rw [last_recorded_epoch, read_chain_eq_ok_iff.mpr h, last_epoch_absorbAll]

private theorem mem_of_lookup_intents {s : ChainView} {iseq : Int} {intent : Json}
    (h : (s.absorbAll entries).tables.intents_by_seq.lookup iseq = some intent) :
    s.tables.intents_by_seq.lookup iseq = some intent ∨ intent ∈ entries := by
  induction entries using List.reverseRecOn with
  | nil => exact .inl h
  | append_singleton entries entry ih =>
    rw [ChainView.absorbAll_concat, ChainView.absorb, Tables.record] at h
    split at h
    · rw [List.lookup_cons] at h
      split at h
      · cases h
        exact .inr (by simp)
      · exact (ih h).imp_right (List.mem_append_left _)
    · exact (ih h).imp_right (List.mem_append_left _)

/-- The intents of an accepted chain have the shape of entries. -/
theorem shape_of_lookup_intents (h : check_entries instance_id verifier .genesis entries = .ok view) {iseq : Int}
    {intent : Json} (hlook : view.tables.intents_by_seq.lookup iseq = some intent) : EntryShape intent := by
  rw [check_entries_eq_absorb h] at hlook
  rcases mem_of_lookup_intents hlook with hnil | hmem
  · cases hnil
  · obtain ⟨u, hadmits⟩ := admits_of_check_entries h hmem
    exact hadmits.integral.shape

theorem is_hex64_prev_h (h : check_entries instance_id verifier .genesis entries = .ok view) :
    is_hex64 (.str view.prev_h) = true := by
  rcases List.eq_nil_or_concat entries with rfl | ⟨front, last, rfl⟩
  · cases h
    decide
  · rw [List.concat_eq_append] at h
    obtain ⟨u, hadmits⟩ := admits_of_check_entries h (show last ∈ front ++ [last] by simp)
    obtain ⟨value, hvalue, hhex⟩ := hadmits.integral.shape.entry_hash
    rw [check_entries_eq_absorb h, ChainView.absorbAll_concat]
    cases value with
    | str s => rwa [ChainView.absorb, Json.getStr_of_get hvalue]
    | _ => cases hhex

theorem first_instance_id_eq (h : check_entries instance_id verifier .genesis entries = .ok view)
    (hne : entries ≠ []) : first_instance_id entries = instance_id := by
  cases entries with
  | nil => exact absurd rfl hne
  | cons entry rest =>
    obtain ⟨u, hadmits⟩ := admits_of_check_entries h (List.mem_cons_self : entry ∈ entry :: rest)
    exact Json.getStr_of_get hadmits.integral.instance_id

end

/-- A hash a record carries is a digest. -/
theorem is_hex64_of_body_hash { pre : Bytes} {rec : Json} {hash_field : String} {hash : Str}
    (h : body_hash pre rec hash_field = .ok hash) : is_hex64 (.str hash) = true := by
  unfold body_hash at h
  split at h
  · cases h
  · cases h
    simp only [is_hex64, length_sha256_hexdigest, beq_self_eq_true, Bool.true_and, List.all_eq_true]
    exact fun c hc => isLowerHex_sha256_hexdigest hc

theorem is_hex_str_toHex {sig : Bytes} (h : sig ≠ []) : is_hex_str (.str (toHex sig)) = true := by
  have hpos : 0 < sig.length := List.length_pos_iff.mpr h
  simp only [is_hex_str, length_toHex, Nat.mul_mod_right, beq_self_eq_true, Bool.and_true, Bool.and_eq_true,
    decide_eq_true_eq, List.all_eq_true]
  exact ⟨by omega, fun c hc => isLowerHex_of_mem_toHex hc⟩

/-! ### Writers with the chain's key -/

/-- The writer's key is the chain's, and what it has read is an accepted chain. -/
structure Vouched (V : Verifier) (w : ChainWriter) (entries : List Json) : Prop where
  verifier : w.verifier = V
  signer : Signs w.signer V
  epoch : 0 ≤ w.epoch
  instance_id : w.instance_id ≠ []
  accepted : check_entries w.instance_id V .genesis entries = .ok w.view

theorem keptBySync_vouched (V : Verifier) : KeptBySync (Vouched V) := by
  intro w lines entries entries' view offset size _ hP hcheck
  rw [hP.verifier] at hcheck
  exact ⟨hP.verifier, hP.signer, hP.epoch, hP.instance_id,
    check_entries_append_ok_iff.mpr ⟨w.view, hP.accepted, hcheck⟩⟩

/-- The shape of the record a writer drafts on top of an accepted chain. -/
theorem Vouched.entryShape {V : Verifier} {w : ChainWriter} {entries : List Json} (h : Vouched V w entries)
    {env : Env} {call : AppendCall} {rec : List (Str × Json)} (hdraft : Drafts w env call rec) {hash : Str}
    {sig line : Bytes} (hwritten : Written w rec hash sig line) : EntryShape (sealed rec "entry_hash" hash sig) := by
  have hrec := hdraft.drafted
  obtain ⟨now, hnow⟩ := hrec.ts_ms
  obtain ⟨hsig, _⟩ := h.signer _ _ hwritten.signed
  have hnonneg : ∀ n : Nat, is_nonneg_int (.int n) = true := fun n => by simp [is_nonneg_int]
  have hcommon : HasField (sealed rec "entry_hash" hash sig) "grant_id" is_nonempty_str →
      HasField (sealed rec "entry_hash" hash sig) "invocation_hash" is_nonempty_str → _ →
      EntryShape (sealed rec "entry_hash" hash sig) := fun hgrant hinv hkind =>
    { v := ⟨_, hrec.v hash sig, rfl⟩
      seq := ⟨_, hrec.seq hash sig, hnonneg w.seq⟩
      ts_ms := ⟨_, hnow hash sig, hnonneg now⟩
      epoch := ⟨_, hrec.epoch hash sig, by simpa [is_nonneg_int] using h.epoch⟩
      instance_id := ⟨_, hrec.instance_id hash sig, by simpa [is_nonempty_str] using h.instance_id⟩
      grant_id := hgrant
      invocation_hash := hinv
      prev_hash := ⟨_, hrec.prev_hash hash sig, is_hex64_prev_h h.accepted⟩
      entry_hash := ⟨_, hrec.entry_hash hash sig, is_hex64_of_body_hash hwritten.hash_eq⟩
      sig := ⟨_, hrec.sig hash sig, is_hex_str_toHex hsig⟩
      kind := hkind }
  cases hdraft with
  | @intent grant_id invocation_hash hgrant hinv hfresh =>
    refine hcommon ⟨.str grant_id, ?_, by simpa [is_nonempty_str] using hgrant⟩
      ⟨.str invocation_hash, ?_, by simpa [is_nonempty_str] using hinv⟩ (.inl ?_)
    · simp [sealed_intent_record]
    · simp [sealed_intent_record]
    · simp [sealed_intent_record]
  | @result intent_seq outcome _ intent hseq houtcome hintent hresult =>
    have hshape := shape_of_lookup_intents h.accepted hintent
    obtain ⟨gid, hgid, hgid_ne⟩ := hshape.grant_id.get_nonempty
    obtain ⟨inv, hinv, hinv_ne⟩ := hshape.invocation_hash.get_nonempty
    refine hcommon ⟨.str gid, ?_, by simpa [is_nonempty_str] using hgid_ne⟩
      ⟨.str inv, ?_, by simpa [is_nonempty_str] using hinv_ne⟩ (.inr ⟨?_, ⟨.int intent_seq, ?_, ?_⟩, ?_⟩)
    · simp [sealed_result_record, Json.getStr_of_get hgid]
    · simp [sealed_result_record, Json.getStr_of_get hinv]
    · simp [sealed_result_record]
    · simp [sealed_result_record]
    · simpa [is_nonneg_int] using hseq
    · simpa [sealed_result_record, is_outcome] using houtcome

/-- A writer whose epoch is not behind the last entry's drafts an admissible entry. -/
theorem Vouched.admits {V : Verifier} {w : ChainWriter} {entries : List Json} (h : Vouched V w entries)
    {env : Env} {call : AppendCall} {rec : List (Str × Json)} (hdraft : Drafts w env call rec) {hash : Str}
    {sig line : Bytes} (hwritten : Written w rec hash sig line) (hepoch : w.cached_epoch ≤ w.epoch) :
    Admits w.instance_id V w.view (sealed rec "entry_hash" hash sig) := by
  have hrec := hdraft.drafted
  obtain ⟨_, hverify⟩ := h.signer _ _ hwritten.signed
  refine ⟨⟨h.entryShape hdraft hwritten, hrec.seq hash sig, hrec.instance_id hash sig, ?_, hrec.prev_hash hash sig,
    ?_, sig, ?_, ?_⟩, ?_⟩
  · rw [Json.getInt_of_get (hrec.epoch hash sig)]
    exact hepoch
  · rw [Json.getStr_of_get (hrec.entry_hash hash sig)]
    exact hwritten.hash_eq
  · rw [Json.getStr_of_get (hrec.sig hash sig), fromHex_toHex]
  · rw [Json.getStr_of_get (hrec.entry_hash hash sig)]
    exact hverify
  · cases hdraft with
    | intent hgrant hinv hfresh =>
      refine .inl ⟨by simp [sealed_intent_record], ?_⟩
      simpa [sealed_intent_record, Json.getStr, ChainWriter.view] using hfresh
    | @result intent_seq outcome _ intent hseq houtcome hintent hresult =>
      have hshape := shape_of_lookup_intents h.accepted hintent
      obtain ⟨gid, hgid, _⟩ := hshape.grant_id.get_nonempty
      obtain ⟨inv, hinv, _⟩ := hshape.invocation_hash.get_nonempty
      refine .inr ⟨by simp [sealed_result_record], intent_seq, intent, ?_, hintent, hresult, ?_, ?_⟩
      · simp [sealed_result_record]
      · simp [sealed_result_record, hgid, Json.getStr_of_get hgid]
      · simp [sealed_result_record, hinv, Json.getStr_of_get hinv]

/-- The view of the writer after its own entry is the one a reader of the entry gets. -/
theorem Drafted.view_recorded {w : ChainWriter} {rec : List (Str × Json)} (hrec : Drafted w rec) {hash : Str}
    {sig : Bytes} {length : Nat} :
    (w.recorded (sealed rec "entry_hash" hash sig) hash length).view =
      w.view.absorb (sealed rec "entry_hash" hash sig) := by
  rw [ChainView.absorb, Json.getStr_of_get (hrec.entry_hash hash sig)]
  rfl

/-- An append by a writer whose epoch is not behind the file's keeps the chain accepted. -/
theorem keptByAppend_vouched {V : Verifier} {env : Env} {file : Bytes} {call : AppendCall} {w : ChainWriter}
    (hepoch : last_recorded_epoch file ≤ w.epoch) : KeptByAppend (Vouched V) env file call w := by
  intro w' lines entries rec hash sig line hsync _ hfile htracks hP hdraft hwritten
  have hlast : w'.cached_epoch ≤ w'.epoch := by
    rw [hfile, last_recorded_epoch_eq htracks.encodes.fileLines, ← htracks.view] at hepoch
    have hconfig := (sync_cases w file).config
    rw [hsync] at hconfig
    rw [hconfig.2.1]
    exact hepoch
  have hadmits := hP.admits hdraft hwritten hlast
  refine ⟨hP.verifier, hP.signer, hP.epoch, hP.instance_id, ?_⟩
  rw [hdraft.drafted.view_recorded]
  exact check_entries_concat_ok_iff.mpr ⟨w'.view, hP.accepted, hadmits, rfl⟩

/-! ### Runs -/

/-- Every writer is opened with the chain's public key and a signing key that matches it. -/
def Keyed (V : Verifier) : Op → Prop
  | .open_writer _ _ signer verifier _ => verifier = V ∧ Signs signer V
  | _ => True

/-- A writer that appends has an epoch not behind the last entry in the file. -/
def EpochCurrent (s : World) : Op → Prop
  | .append i _ _ => ∀ w, s.writers[i]? = some w → last_recorded_epoch s.chain ≤ w.epoch
  | _ => True

/-- Every writer is sane, and what it has read is an accepted chain, along every run whose
    steps are keyed and current. -/
theorem vouched_of_allowed {V : Verifier} {chain : Bytes} {ops : List Op}
    (h : Allowed World.step (fun s op => Keyed V op ∧ EpochCurrent s op) (.start chain) ops) :
    ((World.start chain).run ops).Sound (Vouched V) := by
  refine h.invariant (I := World.Sound (Vouched V)) (fun s op hs hop => ?_) (by simp [World.Sound, World.start])
  cases op with
  | open_writer instance_id epoch signer verifier stat =>
    obtain ⟨rfl, hsigns⟩ := hop.1
    exact hs.open_writer fun hinst hepoch entries view l hcheck hl =>
      ⟨rfl, hsigns, hepoch, hinst, by subst hl; exact hcheck⟩
  | append i call env => exact hs.append (keptBySync_vouched V) fun w hw => keptByAppend_vouched (hop.2 w hw)
  | get_head i env => exact hs.get_head (keptBySync_vouched V)

/-- What stands in the file after a vouched writer's append returned normally: the accepted
    chain it read, then its own entry. -/
theorem Sane.appended {V : Verifier} {w : ChainWriter} {env : Env} {file : Bytes} {call : AppendCall} {entry : Json}
    (h : Sane (Vouched V) file w) (hok : (call.run w env file).result = .ok entry) :
    ∃ (view : ChainView) (entries : List Json), check_entries w.instance_id V .genesis entries = .ok view ∧
      Encodes (fileLines (call.run w env file).file) (entries ++ [entry]) ∧
      last_recorded_epoch file = view.last_epoch ∧ 0 ≤ w.epoch ∧ w.instance_id ≠ [] ∧
      Json.getInt entry "epoch" 0 = w.epoch ∧
      (view.last_epoch ≤ w.epoch → Admits w.instance_id V view entry) := by
  have hcases := call.run_cases w env file
  generalize call.run w env file = o at hcases hok
  cases hcases with
  | appended w' rec hash sig line hclean hstate hsync hdraft hwritten =>
    cases hok
    obtain ⟨lines, entries, rfl, htracks, hP, _⟩ := (h.sync (keptBySync_vouched V) hclean hsync).2 rfl
    have hconfig := (sync_cases w lines.flatten).config
    rw [hsync] at hconfig
    obtain ⟨hinst, hepoch, _, _⟩ := hconfig
    have hfile : Encodes (fileLines (lines.flatten ++ line)) (entries ++ [sealed rec "entry_hash" hash sig]) := by
      have := (htracks.encodes.append (.cons hwritten.parses .nil)).fileLines
      simpa using this
    refine ⟨w'.view, entries, ?_, hfile, ?_, ?_, ?_, ?_, fun hlast => ?_⟩
    · rw [← hinst]
      exact hP.accepted
    · rw [last_recorded_epoch_eq htracks.encodes.fileLines, ← htracks.view]
    · rw [← hepoch]
      exact hP.epoch
    · rw [← hinst]
      exact hP.instance_id
    · rw [Json.getInt_of_get (hdraft.drafted.epoch hash sig), hepoch]
    · rw [← hepoch] at hlast
      rw [← hinst]
      exact hP.admits hdraft hwritten hlast
  | refused => cases hok
  | unlocked => cases hok
  | unsynced => cases hok
  | declined => cases hok
  | torn => cases hok

/-- Along every run of writers with the chain's key in which each append so far was made
    with an epoch not behind the file's, the file an append leaves is accepted by the
    strict verifier and can be reopened exactly when that append was current too. -/
theorem append_accepted_iff_epoch_current {entry_key cp_key : PublicKey} (hkeys : entry_key.der ≠ cp_key.der)
    {chain : Bytes} {ops : List Op}
    (hrun : Allowed World.step (fun s op => Keyed entry_key.verify op ∧ EpochCurrent s op) (.start chain) ops)
    {i : Nat} {call : AppendCall} {env : Env} {w : ChainWriter} {entry : Json}
    (hw : ((World.start chain).run ops).writers[i]? = some w)
    (hok : (call.run w env ((World.start chain).run ops).chain).result = .ok entry) :
    (Accepted (verify (.path (some (((World.start chain).run ops).step (.append i call env)).chain))
        (.loaded entry_key) none (.loaded cp_key) true none) ∧
      ∀ epoch signer, last_recorded_epoch (((World.start chain).run ops).step (.append i call env)).chain ≤ epoch →
        ∃ w', ChainWriter.init w.instance_id epoch signer entry_key.verify .same
          (((World.start chain).run ops).step (.append i call env)).chain = .ok w') ↔
      last_recorded_epoch ((World.start chain).run ops).chain ≤ w.epoch := by
  have hsane := vouched_of_allowed hrun w (List.mem_of_getElem? hw)
  rw [World.step_append hw]
  generalize ((World.start chain).run ops).chain = file at hok hsane ⊢
  obtain ⟨last, entries, hcheck, henc, hlast, hepoch, hinst, hentry, hadmits⟩ := hsane.appended hok
  simp only [World.settle]
  rw [accepted_without_checkpoints_iff, hlast]
  constructor
  · rintro ⟨⟨_, entry_list, hread, view, hview⟩, _⟩
    rw [Source.read, read_chain_eq_ok_iff.mpr henc] at hread
    cases hread
    obtain ⟨before, hbefore, hafter, _⟩ := check_entries_concat_ok_iff.mp hview
    have hle := hafter.integral.epoch
    rw [check_entries_eq_absorb hbefore, hentry] at hle
    rw [check_entries_eq_absorb hcheck]
    exact hle
  · intro hcurrent
    have hall : check_entries w.instance_id entry_key.verify .genesis (entries ++ [entry]) =
        .ok (last.absorb entry) :=
      check_entries_concat_ok_iff.mpr ⟨last, hcheck, hadmits hcurrent, rfl⟩
    refine ⟨⟨hkeys, entries ++ [entry], by rw [Source.read, read_chain_eq_ok_iff.mpr henc], last.absorb entry, ?_⟩,
      fun epoch signer hreopen => ?_⟩
    · rw [first_instance_id_eq hall (by simp)]
      exact hall
    · rw [last_recorded_epoch_eq henc, ← check_entries_eq_absorb hall] at hreopen
      have hnew : (last.absorb entry).last_epoch = w.epoch := hentry
      rw [hnew] at hreopen
      refine ⟨_, init_eq_ok_iff.mpr ⟨hinst, by omega, rfl, entries ++ [entry], _, henc, hall, ?_, rfl⟩⟩
      rw [hnew]
      omega

theorem signs_sample : Signs sampleSigner sampleVerifier := by
  intro msg sig h
  cases h
  exact ⟨by simp, by simp [sampleVerifier]⟩

/-- Two writers of one instance open an empty chain. -/
def openedRun : List Op :=
  [.open_writer (lit "i") 1 sampleSigner sampleVerifier .same, .open_writer (lit "i") 2 sampleSigner sampleVerifier .same]

/-- The one with the older epoch appends first. -/
def risingRun : List Op := openedRun ++ [.append 0 (.intent (lit "g") (lit "h")) calmEnv]

theorem run_opened : (World.start []).run openedRun =
    ⟨[], [.fresh (lit "i") 1 sampleSigner sampleVerifier, .fresh (lit "i") 2 sampleSigner sampleVerifier], []⟩ := by
  simp [openedRun, World.run, World.start, World.step, ChainWriter.init, lock, check_poisoned, ChainWriter.fresh, lit]

theorem run_rising_writer :
    ((World.start []).run risingRun).writers[1]? = some (.fresh (lit "i") 2 sampleSigner sampleVerifier) := by
  have hwriter : ((World.start []).run openedRun).writers[0]? = some (.fresh (lit "i") 1 sampleSigner sampleVerifier) := by
    rw [run_opened]
    rfl
  rw [World.run, risingRun, List.foldl_append, List.foldl_cons, List.foldl_nil]
  change (((World.start []).run openedRun).step _).writers[1]? = _
  rw [World.step_append hwriter, World.settle, List.getElem?_set_ne (by decide), run_opened]
  rfl

theorem run_rising_allowed :
    Allowed World.step (fun s op => Keyed sampleEntryKey.verify op ∧ EpochCurrent s op) (.start []) risingRun := by
  refine allowed_concat_iff.mpr ⟨⟨⟨⟨rfl, signs_sample⟩, trivial⟩, ⟨⟨rfl, signs_sample⟩, trivial⟩, trivial⟩, trivial, fun w h => ?_⟩
  change ((World.start []).run openedRun).writers[0]? = some w at h
  change last_recorded_epoch ((World.start []).run openedRun).chain ≤ w.epoch
  rw [run_opened] at h ⊢
  obtain rfl := Option.some.inj h
  decide

theorem append_accepted_rising :
    ∃ w entry, ((World.start []).run risingRun).writers[1]? = some w ∧
      last_recorded_epoch ((World.start []).run risingRun).chain = 1 ∧ w.epoch = 2 ∧
      ((AppendCall.intent (lit "k") (lit "h")).run w calmEnv ((World.start []).run risingRun).chain).result =
        .ok entry ∧
      Accepted (verify (.path (some (((World.start []).run risingRun).step
        (.append 1 (.intent (lit "k") (lit "h")) calmEnv)).chain)) (.loaded sampleEntryKey) none
        (.loaded sampleCheckpointKey) true none) := by
  have hepoch : last_recorded_epoch ((World.start []).run risingRun).chain = 1 := by decide +kernel
  have hok : ((AppendCall.intent (lit "k") (lit "h")).run (.fresh (lit "i") 2 sampleSigner sampleVerifier)
      calmEnv ((World.start []).run risingRun).chain).result.isOk = true := by decide +kernel
  obtain ⟨entry, hentry⟩ := exists_ok_of_isOk hok
  have hkeys : sampleEntryKey.der ≠ sampleCheckpointKey.der := by decide
  have hcurrent : last_recorded_epoch ((World.start []).run risingRun).chain ≤ 2 := by
    rw [hepoch]
    decide
  exact ⟨_, entry, run_rising_writer, hepoch, rfl, hentry,
    ((append_accepted_iff_epoch_current hkeys run_rising_allowed run_rising_writer hentry).mpr hcurrent).1⟩

/-- Two writers of one instance open an empty chain; the one with the older epoch
    appends after the other. -/
def staleRun : List Op :=
  [.open_writer (lit "i") 1 sampleSigner sampleVerifier .same,
    .open_writer (lit "i") 2 sampleSigner sampleVerifier .same,
    .append 1 (.intent (lit "g") (lit "h")) calmEnv, .append 0 (.intent (lit "k") (lit "h")) calmEnv]

set_option maxRecDepth 100000 in
/-- Both appends return normally, and the file they leave is neither accepted nor opened. -/
theorem stale_append_rejected :
    Signs sampleSigner sampleEntryKey.verify ∧ sampleEntryKey.der ≠ sampleCheckpointKey.der ∧
      ((World.start []).run staleRun).log = [.intent (lit "k") (lit "h"), .intent (lit "g") (lit "h")] ∧
      ¬ Accepted (verify (.path (some ((World.start []).run staleRun).chain)) (.loaded sampleEntryKey) none
        (.loaded sampleCheckpointKey) true none) ∧
      (ChainWriter.init (lit "i") 2 sampleSigner sampleVerifier .same ((World.start []).run staleRun).chain).isOk =
        false :=
  ⟨signs_sample, by decide +kernel⟩

end narwhal.evidence
