import Mathlib.Data.Set.Function
import Narwhal.Evidence.ChainWorld

open pylib

namespace narwhal.evidence

/-- A call on an open writer. -/
inductive WriterCall where
  | get_head
  | append (call : AppendCall)
deriving DecidableEq, Repr

/-- The entry a call returns, if it returns one, and the writer and the file it leaves. -/
def WriterCall.run (call : WriterCall) (w : ChainWriter) (env : Env) (file : Bytes) : Outcome (Option Json) :=
  match call with
  | .get_head =>
    match evidence.get_head w env file with
    | ⟨result, w, file⟩ => ⟨result.map fun _ => none, w, file⟩
  | .append call =>
    match call.run w env file with
    | ⟨result, w, file⟩ => ⟨result.map some, w, file⟩

/-- The new part of the file starts with entries the writer accepts, and goes on with a
    record it does not. -/
def StopsPartway (w : ChainWriter) (file : Bytes) : Prop :=
  ∃ taken entries view bad rec rest, splitlines (file.drop w.cached_offset) = taken ++ bad :: rest ∧ taken ≠ [] ∧
    Encodes taken entries ∧ check_entries w.instance_id w.verifier w.view entries = .ok view ∧
    Parses bad rec ∧ Refused w.instance_id w.verifier view bad

/-! ### What a raising call leaves -/

/-- A synchronisation that raises leaves the writer poisoned or as it was, unless it stops
    partway. -/
theorem sync_error_cases {w w' : ChainWriter} {file : Bytes} {e : EvidenceError}
    (h : sync_under_lock w file = (.error e, w')) (hwhole : ¬ StopsPartway w file) :
    w'.poison.isSome = true ∨ w' = w := by
  have hcases := sync_cases w file
  rw [h] at hcases
  cases hcases with
  | poisoned => exact .inl rfl
  | unreadable => exact .inr rfl
  | stopped _ _ taken entries view bad rest hhead hlines henc hcheck hbad hw' =>
    rcases hw' with ⟨rfl, rec, hrec⟩ | ⟨reason, rfl⟩
    · by_cases htaken : taken = []
      · subst htaken
        cases henc
        cases hcheck
        exact .inr rfl
      · exact absurd ⟨taken, entries, view, bad, rec, rest, hlines, htaken, henc, hcheck, hrec, hbad⟩ hwhole
    · exact .inl rfl

/-- Everything a call that takes the lock can do to the writer. -/
theorem WriterCall.run_error_cases {call : WriterCall} {w : ChainWriter} {env : Env} {file : Bytes}
    {e : EvidenceError} (h : (call.run w env file).result = .error e) (hwhole : ¬ StopsPartway w file) :
    (call.run w env file).writer.poison.isSome = true ∨ (call.run w env file).writer = w ∨
      sync_under_lock w file = (.ok (), (call.run w env file).writer) := by
  cases call with
  | get_head =>
    simp only [WriterCall.run, evidence.get_head, lock_and_sync] at h ⊢
    cases hpoison : check_poisoned w with
    | error e => exact .inr (.inl rfl)
    | ok _ =>
      rcases lock_cases w env.stat with ⟨_, hlock⟩ | ⟨e, hlock⟩ | ⟨e, reason, hlock⟩
      · simp only [hlock]
        cases hsync : sync_under_lock w file with
        | mk result w' =>
          cases result with
          | error e => exact (sync_error_cases hsync hwhole).imp_right .inl
          | ok _ => exact .inr (.inr rfl)
      · simp only [hlock]
        exact .inr (.inl trivial)
      · simp only [hlock]
        exact .inl rfl
  | append call =>
    simp only [WriterCall.run] at h ⊢
    have hcases := call.run_cases w env file
    generalize call.run w env file = o at h hcases
    cases hcases with
    | refused => exact .inr (.inl rfl)
    | unlocked => exact .inl rfl
    | unsynced e w' _ hsync => exact (sync_error_cases hsync hwhole).imp_right .inl
    | declined e w' _ hsync => exact .inr (.inr hsync)
    | torn => exact .inl rfl
    | appended => cases h

/-- A head is returned after a completed synchronisation only. -/
theorem get_head_ok {w : ChainWriter} {env : Env} {file : Bytes} {returned : Option Json}
    (h : (WriterCall.get_head.run w env file).result = .ok returned) :
    sync_under_lock w file = (.ok (), (WriterCall.get_head.run w env file).writer) ∧ returned = none := by
  simp only [WriterCall.run, evidence.get_head, lock_and_sync] at h ⊢
  cases hpoison : check_poisoned w with
  | error e =>
    rw [hpoison] at h
    cases h
  | ok _ =>
    simp only [hpoison] at h ⊢
    rcases lock_cases w env.stat with ⟨_, hlock⟩ | ⟨e, hlock⟩ | ⟨e, reason, hlock⟩
    · simp only [hlock] at h ⊢
      cases hsync : sync_under_lock w file with
      | mk result w' =>
        rw [hsync] at h
        cases result with
        | error e => cases h
        | ok _ =>
          cases h
          exact ⟨rfl, rfl⟩
    · simp only [hlock] at h
      cases h
    · simp only [hlock] at h
      cases h

/-- Every call on a poisoned writer raises and leaves it as it is. -/
theorem WriterCall.run_poisoned {w : ChainWriter} (h : w.poison.isSome = true) (call : WriterCall) (env : Env)
    (file : Bytes) : ∃ e, (call.run w env file).result = .error e ∧ (call.run w env file).writer = w := by
  obtain ⟨reason, hreason⟩ := Option.isSome_iff_exists.mp h
  have hcheck : check_poisoned w = .error (.integrity (.poisoned reason)) := by rw [check_poisoned, hreason]
  have hstate : validate_writer_state w = .error (.integrity (.poisoned reason)) := by
    rw [validate_writer_state, hcheck]
  have hrun : call.run w env file = ⟨.error (.integrity (.poisoned reason)), w, file⟩ := by
    cases call with
    | get_head =>
      simp only [WriterCall.run, evidence.get_head, hcheck]
      rfl
    | append call =>
      cases call with
      | intent grant_id invocation_hash =>
        simp only [WriterCall.run, AppendCall.run, append_intent, hstate]
        rfl
      | result intent_seq outcome grant_id =>
        simp only [WriterCall.run, AppendCall.run, append_result, hstate]
        rfl
  exact ⟨_, by rw [hrun], by rw [hrun]⟩

/-! ### The end of the file -/

/-- The message hashed for a line, where the line is a record with a canonical body. -/
def hashed_message (line : Bytes) : Option Bytes :=
  match parse_strict_json_line line 0 with
  | .error _ => none
  | .ok rec =>
    match canonical (body rec "entry_hash") with
    | .error _ => none
    | .ok bytes => some (ENTRY_PREFIX ++ bytes)

/-- The lines a synchronisation hashes: the head it reads back, and the new ones. -/
def sync_reads (w : ChainWriter) (file : Bytes) : List Bytes :=
  (os_read file w.cached_last_entry_offset ((w.cached_offset : Int) - w.cached_last_entry_offset)).toList ++
    splitlines (file.drop w.cached_offset)

/-- The record is the entry with the number before `seq`, and its hash is `last_hash`. -/
structure IsHead (seq : Nat) (last_hash : Str) (rec : Json) : Prop where
  hash : body_hash ENTRY_PREFIX rec "entry_hash" = .ok last_hash
  seq : ∃ n : Nat, seq = n + 1 ∧ Json.get rec "seq" = some (.int n)

/-- An entry with this number and link extends the file: the file is empty and the entry is
    the first, or the file ends with the line of the entry it links to. -/
def ExtendsFile (file : Bytes) (seq : Nat) (prev_hash : Str) : Prop :=
  (file = [] ∧ seq = 0 ∧ prev_hash = GENESIS_PREV_HASH) ∨
    ∃ front line rec, file = front ++ line ∧ Parses line rec ∧ IsHead seq prev_hash rec

/-- What the writer has committed is the head it will look for, and the head was read off a
    line whose message is in `messages`. -/
structure Aligned (messages : Set Bytes) (w : ChainWriter) : Prop where
  count : w.cached_count = w.seq
  head : w.cached_head_hash = w.last_hash
  known : (w.seq = 0 ∧ w.last_hash = GENESIS_PREV_HASH ∧ w.cached_offset = 0) ∨
    ∃ line rec msg, Parses line rec ∧ IsHead w.seq w.last_hash rec ∧ hashed_message line = some msg ∧ msg ∈ messages

theorem hashed_message_of_parses {line : Bytes} {rec : Json} {hash : Str} (h : Parses line rec)
    (hhash : body_hash ENTRY_PREFIX rec "entry_hash" = .ok hash) :
    ∃ bytes, canonical (body rec "entry_hash") = .ok bytes ∧ hashed_message line = some (ENTRY_PREFIX ++ bytes) ∧
      sha256_hexdigest (ENTRY_PREFIX ++ bytes) = hash := by
  unfold body_hash at hhash
  unfold hashed_message
  rw [h.at_line]
  cases hcanonical : canonical (body rec "entry_hash") with
  | error e => simp [hcanonical] at hhash
  | ok bytes =>
    simp only [hcanonical, Except.ok.injEq] at hhash
    exact ⟨bytes, rfl, by simp only [hcanonical], hhash⟩

/-- The last line of an accepted run of entries is the head it leaves. -/
theorem isHead_of_check_entries {lines : List Bytes} {line : Bytes} {entries : List Json} {instance_id : Str}
    {verifier : Verifier} {s view : ChainView} (henc : Encodes (lines ++ [line]) entries)
    (hcheck : check_entries instance_id verifier s entries = .ok view) :
    ∃ rec msg, Parses line rec ∧ IsHead view.count view.prev_h rec ∧ hashed_message line = some msg := by
  obtain ⟨front, back, rfl, _, hback⟩ := henc.of_append
  cases hback with
  | @cons _ rec _ _ hline hnil =>
    cases hnil
    obtain ⟨u, _, hadmits, rfl⟩ := check_entries_concat_ok_iff.mp hcheck
    obtain ⟨bytes, _, hmsg, _⟩ := hashed_message_of_parses hline hadmits.integral.hash
    exact ⟨rec, _, hline, ⟨hadmits.integral.hash, u.count, rfl, hadmits.integral.seq⟩, hmsg⟩

/-- The number of an entry is part of what is hashed. -/
theorem get_seq_body (rec : Json) : Json.get (body rec "entry_hash") "seq" = Json.get rec "seq" := by
  cases rec with
  | obj fields =>
    simp only [body, Json.get]
    exact lookupField_filter fun value => by simp
  | _ => rfl

/-- Two records with one hash have one number, where the hash is injective. -/
theorem IsHead.of_hash_eq {messages : Set Bytes} (hinj : Set.InjOn sha256_hexdigest messages) {seq : Nat}
    {last_hash : Str} {line line' msg msg' : Bytes} {rec rec' : Json} (h : IsHead seq last_hash rec)
    (hline : Parses line rec) (hline' : Parses line' rec') (hmsg : hashed_message line = some msg)
    (hmsg' : hashed_message line' = some msg') (hmem : msg ∈ messages) (hmem' : msg' ∈ messages)
    (hhash : body_hash ENTRY_PREFIX rec' "entry_hash" = .ok last_hash) : IsHead seq last_hash rec' := by
  obtain ⟨bytes, hbytes, hm, hsha⟩ := hashed_message_of_parses hline h.hash
  obtain ⟨bytes', hbytes', hm', hsha'⟩ := hashed_message_of_parses hline' hhash
  cases hm.symm.trans hmsg
  cases hm'.symm.trans hmsg'
  have hsame := List.append_cancel_left (hinj hmem hmem' (hsha.trans hsha'.symm))
  subst hsame
  have hbody := canonical_injective hbytes hbytes'
  obtain ⟨n, hn, hseq⟩ := h.seq
  refine ⟨hhash, n, hn, ?_⟩
  rw [← get_seq_body, ← hbody, get_seq_body, hseq]

theorem check_cached_head_ok {w : ChainWriter} {file : Bytes} (h : check_cached_head w file = (.ok (), w)) :
    w.cached_offset ≤ file.length ∧
      (0 < w.cached_count → ∃ last_bytes rec,
        os_read file w.cached_last_entry_offset ((w.cached_offset : Int) - w.cached_last_entry_offset) =
          some last_bytes ∧
        Parses last_bytes rec ∧ body_hash ENTRY_PREFIX rec "entry_hash" = .ok w.cached_head_hash) := by
  unfold check_cached_head at h
  split at h
  · cases h
  next hsize =>
  refine ⟨not_lt.mp hsize, fun hcount => ?_⟩
  rw [if_pos hcount] at h
  split at h
  · cases h
  next last_bytes hread =>
  split at h
  · cases h
  next hmatch =>
  unfold head_mismatch at hmatch
  split at hmatch
  · cases hmatch
  next rec hparse =>
  split at hmatch
  · cases hmatch
  next calc_hash hhash =>
  split at hmatch
  · cases hmatch
  next heq =>
  exact ⟨last_bytes, rec, hread, parses_of_ok hparse, by rw [hhash, not_not.mp heq]⟩

/-- What was read back up to the end of the file is what the file ends with. -/
theorem eq_append_of_os_read {file last_bytes : Bytes} {offset : Nat}
    (h : os_read file offset ((file.length : Int) - offset) = some last_bytes) :
    file = file.take offset ++ last_bytes := by
  unfold os_read at h
  split at h
  · cases h
  next hlen =>
  cases h
  have hall : ((file.length : Int) - offset).toNat = (file.drop offset).length := by
    rw [List.length_drop]
    omega
  rw [hall, List.take_length, List.take_append_drop]

section

variable {messages : Set Bytes} {w w' : ChainWriter} {file : Bytes}

/-- After a completed synchronisation the next entry of an aligned writer extends the file. -/
theorem Aligned.sync (hinj : Set.InjOn sha256_hexdigest messages) (h : Aligned messages w)
    (hreads : ∀ line ∈ sync_reads w file, ∀ msg, hashed_message line = some msg → msg ∈ messages)
    (hsync : sync_under_lock w file = (.ok (), w')) :
    Aligned messages w' ∧ ExtendsFile file w'.seq w'.last_hash := by
  have hcases := sync_cases w file
  rw [hsync] at hcases
  cases hcases with
  | current hhead hsize =>
    refine ⟨h, ?_⟩
    obtain ⟨hle, hlast⟩ := check_cached_head_ok hhead
    have hlen : w.cached_offset = file.length := le_antisymm hle (not_lt.mp hsize)
    rcases h.known with ⟨hzero, hgenesis, hoffset⟩ | ⟨line, rec, msg, hline, hrec, hmsg, hmem⟩
    · exact .inl ⟨List.length_eq_zero_iff.mp (hlen.symm.trans hoffset), hzero, hgenesis⟩
    · obtain ⟨n, hn, _⟩ := hrec.seq
      obtain ⟨last_bytes, rec', hread, hparses, hhash⟩ := hlast (by rw [h.count]; omega)
      rw [h.head] at hhash
      obtain ⟨bytes, _, hmsg', _⟩ := hashed_message_of_parses hparses hhash
      have hmem' := hreads last_bytes (by simp [sync_reads, hread]) _ hmsg'
      rw [hlen] at hread
      exact .inr ⟨_, last_bytes, rec', eq_append_of_os_read hread, hparses,
        hrec.of_hash_eq hinj hline hparses hmsg hmsg' hmem hmem' hhash⟩
  | synced entries view hhead hsize henc hcheck =>
    have hdata : splitlines (file.drop w.cached_offset) ≠ [] := by
      intro hnil
      have hflat := flatten_splitlines (file.drop w.cached_offset)
      rw [hnil] at hflat
      exact absurd (congrArg List.length hflat) (by simp; omega)
    obtain ⟨lines, line, hlines⟩ := (List.eq_nil_or_concat _).resolve_left hdata
    rw [List.concat_eq_append] at hlines
    rw [hlines] at henc
    obtain ⟨rec, msg, hline, hrec, hmsg⟩ := isHead_of_check_entries henc hcheck
    have hmem := hreads line (by simp [sync_reads, hlines]) _ hmsg
    have hfile : file = (file.take w.cached_offset ++ lines.flatten) ++ line := by
      have hflat := flatten_splitlines (file.drop w.cached_offset)
      rw [hlines] at hflat
      have := List.take_append_drop w.cached_offset file
      rw [← hflat] at this
      simpa using this.symm
    exact ⟨⟨rfl, rfl, .inr ⟨line, rec, msg, hline, hrec, hmsg, hmem⟩⟩, .inr ⟨_, line, rec, hfile, hline, hrec⟩⟩

/-- A writer that has appended an entry is aligned with it. -/
theorem Aligned.recorded (h : Aligned messages w) {rec : List (Str × Json)} (hrec : Drafted w rec) {hash : Str}
    {sig line : Bytes} (hwritten : Written w rec hash sig line)
    (hline : ∀ msg, hashed_message line = some msg → msg ∈ messages) :
    Aligned messages (w.recorded (sealed rec "entry_hash" hash sig) hash line.length) := by
  obtain ⟨bytes, _, hmsg, _⟩ := hashed_message_of_parses hwritten.parses hwritten.hash_eq
  refine ⟨congrArg (· + 1) h.count, rfl, .inr ⟨line, _, _, hwritten.parses, ?_, hmsg, hline _ hmsg⟩⟩
  exact ⟨hwritten.hash_eq, w.seq, rfl, hrec.seq hash sig⟩

end

/-! ### Runs -/

/-- One call of a run, with the content the file has when it takes the lock. -/
structure WriterStep where
  call : WriterCall
  env : Env
  file : Bytes

def WriterStep.after (w : ChainWriter) (s : WriterStep) : ChainWriter := (s.call.run w s.env s.file).writer

/-- The lines a call hashes: those its synchronisation reads, and the one it appends. -/
def WriterStep.hashes (w : ChainWriter) (s : WriterStep) : List Bytes :=
  sync_reads w s.file ++ [(s.call.run w s.env s.file).file.drop s.file.length]

/-- The call does not stop partway, and hashes messages of the set only. -/
def WriterStep.Whole (messages : Set Bytes) (w : ChainWriter) (s : WriterStep) : Prop :=
  ¬ StopsPartway w s.file ∧ ∀ line ∈ s.hashes w, ∀ msg, hashed_message line = some msg → msg ∈ messages

theorem aligned_of_init {messages : Set Bytes} {instance_id : Str} {epoch : Int} {signer : Signer}
    {verifier : Verifier} {stat : PathStat} {file : Bytes} {w : ChainWriter}
    (h : ChainWriter.init instance_id epoch signer verifier stat file = .ok w)
    (hfile : ∀ line ∈ fileLines file, ∀ msg, hashed_message line = some msg → msg ∈ messages) :
    Aligned messages w := by
  obtain ⟨_, _, _, entries, view, henc, hcheck, _, rfl⟩ := init_eq_ok_iff.mp h
  refine ⟨rfl, rfl, ?_⟩
  rcases List.eq_nil_or_concat (fileLines file) with hnil | ⟨lines, line, hlines⟩
  · have hempty : file = [] := by rw [← flatten_fileLines file, hnil]; rfl
    rw [hnil] at henc
    cases henc
    cases hcheck
    exact .inl ⟨rfl, rfl, by rw [hempty]; rfl⟩
  · rw [List.concat_eq_append] at hlines
    rw [hlines] at henc
    obtain ⟨rec, msg, hline, hrec, hmsg⟩ := isHead_of_check_entries henc hcheck
    exact .inr ⟨line, rec, msg, hline, hrec, hmsg, hfile line (by simp [hlines]) _ hmsg⟩

/-- A whole call leaves a writer that is poisoned or aligned, and an entry it appends extends
    the file. -/
theorem WriterStep.Whole.aligned {messages : Set Bytes} (hinj : Set.InjOn sha256_hexdigest messages)
    {w : ChainWriter} {s : WriterStep} (hwhole : s.Whole messages w)
    (h : w.poison.isSome = true ∨ Aligned messages w) :
    ((s.after w).poison.isSome = true ∨ Aligned messages (s.after w)) ∧
      ∀ entry, (s.call.run w s.env s.file).result = .ok (some entry) →
        ∃ seq prev_hash, Json.get entry "seq" = some (.int (seq : Nat)) ∧
          Json.get entry "prev_hash" = some (.str prev_hash) ∧ ExtendsFile s.file seq prev_hash := by
  obtain ⟨hstop, hhashes⟩ := hwhole
  rcases h with hpoison | haligned
  · obtain ⟨e, hresult, hsame⟩ := s.call.run_poisoned hpoison s.env s.file
    refine ⟨.inl (by rw [WriterStep.after, hsame]; exact hpoison), fun entry hentry => ?_⟩
    rw [hresult] at hentry
    cases hentry
  · have hreads : ∀ line ∈ sync_reads w s.file, ∀ msg, hashed_message line = some msg → msg ∈ messages :=
      fun line hline => hhashes line (List.mem_append_left _ hline)
    cases hresult : (s.call.run w s.env s.file).result with
    | error e =>
      refine ⟨?_, fun entry hentry => by cases hentry⟩
      rcases WriterCall.run_error_cases hresult hstop with hpoison | hsame | hsync
      · exact .inl hpoison
      · exact .inr (by rw [WriterStep.after, hsame]; exact haligned)
      · exact .inr (haligned.sync hinj hreads hsync).1
    | ok returned =>
      have hown := hhashes _ (List.mem_append_right _ (List.mem_singleton_self _))
      obtain ⟨call, env, file⟩ := s
      cases call with
      | get_head =>
        have hsync := get_head_ok hresult
        refine ⟨.inr (haligned.sync hinj hreads hsync.1).1, fun entry hentry => ?_⟩
        rw [hsync.2] at hentry
        cases hentry
      | append call =>
        simp only [WriterStep.after, WriterCall.run] at hresult hown ⊢
        have hcases := call.run_cases w env file
        generalize call.run w env file = o at hcases hresult hown ⊢
        cases hcases with
        | appended w' rec hash sig line hclean hstate hsync hdraft hwritten =>
          obtain ⟨halign, hextends⟩ := haligned.sync hinj hreads hsync
          have hline : (file ++ line).drop file.length = line := by simp
          simp only [hline] at hown
          refine ⟨.inr (halign.recorded hdraft.drafted hwritten hown), fun entry hentry => ?_⟩
          rw [← hresult] at hentry
          cases hentry
          exact ⟨w'.seq, w'.last_hash, hdraft.drafted.seq hash sig, hdraft.drafted.prev_hash hash sig, hextends⟩
        | refused => cases hresult
        | unlocked => cases hresult
        | unsynced => cases hresult
        | declined => cases hresult
        | torn => cases hresult

/-- A call that raises, unless its synchronisation stops partway, leaves the writer poisoned
    for good, or as it was, or as a completed synchronisation left it; and along every run
    of such calls, whatever the file holds at each of them, every entry a call appends
    extends the file. -/
theorem raise_fail_closed :
    (∀ (call : WriterCall) (w : ChainWriter) (env : Env) (file : Bytes) (e : EvidenceError),
      (call.run w env file).result = .error e → ¬ StopsPartway w file →
        (∀ (later : WriterCall) (env' : Env) (file' : Bytes),
          ∃ e', (later.run (call.run w env file).writer env' file').result = .error e' ∧
            (later.run (call.run w env file).writer env' file').writer = (call.run w env file).writer) ∨
        (call.run w env file).writer = w ∨ sync_under_lock w file = (.ok (), (call.run w env file).writer)) ∧
    ∀ (messages : Set Bytes), Set.InjOn sha256_hexdigest messages →
      ∀ (instance_id : Str) (epoch : Int) (signer : Signer) (verifier : Verifier) (stat : PathStat) (file : Bytes)
        (w : ChainWriter),
        ChainWriter.init instance_id epoch signer verifier stat file = .ok w →
        (∀ line ∈ fileLines file, ∀ msg, hashed_message line = some msg → msg ∈ messages) →
        ∀ (steps : List WriterStep) (last : WriterStep) (entry : Json),
          Allowed WriterStep.after (fun w s => s.Whole messages w) w (steps ++ [last]) →
          (last.call.run (steps.foldl WriterStep.after w) last.env last.file).result = .ok (some entry) →
          ∃ seq prev_hash, Json.get entry "seq" = some (.int (seq : Nat)) ∧
            Json.get entry "prev_hash" = some (.str prev_hash) ∧ ExtendsFile last.file seq prev_hash := by
  refine ⟨fun call w env file e hraise hstop => ?_, fun messages hinj instance_id epoch signer verifier stat file w hinit
    hfile steps last entry hrun hentry => ?_⟩
  · exact (WriterCall.run_error_cases hraise hstop).imp_left fun hpoison later env' file' =>
      later.run_poisoned hpoison env' file'
  · obtain ⟨hsteps, hlast⟩ := allowed_concat_iff.mp hrun
    have hinv := hsteps.invariant (I := fun w => w.poison.isSome = true ∨ Aligned messages w)
      (fun _ _ hs hop => (hop.aligned hinj hs).1) (.inr (aligned_of_init hinit hfile))
    exact (hlast.aligned hinj hinv).2 entry hentry

theorem not_stopsPartway_of_current {w : ChainWriter} {file : Bytes} (h : file.length ≤ w.cached_offset) :
    ¬ StopsPartway w file := by
  rintro ⟨taken, entries, view, bad, rec, rest, hlines, _⟩
  rw [List.drop_eq_nil_of_le h] at hlines
  exact absurd hlines.symm (by simp [splitlines])

/-- A first intent on an empty chain, and a second one after it. -/
def firstStep : WriterStep := ⟨.append (.intent (lit "g") (lit "h")), calmEnv, []⟩

def secondStep : WriterStep := ⟨.append (.intent (lit "k") (lit "h")), calmEnv, sampleFile⟩

def sampleMessages : List Bytes :=
  (firstStep.hashes sampleWriter ++ secondStep.hashes ([firstStep].foldl WriterStep.after sampleWriter)).filterMap
    hashed_message

set_option maxRecDepth 100000 in
theorem raise_fail_closed_sample :
    ∃ entry, (secondStep.call.run ([firstStep].foldl WriterStep.after sampleWriter) secondStep.env
        secondStep.file).result = .ok (some entry) ∧
      ∃ seq prev_hash, Json.get entry "seq" = some (.int (seq : Nat)) ∧
        Json.get entry "prev_hash" = some (.str prev_hash) ∧ ExtendsFile secondStep.file seq prev_hash := by
  have hinj : ∀ a ∈ sampleMessages, ∀ b ∈ sampleMessages, sha256_hexdigest a = sha256_hexdigest b → a = b := by
    decide +kernel
  have hinit : ChainWriter.init (lit "i") 0 sampleSigner sampleVerifier .same [] = .ok sampleWriter := rfl
  have hsecond : secondStep.file.length ≤ ([firstStep].foldl WriterStep.after sampleWriter).cached_offset := by
    decide +kernel
  have hok : ((secondStep.call.run ([firstStep].foldl WriterStep.after sampleWriter) secondStep.env
      secondStep.file).result.toOption.any Option.isSome) = true := by decide +kernel
  have hfirst : firstStep.Whole { msg | msg ∈ sampleMessages } sampleWriter :=
    ⟨not_stopsPartway_of_current (Nat.zero_le _), fun line hline msg hmsg =>
      List.mem_filterMap.mpr ⟨line, List.mem_append_left _ hline, hmsg⟩⟩
  have hlast : secondStep.Whole { msg | msg ∈ sampleMessages } ([firstStep].foldl WriterStep.after sampleWriter) :=
    ⟨not_stopsPartway_of_current hsecond, fun line hline msg hmsg =>
      List.mem_filterMap.mpr ⟨line, List.mem_append_right _ hline, hmsg⟩⟩
  generalize hresult : (secondStep.call.run ([firstStep].foldl WriterStep.after sampleWriter) secondStep.env
    secondStep.file).result = result at hok
  cases result with
  | error e => cases hok
  | ok returned =>
    obtain ⟨entry, rfl⟩ := Option.isSome_iff_exists.mp (show returned.isSome = true from hok)
    have hrun : Allowed WriterStep.after (fun w s => s.Whole { msg | msg ∈ sampleMessages } w) sampleWriter
        ([firstStep] ++ [secondStep]) := allowed_concat_iff.mpr ⟨⟨hfirst, trivial⟩, hlast⟩
    have hset : Set.InjOn sha256_hexdigest { msg | msg ∈ sampleMessages } := fun a ha b hb => hinj a ha b hb
    have hempty : ∀ line ∈ fileLines [], ∀ msg, hashed_message line = some msg → msg ∈ { msg | msg ∈ sampleMessages } := by
      simp
    exact ⟨entry, rfl, raise_fail_closed.2 { msg | msg ∈ sampleMessages } hset (lit "i") 0 sampleSigner
      sampleVerifier .same [] sampleWriter hinit hempty [firstStep] secondStep entry hrun hresult⟩

set_option maxRecDepth 100000 in
/-- A writer opened on an empty chain is refused a grant that another one has consumed since:
    the call raises, the writer is not poisoned, and it has taken in the other's entry. -/
theorem double_spend_changes_state :
    ChainWriter.init (lit "i") 0 sampleSigner sampleVerifier .same [] = .ok sampleWriter ∧
      (firstStep.call.run sampleWriter calmEnv sampleFile).result = .error (.double_spend (lit "g")) ∧
      (firstStep.call.run sampleWriter calmEnv sampleFile).writer.poison = none ∧
      (firstStep.call.run sampleWriter calmEnv sampleFile).writer.seq ≠ sampleWriter.seq ∧
      (firstStep.call.run sampleWriter calmEnv sampleFile).writer.last_hash ≠ sampleWriter.last_hash := by
  refine ⟨rfl, ?_⟩
  decide +kernel

end narwhal.evidence
