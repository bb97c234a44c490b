import Narwhal.Evidence.ChainAppend
import Narwhal.Lib.Run

open pylib

namespace narwhal.evidence

/-- One chain file and the writers open on it, with the append calls that returned
    normally, the latest first. -/
structure World where
  chain : Bytes
  writers : List ChainWriter
  log : List AppendCall

/-- What can happen to the chain file, one call at a time under its exclusive lock. -/
inductive Op where
  | open_writer (instance_id : Str) (epoch : Int) (signer : Signer) (verifier : Verifier) (stat : PathStat)
  | append (i : Nat) (call : AppendCall) (env : Env)
  | get_head (i : Nat) (env : Env)

/-- The world after writer `i` was called and left this outcome. -/
def World.settle {α : Type} (s : World) (i : Nat) (o : Outcome α) (done : List AppendCall) : World :=
  ⟨o.file, s.writers.set i o.writer, done ++ s.log⟩

def World.step (s : World) : Op → World
  | .open_writer instance_id epoch signer verifier stat =>
    match ChainWriter.init instance_id epoch signer verifier stat s.chain with
    | .ok w => { s with writers := s.writers ++ [w] }
    | .error _ => s
  | .append i call env =>
    match s.writers[i]? with
    | none => s
    | some w =>
      let o := call.run w env s.chain
      s.settle i o (match o.result with | .ok _ => [call] | .error _ => [])
  | .get_head i env =>
    match s.writers[i]? with
    | none => s
    | some w => s.settle i (get_head w env s.chain) []

section Step

variable {s : World} {i : Nat} {call : AppendCall} {env : Env} {w : ChainWriter} {instance_id : Str} {epoch : Int}
  {signer : Signer} {verifier : Verifier} {stat : PathStat}

theorem World.step_open_ok (h : ChainWriter.init instance_id epoch signer verifier stat s.chain = .ok w) :
    s.step (.open_writer instance_id epoch signer verifier stat) = { s with writers := s.writers ++ [w] } := by
  simp only [World.step, h]

theorem World.step_open_error {e : EvidenceError}
    (h : ChainWriter.init instance_id epoch signer verifier stat s.chain = .error e) :
    s.step (.open_writer instance_id epoch signer verifier stat) = s := by
  simp only [World.step, h]

theorem World.step_append (h : s.writers[i]? = some w) :
    s.step (.append i call env) = s.settle i (call.run w env s.chain)
      (match (call.run w env s.chain).result with | .ok _ => [call] | .error _ => []) := by
  simp only [World.step, h]

theorem World.step_append_none (h : s.writers[i]? = none) : s.step (.append i call env) = s := by
  simp only [World.step, h]

theorem World.step_get_head (h : s.writers[i]? = some w) :
    s.step (.get_head i env) = s.settle i (evidence.get_head w env s.chain) [] := by
  simp only [World.step, h]

theorem World.step_get_head_none (h : s.writers[i]? = none) : s.step (.get_head i env) = s := by
  simp only [World.step, h]

end Step

/-- A chain file found with this content, before anyone opens it. -/
def World.start (chain : Bytes) : World := ⟨chain, [], []⟩

def World.run (s : World) (ops : List Op) : World := ops.foldl World.step s

/-! ### Writers that will never append again -/

/-- A synchronisation of the writer stopped midway, past lines it had taken in but not
    committed. Either its record of the last entry is empty or lies beyond its offset,
    or it will meet the file's first entry again with a later number. -/
def Stuck (file : Bytes) (w : ChainWriter) : Prop :=
  (0 < w.cached_count ∧ w.cached_offset ≤ w.cached_last_entry_offset) ∨
  (w.cached_count = 0 ∧ w.cached_offset = 0 ∧ 0 < w.seq ∧
    ∃ first rest rec, file = first ++ rest ∧ Parses first rec ∧ Json.get rec "seq" = some (.int 0))

private theorem parse_nil (line_no : Nat) : parse_strict_json_line [] line_no = .error (.no_newline line_no) := by
  simp [parse_strict_json_line]

theorem splitlines_cons_of_parses {first rest : Bytes} {rec : Json} (h : Parses first rec) :
    splitlines (first ++ rest) = first :: splitlines rest := by
  obtain ⟨⟨body, rfl, hlf⟩, hcr⟩ := isLine_of_parse_strict_json_line h
  simp only [List.append_assoc, List.cons_append, List.nil_append]
  exact splitlines_body_cons hlf fun hmem => hcr (List.mem_append_left _ hmem)

private theorem sync_of_head_error {w w' : ChainWriter} {file : Bytes} {e : EvidenceError}
    (h : check_cached_head w file = (.error e, w')) : sync_under_lock w file = (.error e, w') := by
  rw [sync_under_lock, h]

/-- No synchronisation of a stuck writer succeeds. -/
theorem Stuck.sync {file : Bytes} {w : ChainWriter} (h : Stuck file w) :
    ∃ e w', sync_under_lock w file = (.error e, w') ∧ (w'.poison.isSome = true ∨ w' = w) := by
  by_cases hsize : file.length < w.cached_offset
  · exact ⟨_, _, sync_of_head_error (by rw [check_cached_head, if_pos hsize]), .inl rfl⟩
  rcases h with ⟨hcount, hoff⟩ | ⟨hcount, hoff, hseq, first, rest, rec, rfl, hfirst, hrec⟩
  · by_cases hneg : (w.cached_offset : Int) - w.cached_last_entry_offset < 0
    · refine ⟨.os, w, sync_of_head_error ?_, .inr rfl⟩
      simp only [check_cached_head, if_neg hsize, if_pos hcount, os_read, if_pos hneg]
    · have hread : os_read file w.cached_last_entry_offset
          ((w.cached_offset : Int) - w.cached_last_entry_offset) = some [] := by
        have hzero : (w.cached_offset : Int) - w.cached_last_entry_offset = 0 := by omega
        simp [os_read, hzero]
      obtain ⟨reason, hhead⟩ : ∃ reason, head_mismatch w [] = some reason := by
        rw [head_mismatch, parse_nil]
        exact ⟨_, rfl⟩
      refine ⟨.integrity (.poisoning reason), w.poisoned reason, sync_of_head_error ?_, .inl rfl⟩
      simp only [check_cached_head, if_neg hsize, if_pos hcount, hread, hhead]
  · have hpos : w.cached_offset < (first ++ rest).length := by
      rw [hoff]
      exact List.length_pos_iff.mpr (by simp [hfirst.isLine.ne_nil])
    have hhead : check_cached_head w (first ++ rest) = (.ok (), w) := by
      rw [check_cached_head, if_neg hsize, if_neg (by omega)]
    cases hcheck : check_entry w.instance_id w.verifier w.view rec with
    | ok view =>
      have hcount' := (check_entry_eq_ok_iff.mp hcheck).1.integral.seq
      rw [hrec] at hcount'
      simp only [ChainWriter.view, Option.some.injEq, Json.int.injEq] at hcount'
      omega
    | error e =>
      refine ⟨e, w, ?_, .inr rfl⟩
      rw [sync_under_lock, hhead]
      simp only [if_pos hpos]
      rw [hoff, List.drop_zero, splitlines_cons_of_parses hfirst]
      simp only [sync_lines, hfirst.at_line, hcheck]

/-! ### What every writer satisfies -/

/-- The writer has read the front of the file, and what it read has the property. -/
def InStep (P : ChainWriter → List Json → Prop) (file : Bytes) (w : ChainWriter) : Prop :=
  ∃ lines entries rest, file = lines.flatten ++ rest ∧ Tracks w lines entries ∧ P w entries

/-- A writer that may still append is in step with the file. -/
def Sane (P : ChainWriter → List Json → Prop) (file : Bytes) (w : ChainWriter) : Prop :=
  w.poison.isSome = true ∨ InStep P file w ∨ Stuck file w

theorem Sane.mono {P : ChainWriter → List Json → Prop} {file : Bytes} {w : ChainWriter} (h : Sane P file w)
    (more : Bytes) : Sane P (file ++ more) w := by
  rcases h with h | ⟨lines, entries, rest, rfl, htracks, hP⟩ | h | ⟨hcount, hoff, hseq, first, rest, rec, rfl, hrec⟩
  · exact .inl h
  · exact .inr (.inl ⟨lines, entries, rest ++ more, by rw [List.append_assoc], htracks, hP⟩)
  · exact .inr (.inr (.inl h))
  · exact .inr (.inr (.inr ⟨hcount, hoff, hseq, first, rest ++ more, rec, by rw [List.append_assoc], hrec⟩))

/-- The property survives a completed synchronisation. -/
def KeptBySync (P : ChainWriter → List Json → Prop) : Prop :=
  ∀ w lines entries entries' view offset size, Tracks w lines entries → P w entries →
    check_entries w.instance_id w.verifier w.view entries' = .ok view →
    P ((w.advance view offset).commit size) (entries ++ entries')

theorem lastStart_ge {before offset : Nat} {lines : List Bytes} (h : lines ≠ []) :
    offset ≤ lastStart before offset lines := by
  rcases List.eq_nil_or_concat lines with rfl | ⟨front, last, rfl⟩
  · exact absurd rfl h
  · rw [List.concat_eq_append, lastStart_concat]
    omega

/-- A writer in step with the file either takes in all of it, or is left poisoned,
    unchanged or stuck. -/
theorem InStep.sync {P : ChainWriter → List Json → Prop} (hkept : KeptBySync P) {file : Bytes} {w : ChainWriter}
    (h : InStep P file w) :
    (∃ view offset lines entries, sync_under_lock w file = (.ok (), (w.advance view offset).commit file.length) ∧
      file = lines.flatten ∧ Tracks ((w.advance view offset).commit file.length) lines entries ∧
      P ((w.advance view offset).commit file.length) entries) ∨
    (∃ e w', sync_under_lock w file = (.error e, w') ∧ (w'.poison.isSome = true ∨ w' = w ∨ Stuck file w')) := by
  obtain ⟨lines, entries, rest, rfl, htracks, hP⟩ := h
  cases hsync : sync_under_lock w (lines.flatten ++ rest) with
  | mk result w' =>
    cases result with
    | ok _ =>
      obtain ⟨entries', view, henc, hcheck, rfl⟩ := htracks.sync_eq_ok_iff.mp hsync
      exact .inl ⟨view, _, lines ++ fileLines rest, entries ++ entries', rfl, by simp,
        htracks.extend henc hcheck, hkept w lines entries entries' view _ _ htracks hP hcheck⟩
    | error e =>
      refine .inr ⟨e, w', rfl, ?_⟩
      unfold sync_under_lock at hsync
      rw [htracks.check_cached_head] at hsync
      have hdrop : (lines.flatten ++ rest).drop w.cached_offset = rest := by simp [htracks.offset]
      simp only [hdrop] at hsync
      split at hsync
      · obtain ⟨taken, new, view, henc, hcheck, hend⟩ :=
          sync_lines_progress w w.cached_offset (w.cached_count + 1) (splitlines rest)
        rcases hend with ⟨rfl, hok⟩ | ⟨bad, more, e', w'', hlines, _, herr, hw⟩
        · rw [hok] at hsync
          cases hsync
        · rw [herr] at hsync
          cases hsync
          rcases hw with ⟨rfl, _⟩ | ⟨reason, rfl⟩
          · cases henc with
            | nil =>
              cases hcheck
              exact .inr (.inl rfl)
            | @cons first rec taken new hfirst hnew =>
              refine .inr (.inr ?_)
              by_cases hcount : 0 < w.cached_count
              · exact .inl ⟨hcount, lastStart_ge (by simp)⟩
              · have hnone : entries = [] := by
                  rw [← List.length_eq_zero_iff, ← htracks.seq_eq, ← htracks.count]
                  omega
                subst hnone
                have hlines_nil : lines = [] := by
                  have := htracks.encodes
                  cases this
                  rfl
                subst hlines_nil
                obtain ⟨view', hview', _⟩ := foldlM_cons_ok_iff.mp hcheck
                have hseq := (check_entry_eq_ok_iff.mp hview').1.integral.seq
                have hzero : w.view.count = 0 := htracks.seq_eq
                have hview := check_entries_eq_absorb hcheck
                refine .inr ⟨Nat.eq_zero_of_not_pos hcount, htracks.offset, ?_, first, (taken ++ bad :: more).flatten, rec,
                  ?_, hfirst, by rw [hseq, hzero]; rfl⟩
                · rw [hview]
                  simp [ChainWriter.advance]
                · have hflat := flatten_splitlines rest
                  rw [hlines] at hflat
                  simpa using hflat.symm
          · exact .inl rfl
      · cases hsync

/-- What a synchronisation leaves of a writer that may still append. -/
theorem Sane.sync {P : ChainWriter → List Json → Prop} (hkept : KeptBySync P) {file : Bytes} {w w' : ChainWriter}
    (hclean : w.poison = none) (h : Sane P file w) {result : Except EvidenceError Unit}
    (hsync : sync_under_lock w file = (result, w')) :
    Sane P file w' ∧ (result = .ok () → ∃ lines entries, file = lines.flatten ∧ Tracks w' lines entries ∧ P w' entries ∧
      ∃ view offset, w' = (w.advance view offset).commit file.length) := by
  rcases h with hpoison | hstep | hstuck
  · simp [hclean] at hpoison
  · rcases hstep.sync hkept with ⟨view, offset, lines, entries, hok, hfile, htracks, hP⟩ | ⟨e, w'', herr, hw⟩
    · rw [hok] at hsync
      cases hsync
      exact ⟨.inr (.inl ⟨lines, entries, [], by rw [List.append_nil]; exact hfile, htracks, hP⟩),
        fun _ => ⟨lines, entries, hfile, htracks, hP, view, offset, rfl⟩⟩
    · rw [herr] at hsync
      cases hsync
      refine ⟨?_, fun hok => by cases hok⟩
      rcases hw with hpoison | rfl | hstuck
      · exact .inl hpoison
      · exact .inr (.inl hstep)
      · exact .inr (.inr hstuck)
  · obtain ⟨e, w'', herr, hw⟩ := hstuck.sync
    rw [herr] at hsync
    cases hsync
    refine ⟨?_, fun hok => by cases hok⟩
    rcases hw with hpoison | rfl
    · exact .inl hpoison
    · exact .inr (.inr hstuck)

/-- The writer that appended an entry to the file it tracks, tracks the new file. -/
theorem Tracks.recorded {w : ChainWriter} {lines : List Bytes} {entries : List Json} (h : Tracks w lines entries)
    {rec : List (Str × Json)} (hrec : Drafted w rec) {hash : Str} {sig line : Bytes}
    (hwritten : Written w rec hash sig line) :
    Tracks (w.recorded (sealed rec "entry_hash" hash sig) hash line.length) (lines ++ [line])
      (entries ++ [sealed rec "entry_hash" hash sig]) where
  encodes := h.encodes.append (.cons hwritten.parses .nil)
  hashed := by
    intro entry hmem
    rcases List.mem_append.mp hmem with hold | hnew
    · exact h.hashed entry hold
    · rw [List.mem_singleton.mp hnew, hwritten.hash_eq, Json.getStr_of_get (hrec.entry_hash hash sig)]
  view := by
    rw [ChainView.absorbAll_concat, ← h.view, ChainView.absorb, Json.getStr_of_get (hrec.entry_hash hash sig)]
    rfl
  count := congrArg (· + 1) h.count
  head := rfl
  offset := by
    have := h.offset
    simp [ChainWriter.recorded, ChainWriter.appended, this]
  last_offset := by
    rw [lastStart_concat, Nat.zero_add, ← h.offset]
    rfl

/-- The property survives an append by a writer that has read the whole file. -/
def KeptByAppend (P : ChainWriter → List Json → Prop) (env : Env) (file : Bytes) (call : AppendCall)
    (w : ChainWriter) : Prop :=
  ∀ w' lines entries rec hash sig line, sync_under_lock w file = (.ok (), w') →
    validate_writer_state w = .ok () → file = lines.flatten → Tracks w' lines entries → P w' entries →
    Drafts w' env call rec → Written w' rec hash sig line →
    P (w'.recorded (sealed rec "entry_hash" hash sig) hash line.length)
      (entries ++ [sealed rec "entry_hash" hash sig])

/-- An append call only adds to the file. -/
theorem Appends.file_isPrefix {w : ChainWriter} {env : Env} {file : Bytes} {call : AppendCall} {o : Outcome Json}
    (ho : Appends w env file call o) : file <+: o.file := by
  cases ho with
  | refused | unlocked | unsynced | declined => exact List.prefix_rfl
  | torn | appended => exact List.prefix_append _ _

theorem get_head_file (w : ChainWriter) (env : Env) (file : Bytes) : (get_head w env file).file = file := by
  unfold get_head
  split
  · rfl
  · split <;> rfl

theorem World.chain_open_writer (s : World) (instance_id : Str) (epoch : Int) (signer : Signer) (verifier : Verifier)
    (stat : PathStat) : (s.step (.open_writer instance_id epoch signer verifier stat)).chain = s.chain := by
  cases hinit : ChainWriter.init instance_id epoch signer verifier stat s.chain with
  | error e => rw [World.step_open_error hinit]
  | ok w => rw [World.step_open_ok hinit]

theorem World.chain_get_head (s : World) (i : Nat) (env : Env) : (s.step (.get_head i env)).chain = s.chain := by
  cases hw : s.writers[i]? with
  | none => rw [World.step_get_head_none hw]
  | some w => rw [World.step_get_head hw, World.settle, get_head_file]

/-- The chain file only grows. -/
theorem World.chain_prefix (s : World) (op : Op) : s.chain <+: (s.step op).chain := by
  cases op with
  | open_writer instance_id epoch signer verifier stat => rw [World.chain_open_writer]
  | append i call env =>
    cases hw : s.writers[i]? with
    | none => rw [World.step_append_none hw]
    | some w =>
      rw [World.step_append hw]
      exact (call.run_cases w env s.chain).file_isPrefix
  | get_head i env => rw [World.chain_get_head]

/-- An append call keeps the writer sane. -/
theorem Appends.sane {P : ChainWriter → List Json → Prop} (hkept : KeptBySync P) {w : ChainWriter} {env : Env}
    {file : Bytes} {call : AppendCall} (happend : KeptByAppend P env file call w) {o : Outcome Json}
    (ho : Appends w env file call o) (h : Sane P file w) : Sane P o.file o.writer := by
  cases ho with
  | refused e => exact h
  | unlocked e reason => exact .inl rfl
  | unsynced e w' hclean hsync => exact (h.sync hkept hclean hsync).1
  | declined e w' hclean hsync => exact (h.sync hkept hclean hsync).1
  | torn w' rec hash sig line written hclean hsync hdraft hwritten hfront => exact .inl rfl
  | appended w' rec hash sig line hclean hstate hsync hdraft hwritten =>
    obtain ⟨lines, entries, hfile, htracks, hP, _⟩ := (h.sync hkept hclean hsync).2 rfl
    refine .inr (.inl ⟨lines ++ [line], _, [], ?_, htracks.recorded hdraft.drafted hwritten,
      happend w' lines entries rec hash sig line hsync hstate hfile htracks hP hdraft hwritten⟩)
    simp [hfile]

/-- Reading the head keeps the writer sane. -/
theorem get_head_sane {P : ChainWriter → List Json → Prop} (hkept : KeptBySync P) {w : ChainWriter} {env : Env}
    {file : Bytes} (h : Sane P file w) : Sane P file (get_head w env file).writer := by
  unfold get_head check_poisoned lock_and_sync
  cases hpoison : w.poison with
  | some reason => exact h
  | none =>
    rcases lock_cases w env.stat with ⟨_, hlock⟩ | ⟨e, hlock⟩ | ⟨e, reason, hlock⟩
    · simp only [hlock]
      cases hsync : sync_under_lock w file with
      | mk result w' =>
        have hw' := (h.sync hkept hpoison hsync).1
        cases result with
        | error e => exact hw'
        | ok _ => exact hw'
    · simp only [hlock]
      exact h
    · simp only [hlock]
      exact .inl rfl

/-- A writer opens exactly when its arguments are sound, its path is in place, the file is
    accepted, and its epoch is not behind the last entry's. -/
theorem init_eq_ok_iff {instance_id : Str} {epoch : Int} {signer : Signer} {verifier : Verifier} {stat : PathStat}
    {file : Bytes} {w : ChainWriter} :
    ChainWriter.init instance_id epoch signer verifier stat file = .ok w ↔
      instance_id ≠ [] ∧ 0 ≤ epoch ∧ stat = .same ∧
      ∃ entries view, Encodes (fileLines file) entries ∧
        check_entries instance_id verifier .genesis entries = .ok view ∧
        ¬ (0 < view.count ∧ epoch < view.last_epoch) ∧
        w = (ChainWriter.fresh instance_id epoch signer verifier).assign
          ⟨view, file.length, lastStart 0 0 (fileLines file)⟩ := by
  unfold ChainWriter.init
  by_cases hinst : instance_id = []
  · simp [hinst]
  by_cases hepoch : epoch < 0
  · simp [hinst, hepoch]
  rw [if_neg hinst, if_neg hepoch]
  cases stat with
  | inaccessible => simp [lock, check_poisoned, ChainWriter.fresh]
  | replaced => simp [lock, check_poisoned, ChainWriter.fresh]
  | same =>
    simp only [lock, check_poisoned, ChainWriter.fresh, ne_eq, hinst, not_false_eq_true, not_lt.mp hepoch, true_and]
    split
    · rw [full_load_and_verify_eq_ok_iff]
      simp only [load_entries_eq_ok_iff]
      constructor
      · rintro ⟨l, ⟨entries, view, henc, hcheck, rfl⟩, hlast, rfl⟩
        exact ⟨entries, view, henc, hcheck, hlast, rfl⟩
      · rintro ⟨entries, view, henc, hcheck, hlast, rfl⟩
        exact ⟨_, ⟨entries, view, henc, hcheck, rfl⟩, hlast, rfl⟩
    · next hsize =>
      obtain rfl : file = [] := List.length_eq_zero_iff.mp (Nat.eq_zero_of_not_pos hsize)
      constructor
      · intro h
        cases h
        exact ⟨[], .genesis, .nil, rfl, by simp [ChainView.genesis], rfl⟩
      · rintro ⟨entries, view, henc, hcheck, _, rfl⟩
        cases henc
        cases hcheck
        rfl

/-- Every open writer is sane. -/
def World.Sound (P : ChainWriter → List Json → Prop) (s : World) : Prop :=
  ∀ w ∈ s.writers, Sane P s.chain w

theorem World.Sound.settle {P : ChainWriter → List Json → Prop} {s : World} (h : s.Sound P) {α : Type} {i : Nat}
    {o : Outcome α} (ho : Sane P o.file o.writer) (hfile : s.chain <+: o.file) (done : List AppendCall) :
    (s.settle i o done).Sound P := by
  intro w hw
  rcases List.mem_or_eq_of_mem_set hw with hold | rfl
  · obtain ⟨more, hmore⟩ := hfile
    rw [World.settle, ← hmore]
    exact (h w hold).mono more
  · exact ho

/-- Opening a writer keeps every writer sane, where the property holds of what it loads. -/
theorem World.Sound.open_writer {P : ChainWriter → List Json → Prop} {s : World} (h : s.Sound P)
    {instance_id : Str} {epoch : Int} {signer : Signer} {verifier : Verifier} {stat : PathStat}
    (hload : instance_id ≠ [] → 0 ≤ epoch → ∀ entries view l, check_entries instance_id verifier .genesis entries = .ok view → l.view = view →
      P ((ChainWriter.fresh instance_id epoch signer verifier).assign l) entries) :
    (s.step (.open_writer instance_id epoch signer verifier stat)).Sound P := by
  cases hinit : ChainWriter.init instance_id epoch signer verifier stat s.chain with
  | error e => rwa [World.step_open_error hinit]
  | ok w =>
    rw [World.step_open_ok hinit]
    obtain ⟨hinst, hepoch, _, entries, view, henc, hcheck, _, rfl⟩ := init_eq_ok_iff.mp hinit
    intro w' hw'
    rcases List.mem_append.mp hw' with hold | hnew
    · exact h w' hold
    · rw [List.mem_singleton.mp hnew]
      have htracks := tracks_assign (w := .fresh instance_id epoch signer verifier) henc hcheck
      exact .inr (.inl ⟨fileLines s.chain, entries, [], by simp, htracks, hload hinst hepoch entries view _ hcheck rfl⟩)

/-- An append keeps every writer sane, where the property survives it. -/
theorem World.Sound.append {P : ChainWriter → List Json → Prop} (hkept : KeptBySync P) {s : World} (h : s.Sound P)
    {i : Nat} {call : AppendCall} {env : Env}
    (happend : ∀ w, s.writers[i]? = some w → KeptByAppend P env s.chain call w) :
    (s.step (.append i call env)).Sound P := by
  cases hw : s.writers[i]? with
  | none => rwa [World.step_append_none hw]
  | some w =>
    rw [World.step_append hw]
    have hsane := (call.run_cases w env s.chain).sane hkept (happend w hw) (h w (List.mem_of_getElem? hw))
    exact h.settle hsane (call.run_cases w env s.chain).file_isPrefix _

theorem World.Sound.get_head {P : ChainWriter → List Json → Prop} (hkept : KeptBySync P) {s : World} (h : s.Sound P)
    {i : Nat} {env : Env} : (s.step (.get_head i env)).Sound P := by
  cases hw : s.writers[i]? with
  | none => rwa [World.step_get_head_none hw]
  | some w =>
    rw [World.step_get_head hw]
    refine h.settle ?_ ?_ _
    · rw [get_head_file]
      exact get_head_sane hkept (h w (List.mem_of_getElem? hw))
    · rw [get_head_file]

end narwhal.evidence
