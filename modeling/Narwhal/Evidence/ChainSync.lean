import Narwhal.Evidence.Chain

open pylib

namespace narwhal.evidence

/-! ### Where the last line starts -/

/-- The offset at which the last of the lines starts, the first one at `offset`. -/
def lastStart (before offset : Nat) : List Bytes → Nat
  | [] => before
  | line :: rest => lastStart offset (offset + line.length) rest

theorem lastStart_append (before offset : Nat) (lines lines' : List Bytes) :
    lastStart before offset (lines ++ lines') =
      lastStart (lastStart before offset lines) (offset + lines.flatten.length) lines' := by
  induction lines generalizing before offset with
  | nil => simp [lastStart]
  | cons line lines ih => simp [lastStart, ih, Nat.add_assoc]

theorem lastStart_concat (before offset : Nat) (lines : List Bytes) (line : Bytes) :
    lastStart before offset (lines ++ [line]) = offset + lines.flatten.length := by
  rw [lastStart_append]
  rfl

private theorem last_entry_offset_eq_lastStart {n i : Nat} (before offset : Nat) {lines : List Bytes}
    (h : i + lines.length ≤ n) : last_entry_offset n i before offset lines = lastStart before offset lines := by
  induction lines generalizing i before offset with
  | nil => rfl
  | cons line lines ih =>
    rw [List.length_cons] at h
    rw [last_entry_offset, if_pos (by omega), ih _ _ (by omega), lastStart]

theorem load_entries_eq_ok_iff {instance_id : Str} {verifier : Verifier} {file : Bytes} {l : Loaded} :
    load_entries instance_id verifier file = .ok l ↔
      ∃ entries view, Encodes (fileLines file) entries ∧
        check_entries instance_id verifier .genesis entries = .ok view ∧
        l = ⟨view, file.length, lastStart 0 0 (fileLines file)⟩ := by
  unfold load_entries
  cases hread : read_chain file with
  | error e =>
    simp only [reduceCtorEq, false_iff]
    rintro ⟨entries, view, henc, _⟩
    rw [read_chain_eq_ok_iff.mpr henc] at hread
    cases hread
  | ok entries =>
    have henc := read_chain_eq_ok_iff.mp hread
    have hoff := last_entry_offset_eq_lastStart (i := 0) 0 0 (Nat.le_of_eq ((Nat.zero_add _).trans henc.length_eq))
    cases hcheck : check_entries instance_id verifier .genesis entries with
    | error e =>
      simp only [hcheck, reduceCtorEq, false_iff]
      rintro ⟨entries', view, henc', hcheck', _⟩
      rw [henc'.unique henc, hcheck] at hcheck'
      cases hcheck'
    | ok view =>
      simp only [hcheck, hoff]
      constructor
      · intro h
        exact ⟨entries, view, henc, hcheck, (Except.ok.inj h).symm⟩
      · rintro ⟨entries', view', henc', hcheck', rfl⟩
        rw [henc'.unique henc, hcheck] at hcheck'
        cases hcheck'
        rfl

/-! ### The loop over the new lines -/

section Advance

variable (w : ChainWriter) (view view' : ChainView) (offset offset' : Nat)

@[simp] theorem ChainWriter.view_advance : (w.advance view offset).view = view := rfl

@[simp] theorem ChainWriter.advance_advance :
    (w.advance view offset).advance view' offset' = w.advance view' offset' := rfl

@[simp] theorem ChainWriter.advance_view : w.advance w.view w.cached_last_entry_offset = w := rfl

@[simp] theorem ChainWriter.poison_advance : (w.advance view offset).poison = w.poison := rfl

end Advance

/-- The line ends the pass of a writer in the given view: it is not the encoding of an
    admissible entry. -/
def Refused (instance_id : Str) (verifier : Verifier) (view : ChainView) (line : Bytes) : Prop :=
  ∀ rec view', Parses line rec → check_entry instance_id verifier view rec ≠ .ok view'

/-- The loop takes in the lines up to the first that is refused. -/
theorem sync_lines_progress (w : ChainWriter) (offset line_idx : Nat) (lines : List Bytes) :
    ∃ taken entries view, Encodes taken entries ∧
      check_entries w.instance_id w.verifier w.view entries = .ok view ∧
      ((taken = lines ∧ sync_lines w offset line_idx lines =
          (.ok (), w.advance view (lastStart w.cached_last_entry_offset offset taken))) ∨
        ∃ bad rest e w', lines = taken ++ bad :: rest ∧ Refused w.instance_id w.verifier view bad ∧
          sync_lines w offset line_idx lines = (.error e, w') ∧
          ((w' = w.advance view (lastStart w.cached_last_entry_offset offset taken) ∧ ∃ rec, Parses bad rec) ∨
            ∃ reason, w' = (w.advance view (lastStart w.cached_last_entry_offset offset taken)).poisoned reason)) := by
  induction lines generalizing w offset line_idx with
  | nil => exact ⟨[], [], w.view, .nil, rfl, .inl ⟨rfl, rfl⟩⟩
  | cons line lines ih =>
    cases hparse : parse_strict_json_line line line_idx with
    | error e =>
      refine ⟨[], [], w.view, .nil, rfl, .inr ⟨line, lines, _, _, rfl, ?_, by simp only [sync_lines, hparse]; rfl, .inr ⟨_, rfl⟩⟩⟩
      intro rec view' hline
      rw [hline.at_line line_idx] at hparse
      cases hparse
    | ok rec =>
      have hline := parses_of_ok hparse
      cases hcheck : check_entry w.instance_id w.verifier w.view rec with
      | error e =>
        refine ⟨[], [], w.view, .nil, rfl, .inr ⟨line, lines, e, w, rfl, ?_, ?_, .inl ⟨rfl, rec, hline⟩⟩⟩
        · intro rec' view' hline'
          rw [← hline.unique hline', hcheck]
          exact fun h => by cases h
        · simp only [sync_lines, hparse, hcheck]
      | ok view =>
        have hsync : sync_lines w offset line_idx (line :: lines) =
            sync_lines (w.advance view offset) (offset + line.length) (line_idx + 1) lines := by
          simp only [sync_lines, hparse, hcheck]
        obtain ⟨taken, entries, last, henc, hentries, hend⟩ :=
          ih (w.advance view offset) (offset + line.length) (line_idx + 1)
        refine ⟨line :: taken, rec :: entries, last, .cons hline henc,
          foldlM_cons_ok_iff.mpr ⟨view, hcheck, hentries⟩, ?_⟩
        rw [hsync]
        rcases hend with ⟨rfl, hok⟩ | ⟨bad, rest, e, w', rfl, hbad, herr, hw'⟩
        · exact .inl ⟨rfl, hok⟩
        · exact .inr ⟨bad, rest, e, w', rfl, hbad, herr, hw'⟩

/-- The loop succeeds exactly when the lines encode entries that are all accepted. -/
theorem sync_lines_eq_ok_iff {w w' : ChainWriter} {offset line_idx : Nat} {lines : List Bytes} :
    sync_lines w offset line_idx lines = (.ok (), w') ↔
      ∃ entries view, Encodes lines entries ∧ check_entries w.instance_id w.verifier w.view entries = .ok view ∧
        w' = w.advance view (lastStart w.cached_last_entry_offset offset lines) := by
  obtain ⟨taken, entries, view, henc, hcheck, hend⟩ := sync_lines_progress w offset line_idx lines
  rcases hend with ⟨rfl, hok⟩ | ⟨bad, rest, e, w'', rfl, hbad, herr, _⟩
  · rw [hok]
    constructor
    · intro h
      exact ⟨entries, view, henc, hcheck, ((Prod.mk.inj h).2).symm⟩
    · rintro ⟨entries', view', henc', hcheck', rfl⟩
      rw [henc'.unique henc, hcheck] at hcheck'
      cases hcheck'
      rfl
  · rw [herr]
    simp only [Prod.mk.injEq, reduceCtorEq, false_and, false_iff]
    rintro ⟨entries', view', henc', hcheck', _⟩
    obtain ⟨front, back, rfl, hfront, hback⟩ := henc'.of_append
    cases hback with
    | cons hline _ =>
      obtain rfl := hfront.unique henc
      obtain ⟨view'', hview, hrest⟩ := foldlM_append_ok_iff.mp hcheck'
      cases hview.symm.trans hcheck
      obtain ⟨next, hnext, _⟩ := foldlM_cons_ok_iff.mp hrest
      exact hbad _ next hline hnext

/-- What a synchronisation of any writer over any file can do. -/
inductive Syncs (w : ChainWriter) (file : Bytes) : Except EvidenceError Unit × ChainWriter → Prop where
  /-- the file shrank, or its cached head is gone -/
  | poisoned (e : EvidenceError) (reason : PoisonReason) : Syncs w file (.error e, w.poisoned reason)
  /-- the cached head cannot be read back -/
  | unreadable : Syncs w file (.error .os, w)
  /-- there is nothing new -/
  | current (hhead : check_cached_head w file = (.ok (), w)) (hsize : ¬ w.cached_offset < file.length) :
      Syncs w file (.ok (), w)
  /-- a new line is refused after the lines before it were taken in -/
  | stopped (e : EvidenceError) (w' : ChainWriter) (taken : List Bytes) (entries : List Json) (view : ChainView)
      (bad : Bytes) (rest : List Bytes) (hhead : check_cached_head w file = (.ok (), w))
      (hlines : splitlines (file.drop w.cached_offset) = taken ++ bad :: rest) (henc : Encodes taken entries)
      (hcheck : check_entries w.instance_id w.verifier w.view entries = .ok view)
      (hbad : Refused w.instance_id w.verifier view bad)
      (hw' : (w' = w.advance view (lastStart w.cached_last_entry_offset w.cached_offset taken) ∧
          ∃ rec, Parses bad rec) ∨
        ∃ reason, w' = (w.advance view (lastStart w.cached_last_entry_offset w.cached_offset taken)).poisoned reason) :
      Syncs w file (.error e, w')
  /-- every new line is taken in -/
  | synced (entries : List Json) (view : ChainView) (hhead : check_cached_head w file = (.ok (), w))
      (hsize : w.cached_offset < file.length) (henc : Encodes (splitlines (file.drop w.cached_offset)) entries)
      (hcheck : check_entries w.instance_id w.verifier w.view entries = .ok view) :
      Syncs w file (.ok (), (w.advance view (lastStart w.cached_last_entry_offset w.cached_offset
        (splitlines (file.drop w.cached_offset)))).commit file.length)

theorem check_cached_head_cases (w : ChainWriter) (file : Bytes) :
    check_cached_head w file = (.ok (), w) ∨ check_cached_head w file = (.error .os, w) ∨
      ∃ e reason, check_cached_head w file = (.error e, w.poisoned reason) := by
  unfold check_cached_head
  split
  · exact .inr (.inr ⟨_, _, rfl⟩)
  · split
    · split
      · exact .inr (.inl rfl)
      · split
        · exact .inr (.inr ⟨_, _, rfl⟩)
        · exact .inl rfl
    · exact .inl rfl

theorem sync_cases (w : ChainWriter) (file : Bytes) : Syncs w file (sync_under_lock w file) := by
  unfold sync_under_lock
  rcases check_cached_head_cases w file with hhead | hhead | ⟨e, reason, hhead⟩
  · rw [hhead]
    by_cases hsize : w.cached_offset < file.length
    · simp only [if_pos hsize]
      obtain ⟨taken, entries, view, henc, hcheck, hend⟩ := sync_lines_progress w w.cached_offset (w.cached_count + 1)
        (splitlines (file.drop w.cached_offset))
      rcases hend with ⟨rfl, hok⟩ | ⟨bad, rest, e, w', hlines, hbad, herr, hw'⟩
      · rw [hok]
        exact .synced entries view hhead hsize henc hcheck
      · rw [herr]
        exact .stopped e w' taken entries view bad rest hhead hlines henc hcheck hbad hw'
    · simp only [if_neg hsize]
      exact .current hhead hsize
  · rw [hhead]
    exact .unreadable
  · rw [hhead]
    exact .poisoned e reason

/-- A synchronisation does not touch the writer's configuration. -/
theorem Syncs.config {w : ChainWriter} {file : Bytes} {r : Except EvidenceError Unit × ChainWriter}
    (h : Syncs w file r) : r.2.instance_id = w.instance_id ∧ r.2.epoch = w.epoch ∧ r.2.signer = w.signer ∧
      r.2.verifier = w.verifier := by
  cases h with
  | poisoned => exact ⟨rfl, rfl, rfl, rfl⟩
  | unreadable => exact ⟨rfl, rfl, rfl, rfl⟩
  | current => exact ⟨rfl, rfl, rfl, rfl⟩
  | stopped e w' taken entries view bad rest hhead hlines henc hcheck hbad hw' =>
    rcases hw' with ⟨rfl, _⟩ | ⟨reason, rfl⟩
    · exact ⟨rfl, rfl, rfl, rfl⟩
    · exact ⟨rfl, rfl, rfl, rfl⟩
  | synced => exact ⟨rfl, rfl, rfl, rfl⟩

/-! ### A writer that has read the whole file -/

/-- The writer has read exactly these lines, which encode these entries. -/
structure Tracks (w : ChainWriter) (lines : List Bytes) (entries : List Json) : Prop where
  encodes : Encodes lines entries
  hashed : ∀ entry ∈ entries,
    body_hash ENTRY_PREFIX entry "entry_hash" = .ok (Json.getStr entry "entry_hash" [])
  view : w.view = ChainView.genesis.absorbAll entries
  count : w.cached_count = w.seq
  head : w.cached_head_hash = w.last_hash
  offset : w.cached_offset = lines.flatten.length
  last_offset : w.cached_last_entry_offset = lastStart 0 0 lines

theorem Tracks.seq_eq {w : ChainWriter} {lines : List Bytes} {entries : List Json} (h : Tracks w lines entries) :
    w.seq = entries.length := by
  have := congrArg ChainView.count h.view
  simpa [ChainWriter.view, ChainView.genesis] using this

theorem Tracks.commit_eq {w : ChainWriter} {lines : List Bytes} {entries : List Json} (h : Tracks w lines entries) :
    w.commit lines.flatten.length = w := by
  have hcount := h.count
  have hhead := h.head
  have hoffset := h.offset
  cases w
  simp_all [ChainWriter.commit]

theorem hashed_of_check_entries {instance_id : Str} {verifier : Verifier} {s s' : ChainView}
    {entries : List Json} (h : check_entries instance_id verifier s entries = .ok s') :
    ∀ entry ∈ entries, body_hash ENTRY_PREFIX entry "entry_hash" = .ok (Json.getStr entry "entry_hash" []) := by
  intro entry hmem
  obtain ⟨u, hadmits⟩ := admits_of_check_entries h hmem
  exact hadmits.integral.hash

/-- The writer that assigns what it loaded tracks the file. -/
theorem tracks_assign {w : ChainWriter} {file : Bytes} {entries : List Json} {view : ChainView}
    (henc : Encodes (fileLines file) entries)
    (hcheck : check_entries w.instance_id w.verifier .genesis entries = .ok view) :
    Tracks (w.assign ⟨view, file.length, lastStart 0 0 (fileLines file)⟩) (fileLines file) entries where
  encodes := henc
  hashed := hashed_of_check_entries hcheck
  view := check_entries_eq_absorb hcheck
  count := rfl
  head := rfl
  offset := by simp [ChainWriter.assign]
  last_offset := rfl

/-- The last entry known is still where it was, and still hashes to the cached head. -/
theorem Tracks.check_cached_head {w : ChainWriter} {lines : List Bytes} {entries : List Json}
    (h : Tracks w lines entries) (rest : Bytes) :
    check_cached_head w (lines.flatten ++ rest) = (.ok (), w) := by
  have hsize : ¬ (lines.flatten ++ rest).length < w.cached_offset := by
    rw [h.offset, List.length_append]
    omega
  unfold evidence.check_cached_head
  rw [if_neg hsize]
  split
  · next hpos =>
    obtain ⟨front, last, rfl⟩ : ∃ front last, lines = front ++ [last] := by
      rcases List.eq_nil_or_concat lines with rfl | ⟨front, last, rfl⟩
      · have := h.seq_eq
        cases h.encodes
        rw [h.count, this] at hpos
        simp at hpos
      · exact ⟨front, last, by simp⟩
    obtain ⟨entries, final, rfl, hfront, hfinal⟩ := h.encodes.of_append
    obtain ⟨entry, rfl, hlast⟩ : ∃ entry, final = [entry] ∧ Parses last entry := by
      cases hfinal with
      | cons hlast hnil =>
        cases hnil
        exact ⟨_, rfl, hlast⟩
    have hread : os_read ((front ++ [last]).flatten ++ rest) w.cached_last_entry_offset
        ((w.cached_offset : Int) - w.cached_last_entry_offset) = some last := by
      rw [h.last_offset, h.offset, lastStart_concat, os_read, if_neg (by simp)]
      have hlen : ((((front ++ [last]).flatten.length : Nat) : Int) - ((0 + front.flatten.length : Nat) : Int)).toNat =
          last.length := by
        simp
      rw [hlen]
      simp
    have hhead : head_mismatch w last = none := by
      have hhash := h.hashed entry (by simp)
      have hprev : w.last_hash = Json.getStr entry "entry_hash" [] := by
        have := congrArg ChainView.prev_h h.view
        rwa [ChainView.absorbAll_concat] at this
      unfold head_mismatch
      rw [hlast.at_line]
      simp only [hhash]
      rw [h.head, hprev, if_neg (not_not_intro rfl)]
    simp only [hread, hhead]
  · rfl

theorem encodes_splitlines_iff {data : Bytes} {entries : List Json} :
    Encodes (splitlines data) entries ↔ Encodes (fileLines data) entries := by
  constructor
  · intro h
    have := h.fileLines
    rwa [flatten_splitlines] at this
  · intro h
    have hcr := h.no_carriage_return
    rw [flatten_fileLines] at hcr
    rwa [splitlines_eq_fileLines hcr]

/-- A writer that tracks the front of the file takes in the rest exactly when the rest
    encodes entries that are accepted one after the other. -/
theorem Tracks.sync_eq_ok_iff {w w' : ChainWriter} {lines : List Bytes} {entries : List Json}
    (h : Tracks w lines entries) {rest : Bytes} :
    sync_under_lock w (lines.flatten ++ rest) = (.ok (), w') ↔
      ∃ entries' view, Encodes (fileLines rest) entries' ∧
        check_entries w.instance_id w.verifier w.view entries' = .ok view ∧
        w' = (w.advance view (lastStart w.cached_last_entry_offset w.cached_offset (fileLines rest))).commit
          (lines.flatten ++ rest).length := by
  have hdrop : (lines.flatten ++ rest).drop w.cached_offset = rest := by simp [h.offset]
  unfold sync_under_lock
  rw [h.check_cached_head]
  cases hrest : rest with
  | nil =>
    have hcommit := h.commit_eq
    have hsize : ¬ w.cached_offset < (lines.flatten ++ []).length := by simp [h.offset]
    simp only [if_neg hsize]
    constructor
    · intro heq
      cases heq
      refine ⟨[], w.view, .nil, rfl, ?_⟩
      simpa [lastStart, ← h.offset] using hcommit.symm
    · rintro ⟨entries', view, henc, hcheck, rfl⟩
      cases henc
      cases hcheck
      simpa [lastStart, ← h.offset] using hcommit.symm
  | cons b bs =>
    rw [← hrest]
    simp only [hdrop]
    have hsize : w.cached_offset < (lines.flatten ++ rest).length := by simp [h.offset, hrest]
    simp only [if_pos hsize]
    cases hsync : sync_lines w w.cached_offset (w.cached_count + 1) (splitlines rest) with
    | mk result w'' =>
      cases result with
      | error e =>
        simp only [Prod.mk.injEq, reduceCtorEq, false_and, false_iff]
        rintro ⟨entries', view, henc, hcheck, _⟩
        have hok : sync_lines w w.cached_offset (w.cached_count + 1) (splitlines rest) = (.ok (), _) :=
          sync_lines_eq_ok_iff.mpr ⟨entries', view, encodes_splitlines_iff.mpr henc, hcheck, rfl⟩
        rw [hsync] at hok
        cases hok
      | ok _ =>
        obtain ⟨entries', view, henc, hcheck, rfl⟩ := sync_lines_eq_ok_iff.mp hsync
        have henc' := encodes_splitlines_iff.mp henc
        have hlines : splitlines rest = fileLines rest := by
          rw [← fileLines_flatten henc.isLine, flatten_splitlines]
        simp only [hlines]
        constructor
        · intro heq
          exact ⟨entries', view, henc', hcheck, (Prod.mk.inj heq).2.symm⟩
        · rintro ⟨entries'', view', henc'', hcheck', rfl⟩
          rw [henc''.unique henc', hcheck] at hcheck'
          cases hcheck'
          rfl

/-- What is accepted after the entries a writer tracks is tracked as well. -/
theorem Tracks.extend {w : ChainWriter} {lines : List Bytes} {entries : List Json} (h : Tracks w lines entries)
    {rest : Bytes} {entries' : List Json} {view : ChainView} (henc : Encodes (fileLines rest) entries')
    (hcheck : check_entries w.instance_id w.verifier w.view entries' = .ok view) :
    Tracks ((w.advance view (lastStart w.cached_last_entry_offset w.cached_offset (fileLines rest))).commit
      (lines.flatten ++ rest).length) (lines ++ fileLines rest) (entries ++ entries') where
  encodes := h.encodes.append henc
  hashed := by
    intro entry hmem
    rcases List.mem_append.mp hmem with hold | hnew
    · exact h.hashed entry hold
    · exact hashed_of_check_entries hcheck entry hnew
  view := by
    rw [ChainView.absorbAll_append, ← h.view]
    exact check_entries_eq_absorb hcheck
  count := rfl
  head := rfl
  offset := by simp [ChainWriter.commit]
  last_offset := by
    rw [lastStart_append, ← h.last_offset, Nat.zero_add, ← h.offset]
    rfl

theorem full_load_and_verify_eq_ok_iff {w w' : ChainWriter} {file : Bytes} :
    full_load_and_verify w file = .ok w' ↔
      ∃ l, load_entries w.instance_id w.verifier file = .ok l ∧
        ¬ (0 < l.view.count ∧ w.epoch < l.view.last_epoch) ∧ w' = w.assign l := by
  unfold full_load_and_verify
  cases load_entries w.instance_id w.verifier file with
  | error e => simp
  | ok l =>
    by_cases hepoch : 0 < l.view.count ∧ w.epoch < l.view.last_epoch
    · simp [hepoch]
    · simp only [hepoch, if_false, Except.ok.injEq, exists_eq_left', not_false_eq_true, true_and]
      exact eq_comm

/-- Incremental sync refines the full load: over a file that extends the one a writer
    was loaded from, the two accept the same bytes and leave the same state. -/
theorem sync_refines_full_load {w wP : ChainWriter} {P : Bytes} (hload : full_load_and_verify w P = .ok wP)
    (S : Bytes) :
    ((sync_under_lock wP (P ++ S)).1 = .ok () ↔ ∃ l, load_entries w.instance_id w.verifier (P ++ S) = .ok l) ∧
      ∀ l, load_entries w.instance_id w.verifier (P ++ S) = .ok l →
        sync_under_lock wP (P ++ S) = (.ok (), w.assign l) := by
  obtain ⟨lP, hlP, _, rfl⟩ := full_load_and_verify_eq_ok_iff.mp hload
  obtain ⟨entries, view, henc, hcheck, rfl⟩ := load_entries_eq_ok_iff.mp hlP
  have htracks := tracks_assign (w := w) henc hcheck
  have hlines : fileLines (P ++ S) = fileLines P ++ fileLines S := by
    have := fileLines_flatten_append henc.isLine S
    rwa [flatten_fileLines] at this
  have hsync := fun w' => @Tracks.sync_eq_ok_iff _ w' _ _ htracks S
  simp only [flatten_fileLines] at hsync
  have hfull : ∀ l, load_entries w.instance_id w.verifier (P ++ S) = .ok l →
      sync_under_lock (w.assign ⟨view, P.length, lastStart 0 0 (fileLines P)⟩) (P ++ S) = (.ok (), w.assign l) := by
    intro l hl
    obtain ⟨all, view', hall, hcheck', rfl⟩ := load_entries_eq_ok_iff.mp hl
    rw [hlines] at hall
    obtain ⟨front, back, rfl, hfront, hback⟩ := hall.of_append
    obtain rfl := hfront.unique henc
    obtain ⟨u, hu, hrest⟩ := check_entries_append_ok_iff.mp hcheck'
    cases hu.symm.trans hcheck
    refine (hsync _).mpr ⟨back, view', hback, hrest, ?_⟩
    rw [hlines, lastStart_append, flatten_fileLines, Nat.zero_add]
    rfl
  refine ⟨⟨fun hok => ?_, fun ⟨l, hl⟩ => by rw [hfull l hl]⟩, hfull⟩
  obtain ⟨entries', view', henc', hcheck', _⟩ := (hsync _).mp (Prod.ext hok rfl)
  exact ⟨_, load_entries_eq_ok_iff.mpr ⟨entries ++ entries', view', by rw [hlines]; exact henc.append henc',
    check_entries_append_ok_iff.mpr ⟨view, hcheck, hcheck'⟩, rfl⟩⟩

set_option maxRecDepth 100000 in
theorem sync_refines_full_load_sample :
    ∃ wP, full_load_and_verify sampleWriter sampleFile = .ok wP ∧
      (sync_under_lock wP (sampleFile ++ longerSampleFile.drop sampleFile.length)).1 = .ok () := by
  have hload : (full_load_and_verify sampleWriter sampleFile).isOk = true := by decide +kernel
  have hlonger : (load_entries sampleWriter.instance_id sampleWriter.verifier
      (sampleFile ++ longerSampleFile.drop sampleFile.length)).isOk = true := by decide +kernel
  obtain ⟨wP, hwP⟩ := exists_ok_of_isOk hload
  exact ⟨wP, hwP, (sync_refines_full_load hwP _).1.mpr (exists_ok_of_isOk hlonger)⟩

end narwhal.evidence
