import Narwhal.Ci.GitDiff
import Narwhal.Ci.UsesLine

open pylib narwhal.git

namespace narwhal.action_bump

/-! ### A diff is read back -/

def startsFile (line : Str) : Bool := (lit "diff --git ").isPrefixOf line

def startsHunk (line : Str) : Bool := (lit "@@").isPrefixOf line

def HunkText.all (hunk : HunkText) : List Str := hunk.header :: hunk.lines

def FileDiff.lines (fd : FileDiff) : List Str := fd.header :: fd.metadata ++ fd.hunks.flatMap HunkText.all

structure HunkText.WellFormed (hunk : HunkText) : Prop where
  header : startsHunk hunk.header = true ∧ startsFile hunk.header = false
  lines : ∀ line ∈ hunk.lines, startsHunk line = false ∧ startsFile line = false

structure FileDiff.WellFormed (fd : FileDiff) : Prop where
  header : startsFile fd.header = true
  metadata : ∀ line ∈ fd.metadata, startsHunk line = false ∧ startsFile line = false
  hunks : ∀ hunk ∈ fd.hunks, hunk.WellFormed

section

variable {done : List FileDiff} {fd : FileDiff} {lines : List Str}

theorem foldl_readLine (h : ∀ line ∈ lines, startsFile line = false) :
    lines.foldl readLine (done, some fd) = (done, some (lines.foldl FileDiff.add fd)) := by
  induction lines generalizing fd with
  | nil => rfl
  | cons line lines ih =>
    have hline : (lit "diff --git ").isPrefixOf line = false := h line List.mem_cons_self
    rw [List.foldl_cons, List.foldl_cons, ← ih fun l hl => h l (List.mem_cons_of_mem line hl)]
    simp only [readLine, hline, Bool.false_eq_true, if_false, Option.map_some]

theorem foldl_add_metadata (hhunks : fd.hunks = []) (h : ∀ line ∈ lines, startsHunk line = false) :
    lines.foldl FileDiff.add fd = { fd with metadata := fd.metadata ++ lines } := by
  induction lines generalizing fd with
  | nil => simp
  | cons line lines ih =>
    have hline : (lit "@@").isPrefixOf line = false := h line List.mem_cons_self
    have hadd : fd.add line = { fd with metadata := fd.metadata ++ [line] } := by
      simp [FileDiff.add, hline, hhunks]
    have hnext : (fd.add line).hunks = [] := by rw [hadd, hhunks]
    rw [List.foldl_cons, ih hnext fun l hl => h l (List.mem_cons_of_mem line hl), hadd]
    simp

theorem foldl_add_lines {hunks : List HunkText} {hunk : HunkText} (hhunks : fd.hunks = hunks ++ [hunk])
    (h : ∀ line ∈ lines, startsHunk line = false) :
    lines.foldl FileDiff.add fd = { fd with hunks := hunks ++ [{ hunk with lines := hunk.lines ++ lines }] } := by
  induction lines generalizing fd hunk with
  | nil => simp [← hhunks]
  | cons line lines ih =>
    have hline : (lit "@@").isPrefixOf line = false := h line List.mem_cons_self
    have hadd : fd.add line = { fd with hunks := hunks ++ [{ hunk with lines := hunk.lines ++ [line] }] } := by
      simp [FileDiff.add, hline, hhunks]
    have hnext : (fd.add line).hunks = hunks ++ [{ hunk with lines := hunk.lines ++ [line] }] := by rw [hadd]
    rw [List.foldl_cons, ih hnext fun l hl => h l (List.mem_cons_of_mem line hl), hadd]
    simp

theorem foldl_add_hunk {hunk : HunkText} (h : hunk.WellFormed) :
    hunk.all.foldl FileDiff.add fd = { fd with hunks := fd.hunks ++ [hunk] } := by
  have hheader : (lit "@@").isPrefixOf hunk.header = true := h.header.1
  have hadd : fd.add hunk.header = { fd with hunks := fd.hunks ++ [⟨hunk.header, []⟩] } := by
    simp [FileDiff.add, hheader]
  rw [HunkText.all, List.foldl_cons, foldl_add_lines (by rw [hadd]) fun line hline => (h.lines line hline).1, hadd]
  simp

theorem foldl_add_hunks {hunks : List HunkText} (h : ∀ hunk ∈ hunks, hunk.WellFormed) :
    (hunks.flatMap HunkText.all).foldl FileDiff.add fd = { fd with hunks := fd.hunks ++ hunks } := by
  induction hunks generalizing fd with
  | nil => simp
  | cons hunk hunks ih =>
    rw [List.flatMap_cons, List.foldl_append, foldl_add_hunk (h hunk List.mem_cons_self),
      ih fun other hother => h other (List.mem_cons_of_mem hunk hother)]
    simp

theorem HunkText.WellFormed.startsFile {hunk : HunkText} (h : hunk.WellFormed) :
    ∀ line ∈ hunk.all, action_bump.startsFile line = false := by
  intro line hline
  obtain rfl | hline := List.mem_cons.mp hline
  · exact h.header.2
  · exact (h.lines line hline).2

/-- The lines of one file are read after those of the files before it. -/
theorem foldl_readLine_file {current : Option FileDiff} (h : fd.WellFormed) :
    fd.lines.foldl readLine (done, current) = (done ++ current.toList, some fd) := by
  have hheader : (lit "diff --git ").isPrefixOf fd.header = true := h.header
  have hfirst : readLine (done, current) fd.header = (done ++ current.toList, some ⟨fd.header, [], []⟩) := by
    simp only [readLine, hheader, if_true]
  have hlines : ∀ line ∈ fd.metadata ++ fd.hunks.flatMap HunkText.all, startsFile line = false := by
    intro line hline
    obtain hline | hline := List.mem_append.mp hline
    · exact (h.metadata line hline).2
    · obtain ⟨hunk, hhunk, hline⟩ := List.mem_flatMap.mp hline
      exact (h.hunks hunk hhunk).startsFile line hline
  rw [FileDiff.lines, List.cons_append, List.foldl_cons, hfirst, foldl_readLine hlines, List.foldl_append,
    foldl_add_metadata rfl fun line hline => (h.metadata line hline).1, foldl_add_hunks h.hunks]
  simp

end

/-- The files of a diff are read back from its lines. -/
theorem readDiff_lines {files : List FileDiff} (h : ∀ fd ∈ files, fd.WellFormed) :
    readDiff (files.flatMap FileDiff.lines) = files := by
  have hfold : ∀ (done : List FileDiff) (current : Option FileDiff),
      ((files.flatMap FileDiff.lines).foldl readLine (done, current)).1 ++
        ((files.flatMap FileDiff.lines).foldl readLine (done, current)).2.toList = done ++ current.toList ++ files := by
    induction files with
    | nil => simp
    | cons fd files ih =>
      intro done current
      rw [List.flatMap_cons, List.foldl_append, foldl_readLine_file (h fd List.mem_cons_self),
        ih fun other hother => h other (List.mem_cons_of_mem fd hother)]
      simp
  exact hfold [] none

/-! ### Line breaks come only from the files -/

theorem mem_chomp {c : Nat} {line : Str} (h : c ∈ chomp line) : c ∈ line := by
  obtain hline | hline := chomp_cases line
  · rwa [hline] at h
  · rw [hline]
    exact List.mem_append_left _ h

theorem unbroken_of_forall {line : Str} (h : ∀ c ∈ line, (32 ≤ c ∧ c < 127) ∨ c = 9) : Unbroken line := by
  intro c hc
  have hplain := h c (mem_chomp hc)
  simp only [isBreak, Bool.or_eq_false_iff, Bool.and_eq_false_iff, decide_eq_false_iff_not, beq_eq_false_iff_ne]
  omega

theorem plain_append {w text : Str} (hw : Plain w) (h : Plain text) : Plain (w ++ text) := by
  intro c hc
  obtain hc | hc := List.mem_append.mp hc
  · exact hw c hc
  · exact h c hc

theorem plain_escape (c : Nat) : Plain (escape c) := by
  intro d hd
  unfold escape at hd
  split at hd
  · simp only [List.mem_cons, List.not_mem_nil, or_false] at hd
    omega
  split at hd
  · obtain rfl | hd := List.mem_cons.mp hd
    · decide
    · have hletters : Plain (lit "abtnvfr") := by decide
      exact hletters d (List.mem_of_getElem? (Option.mem_toList.mp hd))
  split at hd
  · next h =>
    obtain rfl := List.mem_singleton.mp hd
    exact h
  · obtain ⟨b, -, hd⟩ := List.mem_flatMap.mp hd
    have hb : b.toNat < 256 := b.toNat_lt
    simp only [List.mem_cons, List.not_mem_nil, or_false] at hd
    omega

theorem plain_quoteName {side : Str} (hside : Plain side) (path : Str) : Plain (quoteName side path) := by
  unfold quoteName
  split
  · next h => exact plain_append hside fun c hc => ⟨(h c hc).1, (h c hc).2.1⟩
  · have hpath : Plain (path.flatMap escape) := by
      intro d hd
      obtain ⟨c, -, hd⟩ := List.mem_flatMap.mp hd
      exact plain_escape c d hd
    have hquote : Plain [34] := by decide
    exact plain_append (plain_append (w := [34]) hquote (plain_append hside hpath)) hquote

/-! ### What git prints is such a diff -/

def hunkText (h : Hunk) : HunkText where
  header := chomp (lit "@@ -" ++ h.heading)
  lines := (h.removed.flatMap (Record.lines 45) ++ h.added.flatMap (Record.lines 43)).map chomp

/-- The diff of a change as the script reads it. -/
def fileText (c : Change) : FileDiff where
  header := chomp c.header
  metadata := c.metadata.map chomp
  hunks := c.hunks.map hunkText

theorem lines_fileText (c : Change) : (fileText c).lines = c.lines.map chomp := by
  have hhunks : (c.hunks.map hunkText).flatMap HunkText.all = (c.hunks.flatMap Hunk.lines).map chomp := by
    rw [List.flatMap_map, List.map_flatMap]
    apply List.flatMap_congr
    intro h _
    simp [HunkText.all, Hunk.lines, hunkText]
  simp only [FileDiff.lines, fileText, hhunks, Change.lines, List.map_append, List.map_cons]

theorem chomp_append {w rest : Str} (h : 13 ∉ w) : chomp (w ++ rest) = w ++ chomp rest := by
  induction w with
  | nil => rfl
  | cons c w ih =>
    rw [List.mem_cons, not_or] at h
    rw [List.cons_append, chomp_cons (Ne.symm h.1), ih h.2, List.cons_append]

theorem startsFile_header (c : Change) : startsFile (chomp c.header) = true := by
  rw [Change.header, List.append_assoc, chomp_append (by decide)]
  simp [startsFile]

/-- A line of a hunk starts neither a hunk nor a file. -/
theorem record_line {sign : Nat} (hsign : sign = 45 ∨ sign = 43) {r : Record} {line : Str}
    (h : line ∈ r.lines sign) :
    startsHunk (chomp line) = false ∧ startsFile (chomp line) = false := by
  have hcr : sign ≠ 13 := by omega
  obtain rfl | hline := List.mem_cons.mp h
  · rw [chomp_cons hcr]
    obtain rfl | rfl := hsign <;> exact ⟨rfl, rfl⟩
  · have hmarker : line = lit "\\ No newline at end of file" := by
      split at hline
      · cases hline
      · exact List.mem_singleton.mp hline
    rw [hmarker]
    decide

/-- The words that lines before the first hunk start with. -/
def openings : List Str :=
  ["old mode ", "new mode ", "new file mode ", "deleted file mode ", "similarity index ", "rename from ", "rename to ",
    "index ", "--- ", "+++ "].map lit

theorem plain_modeText (mode : Mode) : Plain mode.text := by
  cases mode <;> decide

/-- A character of a line before the first hunk. -/
def Printed (s : Str) : Prop := ∀ c ∈ s, (32 ≤ c ∧ c < 127) ∨ c = 9

theorem printed_of_plain {s : Str} (h : Plain s) : Printed s := fun c hc => .inl (h c hc)

/-- A line before the first hunk starts with one of the words, and what follows holds no line break. -/
theorem exists_opening {base head : Tree} {c : Change} (hc : c.Correct base head) {line : Str}
    (h : line ∈ c.metadata) : ∃ w ∈ openings, ∃ rest, line = w ++ rest ∧ Printed rest := by
  have hmodes : line ∈ c.modeLines → ∃ w ∈ openings, ∃ rest, line = w ++ rest ∧ Printed rest := by
    intro hline
    unfold Change.modeLines at hline
    split at hline
    · cases hline
    · obtain rfl | rfl := by simpa using hline
      · exact ⟨lit "old mode ", by decide, _, rfl, printed_of_plain (plain_modeText _)⟩
      · exact ⟨lit "new mode ", by decide, _, rfl, printed_of_plain (plain_modeText _)⟩
  have hname : ∀ side path : Str, Plain side → Printed (quoteName side path ++ if 32 ∈ path then [9] else []) := by
    intro side path hside d hd
    obtain hd | hd := List.mem_append.mp hd
    · exact .inl (plain_quoteName hside path d hd)
    · split at hd
      · exact .inr (List.mem_singleton.mp hd)
      · cases hd
  obtain hline | hline := List.mem_append.mp h
  · obtain hline | hline := List.mem_append.mp hline
    · have hnil : Plain [] := by decide
      unfold Change.kindLines at hline
      split at hline
      · exact hmodes hline
      · obtain rfl := List.mem_singleton.mp hline
        exact ⟨lit "new file mode ", by decide, _, rfl, printed_of_plain (plain_modeText _)⟩
      · obtain rfl := List.mem_singleton.mp hline
        exact ⟨lit "deleted file mode ", by decide, _, rfl, printed_of_plain (plain_modeText _)⟩
      · next source similarity hkind =>
        obtain hline | hline := List.mem_append.mp hline
        · exact hmodes hline
        · obtain rfl | rfl | rfl := by simpa using hline
          · exact ⟨lit "similarity index ", by decide, _, rfl, printed_of_plain (hc.similarity _ _ hkind)⟩
          · exact ⟨lit "rename from ", by decide, _, rfl, printed_of_plain (plain_quoteName hnil _)⟩
          · exact ⟨lit "rename to ", by decide, _, rfl, printed_of_plain (plain_quoteName hnil _)⟩
    · obtain ⟨text, htext, rfl⟩ := by simpa using hline
      exact ⟨lit "index ", by decide, text, rfl, printed_of_plain (hc.index text htext)⟩
  · unfold Change.nameLines at hline
    split at hline
    · cases hline
    · obtain rfl | hline := List.mem_cons.mp hline
      · by_cases hadded : c.kind = .added
        · rw [if_pos hadded]
          exact ⟨lit "--- ", by decide, lit "/dev/null", rfl, printed_of_plain (by decide)⟩
        · rw [if_neg hadded]
          exact ⟨lit "--- ", by decide, _, List.append_assoc _ _ _, hname (lit "a/") _ (by decide)⟩
      · obtain rfl := List.mem_singleton.mp hline
        by_cases hdeleted : c.kind = .deleted
        · rw [if_pos hdeleted]
          exact ⟨lit "+++ ", by decide, lit "/dev/null", rfl, printed_of_plain (by decide)⟩
        · rw [if_neg hdeleted]
          exact ⟨lit "+++ ", by decide, _, List.append_assoc _ _ _, hname (lit "b/") _ (by decide)⟩

theorem metadata_line {base head : Tree} {c : Change} (hc : c.Correct base head) {line : Str}
    (h : line ∈ c.metadata) :
    startsHunk (chomp line) = false ∧ startsFile (chomp line) = false := by
  obtain ⟨w, hw, rest, rfl, -⟩ := exists_opening hc h
  have hcr : ∀ w ∈ openings, 13 ∉ w := by decide
  rw [chomp_append (hcr w hw)]
  simp only [openings, List.map_cons, List.map_nil, List.mem_cons, List.not_mem_nil, or_false] at hw
  obtain rfl | rfl | rfl | rfl | rfl | rfl | rfl | rfl | rfl | rfl := hw <;> exact ⟨rfl, rfl⟩

/-- The lines of a change hold no line break where its file names none. -/
theorem unbroken_lines {base head : Tree} {c : Change} (hc : c.Correct base head)
    (hheadings : ∀ h ∈ c.hunks, Unbroken h.heading)
    (htexts : ∀ h ∈ c.hunks, ∀ r ∈ h.removed ++ h.added, Unbroken r.text) :
    ∀ line ∈ c.lines, Unbroken line := by
  intro line hline
  obtain hline | hline := List.mem_append.mp hline
  · obtain rfl | hline := List.mem_cons.mp hline
    · apply unbroken_of_forall
      apply printed_of_plain
      have hfile : Plain (lit "diff --git " ++ quoteName (lit "a/") c.source) :=
        plain_append (by decide) (plain_quoteName (by decide) _)
      exact plain_append hfile (plain_append (w := [32]) (by decide) (plain_quoteName (by decide) _))
    · obtain ⟨w, hw, rest, rfl, hrest⟩ := exists_opening hc hline
      have hplain : ∀ w ∈ openings, Plain w := by decide
      apply unbroken_of_forall
      intro d hd
      obtain hd | hd := List.mem_append.mp hd
      · exact .inl (hplain w hw d hd)
      · exact hrest d hd
  · obtain ⟨h, hh, hline⟩ := List.mem_flatMap.mp hline
    have hrecord : ∀ {sign : Nat} {r : Record}, (sign = 45 ∨ sign = 43) → r ∈ h.removed ++ h.added →
        line ∈ r.lines sign → Unbroken line := by
      intro sign r hsign hr hline
      obtain rfl | hline := List.mem_cons.mp hline
      · intro d hd
        rw [chomp_cons (by omega)] at hd
        obtain rfl | hd := List.mem_cons.mp hd
        · obtain rfl | rfl := hsign <;> rfl
        · exact htexts h hh r hr d hd
      · split at hline
        · cases hline
        · obtain rfl := List.mem_singleton.mp hline
          decide
    obtain hline | hline := List.mem_append.mp hline
    · obtain rfl | hline := List.mem_cons.mp hline
      · intro d hd
        rw [chomp_append (by decide)] at hd
        obtain hd | hd := List.mem_append.mp hd
        · have hopening : ∀ e ∈ lit "@@ -", isBreak e = false := by decide
          exact hopening d hd
        · exact hheadings h hh d hd
      · obtain ⟨r, hr, hline⟩ := List.mem_flatMap.mp hline
        exact hrecord (.inl rfl) (List.mem_append_left _ hr) hline
    · obtain ⟨r, hr, hline⟩ := List.mem_flatMap.mp hline
      exact hrecord (.inr rfl) (List.mem_append_right _ hr) hline

theorem wellFormed_fileText {base head : Tree} {c : Change} (hc : c.Correct base head) :
    (fileText c).WellFormed where
  header := startsFile_header c
  metadata := by
    intro line hline
    obtain ⟨printed, hprinted, rfl⟩ := List.mem_map.mp hline
    exact metadata_line hc hprinted
  hunks := by
    intro hunk hhunk
    obtain ⟨h, -, rfl⟩ := List.mem_map.mp hhunk
    refine ⟨?_, ?_⟩
    · rw [hunkText, chomp_append (by decide)]
      exact ⟨rfl, rfl⟩
    · intro line hline
      obtain ⟨printed, hprinted, rfl⟩ := List.mem_map.mp hline
      obtain hprinted | hprinted := List.mem_append.mp hprinted
      · obtain ⟨r, -, hr⟩ := List.mem_flatMap.mp hprinted
        exact record_line (.inl rfl) hr
      · obtain ⟨r, -, hr⟩ := List.mem_flatMap.mp hprinted
        exact record_line (.inr rfl) hr

/-- A diff whose lines hold no other line break is read as its changes. -/
theorem readDiff_diffU0 {base head : Tree} {changes : List Change} (hchanges : ∀ c ∈ changes, c.Correct base head)
    (h : ∀ c ∈ changes, ∀ line ∈ c.lines, Unbroken line) :
    readDiff (splitLines (universalNewlines (diffU0 changes))) = changes.map fileText := by
  have hlines : ∀ line ∈ changes.flatMap Change.lines, Unbroken line := by
    intro line hline
    obtain ⟨c, hc, hline⟩ := List.mem_flatMap.mp hline
    exact h c hc line hline
  have hfiles : (changes.map fileText).flatMap FileDiff.lines = (changes.flatMap Change.lines).map chomp := by
    rw [List.flatMap_map, List.map_flatMap]
    exact List.flatMap_congr fun c _ => lines_fileText c
  rw [diffU0, splitLines_universalNewlines hlines, ← hfiles, readDiff_lines]
  intro fd hfd
  obtain ⟨c, hc, rfl⟩ := List.mem_map.mp hfd
  exact wellFormed_fileText (hchanges c hc)

end narwhal.action_bump
