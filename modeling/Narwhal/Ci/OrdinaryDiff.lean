import Narwhal.Ci.ChangedLines

open pylib narwhal.raw_diff
open narwhal.action_bump (word_eq_some_iff isAlnum)

namespace narwhal.markdownlint_changed

/-! ### Diffs in which nothing is misread -/

/-- The line starts like the name of a file or like the header of a hunk. -/
def LooksPrinted (piece : Str) : Prop := (lit "+++ b/").isPrefixOf piece = true ∨ (lit "@@ -").isPrefixOf piece = true

instance (piece : Str) : Decidable (LooksPrinted piece) :=
  inferInstanceAs (Decidable ((lit "+++ b/").isPrefixOf piece = true ∨ (lit "@@ -").isPrefixOf piece = true))

/-- Pieces of a printed line that come from a document. -/
def foreignPieces (line : DiffLine) (text : Str) : List Str :=
  match line with
  | .added _ => pieces text
  | _ => (pieces text).tail

structure Ordinary (changes : List Change) : Prop where
  decodes : ∀ c ∈ changes, ∀ line ∈ c.lines, (utf8Decode line.text).isSome = true
  /-- the name of a file that gets lines is printed as it is -/
  names : ∀ c ∈ changes, (∃ n, c.Adds n) → Unquoted c.path ∧ 32 ∉ c.path ∧ c.kind ≠ .deleted
  /-- no document has a line that looks printed, at its start or after a line break in it -/
  texts : ∀ c ∈ changes, ∀ line ∈ c.lines, ∀ text ∈ utf8Decode line.text, ∀ piece ∈ foreignPieces line text, ¬ LooksPrinted piece

section

variable {changes : List Change} {rs : List Raw} {c : Change} {line : DiffLine}

theorem nameAbove_append (a b : List Str) : nameAbove (a ++ b) = (nameAbove b).or (nameAbove a) := by
  unfold nameAbove
  rw [List.filterMap_append, List.getLast?_append]

theorem nameAbove_eq_none {lines : List Str} (h : ∀ line ∈ lines, (lit "+++ b/").isPrefixOf line = false) :
    nameAbove lines = none := by
  have hnil : lines.filterMap (action_bump.word (lit "+++ b/")) = [] := by
    refine List.filterMap_eq_nil_iff.mpr fun line hline => ?_
    rw [action_bump.word, h line hline]
    rfl
  rw [nameAbove, hnil]
  rfl

/-- A place in joined lists is a place in one of them. -/
theorem exists_of_flatten_eq {α : Type} {lists : List (List α)} {above below : List α} {x : α}
    (h : lists.flatten = above ++ x :: below) :
    ∃ before a b after, lists = before ++ (a ++ x :: b) :: after ∧ above = before.flatten ++ a := by
  induction lists generalizing above with
  | nil => simp at h
  | cons list lists ih =>
    rw [List.flatten_cons] at h
    obtain ⟨rest, rfl, hrest⟩ | ⟨rest, rfl, hrest⟩ := List.append_eq_append_iff.mp h
    · obtain ⟨before, a, b, after, rfl, rfl⟩ := ih hrest
      exact ⟨list :: before, a, b, after, rfl, by simp⟩
    · cases rest with
      | nil =>
        have hlists : lists.flatten = [] ++ x :: below := hrest.symm
        obtain ⟨before, a, b, after, rfl, hnil⟩ := ih hlists
        exact ⟨above :: before, a, b, after, by simp, by simp [← hnil]⟩
      | cons y rest =>
        cases hrest
        exact ⟨[], above, rest, lists, rfl, rfl⟩

/-- A name that is printed as it is, is the one that Python has. -/
theorem asciiBytes_fsdecode {path : Bytes} (h : Unquoted path) :
    asciiBytes (fsdecode path) = path ∧ ∀ d ∈ fsdecode path, 32 ≤ d ∧ d < 127 := by
  unfold fsdecode
  induction path with
  | nil => exact ⟨rfl, by simp [fsdecodeFuel]⟩
  | cons b path ih =>
    obtain ⟨hge, hlt, -⟩ := h b List.mem_cons_self
    have hge' : 32 ≤ b.toNat := UInt8.le_iff_toNat_le.mp hge
    have hlt' : b.toNat < 127 := UInt8.lt_iff_toNat_lt.mp hlt
    have hpoint : utf8DecodePoint (b :: path) = some (b.toNat, path) := by
      simp only [utf8DecodePoint]
      rw [if_pos (by omega)]
    obtain ⟨hbytes, hplain⟩ := ih fun d hd => h d (List.mem_cons_of_mem b hd)
    simp only [List.length_cons, fsdecodeFuel, hpoint]
    refine ⟨?_, fun d hd => ?_⟩
    · rw [asciiBytes, List.map_cons, ← asciiBytes, hbytes, UInt8.ofNat_toNat]
    · obtain rfl | hd := List.mem_cons.mp hd
      · exact ⟨hge', hlt'⟩
      · exact hplain d hd

/-- The line with the name of such a file is read as its name. -/
theorem rawLines_newName (h : Unquoted c.path ∧ 32 ∉ c.path) :
    rawLines c (.newName (some c.path)) = some [⟨lit "+++ b/" ++ c.name, none⟩] := by
  obtain ⟨hbytes, hplain⟩ := asciiBytes_fsdecode h.1
  have hwords : ∀ d ∈ lit "+++ b/", 32 ≤ d ∧ d < 127 := by decide
  have hall : ∀ d ∈ lit "+++ b/" ++ c.name, 32 ≤ d ∧ d < 127 := by
    intro d hd
    obtain hd | hd := List.mem_append.mp hd
    · exact hwords d hd
    · exact hplain d hd
  have htext : (DiffLine.newName (some c.path)).text = asciiBytes (lit "+++ b/" ++ c.name) := by
    simp only [DiffLine.text, Option.elim_some, nameLine, quoteName, if_pos h.1, if_neg h.2, List.append_nil]
    rw [asciiBytes, List.map_append, ← asciiBytes, ← asciiBytes, Change.name, hbytes]
    rfl
  have hunbroken : ∀ d ∈ lit "+++ b/" ++ c.name, isBreak d = false := by
    intro d hd
    have := hall d hd
    simp only [isBreak, Bool.or_eq_false_iff, Bool.and_eq_false_iff, decide_eq_false_iff_not, beq_eq_false_iff_ne]
    omega
  rw [rawLines, htext, utf8Decode_ascii fun d hd => by have := hall d hd; omega, Option.map_some, pieces_eq_singleton hunbroken]
  rfl

/-- What a printed line starts with. -/
def opening : DiffLine → Str
  | .git _ _ => lit "diff --git "
  | .oldMode _ => lit "old mode "
  | .newMode _ => lit "new mode "
  | .newFile _ => lit "new file mode "
  | .deletedFile _ => lit "deleted file mode "
  | .similarity _ => lit "similarity index "
  | .renameFrom _ => lit "rename from "
  | .renameTo _ => lit "rename to "
  | .index _ => lit "index "
  | .oldName _ => lit "--- "
  | .newName _ => lit "+++ "
  | .hunk .. => lit "@@ -"
  | .removed _ => lit "-"
  | .added _ => lit "+"
  | .noNewline => lit "\\ No newline"

theorem exists_opening (line : DiffLine) : ∃ tail, line.text = asciiBytes (opening line) ++ tail := by
  have hlit : ∀ word, asciiBytes (lit word) = blit word := fun word => by simp [asciiBytes, lit, blit]
  cases line with
  | git | similarity =>
    rw [opening, hlit]
    exact ⟨_, List.append_assoc _ _ _⟩
  | hunk oldLine oldCount newLine newCount heading =>
    refine ⟨asciiBytes (rangeText oldLine oldCount ++ lit " +" ++ rangeText newLine newCount ++ lit " @@") ++
      if heading = [] then [] else 32 :: heading, ?_⟩
    simp [DiffLine.text, opening, asciiBytes]
  | removed text => exact ⟨text, rfl⟩
  | added text => exact ⟨text, rfl⟩
  | noNewline => exact ⟨blit " at end of file", rfl⟩
  | _ =>
    rw [opening, hlit]
    exact ⟨_, rfl⟩

/-- Of the lines that git prints, those with names and headers of hunks look like it. -/
theorem not_looksPrinted_opening (rest : Str) (hname : ∀ path, line ≠ .newName path) (hadded : ∀ text, line ≠ .added text) :
    (lit "+++ b/").isPrefixOf (opening line ++ rest) = false ∧
      ((∀ oldLine oldCount newLine newCount heading, line ≠ .hunk oldLine oldCount newLine newCount heading) →
        (lit "@@ -").isPrefixOf (opening line ++ rest) = false) := by
  cases line with
  | newName path => exact absurd rfl (hname path)
  | added text => exact absurd rfl (hadded text)
  | hunk => exact ⟨rfl, fun h => absurd rfl (h _ _ _ _ _)⟩
  | _ => exact ⟨rfl, fun _ => rfl⟩

/-- The pieces of a printed line: the first one, and what a line break in a document leaves over. -/
theorem cases_of_mem_rawLines (htexts : ∀ text, utf8Decode line.text = some text →
    ∀ piece ∈ foreignPieces line text, ¬ LooksPrinted piece) {found : List Raw} (h : rawLines c line = some found)
    {raw : Raw} (hraw : raw ∈ found) :
    ¬ LooksPrinted raw.text ∨
      raw.hunk = (newRange line).map (c.name, ·) ∧ (∀ text, line ≠ .added text) ∧ ∃ rest, raw.text = opening line ++ rest := by
  obtain ⟨tail, htail⟩ := exists_opening line
  have hplain : ∀ d ∈ opening line, 32 ≤ d ∧ d < 127 := by
    cases line <;> (rw [opening]; decide)
  obtain ⟨rest, more, hfound⟩ := exists_first hplain htail h
  obtain ⟨text, htext, hpieces⟩ := Option.map_eq_some_iff.mp h
  have hall : found.map Raw.text = pieces text := by
    have := map_text_rawLines c line
    rw [h, htext, Option.map_some, Option.map_some] at this
    exact Option.some.inj this
  by_cases hadded : ∃ added, line = .added added
  · obtain ⟨added, rfl⟩ := hadded
    left
    apply htexts text htext
    rw [foreignPieces, ← hall]
    exact List.mem_map_of_mem hraw
  · have hforeign : foreignPieces line text = (pieces text).tail := by
      cases line with
      | added added => exact absurd ⟨added, rfl⟩ hadded
      | _ => rfl
    rw [hfound] at hraw hall
    obtain rfl | hmore := List.mem_cons.mp hraw
    · exact .inr ⟨rfl, fun added hline => hadded ⟨added, hline⟩, rest, rfl⟩
    · left
      apply htexts text htext
      rw [hforeign, ← hall]
      exact List.mem_map_of_mem hmore

theorem looksPrinted_of_takes {decimal : Nat → Option Nat} {text : Str} {n : Nat} (h : Takes decimal text n) :
    (lit "@@ -").isPrefixOf text = true := by
  obtain ⟨start, count, hrange, -⟩ := h
  unfold hunkRange at hrange
  cases hword : action_bump.word (lit "@@ -") text with
  | none =>
    rw [hword] at hrange
    cases hrange
  | some rest => exact isPrefixOf_of_word hword

/-- The lines of a change up to one of its hunk headers: the name of the file stands there, and only hunks after it. -/
theorem exists_newName {pre post : List DiffLine} (hlines : c.lines = pre ++ line :: post) (hline : newRange line ≠ none)
    (hkind : c.kind ≠ .deleted) :
    ∃ before between, pre = before ++ .newName (some c.path) :: between ∧ ∀ l ∈ between, l ∈ hunkLines 0 0 c.hunks := by
  have hhead : line ∉ DiffLine.git c.source c.path :: c.kindLines ++ (c.index.map DiffLine.index).toList ++ c.nameLines :=
    fun hmem => hline (newRange_head hmem)
  rw [Change.lines] at hlines
  have hsplit : ∃ between, pre = (DiffLine.git c.source c.path :: c.kindLines ++ (c.index.map DiffLine.index).toList ++
      c.nameLines) ++ between ∧ hunkLines 0 0 c.hunks = between ++ line :: post := by
    obtain ⟨between, hpre, hhunks⟩ | ⟨rest, hpre, hrest⟩ := List.append_eq_append_iff.mp hlines
    · exact ⟨between, hpre, hhunks⟩
    · cases rest with
      | nil => exact ⟨[], by simpa using hpre.symm, hrest.symm⟩
      | cons l rest =>
        cases hrest
        exact absurd (hpre ▸ List.mem_append_right _ List.mem_cons_self) hhead
  obtain ⟨between, rfl, hhunks⟩ := hsplit
  have hne : c.hunks.isEmpty = false := by
    cases hempty : c.hunks with
    | nil =>
      rw [hempty, hunkLines] at hhunks
      simp at hhunks
    | cons h hunks => rfl
  have hnames : c.nameLines = [.oldName (if c.kind = .added then none else some c.source), .newName (some c.path)] := by
    simp [Change.nameLines, hne, hkind]
  refine ⟨DiffLine.git c.source c.path :: c.kindLines ++ (c.index.map DiffLine.index).toList ++
    [.oldName (if c.kind = .added then none else some c.source)], between, ?_, fun l hl => hhunks ▸ List.mem_append_left _ hl⟩
  rw [hnames]
  simp

theorem newName_not_mem_hunkLines {hunks : List Hunk} {oldLine newLine : Nat} {path : Option Bytes} :
    .newName path ∉ hunkLines oldLine newLine hunks := by
  induction hunks generalizing oldLine newLine with
  | nil => simp [hunkLines]
  | cons h hunks ih =>
    have hrecord : ∀ (sign : Bytes → DiffLine) {l : Line}, (∀ text, .newName path ≠ sign text) → .newName path ∉ l.lines sign := by
      intro sign l hsign hmem
      obtain heq | hmem := List.mem_cons.mp hmem
      · exact hsign _ heq
      · split at hmem
        · cases hmem
        · cases List.mem_singleton.mp hmem
    intro hmem
    obtain hmem | hmem := List.mem_append.mp hmem
    · obtain heq | hmem := List.mem_cons.mp hmem
      · cases heq
      · obtain hmem | hmem := List.mem_append.mp hmem <;> obtain ⟨l, -, hl⟩ := List.mem_flatMap.mp hmem
        · exact hrecord .removed (by rintro text ⟨⟩) hl
        · exact hrecord .added (by rintro text ⟨⟩) hl
    · exact ih hmem

/-- In an ordinary diff every header with lines stands under the name of its file. -/
theorem nameAbove_of_ordinary (h : Ordinary changes) (hraws : raws changes = some rs) {above below : List Raw} {raw : Raw}
    {name : Str} {start count : Nat} (hrs : rs = above ++ raw :: below) (hhunk : raw.hunk = some (name, start, count))
    (hcount : 0 < count) : nameAbove (above.map Raw.text) = some name := by
  obtain ⟨rss, hrss, rfl⟩ := Option.map_eq_some_iff.mp hraws
  obtain ⟨before, a, b, after, rfl, rfl⟩ := exists_of_flatten_eq hrs
  have hmap := mapM_eq_some_iff.mp hrss
  rw [List.map_append, List.map_cons] at hmap
  obtain ⟨ps, rest, hps, hbefore, hrest⟩ := List.map_eq_append_iff.mp hmap
  obtain ⟨⟨c, line⟩, ps', rfl, hfound, -⟩ := List.map_eq_cons_iff.mp hrest
  -- the header is the first piece of its line
  obtain ⟨text, -, hpieces⟩ := Option.map_eq_some_iff.mp hfound
  have hfirst : a = [] ∧ raw.hunk = (newRange line).map (c.name, ·) := by
    split at hpieces
    · simp at hpieces
    · cases a with
      | nil =>
        cases hpieces
        exact ⟨rfl, rfl⟩
      | cons x a =>
        have hmem : raw ∈ a ++ raw :: b := List.mem_append_cons_self
        rw [List.cons_append, List.cons.injEq] at hpieces
        rw [← hpieces.2] at hmem
        obtain ⟨piece, -, rfl⟩ := List.mem_map.mp hmem
        cases hhunk
  obtain ⟨rfl, hown⟩ := hfirst
  rw [hown] at hhunk
  obtain ⟨range, hrange, heq⟩ := Option.map_eq_some_iff.mp hhunk
  cases heq
  -- and its line one of the lines of a change
  rw [printed, List.flatMap_def] at hps
  obtain ⟨lists, pre, post, lists', hlists, rfl⟩ := exists_of_flatten_eq hps
  obtain ⟨cs, rest', rfl, hcs, hrest'⟩ := List.map_eq_append_iff.mp hlists
  obtain ⟨d, cs', rfl, hd, -⟩ := List.map_eq_cons_iff.mp hrest'
  obtain ⟨pre', tail, hlines, hpre, htail⟩ := List.map_eq_append_iff.mp hd
  obtain ⟨line', post', rfl, heq, -⟩ := List.map_eq_cons_iff.mp htail
  cases heq
  have hd : c ∈ cs ++ c :: cs' := List.mem_append_cons_self
  have hadds : ∃ n, c.Adds n :=
    ⟨start, adds_iff.mpr ⟨line, hlines ▸ List.mem_append_cons_self, start, count, hrange, le_rfl, by omega⟩⟩
  obtain ⟨hquoted, hblank, hkind⟩ := h.names c hd hadds
  obtain ⟨first, between, rfl, hbetween⟩ := exists_newName hlines (by rw [hrange]; simp) hkind
  have hread : before.map some = ((lists.flatten ++ first.map (c, ·)).map fun p => rawLines p.1 p.2) ++
      rawLines c (.newName (some c.path)) :: between.map (rawLines c) := by
    rw [← hbefore, ← hpre]
    simp [Function.comp_def]
  obtain ⟨earlier, rest, rfl, -, hrest⟩ := List.map_eq_append_iff.mp hread
  obtain ⟨named, later, rfl, hnamed, hlater⟩ := List.map_eq_cons_iff.mp hrest
  rw [rawLines_newName ⟨hquoted, hblank⟩, Option.some.injEq] at hnamed
  have hnone : nameAbove (later.flatten.map Raw.text) = none := by
    refine nameAbove_eq_none fun text htext => ?_
    obtain ⟨raw', hraw', rfl⟩ := List.mem_map.mp htext
    obtain ⟨found, hmem, hraw'⟩ := List.mem_flatten.mp hraw'
    have hsome : some found ∈ between.map (rawLines c) := hlater ▸ List.mem_map_of_mem hmem
    obtain ⟨l, hl, hfound'⟩ := List.mem_map.mp hsome
    have hlines' : l ∈ c.lines := List.mem_append_right _ (hbetween l hl)
    obtain hnot | ⟨-, hadded, tail', heq⟩ := cases_of_mem_rawLines (h.texts c hd l hlines') hfound' hraw'
    · exact Bool.eq_false_iff.mpr fun hpre => hnot (.inl hpre)
    · rw [heq]
      exact (not_looksPrinted_opening tail' (fun path heq => newName_not_mem_hunkLines (heq ▸ hbetween l hl)) hadded).1
  have hname : action_bump.word (lit "+++ b/") (lit "+++ b/" ++ c.name) = some c.name := word_eq_some_iff.mpr rfl
  rw [List.append_nil, List.flatten_append, List.flatten_cons, hnamed, List.map_append, List.map_append, nameAbove_append,
    nameAbove_append, hnone, Option.none_or]
  simp [nameAbove, hname]

/-- In an ordinary diff only the headers of hunks look like some. -/
theorem hunk_of_ordinary (h : Ordinary changes) (hraws : raws changes = some rs) {raw : Raw} (hraw : raw ∈ rs)
    (hlooks : (lit "@@ -").isPrefixOf raw.text = true) : ∃ name start count, raw.hunk = some (name, start, count) := by
  obtain ⟨⟨c, line⟩, hp, found, hfound, hmem⟩ := (mem_raws hraws).mp hraw
  obtain ⟨hc, hline⟩ := mem_printed.mp hp
  obtain hnot | ⟨hown, hadded, rest, heq⟩ := cases_of_mem_rawLines (h.texts c hc line hline) hfound hmem
  · exact absurd (.inr hlooks) hnot
  · by_cases hhunk : ∃ oldLine oldCount newLine newCount heading, line = .hunk oldLine oldCount newLine newCount heading
    · obtain ⟨oldLine, oldCount, newLine, newCount, heading, rfl⟩ := hhunk
      exact ⟨_, _, _, hown⟩
    by_cases hname : ∃ path, line = .newName path
    · obtain ⟨path, rfl⟩ := hname
      rw [heq] at hlooks
      cases hlooks
    · have hfalse := (not_looksPrinted_opening rest (fun path hline => hname ⟨path, hline⟩) hadded).2
        fun _ _ _ _ _ hline => hhunk ⟨_, _, _, _, _, hline⟩
      rw [heq, hfalse] at hlooks
      cases hlooks

theorem harmless_of_ordinary {decimal : Nat → Option Nat}
    (hdecimal : ∀ c < 128, decimal c = if isDigit c then some (c - 48) else none) (h : Ordinary changes) :
    ∃ rs, raws changes = some rs ∧ Harmless decimal changes rs := by
  have hsome : ∀ p ∈ printed changes, ∃ found, rawLines p.1 p.2 = some found := by
    rintro ⟨c, line⟩ hp
    obtain ⟨hc, hline⟩ := mem_printed.mp hp
    obtain ⟨text, htext⟩ := Option.isSome_iff_exists.mp (h.decodes c hc line hline)
    exact ⟨_, by rw [rawLines, htext, Option.map_some]⟩
  obtain ⟨rss, hrss⟩ := exists_mapM hsome
  have hraws : raws changes = some rss.flatten := by rw [raws, hrss, Option.map_some]
  refine ⟨rss.flatten, hraws, ?_, ?_⟩
  · intro above raw below name start count hrs hhunk hcount
    exact .inl (nameAbove_of_ordinary h hraws hrs hhunk hcount)
  · intro above raw below path n hrs hname _ hother htakes
    have hmem : raw ∈ rss.flatten := hrs ▸ List.mem_append_cons_self
    obtain ⟨name, start, count, hhunk⟩ := hunk_of_ordinary h hraws hmem (looksPrinted_of_takes htakes)
    obtain ⟨start', count', hread, hle, hlt⟩ := htakes
    rw [(hunkRange_of_mem hdecimal hraws hmem hhunk).1] at hread
    cases hread
    have hown := nameAbove_of_ordinary h hraws hrs hhunk (by omega)
    rw [hname] at hown
    cases hown
    exact absurd hhunk (hother start count)

end

/-! ### The gate -/

section

variable {decimal : Nat → Option Nat} {isWord : Nat → Bool}

theorem main_eq {base : Bytes} {portal : Option Bytes} {tracked : Str} {lint : Lint} {changed : Ranges}
    (h : changed_line_ranges decimal base portal = some changed) (hactive : active_markdown_files tracked ≠ [])
    (hcode : lint.returncode = 0 ∨ lint.returncode = 1) :
    ∃ report, main decimal isWord base portal tracked lint = some report ∧
      report.violations = (splitLines (lint.stdout ++ lint.stderr)).filter (isViolation decimal isWord changed) := by
  have hrun : ¬ (lint.returncode ≠ 0 ∧ lint.returncode ≠ 1) := by omega
  unfold main
  rw [h]
  simp only [Option.bind_eq_bind, Option.bind_some, hactive, hrun, if_false]
  exact ⟨_, rfl, rfl⟩

/-- Where both diffs are read exactly, the merged ranges are exact. -/
theorem exact_changed_line_ranges {base : List Change} {portal : Option (List Change)}
    (hnames : ∀ changes ∈ portal, (∀ c ∈ base, ¬ InPortal c) ∧ ∀ c ∈ changes, InPortal c)
    (h : ∀ changes ∈ base :: portal.toList, ∃ changed, diff_ranges decimal (diffU0 changes) = some changed ∧ Exact changes changed) :
    ∃ changed, changed_line_ranges decimal (diffU0 base) (portal.map diffU0) = some changed ∧
      Exact (base ++ portal.toList.flatten) changed := by
  obtain ⟨changed, hchanged, hexact⟩ := h base List.mem_cons_self
  cases portal with
  | none => exact ⟨changed, hchanged, by simpa using hexact⟩
  | some changes =>
    obtain ⟨later, hlater, hexact'⟩ := h changes (List.mem_cons_of_mem _ List.mem_cons_self)
    have hscan := hlater
    rw [diff_ranges_eq] at hscan
    obtain ⟨rs, -, hrs⟩ := Option.map_eq_some_iff.mp hscan
    refine ⟨update changed later, ?_, ?_⟩
    · simp only [changed_line_ranges, Option.map_some, hchanged, hlater, Option.bind_eq_bind, Option.bind_some]
    · simpa using exact_update hexact hexact' hrs.symm (hnames changes rfl)

/-- Both diffs are read exactly, and the gate reports the findings on added or modified lines and no others, if and only
    if in both diffs the lines that read as file names and as headers of hunks do no harm. -/
theorem reports_changed_lines_iff (decimal : Nat → Option Nat) (isWord : Nat → Bool)
    (hdecimal : ∀ c < 128, decimal c = if isDigit c then some (c - 48) else none) (base : List Change)
    (portal : Option (List Change)) (hnames : ∀ changes ∈ portal, (∀ c ∈ base, ¬ InPortal c) ∧ ∀ c ∈ changes, InPortal c) :
    ((∀ changes ∈ base :: portal.toList, ∃ changed, diff_ranges decimal (diffU0 changes) = some changed ∧ Exact changes changed) ∧
      ∀ tracked lint, active_markdown_files tracked ≠ [] → lint.returncode = 0 ∨ lint.returncode = 1 →
        ∃ report, main decimal isWord (diffU0 base) (portal.map diffU0) tracked lint = some report ∧
          ∀ raw, raw ∈ report.violations ↔ raw ∈ splitLines (lint.stdout ++ lint.stderr) ∧
            ∃ path line, lintMatch decimal isWord raw = some (path, line) ∧
              ∃ c ∈ base ++ portal.toList.flatten, c.name = removeHead (lit "./") path ∧ c.Adds line) ↔
    ∀ changes ∈ base :: portal.toList, ∃ rs, raws changes = some rs ∧ Harmless decimal changes rs := by
  have hdiff : ∀ changes, (∃ changed, diff_ranges decimal (diffU0 changes) = some changed ∧ Exact changes changed) ↔
      ∃ rs, raws changes = some rs ∧ Harmless decimal changes rs := by
    intro changes
    rw [diff_ranges_eq]
    constructor
    · rintro ⟨changed, hchanged, hexact⟩
      obtain ⟨rs, hrs, rfl⟩ := Option.map_eq_some_iff.mp hchanged
      exact ⟨rs, hrs, (exact_iff hdecimal hrs).mp hexact⟩
    · rintro ⟨rs, hrs, hharmless⟩
      exact ⟨_, by rw [hrs, Option.map_some], (exact_iff hdecimal hrs).mpr hharmless⟩
  simp only [hdiff]
  refine and_iff_left_of_imp fun hharmless tracked lint hactive hcode => ?_
  obtain ⟨changed, hchanged, hexact⟩ := exact_changed_line_ranges hnames fun changes hmem => (hdiff changes).mpr (hharmless changes hmem)
  obtain ⟨report, hreport, hviolations⟩ := main_eq hchanged hactive hcode
  refine ⟨report, hreport, fun raw => ?_⟩
  rw [hviolations, List.mem_filter, mem_violations_iff hexact]

def asciiDecimal (c : Nat) : Option Nat := if isDigit c then some (c - 48) else none

def isAsciiWord (c : Nat) : Bool := isAlnum c || c == 95

def textLine (text : String) (h : 10 ∉ blit text) : Line := ⟨blit text, true, h⟩

/-- A change of a file that is there before and after. -/
def modification (path : Bytes) (path_ne : path ≠ []) (hunks : List Hunk) : Change where
  kind := .modified
  path := path
  oldMode := .regular
  newMode := .regular
  index := none
  hunks := hunks
  path_ne := path_ne
  index_plain := by simp

/-- A line is added after the first one. -/
def secondLine (path : Bytes) (path_ne : path ≠ []) : Change :=
  modification path path_ne [⟨[textLine "x" (by decide)], [], [textLine "y" (by decide)], [], by decide⟩]

theorem reports_changed_lines_sample :
    ∃ report, main asciiDecimal isAsciiWord (diffU0 [secondLine (blit "docs/a.md") (by decide)])
        (some (diffU0 [secondLine (blit "portal/b.md") (by decide)])) (lit "docs/a.md\nportal/b.md\n")
        ⟨1, lit "docs/a.md:2 MD013 line\nportal/b.md:3:1 MD001 heading\n", []⟩ = some report ∧
      ∀ raw, raw ∈ report.violations ↔ raw ∈ splitLines (lit "docs/a.md:2 MD013 line\nportal/b.md:3:1 MD001 heading\n" ++ []) ∧
        ∃ path line, lintMatch asciiDecimal isAsciiWord raw = some (path, line) ∧
          ∃ c ∈ [secondLine (blit "docs/a.md") (by decide)] ++ [[secondLine (blit "portal/b.md") (by decide)]].flatten,
            c.name = removeHead (lit "./") path ∧ c.Adds line := by
  refine ((reports_changed_lines_iff asciiDecimal isAsciiWord (fun _ _ => rfl) [secondLine (blit "docs/a.md") (by decide)]
    (some [secondLine (blit "portal/b.md") (by decide)]) ?_).mpr ?_).2 _ ⟨1, _, []⟩ (by decide) (.inr rfl)
  · rintro changes ⟨⟩
    exact ⟨by unfold InPortal; decide, by unfold InPortal; decide⟩
  · intro changes hchanges
    apply harmless_of_ordinary fun _ _ => rfl
    obtain rfl | rfl : changes = [secondLine (blit "docs/a.md") (by decide)] ∨ changes = [secondLine (blit "portal/b.md") (by decide)] := by
      simpa using hchanges
    · refine ⟨by decide +kernel, fun c hc _ => ?_, by decide +kernel⟩
      obtain rfl := List.mem_singleton.mp hc
      exact ⟨by decide +kernel, by decide +kernel, nofun⟩
    · refine ⟨by decide +kernel, fun c hc _ => ?_, by decide +kernel⟩
      obtain rfl := List.mem_singleton.mp hc
      exact ⟨by decide +kernel, by decide +kernel, nofun⟩

/-- The first line that is added reads as a file name, and the third line of the file is modified. -/
def redirecting : Change :=
  modification (blit "a.md") (by decide) [⟨[], [], [textLine "++ b/b.md" (by decide)], [], by decide⟩,
    ⟨[textLine "x" (by decide)], [textLine "y" (by decide)], [textLine "z" (by decide)], [], by decide⟩]

/-- A file whose name git quotes. -/
def quotedName : Change := secondLine [0xC3, 0xA9, 46, 109, 100] (by decide)

/-- The lines of a file are recorded for another one: after a line of text that reads as its name, and where a file with a
    quoted name comes after it. -/
theorem lines_recorded_elsewhere :
    (¬ ∃ changed, diff_ranges asciiDecimal (diffU0 [redirecting]) = some changed ∧ Exact [redirecting] changed) ∧
      ¬ ∃ changed, diff_ranges asciiDecimal (diffU0 [redirecting, quotedName]) = some changed ∧
        Exact [redirecting, quotedName] changed := by
  constructor
  · rintro ⟨changed, hchanged, hexact⟩
    have hread : (diff_ranges asciiDecimal (diffU0 [redirecting])).map
        (fun changed => line_changed (ranges changed (lit "b.md")) 3) = some true := by decide +kernel
    rw [hchanged, Option.map_some, Option.some.injEq] at hread
    obtain ⟨c, hc, hname, -⟩ := (hexact (lit "b.md") 3).mp hread
    have hnone : ∀ c ∈ [redirecting], c.name ≠ lit "b.md" := by decide
    exact hnone c hc hname
  · rintro ⟨changed, hchanged, hexact⟩
    have hread : (diff_ranges asciiDecimal (diffU0 [redirecting, quotedName])).map
        (fun changed => line_changed (ranges changed quotedName.name) 2) = some false := by decide +kernel
    have hadds : quotedName.Adds 2 := ⟨by decide, textLine "y" (by decide), rfl⟩
    rw [hchanged, Option.map_some, Option.some.injEq, (hexact quotedName.name 2).mpr ⟨_, by simp, rfl, hadds⟩] at hread
    cases hread

end

end narwhal.markdownlint_changed
