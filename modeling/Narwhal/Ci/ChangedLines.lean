import Narwhal.Ci.DiffScan
import Narwhal.Lib.Fold

open pylib narwhal.raw_diff

namespace narwhal.markdownlint_changed

/-! ### The lines of a diff as they are read -/

/-- A line of the diff, after `str.splitlines` has cut what git prints as one line. -/
structure Raw where
  text : Str
  /-- the file and the lines that git prints this header for -/
  hunk : Option (Str × Nat × Nat)

/-- The first line of the new version in a hunk, and how many there are. -/
def newRange : DiffLine → Option (Nat × Nat)
  | .hunk _ _ newLine newCount _ => some (if newCount = 0 then newLine else newLine + 1, newCount)
  | _ => none

def rawLines (c : Change) (line : DiffLine) : Option (List Raw) :=
  (utf8Decode line.text).map fun text =>
    match pieces text with
    | [] => []
    | first :: more => ⟨first, (newRange line).map (c.name, ·)⟩ :: more.map (Raw.mk · none)

def printed (changes : List Change) : List (Change × DiffLine) := changes.flatMap fun c => c.lines.map (c, ·)

/-- `none` where what git prints is no UTF-8 -/
def raws (changes : List Change) : Option (List Raw) :=
  ((printed changes).mapM fun p => rawLines p.1 p.2).map List.flatten

section

variable {decimal : Nat → Option Nat} {changes : List Change} {rs : List Raw}

theorem map_text_rawLines (c : Change) (line : DiffLine) :
    (rawLines c line).map (·.map Raw.text) = (utf8Decode line.text).map pieces := by
  unfold rawLines
  rw [Option.map_map]
  congr 1
  funext text
  dsimp only [Function.comp_apply]
  split
  · next h => rw [h, List.map_nil]
  · next first more h =>
    rw [h, List.map_cons, List.map_map]
    simp [Function.comp_def]

theorem map_text_raws (changes : List Change) :
    (raws changes).map (·.map Raw.text) =
      (((changes.flatMap Change.lines).map DiffLine.text).mapM utf8Decode).map (·.flatMap pieces) := by
  have hlines : (changes.flatMap Change.lines).map DiffLine.text = (printed changes).map fun p => p.2.text := by
    simp [printed, List.map_flatMap, Function.comp_def]
  rw [hlines, raws]
  induction printed changes with
  | nil => rfl
  | cons p ps ih =>
    have hp := map_text_rawLines p.1 p.2
    rw [List.map_cons, List.mapM_cons, List.mapM_cons]
    cases hraw : rawLines p.1 p.2 with
    | none =>
      rw [hraw, Option.map_none] at hp
      rw [Option.map_eq_none_iff.mp hp.symm]
      rfl
    | some first =>
      rw [hraw, Option.map_some] at hp
      obtain ⟨text, htext, hpieces⟩ := Option.map_eq_some_iff.mp hp.symm
      rw [htext]
      simp only [Option.pure_def, Option.bind_eq_bind, Option.bind_some]
      cases hrest : ps.mapM fun p => rawLines p.1 p.2 with
      | none =>
        rw [hrest] at ih
        rw [Option.map_eq_none_iff.mp ih.symm]
        rfl
      | some rest =>
        rw [hrest, Option.map_some, Option.map_some] at ih
        obtain ⟨texts, htexts, hflat⟩ := Option.map_eq_some_iff.mp ih.symm
        rw [htexts]
        simp [hpieces, hflat]

/-- The script records what it reads from these lines. -/
theorem diff_ranges_eq (changes : List Change) :
    diff_ranges decimal (diffU0 changes) = (raws changes).map fun rs => (scan decimal (rs.map Raw.text)).changed := by
  have hbytes : diffU0 changes = ((changes.flatMap Change.lines).map DiffLine.text).flatMap (· ++ [10]) := by
    rw [diffU0, List.flatMap_map]
  have hraws := map_text_raws changes
  rw [diff_ranges, hbytes, utf8Decode_flatMap_lf, Option.map_map]
  have hleft : (fun text => (scan decimal (splitLines (universalNewlines text))).changed) ∘ unlines =
      (fun lines => (scan decimal lines).changed) ∘ fun texts => texts.flatMap pieces := by
    funext texts
    simp only [Function.comp_apply, splitLines_universalNewlines_unlines]
  rw [hleft, ← Option.map_map, ← hraws, Option.map_map]
  rfl

theorem mem_raws (h : raws changes = some rs) {raw : Raw} :
    raw ∈ rs ↔ ∃ p ∈ printed changes, ∃ found, rawLines p.1 p.2 = some found ∧ raw ∈ found := by
  obtain ⟨rss, hrss, rfl⟩ := Option.map_eq_some_iff.mp h
  have hmap := mapM_eq_some_iff.mp hrss
  rw [List.mem_flatten]
  constructor
  · rintro ⟨found, hfound, hraw⟩
    have hmem : some found ∈ (printed changes).map fun p => rawLines p.1 p.2 := hmap ▸ List.mem_map_of_mem hfound
    obtain ⟨p, hp, heq⟩ := List.mem_map.mp hmem
    exact ⟨p, hp, found, heq, hraw⟩
  · rintro ⟨p, hp, found, heq, hraw⟩
    have hmem : rawLines p.1 p.2 ∈ rss.map some := hmap ▸ List.mem_map_of_mem hp
    rw [heq] at hmem
    obtain ⟨found', hfound, hsome⟩ := List.mem_map.mp hmem
    cases hsome
    exact ⟨found, hfound, hraw⟩

theorem exists_rawLines (h : raws changes = some rs) {p : Change × DiffLine} (hp : p ∈ printed changes) :
    ∃ found, rawLines p.1 p.2 = some found := by
  obtain ⟨rss, hrss, -⟩ := Option.map_eq_some_iff.mp h
  have hmem : rawLines p.1 p.2 ∈ rss.map some := mapM_eq_some_iff.mp hrss ▸ List.mem_map_of_mem hp
  obtain ⟨found, -, hsome⟩ := List.mem_map.mp hmem
  exact ⟨found, hsome.symm⟩

theorem mem_printed {c : Change} {line : DiffLine} : (c, line) ∈ printed changes ↔ c ∈ changes ∧ line ∈ c.lines := by
  simp only [printed, List.mem_flatMap, List.mem_map, Prod.mk.injEq]
  constructor
  · rintro ⟨c', hc, line', hline, rfl, rfl⟩
    exact ⟨hc, hline⟩
  · rintro ⟨hc, hline⟩
    exact ⟨c, hc, line, hline, rfl, rfl⟩

/-- What is read of a printed line starts with what git puts there. -/
theorem exists_first {c : Change} {line : DiffLine} {w : Str} {tail : Bytes} {found : List Raw}
    (hw : ∀ d ∈ w, 32 ≤ d ∧ d < 127) (htext : line.text = asciiBytes w ++ tail) (h : rawLines c line = some found) :
    ∃ (rest : Str) (more : List Str), found = ⟨w ++ rest, (newRange line).map (c.name, ·)⟩ :: more.map (Raw.mk · none) := by
  have hunbroken : ∀ d ∈ w, isBreak d = false := by
    intro d hd
    have := hw d hd
    simp only [isBreak, Bool.or_eq_false_iff, Bool.and_eq_false_iff, decide_eq_false_iff_not, beq_eq_false_iff_ne]
    omega
  obtain ⟨text, hdecode, hfound⟩ := Option.map_eq_some_iff.mp h
  rw [htext, utf8Decode_ascii_append fun d hd => by have := hw d hd; omega] at hdecode
  obtain ⟨rest, -, rfl⟩ := Option.map_eq_some_iff.mp hdecode
  obtain ⟨first, more, -, hpieces⟩ := pieces_append rest hunbroken
  rw [hpieces] at hfound
  exact ⟨first, more, hfound.symm⟩

/-- A line of the diff that git prints as a header is read as one. -/
theorem hunkRange_of_mem (hdecimal : ∀ c < 128, decimal c = if isDigit c then some (c - 48) else none)
    (h : raws changes = some rs) {raw : Raw} {name : Str} {start count : Nat} (hraw : raw ∈ rs)
    (hhunk : raw.hunk = some (name, start, count)) :
    hunkRange decimal raw.text = some (start, count) ∧
      ∃ c ∈ changes, c.name = name ∧ ∃ line ∈ c.lines, newRange line = some (start, count) := by
  obtain ⟨⟨c, line⟩, hp, found, hfound, hmem⟩ := (mem_raws h).mp hraw
  obtain ⟨hc, hline⟩ := mem_printed.mp hp
  obtain ⟨text, -, hpieces⟩ := Option.map_eq_some_iff.mp hfound
  have hown : raw.hunk = (newRange line).map (c.name, ·) := by
    rw [← hpieces] at hmem
    split at hmem
    · cases hmem
    · obtain rfl | hmem := List.mem_cons.mp hmem
      · rfl
      · obtain ⟨piece, -, rfl⟩ := List.mem_map.mp hmem
        cases hhunk
  rw [hown] at hhunk
  obtain ⟨range, hrange, heq⟩ := Option.map_eq_some_iff.mp hhunk
  cases heq
  refine ⟨?_, c, hc, rfl, line, hline, hrange⟩
  cases line with
  | hunk oldLine oldCount newLine newCount heading =>
    obtain ⟨rest, more, rfl⟩ := exists_first (fun d hd => mem_headerText hd) rfl hfound
    obtain rfl | hmem := List.mem_cons.mp hmem
    · rw [← hrange]
      exact hunkRange_headerText hdecimal _ _ _ _ rest
    · obtain ⟨piece, -, rfl⟩ := List.mem_map.mp hmem
      cases hown
  | _ => cases hrange

/-- For each header that git prints there is such a line. -/
theorem exists_raw (h : raws changes = some rs) {c : Change} {line : DiffLine} {start count : Nat} (hc : c ∈ changes)
    (hline : line ∈ c.lines) (hrange : newRange line = some (start, count)) :
    ∃ raw ∈ rs, raw.hunk = some (c.name, start, count) := by
  have hp := mem_printed.mpr ⟨hc, hline⟩
  obtain ⟨found, hfound⟩ := exists_rawLines h hp
  cases line with
  | hunk oldLine oldCount newLine newCount heading =>
    obtain ⟨rest, more, rfl⟩ := exists_first (fun d hd => mem_headerText hd) rfl hfound
    refine ⟨_, (mem_raws h).mpr ⟨_, hp, _, hfound, List.mem_cons_self⟩, ?_⟩
    rw [hrange]
    rfl
  | _ => cases hrange

end

/-! ### The lines that are added -/

section

variable {c : Change} {line : DiffLine} {n : Nat}

/-- The line takes the line of this number in the new version. -/
def TakesNew (line : DiffLine) (n : Nat) : Prop := ∃ start count, newRange line = some (start, count) ∧ start ≤ n ∧ n < start + count

theorem takesNew_hunk_iff (oldLine oldCount newLine newCount : Nat) (heading : Bytes) :
    TakesNew (.hunk oldLine oldCount newLine newCount heading) n ↔ newLine < n ∧ n ≤ newLine + newCount := by
  constructor
  · rintro ⟨start, count, hrange, hle, hlt⟩
    cases hrange
    split at hle <;> split at hlt <;> omega
  · rintro ⟨hlt, hle⟩
    refine ⟨_, newCount, rfl, ?_, ?_⟩ <;> split <;> omega

theorem not_takesNew (h : newRange line = none) : ¬ TakesNew line n := by
  rintro ⟨start, count, hrange, -⟩
  rw [h] at hrange
  cases hrange

theorem takesNew_hunk_lines (h : Hunk) (oldLine newLine : Nat) :
    (∃ line ∈ h.lines oldLine newLine, TakesNew line n) ↔ newLine < n ∧ n ≤ newLine + h.added.length := by
  rw [← takesNew_hunk_iff oldLine h.removed.length newLine h.added.length h.heading, Hunk.lines,
    List.exists_mem_cons_iff, or_iff_left_iff_imp]
  rintro ⟨line, hline, htakes⟩
  have hrecord : ∀ {sign : Bytes → DiffLine} {l : Line}, (∀ text, newRange (sign text) = none) →
      line ∈ l.lines sign → newRange line = none := by
    intro sign l hsign hl
    obtain rfl | hl := List.mem_cons.mp hl
    · exact hsign _
    · split at hl
      · cases hl
      · obtain rfl := List.mem_singleton.mp hl
        rfl
  obtain hline | hline := List.mem_append.mp hline
  · obtain ⟨l, -, hl⟩ := List.mem_flatMap.mp hline
    exact absurd htakes (not_takesNew (hrecord (fun _ => rfl) hl))
  · obtain ⟨l, -, hl⟩ := List.mem_flatMap.mp hline
    exact absurd htakes (not_takesNew (hrecord (fun _ => rfl) hl))

/-- The headers of hunks after so many lines take the added lines of the new version from there on. -/
theorem takesNew_hunkLines (hunks : List Hunk) (oldLine newLine : Nat) :
    (∃ line ∈ hunkLines oldLine newLine hunks, TakesNew line n) ↔
      newLine < n ∧ ∃ line, (hunks.flatMap fun h => h.kept.map (·, false) ++ h.added.map (·, true))[n - 1 - newLine]? =
        some (line, true) := by
  induction hunks generalizing oldLine newLine with
  | nil => simp [hunkLines]
  | cons h hunks ih =>
    have hsplit : (∃ line ∈ hunkLines oldLine newLine (h :: hunks), TakesNew line n) ↔
        (newLine + h.kept.length < n ∧ n ≤ newLine + h.kept.length + h.added.length) ∨
          newLine + h.kept.length + h.added.length < n ∧
            ∃ line, (hunks.flatMap fun h => h.kept.map (·, false) ++ h.added.map (·, true))[
              n - 1 - (newLine + h.kept.length + h.added.length)]? = some (line, true) := by
      rw [← takesNew_hunk_lines h (oldLine + h.kept.length), ← ih (oldLine + h.kept.length + h.removed.length)]
      simp only [hunkLines, List.mem_append, or_and_right, exists_or]
    rw [hsplit, List.flatMap_cons, List.append_assoc]
    by_cases hkept : n - 1 - newLine < h.kept.length
    · rw [List.getElem?_append_left (by simpa using hkept)]
      simp
      omega
    rw [List.getElem?_append_right (by simpa using hkept), List.length_map]
    by_cases hadded : n - 1 - newLine - h.kept.length < h.added.length
    · rw [List.getElem?_append_left (by simpa using hadded)]
      have hline : ∃ line, (h.added.map (·, true))[n - 1 - newLine - h.kept.length]? = some (line, true) :=
        ⟨h.added[n - 1 - newLine - h.kept.length], by simp [hadded]⟩
      constructor
      · rintro (hn | ⟨hlt, -⟩)
        · exact ⟨by omega, hline⟩
        · exact ⟨by omega, hline⟩
      · rintro ⟨hlt, -⟩
        exact .inl ⟨by omega, by omega⟩
    · rw [List.getElem?_append_right (by simpa using hadded), List.length_map]
      have hindex : n - 1 - newLine - h.kept.length - h.added.length = n - 1 - (newLine + h.kept.length + h.added.length) := by
        omega
      rw [hindex]
      constructor
      · rintro (h | ⟨hlt, hline⟩)
        · omega
        · exact ⟨by omega, hline⟩
      · rintro ⟨hlt, hline⟩
        refine .inr ⟨?_, hline⟩
        omega

theorem newRange_head {line : DiffLine} (h : line ∈ (DiffLine.git c.source c.path :: c.kindLines ++
    (c.index.map DiffLine.index).toList ++ c.nameLines)) : newRange line = none := by
  have hmodes : line ∈ c.modeLines → newRange line = none := by
    unfold Change.modeLines
    split
    · simp
    · simp only [List.mem_cons, List.not_mem_nil, or_false]
      rintro (rfl | rfl) <;> rfl
  simp only [List.cons_append, List.mem_cons, List.mem_append] at h
  obtain rfl | (h | h) | h := h
  · rfl
  · unfold Change.kindLines at h
    split at h
    · exact hmodes h
    · obtain rfl := List.mem_singleton.mp h
      rfl
    · obtain rfl := List.mem_singleton.mp h
      rfl
    · obtain h | h := List.mem_append.mp h
      · exact hmodes h
      · simp only [List.mem_cons, List.not_mem_nil, or_false] at h
        obtain rfl | rfl | rfl := h <;> rfl
  · obtain ⟨names, -, rfl⟩ := Option.map_eq_some_iff.mp (Option.mem_toList.mp h)
    rfl
  · unfold Change.nameLines at h
    split at h
    · cases h
    · simp only [List.mem_cons, List.not_mem_nil, or_false] at h
      obtain rfl | rfl := h <;> rfl

/-- The lines that a change adds are those that its headers take. -/
theorem adds_iff : c.Adds n ↔ ∃ line ∈ c.lines, TakesNew line n := by
  have hhunks := takesNew_hunkLines (n := n) c.hunks 0 0
  rw [Nat.sub_zero] at hhunks
  rw [Change.Adds, Change.newVersion, ← hhunks, Change.lines]
  constructor
  · rintro ⟨line, hline, htakes⟩
    exact ⟨line, List.mem_append_right _ hline, htakes⟩
  · rintro ⟨line, hline, htakes⟩
    obtain hline | hline := List.mem_append.mp hline
    · exact absurd htakes (not_takesNew (newRange_head hline))
    · exact ⟨line, hline, htakes⟩

end

/-! ### When the ranges are exact -/

section

variable (decimal : Nat → Option Nat) (changes : List Change)

/-- Every file has the numbers of its added or modified lines, and no other file has any. -/
def Exact (changed : Ranges) : Prop :=
  ∀ path n, line_changed (ranges changed path) n = true ↔ ∃ c ∈ changes, c.name = path ∧ c.Adds n

/-- What may stand in the lines of a diff. -/
structure Harmless (rs : List Raw) : Prop where
  /-- the name above a header is that of its file, or else other lines below that name read as headers that take its lines -/
  headers : ∀ above raw below name start count, rs = above ++ raw :: below → raw.hunk = some (name, start, count) →
    0 < count → nameAbove (above.map Raw.text) = some name ∨ ∀ n, start ≤ n → n < start + count →
      ∃ above' other below', rs = above' ++ other :: below' ∧ above'.length ≠ above.length ∧
        nameAbove (above'.map Raw.text) = some name ∧ Takes decimal other.text n
  /-- what reads as a header and is none of the file named above it takes only lines that this file adds -/
  others : ∀ above raw below path n, rs = above ++ raw :: below → nameAbove (above.map Raw.text) = some path → path ≠ [] →
    (∀ start count, raw.hunk ≠ some (path, start, count)) → Takes decimal raw.text n →
      ∃ c ∈ changes, c.name = path ∧ c.Adds n

end

section

variable {decimal : Nat → Option Nat} {changes : List Change} {rs : List Raw} {path : Str} {n : Nat}
  (hdecimal : ∀ c < 128, decimal c = if isDigit c then some (c - 48) else none)

theorem name_ne_nil (c : Change) : c.name ≠ [] := by
  unfold Change.name fsdecode
  cases hpath : c.path with
  | nil => exact absurd hpath c.path_ne
  | cons b rest =>
    rw [List.length_cons, fsdecodeFuel]
    split <;> simp

theorem recorded_map_iff :
    Recorded decimal (rs.map Raw.text) path n ↔
      path ≠ [] ∧ ∃ above raw below, rs = above ++ raw :: below ∧ nameAbove (above.map Raw.text) = some path ∧
        Takes decimal raw.text n := by
  constructor
  · rintro ⟨hne, above, line, below, hlines, hname, htakes⟩
    obtain ⟨above', rest, rfl, rfl, hrest⟩ := List.map_eq_append_iff.mp hlines
    obtain ⟨raw, below', rfl, rfl, rfl⟩ := List.map_eq_cons_iff.mp hrest
    exact ⟨hne, above', raw, below', rfl, hname, htakes⟩
  · rintro ⟨hne, above, raw, below, rfl, hname, htakes⟩
    exact ⟨hne, above.map Raw.text, raw.text, below.map Raw.text, by simp, hname, htakes⟩

include hdecimal in
theorem exact_iff (h : raws changes = some rs) :
    Exact changes (scan decimal (rs.map Raw.text)).changed ↔ Harmless decimal changes rs := by
  unfold Exact
  simp only [line_changed_scan_iff]
  constructor
  · intro hexact
    refine ⟨fun above raw below name start count hrs hhunk hcount => ?_,
      fun above raw below path n hrs hname hne hother htakes => ?_⟩
    · obtain ⟨-, c, hc, hcname, line, hline, hrange⟩ := hunkRange_of_mem hdecimal h (hrs ▸ List.mem_append_cons_self) hhunk
      by_cases hname : nameAbove (above.map Raw.text) = some name
      · exact .inl hname
      right
      intro n hle hlt
      have hrecorded := (hexact name n).mpr ⟨c, hc, hcname, adds_iff.mpr ⟨line, hline, start, count, hrange, hle, hlt⟩⟩
      obtain ⟨-, above', other, below', hrs', hname', htakes⟩ := recorded_map_iff.mp hrecorded
      refine ⟨above', other, below', hrs', fun hlength => ?_, hname', htakes⟩
      obtain ⟨rfl, -⟩ := List.append_inj (hrs'.symm.trans hrs) hlength
      exact hname hname'
    · exact (hexact path n).mp (recorded_map_iff.mpr ⟨hne, above, raw, below, hrs, hname, htakes⟩)
  · intro hharmless path n
    constructor
    · intro hrecorded
      obtain ⟨hne, above, raw, below, hrs, hname, htakes⟩ := recorded_map_iff.mp hrecorded
      by_cases hown : ∃ start count, raw.hunk = some (path, start, count)
      · obtain ⟨start, count, hhunk⟩ := hown
        obtain ⟨hread, c, hc, hcname, line, hline, hrange⟩ :=
          hunkRange_of_mem hdecimal h (hrs ▸ List.mem_append_cons_self) hhunk
        obtain ⟨start', count', hread', hle, hlt⟩ := htakes
        rw [hread] at hread'
        cases hread'
        exact ⟨c, hc, hcname, adds_iff.mpr ⟨line, hline, start, count, hrange, hle, hlt⟩⟩
      · exact hharmless.others above raw below path n hrs hname hne (fun start count h => hown ⟨start, count, h⟩) htakes
    · rintro ⟨c, hc, rfl, hadds⟩
      obtain ⟨line, hline, start, count, hrange, hle, hlt⟩ := adds_iff.mp hadds
      obtain ⟨raw, hraw, hhunk⟩ := exists_raw h hc hline hrange
      obtain ⟨above, below, hrs⟩ := List.append_of_mem hraw
      obtain hname | hother := hharmless.headers above raw below c.name start count hrs hhunk (by omega)
      · refine recorded_map_iff.mpr ⟨name_ne_nil c, above, raw, below, hrs, hname, start, count, ?_, hle, hlt⟩
        exact (hunkRange_of_mem hdecimal h hraw hhunk).1
      · obtain ⟨above', other, below', hrs', -, hname, htakes⟩ := hother n hle hlt
        exact recorded_map_iff.mpr ⟨name_ne_nil c, above', other, below', hrs', hname, htakes⟩

/-! ### What the gate reports -/

/-- A file is in the `dict` only with a line. -/
theorem exists_line_changed_of_get {lines : List Str} {items : List Range}
    (h : (scan decimal lines).changed.get path = some items) : ∃ n, line_changed items n = true := by
  induction lines using List.reverseRecOn generalizing path items with
  | nil => cases h
  | append_singleton lines raw ih =>
    rw [scan, List.foldl_append, List.foldl_cons, List.foldl_nil, ← scan] at h
    unfold scanLine at h
    split at h
    · exact ih h
    split at h
    · exact ih h
    split at h
    · exact ih h
    split at h
    · exact ih h
    next start count _ =>
    split at h
    · rw [jslib.JsMap.get_set] at h
      split at h
      · cases h
        exact ⟨start, (line_changed_concat _ start count).mpr (.inr ⟨le_rfl, by omega⟩)⟩
      · exact ih h
    · exact ih h

/-- What `portal/` in front of a name says. -/
def InPortal (c : Change) : Prop := (lit "portal/").isPrefixOf c.name = true

theorem exact_update {portal : List Change} {changed later : Ranges} {lines : List Str} (hbase : Exact changes changed)
    (hportal : Exact portal later) (hscan : later = (scan decimal lines).changed)
    (hnames : (∀ c ∈ changes, ¬ InPortal c) ∧ ∀ c ∈ portal, InPortal c) :
    Exact (changes ++ portal) (update changed later) := by
  intro path n
  have hget : ranges (update changed later) path = ((later.get path).or (changed.get path)).getD [] :=
    congrArg (Option.getD · []) (jslib.JsMap.get_foldl_set changed later path)
  rw [hget]
  cases hlater : later.get path with
  | some items =>
    have hitems : ranges later path = items := by rw [ranges, hlater, Option.getD_some]
    obtain ⟨m, hm⟩ := exists_line_changed_of_get (hscan ▸ hlater)
    obtain ⟨d, hd, hdname, -⟩ := (hportal path m).mp (hitems ▸ hm)
    rw [Option.some_or, Option.getD_some, ← hitems, hportal path n]
    constructor
    · rintro ⟨c, hc, hadds⟩
      exact ⟨c, List.mem_append_right _ hc, hadds⟩
    · rintro ⟨c, hc, hcname, hadds⟩
      obtain hc | hc := List.mem_append.mp hc
      · have hinPortal := hnames.2 d hd
        rw [InPortal, hdname, ← hcname] at hinPortal
        exact absurd hinPortal (hnames.1 c hc)
      · exact ⟨c, hc, hcname, hadds⟩
  | none =>
    have hnone : ranges later path = [] := by rw [ranges, hlater, Option.getD_none]
    rw [Option.none_or, ← ranges, hbase path n]
    constructor
    · rintro ⟨c, hc, hadds⟩
      exact ⟨c, List.mem_append_left _ hc, hadds⟩
    · rintro ⟨c, hc, hcname, hadds⟩
      obtain hc | hc := List.mem_append.mp hc
      · exact ⟨c, hc, hcname, hadds⟩
      · have hline := (hportal path n).mpr ⟨c, hc, hcname, hadds⟩
        rw [hnone] at hline
        cases hline

theorem mem_violations_iff {isWord : Nat → Bool} {changed : Ranges} (h : Exact changes changed) (raw : Str) :
    isViolation decimal isWord changed raw = true ↔
      ∃ path line, lintMatch decimal isWord raw = some (path, line) ∧
        ∃ c ∈ changes, c.name = removeHead (lit "./") path ∧ c.Adds line := by
  unfold isViolation
  cases hmatch : lintMatch decimal isWord raw with
  | none => simp
  | some found =>
    obtain ⟨path, line⟩ := found
    have hempty : ∀ items : List Range, line_changed items line = true → items ≠ [] := by
      rintro items hline rfl
      cases hline
    have hexact := h (removeHead (lit "./") path) line
    simp only [Bool.and_eq_true, decide_eq_true_eq, Option.some.injEq, Prod.mk.injEq]
    rw [and_iff_right_of_imp (hempty _), hexact]
    constructor
    · intro hadds
      exact ⟨path, line, ⟨rfl, rfl⟩, hadds⟩
    · rintro ⟨path', line', ⟨rfl, rfl⟩, hadds⟩
      exact hadds

end

end narwhal.markdownlint_changed
