import Narwhal.Ci.MarkdownLint
import Narwhal.Lib.JsonRoundTrip

open pylib narwhal.raw_diff
open narwhal.action_bump (cut cut_append word_eq_some_iff)

namespace narwhal.markdownlint_changed

/-! ### What a scan records -/

/-- The last file name above a line. -/
def nameAbove (lines : List Str) : Option Str := (lines.filterMap (action_bump.word (lit "+++ b/"))).getLast?

section

variable (decimal : Nat → Option Nat)

/-- The line reads as the header of a hunk that takes the line of this number. -/
def Takes (raw : Str) (n : Nat) : Prop := ∃ start count, hunkRange decimal raw = some (start, count) ∧ start ≤ n ∧ n < start + count

/-- Such a line stands under the name of the file. -/
def Recorded (lines : List Str) (path : Str) (n : Nat) : Prop :=
  path ≠ [] ∧ ∃ above line below, lines = above ++ line :: below ∧ nameAbove above = some path ∧ Takes decimal line n

end

section

variable {decimal : Nat → Option Nat} {lines : List Str} {path raw : Str} {n : Nat}

theorem nameAbove_concat (lines : List Str) (raw : Str) :
    nameAbove (lines ++ [raw]) = (action_bump.word (lit "+++ b/") raw).or (nameAbove lines) := by
  unfold nameAbove
  rw [List.filterMap_append]
  cases h : action_bump.word (lit "+++ b/") raw <;> simp [h]

theorem isPrefixOf_of_word {w s rest : Str} (h : action_bump.word w s = some rest) : w.isPrefixOf s = true := by
  rw [word_eq_some_iff.mp h]
  simp

theorem starts_of_hunkRange {start count : Nat} (h : hunkRange decimal raw = some (start, count)) :
    (lit "+++ b/").isPrefixOf raw = false ∧ (lit "@@").isPrefixOf raw = true := by
  unfold hunkRange at h
  cases hword : action_bump.word (lit "@@ -") raw with
  | none =>
    rw [hword] at h
    cases h
  | some rest =>
    rw [word_eq_some_iff.mp hword]
    exact ⟨rfl, rfl⟩

theorem line_changed_concat (items : List Range) (start count : Nat) :
    line_changed (items ++ [⟨start, start + count⟩]) n = true ↔
      line_changed items n = true ∨ (start ≤ n ∧ n < start + count) := by
  simp [line_changed]

theorem current_scanLine (s : Scan) (raw : Str) :
    (scanLine decimal s raw).current = (action_bump.word (lit "+++ b/") raw).or s.current := by
  unfold scanLine action_bump.word
  split
  · rfl
  · split
    · rename_i h
      simp [h]
    · rename_i h
      simp only [Option.none_or]
      split_ifs
      · rfl
      · split
        · rfl
        · split_ifs <;> rfl

/-- One more line records what it takes, for the file named above it. -/
theorem line_changed_scanLine (s : Scan) :
    line_changed (ranges (scanLine decimal s raw).changed path) n = true ↔
      line_changed (ranges s.changed path) n = true ∨ s.current = some path ∧ path ≠ [] ∧ Takes decimal raw n := by
  have hskip : (∀ start count, hunkRange decimal raw = some (start, count) → s.current = some path → path ≠ [] → count = 0) →
      (line_changed (ranges s.changed path) n = true ↔
        line_changed (ranges s.changed path) n = true ∨ s.current = some path ∧ path ≠ [] ∧ Takes decimal raw n) := by
    intro h
    refine ⟨.inl, Or.rec id ?_⟩
    rintro ⟨hcurrent, hne, start, count, hrange, hle, hlt⟩
    have := h start count hrange hcurrent hne
    omega
  unfold scanLine
  split
  · next hname =>
    refine hskip fun start count hrange => ?_
    have := (starts_of_hunkRange hrange).1
    rw [hname] at this
    cases this
  cases hcurrent : s.current with
  | none =>
    rw [hcurrent] at hskip
    exact hskip fun start count _ h => nomatch h
  | some file =>
    rw [hcurrent] at hskip
    dsimp only
    split
    · next hstop =>
      refine hskip fun start count hrange hfile hne => ?_
      cases hfile
      have := (starts_of_hunkRange hrange).2
      obtain hfile | hat := hstop
      · exact absurd hfile hne
      · rw [hat] at this
        cases this
    · next hgo =>
      have hfile : file ≠ [] := fun h => hgo (.inl h)
      cases hrange : hunkRange decimal raw with
      | none => exact hskip fun start count h => by rw [hrange] at h; cases h
      | some found =>
        obtain ⟨start, count⟩ := found
        dsimp only
        split
        · by_cases hpath : path = file
          · subst hpath
            have htakes : Takes decimal raw n ↔ start ≤ n ∧ n < start + count := by
              simp [Takes, hrange]
            have hset : ranges (s.changed.set path (ranges s.changed path ++ [⟨start, start + count⟩])) path =
                ranges s.changed path ++ [⟨start, start + count⟩] := by
              simp [ranges, jslib.JsMap.get_set]
            rw [hset, line_changed_concat, htakes]
            simp [hfile]
          · have hset : ranges (s.changed.set file (ranges s.changed file ++ [⟨start, start + count⟩])) path =
                ranges s.changed path := by
              simp [ranges, jslib.JsMap.get_set, hpath]
            rw [hset]
            exact hskip fun _ _ _ h => absurd (Option.some.inj h).symm hpath
        · next hzero =>
          refine hskip fun start' count' h _ _ => ?_
          rw [hrange] at h
          cases h
          omega

theorem current_scan (lines : List Str) : (scan decimal lines).current = nameAbove lines := by
  induction lines using List.reverseRecOn with
  | nil => rfl
  | append_singleton lines raw ih =>
    rw [nameAbove_concat, ← ih, ← current_scanLine, scan, List.foldl_append]
    rfl

theorem recorded_concat_iff :
    Recorded decimal (lines ++ [raw]) path n ↔
      Recorded decimal lines path n ∨ nameAbove lines = some path ∧ path ≠ [] ∧ Takes decimal raw n := by
  constructor
  · rintro ⟨hne, above, line, below, hlines, hname, htakes⟩
    obtain rfl | ⟨below', last, rfl⟩ := List.eq_nil_or_concat below
    · obtain ⟨rfl, hlast⟩ := List.append_inj' hlines rfl
      cases hlast
      exact .inr ⟨hname, hne, htakes⟩
    · rw [List.concat_eq_append, ← List.cons_append, ← List.append_assoc] at hlines
      obtain ⟨rfl, -⟩ := List.append_inj' hlines rfl
      exact .inl ⟨hne, above, line, below', rfl, hname, htakes⟩
  · rintro (⟨hne, above, line, below, rfl, hname, htakes⟩ | ⟨hname, hne, htakes⟩)
    · exact ⟨hne, above, line, below ++ [raw], by simp, hname, htakes⟩
    · exact ⟨hne, lines, raw, [], rfl, hname, htakes⟩

/-- A line number is recorded for a file where a header that takes it stands under the file's name. -/
theorem line_changed_scan_iff (lines : List Str) :
    line_changed (ranges (scan decimal lines).changed path) n = true ↔ Recorded decimal lines path n := by
  induction lines using List.reverseRecOn with
  | nil =>
    have hempty : line_changed (ranges (scan decimal []).changed path) n = false := rfl
    rw [hempty]
    simp [Recorded]
  | append_singleton lines raw ih =>
    have hscan : scan decimal (lines ++ [raw]) = scanLine decimal (scan decimal lines) raw := by
      rw [scan, List.foldl_append]
      rfl
    rw [hscan, line_changed_scanLine, ih, recorded_concat_iff, current_scan]

end

/-! ### The headers that git prints -/

section

variable {decimal : Nat → Option Nat} (hdecimal : ∀ c < 128, decimal c = if isDigit c then some (c - 48) else none)

include hdecimal in
theorem foldl_digits (digits : Str) (hdigits : ∀ c ∈ digits, isDigit c = true) (n : Nat) :
    digits.foldl (fun n c => 10 * n + (decimal c).getD 0) n = n * 10 ^ digits.length + natOfDigits digits := by
  induction digits generalizing n with
  | nil => simp [natOfDigits]
  | cons c digits ih =>
    have hc : isDigit c = true := hdigits c List.mem_cons_self
    have hlt : c < 128 := by
      simp [isDigit] at hc
      omega
    have hcons : natOfDigits (c :: digits) = (c - 48) * 10 ^ digits.length + natOfDigits digits := by
      simp [natOfDigits, Nat.ofDigits_append]
      ring
    rw [List.foldl_cons, ih fun d hd => hdigits d (List.mem_cons_of_mem c hd), hdecimal c hlt, if_pos hc, hcons]
    simp only [Option.getD_some, List.length_cons, pow_succ]
    ring

include hdecimal in
theorem readNumber_natRepr (n : Nat) (rest : Str) (hrest : ∀ c ∈ rest.head?, decimal c = none) :
    readNumber decimal (natRepr n ++ rest) = some (n, rest) := by
  have hdigits : ∀ c ∈ natRepr n, isDigit c = true := fun c => isDigit_of_mem_natRepr
  have hcut : cut (fun c => (decimal c).isSome) (natRepr n ++ rest) = some (natRepr n, rest) := by
    refine cut_append ⟨natRepr_ne_nil n, fun c hc => ?_⟩ fun c hc => ?_
    · have hdigit := hdigits c hc
      rw [hdecimal c (by simp [isDigit] at hdigit; omega), if_pos hdigit]
      rfl
    · rw [hrest c hc]
      rfl
  rw [readNumber, hcut, Option.map_some, foldl_digits hdecimal _ hdigits, natOfDigits_natRepr]
  simp

include hdecimal in
theorem readRange_rangeText (before count : Nat) (rest : Str) :
    ∃ found, readRange decimal (rangeText before count ++ 32 :: rest) =
      some (if count = 0 then before else before + 1, found, 32 :: rest) ∧ found.getD 1 = count := by
  have hblank : decimal 32 = none := by
    rw [hdecimal 32 (by decide)]
    rfl
  have hcomma : decimal 44 = none := by
    rw [hdecimal 44 (by decide)]
    rfl
  unfold rangeText readRange
  by_cases hone : count = 1
  · subst hone
    refine ⟨none, ?_, rfl⟩
    rw [if_pos rfl, List.append_nil, readNumber_natRepr hdecimal _ _ (by simpa using hblank)]
    rfl
  · refine ⟨some count, ?_, rfl⟩
    rw [if_neg hone, List.append_assoc, List.cons_append, readNumber_natRepr hdecimal _ _ (by simpa using hcomma)]
    have hword : action_bump.word [44] (44 :: (natRepr count ++ 32 :: rest)) = some (natRepr count ++ 32 :: rest) :=
      word_eq_some_iff.mpr rfl
    simp only [Option.bind_eq_bind, Option.bind_some, hword,
      readNumber_natRepr hdecimal count (32 :: rest) (by simpa using hblank)]

def headerText (oldLine oldCount newLine newCount : Nat) : Str :=
  lit "@@ -" ++ rangeText oldLine oldCount ++ lit " +" ++ rangeText newLine newCount ++ lit " @@"

theorem mem_rangeText {before count c : Nat} (h : c ∈ rangeText before count) : 44 ≤ c ∧ c < 58 := by
  have hdigit : ∀ {n}, c ∈ natRepr n → 44 ≤ c ∧ c < 58 := by
    intro n hc
    have := isDigit_of_mem_natRepr hc
    simp [isDigit] at this
    omega
  unfold rangeText at h
  obtain h | h := List.mem_append.mp h
  · exact hdigit h
  · split at h
    · cases h
    · obtain rfl | h := List.mem_cons.mp h
      · decide
      · exact hdigit h

theorem mem_headerText {oldLine oldCount newLine newCount c : Nat} (h : c ∈ headerText oldLine oldCount newLine newCount) :
    32 ≤ c ∧ c < 127 := by
  have hwords : (∀ c ∈ lit "@@ -", 32 ≤ c ∧ c < 127) ∧ (∀ c ∈ lit " +", 32 ≤ c ∧ c < 127) ∧
      ∀ c ∈ lit " @@", 32 ≤ c ∧ c < 127 := by decide
  have hrange : ∀ {before count}, c ∈ rangeText before count → 32 ≤ c ∧ c < 127 := by
    intro before count hc
    have := mem_rangeText hc
    omega
  simp only [headerText, List.mem_append] at h
  obtain (((h | h) | h) | h) | h := h
  · exact hwords.1 c h
  · exact hrange h
  · exact hwords.2.1 c h
  · exact hrange h
  · exact hwords.2.2 c h

include hdecimal in
/-- A header is read with the lines of the new version. -/
theorem hunkRange_headerText (oldLine oldCount newLine newCount : Nat) (rest : Str) :
    hunkRange decimal (headerText oldLine oldCount newLine newCount ++ rest) =
      some (if newCount = 0 then newLine else newLine + 1, newCount) := by
  obtain ⟨oldFound, hold, -⟩ := readRange_rangeText hdecimal oldLine oldCount
    (43 :: (rangeText newLine newCount ++ 32 :: (lit "@@" ++ rest)))
  obtain ⟨newFound, hnew, hcount⟩ := readRange_rangeText hdecimal newLine newCount (lit "@@" ++ rest)
  have htext : headerText oldLine oldCount newLine newCount ++ rest =
      lit "@@ -" ++ (rangeText oldLine oldCount ++ 32 :: 43 :: (rangeText newLine newCount ++ 32 :: (lit "@@" ++ rest))) := by
    simp [headerText, lit]
  have hat : action_bump.word (lit "@@ -") (lit "@@ -" ++ (rangeText oldLine oldCount ++ 32 :: 43 ::
      (rangeText newLine newCount ++ 32 :: (lit "@@" ++ rest)))) =
        some (rangeText oldLine oldCount ++ 32 :: 43 :: (rangeText newLine newCount ++ 32 :: (lit "@@" ++ rest))) :=
    word_eq_some_iff.mpr rfl
  have hplus : action_bump.word (lit " +") (32 :: 43 :: (rangeText newLine newCount ++ 32 :: (lit "@@" ++ rest))) =
      some (rangeText newLine newCount ++ 32 :: (lit "@@" ++ rest)) := word_eq_some_iff.mpr rfl
  have hend : action_bump.word (lit " @@") (32 :: (lit "@@" ++ rest)) = some rest := word_eq_some_iff.mpr rfl
  rw [htext, hunkRange]
  simp only [hat, hold, hplus, hnew, hend, hcount, Option.bind_eq_bind, Option.bind_some]

end

end narwhal.markdownlint_changed
