import Narwhal.Lib.Text

namespace pylib

/-- `str.isspace` of one code point, which is also what `\s` matches. -/
def isSpace (c : Nat) : Bool :=
  (9 ≤ c && c ≤ 13) || (28 ≤ c && c ≤ 32) || c == 133 || c == 160 || c == 5760 || (8192 ≤ c && c ≤ 8202) ||
    c == 8232 || c == 8233 || c == 8239 || c == 8287 || c == 12288

/-- The code points that end a line for `str.splitlines`. -/
def isBreak (c : Nat) : Bool :=
  (10 ≤ c && c ≤ 13) || (28 ≤ c && c ≤ 30) || c == 133 || c == 8232 || c == 8233

/-- `str.splitlines()`; `cr` when the last code point was a carriage return. -/
def splitLinesFrom (cr : Bool) : Str → List Str
  | [] => []
  | c :: rest =>
    if cr ∧ c = 10 then splitLinesFrom false rest
    else if isBreak c then [] :: splitLinesFrom (c == 13) rest
    else match splitLinesFrom false rest with
      | [] => [[c]]
      | line :: lines => (c :: line) :: lines

def splitLines (s : Str) : List Str := splitLinesFrom false s

def universalNewlinesFrom (cr : Bool) : Str → Str
  | [] => []
  | c :: rest =>
    if cr ∧ c = 10 then universalNewlinesFrom false rest
    else if c = 13 then 10 :: universalNewlinesFrom true rest
    else c :: universalNewlinesFrom false rest

/-- What a text stream with universal newlines reads. -/
def universalNewlines (s : Str) : Str := universalNewlinesFrom false s

/-- `str.strip()` -/
def strip (s : Str) : Str := ((s.dropWhile isSpace).reverse.dropWhile isSpace).reverse

/-- What follows each line feed. -/
def afterBreaks : Str → List Str
  | [] => []
  | c :: rest => if c = 10 then rest :: afterBreaks rest else afterBreaks rest

/-- The text from each place on where `^` matches under `re.MULTILINE`. -/
def lineStarts (s : Str) : List Str := s :: afterBreaks s

/-- The lines as a text, each ended by a line feed. -/
def unlines (lines : List Str) : Str := lines.flatMap fun line => line ++ [10]

/-- A line without the carriage return of a CRLF ending. -/
def chomp (line : Str) : Str := if line.getLast? = some 13 then line.dropLast else line

/-- Only the end of the line is a line break. -/
def Unbroken (line : Str) : Prop := ∀ c ∈ chomp line, isBreak c = false

instance (line : Str) : Decidable (Unbroken line) := inferInstanceAs (Decidable (∀ c ∈ chomp line, isBreak c = false))

@[simp] theorem unlines_nil : unlines [] = [] := rfl

@[simp] theorem unlines_cons (line : Str) (lines : List Str) : unlines (line :: lines) = line ++ 10 :: unlines lines := by
  simp [unlines]

/-- A line is what is left of it, and perhaps a carriage return. -/
theorem chomp_cases (line : Str) : chomp line = line ∨ line = chomp line ++ [13] := by
  unfold chomp
  split
  · next h =>
    right
    obtain ⟨body, rfl⟩ := List.getLast?_eq_some_iff.mp h
    rw [List.dropLast_concat]
  · left
    rfl

theorem chomp_append_cr (line : Str) : chomp (line ++ [13]) = line := by
  rw [chomp, List.getLast?_concat, if_pos rfl, List.dropLast_concat]

theorem chomp_eq_self {line : Str} (h : line.getLast? ≠ some 13) : chomp line = line := if_neg h

/-- A line of one code point less ends the same way. -/
theorem chomp_cons {c : Nat} {line : Str} (h : c ≠ 13) : chomp (c :: line) = c :: chomp line := by
  cases line with
  | nil =>
    rw [chomp_eq_self (by simpa using h)]
    rfl
  | cons d line =>
    simp only [chomp, List.getLast?_cons_cons]
    split <;> rfl

section

variable {body rest : Str}

theorem universalNewlines_lf (rest : Str) : universalNewlines (10 :: rest) = 10 :: universalNewlines rest := rfl

theorem universalNewlines_crlf (rest : Str) : universalNewlines (13 :: 10 :: rest) = 10 :: universalNewlines rest := rfl

theorem universalNewlines_append (h : 13 ∉ body) (rest : Str) :
    universalNewlines (body ++ rest) = body ++ universalNewlines rest := by
  unfold universalNewlines
  induction body with
  | nil => rfl
  | cons c body ih =>
    rw [List.mem_cons, not_or] at h
    simp [universalNewlinesFrom, Ne.symm h.1, ih h.2]

theorem universalNewlines_eq_self (h : 13 ∉ body) : universalNewlines body = body := by
  have happend := universalNewlines_append h []
  rwa [List.append_nil, show universalNewlines [] = [] from rfl, List.append_nil] at happend

theorem splitLines_body_cons (h : ∀ c ∈ body, isBreak c = false) :
    splitLines (body ++ 10 :: rest) = body :: splitLines rest := by
  unfold splitLines
  induction body with
  | nil => rfl
  | cons c body ih =>
    have hc := h c List.mem_cons_self
    have hbody := ih fun d hd => h d (List.mem_cons_of_mem c hd)
    simp [splitLinesFrom, hc, hbody]

theorem cr_not_mem (h : ∀ c ∈ body, isBreak c = false) : 13 ∉ body := by
  intro hmem
  have := h 13 hmem
  cases this

theorem universalNewlines_line {line : Str} (h : Unbroken line) (rest : Str) :
    universalNewlines (line ++ 10 :: rest) = chomp line ++ 10 :: universalNewlines rest := by
  obtain hline | hline := chomp_cases line
  · have hcr : 13 ∉ line := hline ▸ cr_not_mem h
    rw [hline, universalNewlines_append hcr, universalNewlines_lf]
  · conv_lhs => rw [hline]
    rw [List.append_assoc, universalNewlines_append (cr_not_mem h), List.singleton_append, universalNewlines_crlf]

end

/-- Lines that hold no other line break are read back, without their carriage returns. -/
theorem splitLines_universalNewlines {lines : List Str} (h : ∀ line ∈ lines, Unbroken line) :
    splitLines (universalNewlines (unlines lines)) = lines.map chomp := by
  induction lines with
  | nil => rfl
  | cons line lines ih =>
    have hline := h line List.mem_cons_self
    rw [unlines_cons, universalNewlines_line hline, splitLines_body_cons hline,
      ih fun l hl => h l (List.mem_cons_of_mem line hl), List.map_cons]

theorem isSpace_of_isBreak {c : Nat} (h : isSpace c = false) : isBreak c = false := by
  simp only [isSpace, isBreak, Bool.or_eq_false_iff, Bool.and_eq_false_iff, decide_eq_false_iff_not,
    beq_eq_false_iff_ne] at *
  omega

/-- A text that neither starts nor ends with a blank is left as it is. -/
theorem strip_eq_self {s : Str} (hfirst : ∀ c ∈ s.head?, isSpace c = false)
    (hlast : ∀ c ∈ s.getLast?, isSpace c = false) : strip s = s := by
  have hdrop : ∀ t : Str, (∀ c ∈ t.head?, isSpace c = false) → t.dropWhile isSpace = t := by
    intro t ht
    cases t with
    | nil => rfl
    | cons c t => rw [List.dropWhile_cons, ht c rfl, if_neg (by simp)]
  rw [strip, hdrop s hfirst, hdrop s.reverse (by simpa using hlast), List.reverse_reverse]

theorem mem_universalNewlines {s : Str} {c : Nat} (h : c ∈ universalNewlines s) : c ∈ s ∨ c = 10 := by
  have hfrom : ∀ (s : Str) (cr : Bool), c ∈ universalNewlinesFrom cr s → c ∈ s ∨ c = 10 := by
    intro s
    induction s with
    | nil => exact fun cr h => .inl h
    | cons d s ih =>
      intro cr h
      have htail : c ∈ s ∨ c = 10 → c ∈ d :: s ∨ c = 10 := Or.imp_left (List.mem_cons_of_mem d)
      unfold universalNewlinesFrom at h
      split at h
      · exact htail (ih false h)
      split at h
      · cases List.mem_cons.mp h with
        | inl hlf => exact .inr hlf
        | inr hmem => exact htail (ih true hmem)
      · cases List.mem_cons.mp h with
        | inl hd => exact .inl (hd ▸ List.mem_cons_self)
        | inr hmem => exact htail (ih false hmem)
  exact hfrom s false h

/-- A line holds characters of the text, and no line break. -/
theorem mem_of_mem_splitLines {s line : Str} (hline : line ∈ splitLines s) {c : Nat} (h : c ∈ line) :
    c ∈ s ∧ isBreak c = false := by
  have hfrom : ∀ (s : Str) (cr : Bool) (line : Str), line ∈ splitLinesFrom cr s → c ∈ line → c ∈ s ∧ isBreak c = false := by
    intro s
    induction s with
    | nil => exact fun cr line hline => nomatch hline
    | cons d s ih =>
      intro cr line hline hc
      have htail : c ∈ s ∧ isBreak c = false → c ∈ d :: s ∧ isBreak c = false := And.imp_left (List.mem_cons_of_mem d)
      unfold splitLinesFrom at hline
      split at hline
      · exact htail (ih false line hline hc)
      split at hline
      · cases List.mem_cons.mp hline with
        | inl hempty =>
          rw [hempty] at hc
          cases hc
        | inr hmem => exact htail (ih _ line hmem hc)
      next hd =>
      have hhead : c = d → c ∈ d :: s ∧ isBreak c = false := by
        rintro rfl
        exact ⟨List.mem_cons_self, Bool.eq_false_iff.mpr hd⟩
      split at hline
      · rw [List.mem_singleton.mp hline] at hc
        exact hhead (List.mem_singleton.mp hc)
      · next first lines hlines =>
        cases List.mem_cons.mp hline with
        | inl hfirst =>
          rw [hfirst] at hc
          cases List.mem_cons.mp hc with
          | inl hcd => exact hhead hcd
          | inr hmem => exact htail (ih false first (hlines ▸ List.mem_cons_self) hmem)
        | inr hmem => exact htail (ih false line (hlines ▸ List.mem_cons_of_mem first hmem) hc)
  exact hfrom s false line hline h

theorem mem_of_mem_strip {s : Str} {c : Nat} (h : c ∈ strip s) : c ∈ s :=
  (List.dropWhile_sublist _).subset (List.mem_reverse.mp
    ((List.dropWhile_sublist _).subset (List.mem_reverse.mp h)))

private theorem head_dropWhile_isSpace (s : Str) : ∀ c ∈ (s.dropWhile isSpace).head?, isSpace c = false := by
  intro c hc
  have := List.head?_dropWhile_not isSpace s
  rw [Option.mem_def.mp hc] at this
  simpa using this

@[simp] theorem strip_strip (s : Str) : strip (strip s) = strip s := by
  apply strip_eq_self
  · intro c hc
    apply head_dropWhile_isSpace s
    -- what is left after the second drop starts like what it is dropped from
    have hsuffix := List.dropWhile_suffix isSpace (l := (s.dropWhile isSpace).reverse)
    have hprefix : strip s <+: s.dropWhile isSpace := by
      have := List.reverse_prefix.mpr hsuffix
      rwa [List.reverse_reverse] at this
    obtain ⟨rest, hrest⟩ := hprefix
    obtain ⟨tail, htail⟩ := List.head?_eq_some_iff.mp hc
    rw [← hrest, htail]
    rfl
  · intro c hc
    rw [strip, List.getLast?_reverse] at hc
    exact head_dropWhile_isSpace _ c hc

/-! ### The first line and the rest -/

/-- The text after its first line and the break that ends it. -/
def dropLine : Str → Str
  | [] => []
  | c :: rest =>
    if isBreak c then if c = 13 ∧ rest.head? = some 10 then rest.tail else rest
    else dropLine rest

theorem splitLinesFrom_true (rest : Str) :
    splitLinesFrom true rest = splitLines (if rest.head? = some 10 then rest.tail else rest) := by
  cases rest with
  | nil => rfl
  | cons c rest =>
    by_cases hc : c = 10
    · subst hc
      rfl
    · simp [splitLines, splitLinesFrom, hc]

theorem splitLines_eq_cons {s : Str} (h : s ≠ []) :
    splitLines s = s.takeWhile (fun c => !isBreak c) :: splitLines (dropLine s) := by
  induction s with
  | nil => exact absurd rfl h
  | cons c rest ih =>
    rw [splitLines, splitLinesFrom, if_neg (by simp), dropLine, List.takeWhile_cons]
    cases hc : isBreak c with
    | true =>
      by_cases hcr : c = 13
      · subst hcr
        simp [splitLinesFrom_true]
      · have hne : (c == 13) = false := by simpa using hcr
        simp [hne, hcr, splitLines]
    | false =>
      cases rest with
      | nil => simp [splitLinesFrom, splitLines, dropLine]
      | cons d rest =>
        have hrest := ih (by simp)
        rw [splitLines] at hrest
        simp [hrest]

end pylib
