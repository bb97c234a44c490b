import Narwhal.Lib.Text

namespace pylib

/-- The lines a binary file iterates over: each ends after its line feed, the
    last one possibly without. -/
def fileLines : Bytes → List Bytes
  | [] => []
  | b :: rest =>
    if b = 10 then [b] :: fileLines rest
    else match fileLines rest with
      | [] => [[b]]
      | line :: lines => (b :: line) :: lines

/-- `bytes.splitlines(keepends=True)`: a line ends after a line feed, a carriage
    return, or the pair of them. -/
def splitlines : Bytes → List Bytes
  | [] => []
  | b :: rest =>
    if b = 10 then [b] :: splitlines rest
    else if b = 13 then
      match rest with
      | 10 :: rest => [13, 10] :: splitlines rest
      | rest => [13] :: splitlines rest
    else match splitlines rest with
      | [] => [[b]]
      | line :: lines => (b :: line) :: lines

-- The equations that the lemmas below unfold are made here once: each lemma would wait for another to make them.
attribute [local grind =] fileLines.eq_def splitlines.eq_def

/-- A complete line: its only line feed is its last octet. -/
def IsLine (line : Bytes) : Prop := ∃ body, line = body ++ [10] ∧ 10 ∉ body

theorem IsLine.ne_nil {line : Bytes} (h : IsLine line) : line ≠ [] := by
  obtain ⟨body, rfl, _⟩ := h
  simp

@[simp] theorem fileLines_nil : fileLines [] = [] := rfl

@[simp] theorem flatten_fileLines (b : Bytes) : (fileLines b).flatten = b := by
  induction b with
  | nil => rfl
  | cons b rest ih =>
    unfold fileLines
    split
    · simp [ih]
    · cases h : fileLines rest with
      | nil =>
        rw [h] at ih
        simp [← ih]
      | cons line lines =>
        rw [h] at ih
        simpa using ih

@[simp] theorem flatten_splitlines (b : Bytes) : (splitlines b).flatten = b := by
  induction b using splitlines.induct <;> (unfold splitlines; simp_all)

/-- Without a carriage return the two ways of splitting agree. -/
theorem splitlines_eq_fileLines {b : Bytes} (h : 13 ∉ b) : splitlines b = fileLines b := by
  induction b with
  | nil => rfl
  | cons b rest ih =>
    have hb : b ≠ 13 := fun hb => h (hb ▸ List.mem_cons_self)
    have hrest : (13 : UInt8) ∉ rest := fun hr => h (List.mem_cons_of_mem _ hr)
    unfold splitlines fileLines
    simp only [hb, if_false, ih hrest]

theorem fileLines_body_cons {body rest : Bytes} (h : 10 ∉ body) :
    fileLines (body ++ 10 :: rest) = (body ++ [10]) :: fileLines rest := by
  induction body with
  | nil => simp [fileLines]
  | cons b body ih =>
    have hb : b ≠ 10 := fun hb => h (hb ▸ List.mem_cons_self)
    have hbody : (10 : UInt8) ∉ body := fun hr => h (List.mem_cons_of_mem _ hr)
    simp [fileLines, hb, ih hbody]

theorem splitlines_body_cons {body rest : Bytes} (hlf : 10 ∉ body) (hcr : 13 ∉ body) :
    splitlines (body ++ 10 :: rest) = (body ++ [10]) :: splitlines rest := by
  induction body with
  | nil =>
    conv_lhs => unfold splitlines
    rfl
  | cons b body ih =>
    simp only [List.mem_cons, not_or] at hlf hcr
    conv_lhs => unfold splitlines
    simp [Ne.symm hlf.1, Ne.symm hcr.1, ih hlf.2 hcr.2]

/-- Complete lines in front of a file are its first lines. -/
theorem fileLines_flatten_append {lines : List Bytes} (h : ∀ line ∈ lines, IsLine line) (rest : Bytes) :
    fileLines (lines.flatten ++ rest) = lines ++ fileLines rest := by
  induction lines with
  | nil => rfl
  | cons line lines ih =>
    obtain ⟨body, rfl, hbody⟩ := h line List.mem_cons_self
    have hrest := ih fun l hl => h l (List.mem_cons_of_mem _ hl)
    simp only [List.flatten_cons, List.append_assoc, List.cons_append, List.nil_append]
    rw [fileLines_body_cons hbody, hrest]

theorem fileLines_flatten {lines : List Bytes} (h : ∀ line ∈ lines, IsLine line) :
    fileLines lines.flatten = lines := by
  simpa [fileLines] using fileLines_flatten_append h []

/-- Every file is a run of complete lines and a remainder without a line feed. -/
theorem exists_lines (b : Bytes) :
    ∃ (lines : List Bytes) (rest : Bytes), (∀ line ∈ lines, IsLine line) ∧ 10 ∉ rest ∧ b = lines.flatten ++ rest := by
  induction b with
  | nil => exact ⟨[], [], by simp, by simp, rfl⟩
  | cons c b ih =>
    obtain ⟨lines, rest, hlines, hrest, rfl⟩ := ih
    by_cases hc : c = 10
    · refine ⟨[c] :: lines, rest, List.forall_mem_cons.mpr ⟨⟨[], by simp [hc], by simp⟩, hlines⟩, hrest, rfl⟩
    · cases lines with
      | nil => exact ⟨[], c :: rest, by simp, by simp [hrest, Ne.symm hc], rfl⟩
      | cons line lines =>
        obtain ⟨⟨body, rfl, hbody⟩, hmore⟩ := List.forall_mem_cons.mp hlines
        exact ⟨(c :: (body ++ [10])) :: lines, rest,
          List.forall_mem_cons.mpr ⟨⟨c :: body, rfl, by simp [hbody, Ne.symm hc]⟩, hmore⟩, hrest, rfl⟩

/-- A complete line stays a line of the file when the file grows. -/
theorem mem_fileLines_append {a line : Bytes} (h : line ∈ fileLines a) (hline : IsLine line) (b : Bytes) :
    line ∈ fileLines (a ++ b) := by
  obtain ⟨lines, rest, hlines, hrest, rfl⟩ := exists_lines a
  rw [fileLines_flatten_append hlines] at h
  rw [List.append_assoc, fileLines_flatten_append hlines]
  rcases List.mem_append.mp h with hmem | hmem
  · exact List.mem_append_left _ hmem
  · obtain ⟨body, rfl, _⟩ := hline
    have hsub : (10 : UInt8) ∈ (fileLines rest).flatten := List.mem_flatten.mpr ⟨_, hmem, by simp⟩
    rw [flatten_fileLines] at hsub
    exact absurd hsub hrest

/-! ### Cutting a file that grows -/

/-- A file that ends where a line ends. -/
def EndsLine (content : Bytes) : Prop := content = [] ∨ content.getLast? = some 10

theorem EndsLine.tail {b : UInt8} {rest : Bytes} (h : EndsLine (b :: rest)) : EndsLine rest := by
  cases rest with
  | nil => exact .inl rfl
  | cons c rest => exact .inr (h.resolve_left (List.cons_ne_nil _ _))

theorem splitlines_lf (rest : Bytes) : splitlines (10 :: rest) = [10] :: splitlines rest := by
  rw [splitlines.eq_def]
  rfl

theorem splitlines_crlf (rest : Bytes) : splitlines (13 :: 10 :: rest) = [13, 10] :: splitlines rest := by
  rw [splitlines.eq_def]
  rfl

theorem splitlines_cr {rest : Bytes} (h : rest.head? ≠ some 10) : splitlines (13 :: rest) = [13] :: splitlines rest := by
  rw [splitlines.eq_def]
  split
  · cases ‹13 :: rest = []›
  · next heq =>
    obtain ⟨rfl, rfl⟩ := List.cons.inj heq
    rw [if_neg (by decide), if_pos rfl]
    split
    · exact absurd rfl h
    · rfl

theorem splitlines_other {b : UInt8} {rest line : Bytes} {lines : List Bytes} (hlf : b ≠ 10) (hcr : b ≠ 13)
    (h : splitlines rest = line :: lines) : splitlines (b :: rest) = (b :: line) :: lines := by
  rw [splitlines.eq_def]
  simp only [hlf, hcr, if_false, h]

/-- What follows a file that ends where a line ends is cut by itself. -/
theorem splitlines_append {a b : Bytes} (h : EndsLine a) : splitlines (a ++ b) = splitlines a ++ splitlines b := by
  fun_induction splitlines a with
  | case1 => rfl
  | case2 rest ih => rw [List.cons_append, splitlines_lf, ih h.tail, List.cons_append]
  | case3 rest _ ih => rw [List.cons_append, List.cons_append, splitlines_crlf, ih h.tail.tail, List.cons_append]
  | case4 rest hnot _ ih =>
    have hrest : rest ≠ [] := by
      rintro rfl
      exact absurd (h.resolve_left (List.cons_ne_nil _ _)) (by decide)
    have hhead : (rest ++ b).head? ≠ some 10 := by
      obtain ⟨c, rest, rfl⟩ := List.exists_cons_of_ne_nil hrest
      rintro heq
      exact hnot rest (by rw [Option.some.inj heq])
    rw [List.cons_append, splitlines_cr hhead, ih h.tail, List.cons_append]
  | case5 b' rest hlf _ hnil ih =>
    have hrest : rest = [] := by rw [← flatten_splitlines rest, hnil]; rfl
    subst hrest
    exact absurd (h.resolve_left (List.cons_ne_nil _ _)) fun heq => hlf (Option.some.inj heq)
  | case6 b' rest hlf hcr line lines hlines ih =>
    rw [List.cons_append]
    refine splitlines_other hlf hcr ?_
    rw [ih h.tail, hlines]
    rfl

end pylib
