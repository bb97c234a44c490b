import Narwhal.Lib.Yaml

open jslib

namespace yamllib

/-! ### Plain scalars -/

theorem stripComment_eq_self {c : Char} {s : Text} (h : isPlainRest c s = true) : stripComment (isWhite c) s = s := by
  induction s generalizing c with
  | nil => rfl
  | cons d s ih =>
    simp only [isPlainRest, Bool.and_eq_true, Bool.not_eq_true'] at h
    rw [stripComment, h.1.1, if_neg Bool.false_ne_true, ih h.2]

theorem not_isWhite_getLast {c : Char} {s : Text} (h : isPlainRest c s = true) :
    isWhite ((c :: s).getLast (List.cons_ne_nil c s)) = false := by
  induction s generalizing c with
  | nil =>
    simp only [isPlainRest, Bool.and_eq_true, Bool.not_eq_true'] at h
    exact h.1
  | cons d s ih =>
    simp only [isPlainRest, Bool.and_eq_true] at h
    rw [List.getLast_cons (List.cons_ne_nil d s)]
    exact ih h.2

theorem isPlainRest_of_isPlain {c : Char} {s : Text} (h : isPlain (c :: s) = true) : isPlainRest c s = true := by
  rw [isPlain, Bool.and_eq_true] at h
  exact h.2

theorem not_isWhite_head {c : Char} {s : Text} (h : isPlain (c :: s) = true) : isWhite c = false ∧ c ≠ '#' ∧ c ≠ '"' := by
  rw [isPlain, Bool.and_eq_true] at h
  have hfirst := h.1
  split at hfirst
  · next hc =>
    rcases hc with rfl | rfl | rfl
    all_goals decide
  · rw [Bool.and_eq_true, Bool.not_eq_true', decide_eq_true_eq] at hfirst
    refine ⟨hfirst.1, ?_, ?_⟩
    · rintro rfl
      exact hfirst.2 (by decide)
    · rintro rfl
      exact hfirst.2 (by decide)

theorem length_stripComment_le (white : Bool) (s : Text) : (stripComment white s).length ≤ s.length := by
  induction s generalizing white with
  | nil => exact Nat.le_refl 0
  | cons c s ih =>
    rw [stripComment]
    split
    · exact Nat.zero_le _
    · exact Nat.succ_le_succ (ih _)

section

variable {D : Dialect} {s t : Text}

/-- A string read after a key is no longer than what stands there. -/
theorem length_le_of_readScalar (h : readScalar D s = some (some (.str t))) :
    t.length ≤ (s.dropWhile isWhite).length ∧ (t = s.dropWhile isWhite → isPlain t = true ∧ D.isString t = true) := by
  simp only [readScalar] at h
  split at h
  · next quoted hquoted =>
    split at h
    · cases h
    split at h
    · have hinner : quoted.takeWhile (· ≠ '"') = t := Scalar.str.inj (Option.some.inj (Option.some.inj h))
      have hlength : t.length ≤ quoted.length := hinner ▸ (List.takeWhile_sublist _).length_le
      rw [hquoted]
      refine ⟨Nat.le_succ_of_le hlength, ?_⟩
      rintro rfl
      exact absurd hlength (by simp)
    · cases h
  · split at h
    · cases h
    split at h
    · next hplain =>
      split at h
      · next hstring =>
        have hbody := Scalar.str.inj (Option.some.inj (Option.some.inj h))
        rw [hbody] at hplain hstring
        refine ⟨?_, fun _ => ⟨hplain, hstring⟩⟩
        rw [← hbody]
        exact (List.rdropWhile_prefix _ _).length_le.trans (length_stripComment_le _ _)
      · cases h
    · cases h

/-- A plain scalar that is a string is read as it is. -/
theorem readScalar_plain (hplain : isPlain s = true) (hstring : D.isString s = true) :
    readScalar D (' ' :: s) = some (some (.str s)) := by
  cases s with
  | nil => cases hplain
  | cons c s =>
    obtain ⟨hwhite, hcomment, hquote⟩ := not_isWhite_head hplain
    have hrest := isPlainRest_of_isPlain hplain
    have hdrop : (' ' :: c :: s).dropWhile isWhite = c :: s := by
      rw [List.dropWhile_cons_of_pos (by decide), List.dropWhile_cons_of_neg (by simp [hwhite])]
    have hbody : (stripComment true (c :: s)).rdropWhile isWhite = c :: s := by
      rw [stripComment, if_neg (by simp [hcomment]), stripComment_eq_self hrest,
        List.rdropWhile_eq_self_iff]
      intro hne
      simp [not_isWhite_getLast hrest]
    simp only [readScalar, hdrop]
    split
    · next heq => exact absurd (List.cons.inj heq).1 hquote
    · rw [hbody, if_neg (List.cons_ne_nil c s), if_pos hplain, if_pos hstring]

/-- What follows a key and a blank is read as the string it is if and only if it is a plain scalar that is a string. -/
theorem readScalar_eq_iff : readScalar D (' ' :: s) = some (some (.str s)) ↔ isPlain s = true ∧ D.isString s = true := by
  constructor
  · intro h
    obtain ⟨hlength, hself⟩ := length_le_of_readScalar h
    rw [List.dropWhile_cons_of_pos (by decide)] at hlength hself
    exact hself ((List.dropWhile_suffix isWhite).eq_of_length_le hlength).symm
  · exact fun h => readScalar_plain h.1 h.2

/-- A quoted text is read as what stands between the quotes if and only if it holds neither a quote nor a backslash. -/
theorem readScalar_quoted_iff : readScalar D (' ' :: '"' :: (s ++ ['"'])) = some (some (.str s)) ↔ '"' ∉ s ∧ '\\' ∉ s := by
  have hdrop : (' ' :: '"' :: (s ++ ['"'])).dropWhile isWhite = '"' :: (s ++ ['"']) := by
    rw [List.dropWhile_cons_of_pos (by decide), List.dropWhile_cons_of_neg (by decide)]
  simp only [readScalar, hdrop]
  by_cases hquote : '"' ∈ s
  · refine iff_of_false ?_ fun h => h.1 hquote
    intro h
    split at h
    · cases h
    split at h
    · have hinner : (s ++ ['"']).takeWhile (· ≠ '"') = s := Scalar.str.inj (Option.some.inj (Option.some.inj h))
      have hall := List.all_takeWhile (l := s ++ ['"']) (p := (· ≠ '"'))
      rw [hinner, List.all_eq_true] at hall
      simpa using hall '"' hquote
    · cases h
  · have hnot : ∀ c ∈ s, (decide (c ≠ '"')) = true := by
      intro c hc
      rw [decide_eq_true_eq]
      rintro rfl
      exact hquote hc
    rw [List.dropWhile_append_of_pos hnot, List.takeWhile_append_of_pos hnot]
    by_cases hslash : '\\' ∈ s
    · simp [hslash]
    · simp [hquote, hslash, isBlank]

end

/-! ### Lines -/

/-- A line as it is written: what follows the colon is any text. -/
structure Line where
  indent : Nat
  item : Bool
  key : Text
  rest : Text

def Line.text (line : Line) : Text :=
  List.replicate line.indent ' ' ++ ((if line.item then ['-', ' '] else []) ++ (line.key ++ ':' :: line.rest))

/-- A line whose key can be read: plain, without white space, and followed by white space or nothing. -/
structure Line.Keyed (line : Line) : Prop where
  plain : isPlain line.key = true
  white : line.key.all (!isWhite ·) = true
  rest : line.rest.head?.all isWhite = true

theorem splitKey_plain {c : Char} {key rest : Text} (hkey : isPlainRest c key = true) (hrest : rest.head?.all isWhite = true) :
    splitKey (c :: (key ++ ':' :: rest)) = some (c :: key, rest) := by
  have hcolon : splitKey (':' :: rest) = some ([], rest) := by
    rw [splitKey, if_pos ⟨rfl, hrest⟩]
  induction key generalizing c with
  | nil =>
    simp only [isPlainRest, Bool.and_eq_true, bne_iff_ne] at hkey
    rw [List.nil_append, splitKey, if_neg fun h => hkey.2 h.1, hcolon]
    rfl
  | cons d key ih =>
    simp only [isPlainRest, Bool.and_eq_true, Bool.not_eq_true', Bool.and_eq_false_iff, beq_eq_false_iff_ne] at hkey
    have hnot : ¬ (c = ':' ∧ ((d :: key) ++ ':' :: rest).head?.all isWhite = true) := by
      rintro ⟨hc, hwhite⟩
      rcases hkey.1.2 with hne | hd
      · exact hne hc
      · simp [hd] at hwhite
    rw [splitKey, if_neg hnot, List.cons_append, ih hkey.2]
    rfl

section

variable {D : Dialect} {line : Line}

/-- What stands after the indentation of a line, and its first character. -/
theorem Line.Keyed.exists_cons (h : line.Keyed) : ∃ c s, isWhite c = false ∧ c ≠ '#' ∧
    (if line.item then ['-', ' '] else []) ++ (line.key ++ ':' :: line.rest) = c :: s := by
  cases hitem : line.item with
  | true => exact ⟨'-', _, rfl, by decide, rfl⟩
  | false =>
    have hplain := h.plain
    cases hkey : line.key with
    | nil =>
      rw [hkey] at hplain
      cases hplain
    | cons c key =>
      rw [hkey] at hplain
      obtain ⟨hwhite, hcomment, -⟩ := not_isWhite_head hplain
      exact ⟨c, key ++ ':' :: line.rest, hwhite, hcomment, rfl⟩

/-- A line is read as its key and the scalar in what follows. -/
theorem Line.Keyed.readLine_text (h : line.Keyed) :
    readLine D line.text = (readScalar D line.rest).map fun value => ⟨line.indent, line.item, line.key, value⟩ := by
  obtain ⟨c, s, hwhite, -, hcons⟩ := h.exists_cons
  have hspace : (c == ' ') = false := by
    rw [beq_eq_false_iff_ne]
    rintro rfl
    cases hwhite
  have hblank : ∀ c ∈ List.replicate line.indent ' ', (c == ' ') = true := by
    intro c hc
    rw [List.eq_of_mem_replicate hc]
    rfl
  have htake : (line.text.takeWhile (· == ' ')).length = line.indent := by
    rw [Line.text, hcons, List.takeWhile_append_of_pos hblank, List.takeWhile_cons_of_neg (by simp [hspace])]
    simp
  have hdrop : line.text.dropWhile (· == ' ') =
      (if line.item then ['-', ' '] else []) ++ (line.key ++ ':' :: line.rest) := by
    rw [Line.text, List.dropWhile_append_of_pos hblank, hcons, List.dropWhile_cons_of_neg (by simp [hspace])]
  have hplain := h.plain
  cases hkey : line.key with
  | nil =>
    rw [hkey] at hplain
    cases hplain
  | cons d key =>
    have hsplit := splitKey_plain (isPlainRest_of_isPlain (hkey ▸ hplain)) h.rest
    rw [hkey] at hplain hdrop
    cases hitem : line.item with
    | true =>
      rw [hitem, if_pos rfl] at hdrop
      have hprefix : ['-', ' '].isPrefixOf (['-', ' '] ++ (d :: key ++ ':' :: line.rest)) = true := by
        rw [List.isPrefixOf_iff_prefix]
        exact List.prefix_append _ _
      have hpart : (['-', ' '] ++ (d :: key ++ ':' :: line.rest)).drop 2 = d :: (key ++ ':' :: line.rest) := rfl
      simp only [readLine, htake, hdrop, hprefix, if_true, hpart, hsplit, hplain]
    | false =>
      rw [hitem, if_neg Bool.false_ne_true, List.nil_append] at hdrop
      have hprefix : ['-', ' '].isPrefixOf (d :: key ++ ':' :: line.rest) = false := by
        rw [Bool.eq_false_iff, ne_eq, List.isPrefixOf_iff_prefix]
        rintro ⟨t, ht⟩
        obtain ⟨rfl, hrest⟩ := List.cons.inj ht
        have hall := h.white
        rw [isPlain, if_pos (.inl rfl), Bool.and_eq_true] at hplain
        cases key with
        | nil => simp at hplain
        | cons e key =>
          obtain ⟨rfl, -⟩ := List.cons.inj hrest
          simp [isWhite] at hplain
      rw [List.cons_append] at hprefix hdrop
      simp only [readLine, htake, hdrop, hprefix, Bool.false_eq_true, if_false, hsplit, hplain, if_true]

/-- A line with a key is content. -/
theorem Line.Keyed.isBlank_text (h : line.Keyed) : isBlank line.text = false := by
  obtain ⟨c, s, hwhite, hcomment, hcons⟩ := h.exists_cons
  have hblank : ∀ c ∈ List.replicate line.indent ' ', isWhite c = true := by
    intro c hc
    rw [List.eq_of_mem_replicate hc]
    rfl
  rw [isBlank, Line.text, List.dropWhile_append_of_pos hblank, hcons, List.dropWhile_cons_of_neg (by simp [hwhite])]
  simp [hcomment]

/-- It is no mark of at least two characters, none a blank or a colon. -/
theorem Line.Keyed.isMarked_text (h : line.Keyed) {a b : Char} {mark : Text} (hblank : ' ' ∉ a :: b :: mark)
    (hcolon : ':' ∉ a :: b :: mark) : isMarked (a :: b :: mark) line.text = false := by
  rw [Bool.eq_false_iff, ne_eq, isMarked, Bool.and_eq_true, List.isPrefixOf_iff_prefix]
  rintro ⟨⟨after, hafter⟩, hhead⟩
  rw [← hafter, List.drop_left] at hhead
  cases hindent : line.indent with
  | succ n =>
    rw [Line.text, hindent, List.replicate_succ, List.cons_append, List.cons_append] at hafter
    exact hblank (by simp [(List.cons.inj hafter).1])
  | zero =>
    rw [Line.text, hindent, List.replicate_zero, List.nil_append] at hafter
    cases hitem : line.item with
    | true =>
      rw [hitem, if_pos rfl] at hafter
      obtain ⟨-, hsecond⟩ := List.cons.inj hafter
      exact hblank (by simp [(List.cons.inj hsecond).1])
    | false =>
      rw [hitem, if_neg Bool.false_ne_true, List.nil_append] at hafter
      have hwhite := List.all_eq_true.mp h.white
      rcases List.append_eq_append_iff.mp hafter with ⟨middle, hkey, hrest⟩ | ⟨middle, hmark, hrest⟩
      · cases middle with
        | nil =>
          rw [hrest] at hhead
          cases hhead
        | cons c middle =>
          rw [hrest] at hhead
          have hc := hwhite c (by simp [hkey])
          rw [Bool.not_eq_true'] at hc
          rw [List.cons_append, List.head?_cons, Option.all_some, hc] at hhead
          cases hhead
      · cases middle with
        | nil =>
          rw [List.nil_append] at hrest
          rw [← hrest] at hhead
          cases hhead
        | cons c middle =>
          rw [List.cons_append, List.cons.injEq] at hrest
          exact hcolon (hmark ▸ by simp [← hrest.1])

theorem Line.Keyed.isMarker_text (h : line.Keyed) : isMarker line.text = false :=
  h.isMarked_text (by decide) (by decide)

end

/-! ### Documents -/

/-- The lines that hold something of a document. -/
def contentLines (lines : List Text) : List Text := lines.filter fun line => !isBlank line && !isMarker line

section

variable {line : Text} {lines extra : List Text} {current : Option (List Text)} {docs : List (List Text)}

theorem contentLines_append (lines lines' : List Text) : contentLines (lines ++ lines') = contentLines lines ++ contentLines lines' :=
  List.filter_append lines lines'

theorem flatten_documents (h : documents current lines = some docs) : docs.flatten = current.getD [] ++ contentLines lines := by
  induction lines generalizing current docs with
  | nil =>
    obtain rfl := Option.some.inj h
    cases current <;> simp [contentLines]
  | cons line lines ih =>
    rw [documents] at h
    by_cases hblank : isBlank line = true
    · rw [if_pos hblank] at h
      rw [ih h, contentLines, contentLines, List.filter_cons_of_neg (by simp [hblank])]
    · rw [if_neg hblank] at h
      by_cases hmarker : isMarker line = true
      · rw [if_pos hmarker] at h
        split at h
        · obtain ⟨docs', hdocs', rfl⟩ := Option.map_eq_some_iff.mp h
          rw [List.flatten_append, ih hdocs', contentLines, contentLines, List.filter_cons_of_neg (by simp [hmarker])]
          cases current <;> simp
        · cases h
      · rw [if_neg hmarker] at h
        split at h
        · cases h
        · rw [ih h, contentLines, contentLines, List.filter_cons_of_pos (by simp [hblank, hmarker])]
          simp

theorem documents_content (hblank : isBlank line = false) (hmarker : isMarker line = false)
    (hend : isMarked "...".toList line = false) :
    documents current (line :: lines) = documents (some (current.getD [] ++ [line])) lines := by
  simp only [documents, hblank, hmarker, hend, Bool.false_eq_true, if_false]

theorem isMarker_of_isBlank (h : isBlank line = true) : isMarker line = false := by
  rw [Bool.eq_false_iff, ne_eq, isMarker, isMarked, Bool.and_eq_true, List.isPrefixOf_iff_prefix]
  rintro ⟨⟨after, rfl⟩, -⟩
  rw [isBlank] at h
  exact absurd h (by simp [isWhite])

/-- Lines without content before a line with content, if they are read: their marks are bare, and each mark after the first
    makes a document of its own. -/
theorem documents_skip (hextra : contentLines extra = []) (hcurrent : current.getD [] = [])
    (hblank : isBlank line = false) (hmarker : isMarker line = false) (hend : isMarked "...".toList line = false) :
    documents current (extra ++ line :: lines) =
      if ∀ mark ∈ extra, isMarker mark = true → isBlank (mark.drop 3) = true then
        (documents (some [line]) lines).map
          (List.replicate (extra.countP isMarker + current.toList.length - 1) [] ++ ·)
      else none := by
  induction extra generalizing current with
  | nil =>
    rw [List.nil_append, documents_content hblank hmarker hend, hcurrent, if_pos (by simp)]
    cases current <;> simp
  | cons first extra ih =>
    have hparts : (isBlank first = true ∨ isMarker first = true) ∧ contentLines extra = [] := by
      rw [contentLines, List.filter_eq_nil_iff] at hextra ⊢
      have hfirst := hextra first List.mem_cons_self
      exact ⟨by simpa [or_iff_not_imp_left] using hfirst, fun line hline => hextra line (List.mem_cons_of_mem first hline)⟩
    by_cases hfirst : isBlank first = true
    · have hnot : ¬ isMarker first = true := by
        simp [isMarker_of_isBlank hfirst]
      rw [List.cons_append, documents, if_pos hfirst, ih hparts.2 hcurrent, List.countP_cons_of_neg hnot]
      simp only [List.forall_mem_cons, hnot, Bool.false_eq_true, false_implies, true_and]
    · have hmark := hparts.1.resolve_left hfirst
      rw [List.cons_append, documents, if_neg hfirst, if_pos hmark, List.countP_cons_of_pos hmark]
      by_cases hbare : isBlank (first.drop 3) = true
      · rw [if_pos hbare, ih hparts.2 rfl]
        simp only [List.forall_mem_cons, hmark, hbare, true_implies, true_and]
        split
        · rw [Option.map_map]
          congr 1
          funext docs
          have hempty : current = none ∨ current = some [] := by
            cases current with
            | none => exact .inl rfl
            | some begun => exact .inr (congrArg some hcurrent)
          rcases hempty with rfl | rfl
          · simp
          · simp [List.replicate_succ]
        · rfl
      · rw [if_neg hbare, if_neg]
        exact fun hall => hbare (hall first List.mem_cons_self hmark)

end

end yamllib
