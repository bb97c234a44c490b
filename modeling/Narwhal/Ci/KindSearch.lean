import Narwhal.Ci.PolicyScan

open pylib

namespace narwhal.permissive_ingress_isolation

variable {alnum : Nat → Bool} {isName : Str → Bool}

/-! ### White space between the parts of a declaration -/

/-- The text with one blank for white space, and without white space at its end; `pending` when white
    space stands in front. -/
def squash (pending : Bool) : Str → Str
  | [] => []
  | c :: rest =>
    if isSpace c then squash true rest
    else if pending then 32 :: c :: squash false rest
    else c :: squash false rest

theorem isSpace_of_isWord {c : Nat} (h : isWord alnum c = true) : isSpace c = false := by
  unfold isWord at h
  split_ifs at h with hascii
  · simp only [Bool.or_eq_true, Bool.and_eq_true, decide_eq_true_eq, beq_iff_eq] at h
    simp only [isSpace, Bool.or_eq_false_iff, Bool.and_eq_false_iff, decide_eq_false_iff_not, beq_eq_false_iff_ne]
    omega
  · simp only [Bool.and_eq_true, Bool.not_eq_true'] at h
    exact h.2

theorem squash_space {c : Nat} (h : isSpace c = true) (pending : Bool) (s : Str) :
    squash pending (c :: s) = squash true s := if_pos h

theorem squash_false_cons {c : Nat} (h : isSpace c = false) (s : Str) : squash false (c :: s) = c :: squash false s := by
  simp [squash, h]

theorem squash_append {w : Str} (h : ∀ c ∈ w, isSpace c = false) (s : Str) :
    squash false (w ++ s) = w ++ squash false s := by
  induction w with
  | nil => rfl
  | cons c w ih =>
    obtain ⟨hc, hw⟩ := List.forall_mem_cons.mp h
    rw [List.cons_append, squash_false_cons hc, ih hw, List.cons_append]

/-- After white space the text has ended, or goes on with a blank. -/
theorem squash_true_cases (s : Str) : squash true s = [] ∨ ∃ rest, squash true s = 32 :: rest := by
  induction s with
  | nil => exact .inl rfl
  | cons c s ih =>
    cases hc : isSpace c with
    | true =>
      rw [squash_space hc]
      exact ih
    | false => exact .inr ⟨c :: squash false s, by simp [squash, hc]⟩

theorem dropWhile_squash (pending : Bool) (s : Str) :
    (squash pending s).dropWhile isSpace = squash false (s.dropWhile isSpace) := by
  induction s generalizing pending with
  | nil => rfl
  | cons c s ih =>
    cases hc : isSpace c with
    | true =>
      rw [squash_space hc, ih true, List.dropWhile_cons, if_pos hc]
    | false =>
      have hblank : isSpace 32 = true := by decide
      rw [List.dropWhile_cons, if_neg (by simp [hc]), squash_false_cons hc]
      cases pending <;> simp [squash, hc, hblank]

theorem takeWhile_squash (s : Str) : (squash false s).takeWhile (isWord alnum) = s.takeWhile (isWord alnum) := by
  induction s with
  | nil => rfl
  | cons c s ih =>
    cases hc : isSpace c with
    | true =>
      have hword : isWord alnum c = false := by
        by_contra hword
        rw [isSpace_of_isWord (Bool.not_eq_false _ ▸ hword)] at hc
        cases hc
      rw [squash_space hc, List.takeWhile_cons, if_neg (by simp [hword])]
      obtain hnil | ⟨rest, hrest⟩ := squash_true_cases s
      · rw [hnil, List.takeWhile_nil]
      · rw [hrest, List.takeWhile_cons, if_neg (by simp [isWord])]
    | false => rw [squash_false_cons hc, List.takeWhile_cons, List.takeWhile_cons, ih]

theorem skipQuote_squash (s : Str) : skipQuote (squash false s) = squash false (skipQuote s) := by
  cases s with
  | nil => rfl
  | cons c s =>
    cases hc : isSpace c with
    | true =>
      have hquote : isQuote c = false := by
        by_contra hquote
        simp only [isQuote, Bool.not_eq_false, Bool.or_eq_true, beq_iff_eq] at hquote
        obtain rfl | rfl := hquote <;> simp [isSpace] at hc
      have hskip : skipQuote (c :: s) = c :: s := by simp [skipQuote, hquote]
      rw [hskip, squash_space hc]
      obtain hnil | ⟨rest, hrest⟩ := squash_true_cases s
      · rw [hnil, skipQuote]
      · rw [hrest]
        rfl
    | false =>
      rw [squash_false_cons hc, skipQuote, skipQuote]
      split_ifs
      · rfl
      · rw [squash_false_cons hc]

theorem isPrefixOf_squash {w : Str} (h : ∀ c ∈ w, isSpace c = false) (s : Str) :
    w.isPrefixOf (squash false s) = w.isPrefixOf s := by
  induction w generalizing s with
  | nil => rfl
  | cons c w ih =>
    obtain ⟨hc, hw⟩ := List.forall_mem_cons.mp h
    cases s with
    | nil => rfl
    | cons d s =>
      cases hd : isSpace d with
      | true =>
        have hne : (c == d) = false := by
          rw [beq_eq_false_iff_ne]
          rintro rfl
          rw [hc] at hd
          cases hd
        rw [squash_space hd, List.isPrefixOf_cons_cons, hne, Bool.false_and]
        obtain hnil | ⟨rest, hrest⟩ := squash_true_cases s
        · rw [hnil]
          rfl
        · have hblank : (c == 32) = false := by
            rw [beq_eq_false_iff_ne]
            rintro rfl
            simp [isSpace] at hc
          rw [hrest, List.isPrefixOf_cons_cons, hblank, Bool.false_and]
      | false => rw [squash_false_cons hd, List.isPrefixOf_cons_cons, List.isPrefixOf_cons_cons, ih hw]

theorem afterKind_kind (tail : Str) : afterKind (lit "kind" ++ tail) = afterColon ((skipQuote tail).dropWhile isSpace) :=
  if_pos (List.isPrefixOf_iff_prefix.mpr (List.prefix_append _ _))

theorem afterKind_eq_none {s : Str} (h : (lit "kind").isPrefixOf s = false) : afterKind s = none := by
  rw [afterKind, h, if_neg Bool.false_ne_true]

theorem afterColon_squash {s : Str} (h : ∀ c ∈ s.head?, isSpace c = false) :
    afterColon (squash false s) = (afterColon s).map (squash false) := by
  cases s with
  | nil => rfl
  | cons c s =>
    rw [squash_false_cons (h c rfl)]
    by_cases hcolon : c = 58
    · subst hcolon
      simp only [afterColon, Option.map_some, dropWhile_squash, skipQuote_squash]
    · have hnone : ∀ rest, afterColon (c :: rest) = none := by
        intro rest
        unfold afterColon
        split
        · next heq => exact absurd (List.cons.inj heq).1 hcolon
        · rfl
      rw [hnone, hnone, Option.map_none]

theorem afterKind_squash (s : Str) : afterKind (squash false s) = (afterKind s).map (squash false) := by
  have hkind : ∀ c ∈ lit "kind", isSpace c = false := by decide
  cases hprefix : (lit "kind").isPrefixOf s with
  | false =>
    rw [afterKind_eq_none hprefix, afterKind_eq_none ((isPrefixOf_squash hkind s).trans hprefix), Option.map_none]
  | true =>
    obtain ⟨tail, rfl⟩ := List.isPrefixOf_iff_prefix.mp hprefix
    have hhead : ∀ c ∈ ((skipQuote tail).dropWhile isSpace).head?, isSpace c = false := by
      intro c hc
      have hnot := List.head?_dropWhile_not isSpace (skipQuote tail)
      rw [Option.mem_def.mp hc] at hnot
      exact hnot
    rw [squash_append hkind, afterKind_kind, afterKind_kind, skipQuote_squash, dropWhile_squash, afterColon_squash hhead]

theorem isSome_matchKind_squash (s : Str) :
    (matchKind alnum isName (squash false s)).isSome = (matchKind alnum isName s).isSome := by
  unfold matchKind
  rw [afterKind_squash]
  cases afterKind s with
  | none => rfl
  | some rest =>
    simp only [Option.map_some, takeWhile_squash]
    split_ifs <;> rfl

/-! ### Searches -/

theorem search_cons (pattern : Str → Option Str) (c : Nat) (s : Str) :
    search pattern (c :: s) = ((pattern (c :: s)).isSome || search pattern s) := by
  rw [search, List.tails_cons, List.any_cons, search]

theorem search_of_isSome {pattern : Str → Option Str} {s : Str} (h : (pattern s).isSome = true) :
    search pattern s = true := by
  cases s with
  | nil => simp [search, h]
  | cons c s => rw [search_cons, h, Bool.true_or]

theorem isSome_matchKind_of_space {c : Nat} (hc : isSpace c = true) (s : Str) :
    (matchKind alnum isName (c :: s)).isSome = false := by
  have hkind : (lit "kind").isPrefixOf (c :: s) = false := by
    by_contra hprefix
    obtain ⟨tail, htail⟩ := List.isPrefixOf_iff_prefix.mp (Bool.not_eq_false _ ▸ hprefix)
    obtain ⟨rfl, -⟩ := List.cons.inj htail
    cases hc
  rw [matchKind, afterKind_eq_none hkind]
  rfl

/-- A search does not see how much white space there is. -/
theorem search_squash (pending : Bool) (s : Str) :
    search (matchKind alnum isName) (squash pending s) = search (matchKind alnum isName) s := by
  induction s generalizing pending with
  | nil => rfl
  | cons c s ih =>
    rw [search_cons]
    cases hc : isSpace c with
    | true => rw [squash_space hc, ih true, isSome_matchKind_of_space hc, Bool.false_or]
    | false =>
      have hfalse : search (matchKind alnum isName) (squash false (c :: s)) =
          ((matchKind alnum isName (c :: s)).isSome || search (matchKind alnum isName) s) := by
        rw [← isSome_matchKind_squash, squash_false_cons hc, search_cons, ih false]
      cases pending with
      | false => exact hfalse
      | true =>
        have hblank : squash true (c :: s) = 32 :: squash false (c :: s) := by simp [squash, hc]
        rw [hblank, search_cons, isSome_matchKind_of_space (by decide), Bool.false_or, hfalse]

theorem squash_append_space {c : Nat} (hc : isSpace c = true) (pending : Bool) (s t : Str) :
    squash pending (s ++ c :: t) = squash pending s ++ squash true t := by
  induction s generalizing pending with
  | nil => rw [List.nil_append, squash_space hc, squash, List.nil_append]
  | cons d s ih =>
    rw [List.cons_append]
    cases hd : isSpace d with
    | true => rw [squash_space hd, squash_space hd, ih]
    | false => cases pending <;> simp [squash, hd, ih]

theorem squash_joinLines (lines : List Str) : squash true (joinLines lines) = lines.flatMap (squash true) := by
  induction lines with
  | nil => rfl
  | cons line lines ih =>
    cases lines with
    | nil => simp [joinLines, List.intercalate]
    | cons next lines =>
      have hjoin : joinLines (line :: next :: lines) = line ++ 10 :: joinLines (next :: lines) := by
        simp [joinLines, List.intercalate]
      rw [hjoin, squash_append_space (by decide), ih]
      rfl

/-- A search goes through the lines one after the other. -/
theorem search_joinLines (lines : List Str) : search (matchKind alnum isName) (joinLines lines) =
    search (matchKind alnum isName) (lines.flatMap (squash true)) := by
  rw [← squash_joinLines, search_squash]

theorem dropWhile_append_of_ne_nil {p : Nat → Bool} {s : Str} (h : s.dropWhile p ≠ []) (t : Str) :
    (s ++ t).dropWhile p = s.dropWhile p ++ t := by
  rw [List.dropWhile_append, if_neg (by simpa [List.isEmpty_iff] using h)]

theorem skipQuote_append_of_ne_nil {s : Str} (h : skipQuote s ≠ []) (t : Str) : skipQuote (s ++ t) = skipQuote s ++ t := by
  cases s with
  | nil => exact absurd rfl h
  | cons c s =>
    rw [List.cons_append, skipQuote, skipQuote]
    split_ifs <;> rfl

theorem afterKind_append {s rest : Str} (h : afterKind s = some rest) (hne : rest ≠ []) (t : Str) :
    afterKind (s ++ t) = some (rest ++ t) := by
  unfold afterKind at h
  split_ifs at h with hkind
  obtain ⟨tail, rfl⟩ := List.isPrefixOf_iff_prefix.mp hkind
  have hdrop : (lit "kind" ++ tail).drop 4 = tail := rfl
  rw [hdrop] at h
  unfold afterColon at h
  split at h
  next more hmore =>
    obtain rfl := Option.some.inj h
    have hcolon : (skipQuote tail).dropWhile isSpace ≠ [] := by simp [hmore]
    have hquote : skipQuote tail ≠ [] := by
      intro hnil
      rw [hnil] at hcolon
      exact hcolon rfl
    have hspace : more.dropWhile isSpace ≠ [] := by
      intro hnil
      rw [hnil] at hne
      exact hne rfl
    rw [List.append_assoc, afterKind_kind, skipQuote_append_of_ne_nil hquote, dropWhile_append_of_ne_nil hcolon, hmore,
      List.cons_append, afterColon, dropWhile_append_of_ne_nil hspace, skipQuote_append_of_ne_nil hne]
  next => cases h

theorem isSome_matchKind_iff {s : Str} : (matchKind alnum isName s).isSome = true ↔
    ∃ rest, afterKind s = some rest ∧ isName (rest.takeWhile (isWord alnum)) = true := by
  unfold matchKind
  cases afterKind s with
  | none => simp
  | some rest => simp [Option.isSome_iff_exists]

/-- A declaration ends before a blank. -/
theorem isSome_matchKind_append (hname : isName [] = false) {s : Str} (h : (matchKind alnum isName s).isSome = true)
    {t : Str} (ht : ∀ c ∈ t.head?, isSpace c = true) : (matchKind alnum isName (s ++ t)).isSome = true := by
  obtain ⟨rest, hrest, hmatch⟩ := isSome_matchKind_iff.mp h
  have hne : rest ≠ [] := by
    rintro rfl
    rw [List.takeWhile_nil, hname] at hmatch
    cases hmatch
  refine isSome_matchKind_iff.mpr ⟨rest ++ t, afterKind_append hrest hne t, ?_⟩
  have hword : t.takeWhile (isWord alnum) = [] := by
    cases t with
    | nil => rfl
    | cons c t =>
      have hc : isWord alnum c = false := by
        by_contra hword
        have hspace := isSpace_of_isWord (Bool.not_eq_false _ ▸ hword)
        rw [ht c rfl] at hspace
        cases hspace
      rw [List.takeWhile_cons, if_neg (by simp [hc])]
  have htake : (rest ++ t).takeWhile (isWord alnum) = rest.takeWhile (isWord alnum) := by
    rw [List.takeWhile_append, hword, List.append_nil]
    split_ifs with hall
    · exact ((List.takeWhile_prefix _).eq_of_length hall).symm
    · rfl
  rw [htake]
  exact hmatch

theorem search_append_left {pattern : Str → Option Str} (s : Str) {t : Str} (h : search pattern t = true) :
    search pattern (s ++ t) = true := by
  induction s with
  | nil => exact h
  | cons c s ih => rw [List.cons_append, search_cons, ih, Bool.or_true]

theorem search_append_right (hname : isName [] = false) {s : Str} (h : search (matchKind alnum isName) s = true) {t : Str}
    (ht : ∀ c ∈ t.head?, isSpace c = true) : search (matchKind alnum isName) (s ++ t) = true := by
  induction s with
  | nil =>
    cases h
  | cons c s ih =>
    rw [search_cons, Bool.or_eq_true] at h
    rw [List.cons_append, search_cons, Bool.or_eq_true]
    obtain h | h := h
    · exact .inl (isSome_matchKind_append hname h ht)
    · exact .inr (ih h)

/-- What is found in some lines is found in more lines around them. -/
theorem search_flatMap (hname : isName [] = false) {before lines after : List Str}
    (h : search (matchKind alnum isName) (joinLines lines) = true) :
    search (matchKind alnum isName) ((before ++ lines ++ after).flatMap (squash true)) = true := by
  rw [search_joinLines] at h
  rw [List.flatMap_append, List.flatMap_append]
  refine search_append_right hname (search_append_left _ h) fun c hc => ?_
  rw [← squash_joinLines] at hc
  obtain hnil | ⟨rest, hrest⟩ := squash_true_cases (joinLines after)
  · rw [hnil] at hc
    cases hc
  · rw [hrest] at hc
    obtain rfl := Option.some.inj hc
    decide

end narwhal.permissive_ingress_isolation
