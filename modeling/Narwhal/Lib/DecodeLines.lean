import Narwhal.Lib.TextLines

namespace pylib

/-! ### Decoding a text line by line -/

section

variable {bytes rest : Bytes} {n : Nat}

theorem length_lt_of_utf8DecodePoint (h : utf8DecodePoint bytes = some (n, rest)) : rest.length < bytes.length := by
  have hrest : ∀ {m : Nat} {tail : Bytes}, some (m, tail) = some (n, rest) → tail = rest :=
    fun h => (Prod.mk.inj (Option.some.inj h)).2
  unfold utf8DecodePoint at h
  split at h
  · cases h
  split at h
  · rw [hrest h]
    grind
  split at h
  · cases h
  split at h
  · cases h
  split at h
  · rw [hrest h]
    grind
  split at h
  · cases h
  split at h
  · cases h
  split at h
  · dsimp only at h
    split at h
    · rw [hrest h]
      grind
    · cases h
  split at h
  · cases h
  dsimp only at h
  split at h
  · rw [hrest h]
    grind
  · cases h

private theorem utf8DecodeFuel_eq {fuel : Nat} (fuel' : Nat) (h : bytes.length ≤ fuel) (h' : bytes.length ≤ fuel') :
    utf8DecodeFuel fuel bytes = utf8DecodeFuel fuel' bytes := by
  induction fuel generalizing fuel' bytes with
  | zero =>
    obtain rfl := List.length_eq_zero_iff.mp (Nat.le_zero.mp h)
    cases fuel' <;> rfl
  | succ fuel ih =>
    cases bytes with
    | nil => cases fuel' <;> rfl
    | cons b bytes =>
      obtain ⟨fuel', rfl⟩ := Nat.exists_eq_add_of_lt (Nat.lt_of_lt_of_le (Nat.zero_lt_succ _) h')
      rw [Nat.zero_add] at h' ⊢
      cases hpoint : utf8DecodePoint (b :: bytes) with
      | none => simp only [utf8DecodeFuel, hpoint]
      | some found =>
        obtain ⟨n, rest⟩ := found
        have hlt := length_lt_of_utf8DecodePoint hpoint
        simp only [utf8DecodeFuel, hpoint]
        rw [ih fuel' (by omega) (by omega)]

/-- A text is decoded one code point after the other. -/
theorem utf8Decode_cons (b : UInt8) (rest : Bytes) :
    utf8Decode (b :: rest) = (utf8DecodePoint (b :: rest)).bind fun found => (utf8Decode found.2).map (found.1 :: ·) := by
  cases hpoint : utf8DecodePoint (b :: rest) with
  | none => simp only [utf8Decode, List.length_cons, utf8DecodeFuel, hpoint, Option.bind_none]
  | some found =>
    obtain ⟨n, tail⟩ := found
    have hlt := length_lt_of_utf8DecodePoint hpoint
    simp only [utf8Decode, List.length_cons, utf8DecodeFuel, hpoint, Option.bind_some]
    rw [utf8DecodeFuel_eq tail.length (Nat.le_of_lt_succ hlt) le_rfl]

/-- A line feed is part of no longer form. -/
theorem utf8DecodePoint_lf (b : UInt8) (a rest : Bytes) :
    utf8DecodePoint (b :: (a ++ 10 :: rest)) =
      (utf8DecodePoint (b :: a)).map fun found => (found.1, found.2 ++ 10 :: rest) := by
  have hlf : isTail 10 = false := rfl
  rcases a with _ | ⟨x, _ | ⟨y, _ | ⟨z, a⟩⟩⟩ <;> simp only [utf8DecodePoint, List.nil_append, List.cons_append] <;>
    split_ifs <;> simp_all

/-- The two sides of a line feed are decoded apart. -/
theorem utf8Decode_lf (a rest : Bytes) :
    utf8Decode (a ++ 10 :: rest) = (utf8Decode a).bind fun x => (utf8Decode rest).map fun y => x ++ 10 :: y := by
  induction h : a.length using Nat.strong_induction_on generalizing a with
  | _ length ih =>
    cases a with
    | nil =>
      rw [List.nil_append, utf8Decode_cons]
      rfl
    | cons b a =>
      rw [List.cons_append, utf8Decode_cons, utf8Decode_cons, utf8DecodePoint_lf]
      cases hpoint : utf8DecodePoint (b :: a) with
      | none => rfl
      | some found =>
        obtain ⟨n, tail⟩ := found
        have hlt := length_lt_of_utf8DecodePoint hpoint
        simp only [Option.map_some, Option.bind_some]
        rw [ih tail.length (h ▸ hlt) tail rfl]
        cases utf8Decode tail with
        | none => rfl
        | some x => cases utf8Decode rest <;> rfl

end

/-- The lines of a text, each ended by a line feed, are decoded apart. -/
theorem utf8Decode_flatMap_lf (lines : List Bytes) :
    utf8Decode (lines.flatMap (· ++ [10])) = (lines.mapM utf8Decode).map unlines := by
  induction lines with
  | nil => rfl
  | cons line lines ih =>
    rw [List.flatMap_cons, List.append_assoc, List.singleton_append, utf8Decode_lf, ih, List.mapM_cons]
    cases utf8Decode line with
    | none => rfl
    | some text =>
      cases lines.mapM utf8Decode with
      | none => rfl
      | some texts => simp

/-- The octets of an ASCII text. -/
def asciiBytes (text : Str) : Bytes := text.map UInt8.ofNat

theorem utf8Decode_ascii_append {text : Str} (h : ∀ c ∈ text, c < 128) (rest : Bytes) :
    utf8Decode (asciiBytes text ++ rest) = (utf8Decode rest).map (text ++ ·) := by
  induction text with
  | nil => simp [asciiBytes]
  | cons c text ih =>
    have hc : c < 128 := h c List.mem_cons_self
    have hoctet : (UInt8.ofNat c).toNat = c := by
      simp
      omega
    have hpoint : utf8DecodePoint (UInt8.ofNat c :: (asciiBytes text ++ rest)) = some (c, asciiBytes text ++ rest) := by
      simp [utf8DecodePoint, hoctet, hc]
    have hcons : asciiBytes (c :: text) ++ rest = UInt8.ofNat c :: (asciiBytes text ++ rest) := rfl
    rw [hcons, utf8Decode_cons, hpoint, Option.bind_some, ih fun d hd => h d (List.mem_cons_of_mem c hd), Option.map_map]
    rfl

theorem utf8Decode_ascii {text : Str} (h : ∀ c ∈ text, c < 128) : utf8Decode (asciiBytes text) = some text := by
  have happend := utf8Decode_ascii_append h []
  rw [List.append_nil] at happend
  rw [happend]
  simp [utf8Decode, utf8DecodeFuel]

/-! ### Cutting a text line by line -/

/-- A line as `str.splitlines` cuts it further, after a text stream has read it. -/
def pieces (line : Str) : List Str := splitLines (universalNewlines (line ++ [10]))

theorem universalNewlinesFrom_lf (cr : Bool) (body rest : Str) :
    universalNewlinesFrom cr (body ++ 10 :: rest) = universalNewlinesFrom cr (body ++ [10]) ++ universalNewlines rest := by
  induction body generalizing cr with
  | nil => cases cr <;> rfl
  | cons c body ih =>
    simp only [List.cons_append, universalNewlinesFrom]
    split
    · exact ih false
    split
    · rw [ih true, List.cons_append]
    · rw [ih false, List.cons_append]

/-- What is read of an ended line ends with a line feed. -/
theorem exists_universalNewlinesFrom (cr : Bool) (body : Str) (h : cr = false ∨ body ≠ []) :
    ∃ read, universalNewlinesFrom cr (body ++ [10]) = read ++ [10] := by
  induction body generalizing cr with
  | nil =>
    obtain rfl | h := h
    · exact ⟨[], rfl⟩
    · exact absurd rfl h
  | cons c body ih =>
    simp only [List.cons_append, universalNewlinesFrom]
    split
    · exact ih false (.inl rfl)
    split
    · by_cases hbody : body = []
      · subst hbody
        exact ⟨[], rfl⟩
      · obtain ⟨read, hread⟩ := ih true (.inr hbody)
        exact ⟨10 :: read, by rw [hread, List.cons_append]⟩
    · obtain ⟨read, hread⟩ := ih false (.inl rfl)
      exact ⟨c :: read, by rw [hread, List.cons_append]⟩

theorem splitLinesFrom_lf_ne_nil (body rest : Str) : splitLinesFrom false (body ++ 10 :: rest) ≠ [] := by
  cases body with
  | nil => simp [splitLinesFrom, isBreak]
  | cons c body =>
    simp only [List.cons_append, splitLinesFrom]
    split
    · next h => cases h.1
    split
    · simp
    · split <;> simp

theorem splitLinesFrom_lf (cr : Bool) (body rest : Str) :
    splitLinesFrom cr (body ++ 10 :: rest) = splitLinesFrom cr (body ++ [10]) ++ splitLines rest := by
  induction body generalizing cr with
  | nil => cases cr <;> rfl
  | cons c body ih =>
    simp only [List.cons_append, splitLinesFrom]
    split
    · exact ih false
    split
    · rw [ih (c == 13), List.cons_append]
    · rw [ih false]
      cases h : splitLinesFrom false (body ++ [10]) with
      | nil => exact absurd h (splitLinesFrom_lf_ne_nil body [])
      | cons first more => rfl

/-- A text is cut line by line. -/
theorem splitLines_universalNewlines_unlines (lines : List Str) :
    splitLines (universalNewlines (unlines lines)) = lines.flatMap pieces := by
  induction lines with
  | nil => rfl
  | cons line lines ih =>
    obtain ⟨read, hread⟩ := exists_universalNewlinesFrom false line (.inl rfl)
    have hline : universalNewlines (line ++ [10]) = read ++ [10] := hread
    rw [unlines_cons, universalNewlines, universalNewlinesFrom_lf, hread, List.append_assoc, List.singleton_append,
      splitLines, splitLinesFrom_lf, ih, List.flatMap_cons, pieces, hline, splitLines]

section

variable {w : Str}

/-- A start without line breaks belongs to the first piece. -/
theorem pieces_append (line : Str) (h : ∀ c ∈ w, isBreak c = false) :
    ∃ first more, pieces line = first :: more ∧ pieces (w ++ line) = (w ++ first) :: more := by
  obtain ⟨read, hread⟩ := exists_universalNewlinesFrom false line (.inl rfl)
  have hline : universalNewlines (line ++ [10]) = read ++ [10] := hread
  cases hpieces : pieces line with
  | nil =>
    rw [pieces, hline] at hpieces
    exact absurd hpieces (splitLinesFrom_lf_ne_nil read [])
  | cons first more =>
    refine ⟨first, more, rfl, ?_⟩
    rw [pieces, hline] at hpieces
    rw [pieces, List.append_assoc, universalNewlines_append (cr_not_mem h), hline]
    induction w with
    | nil => exact hpieces
    | cons c w ih =>
      have hc : isBreak c = false := h c List.mem_cons_self
      have htail := ih fun d hd => h d (List.mem_cons_of_mem c hd)
      rw [splitLines] at htail
      simp [splitLines, splitLinesFrom, hc, htail]

theorem pieces_eq_singleton (h : ∀ c ∈ w, isBreak c = false) : pieces w = [w] := by
  obtain ⟨first, more, hnil, hw⟩ := pieces_append [] h
  have hempty : pieces [] = [[]] := rfl
  rw [hempty, List.cons.injEq] at hnil
  rw [List.append_nil, ← hnil.1, ← hnil.2, List.append_nil] at hw
  exact hw

end

end pylib
