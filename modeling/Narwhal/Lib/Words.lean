import Mathlib.Data.List.Induction
import Narwhal.Lib.JsText

namespace jslib

/-! The fields of a text: what stands between its white space. -/

def fields (s : Text) : List Text := (s.splitOnP isSpace).filter (· ≠ [])

@[simp] theorem fields_nil : fields [] = [] := rfl

theorem fields_append_space {c : Char} (h : isSpace c = true) (s t : Text) :
    fields (s ++ c :: t) = fields s ++ fields t := by
  rw [fields, List.splitOnP_append_cons s t h, List.filter_append]
  rfl

theorem fields_cons_space {c : Char} (h : isSpace c = true) (s : Text) : fields (c :: s) = fields s := by
  have happend := fields_append_space h [] s
  simpa using happend

theorem fields_dropWhile (s : Text) : fields (s.dropWhile isSpace) = fields s := by
  induction s with
  | nil => rfl
  | cons c s ih =>
    by_cases hc : isSpace c = true
    · rw [List.dropWhile_cons_of_pos hc, ih, fields_cons_space hc]
    · rw [List.dropWhile_cons_of_neg hc]

theorem fields_rdropWhile (s : Text) : fields (s.reverse.dropWhile isSpace).reverse = fields s := by
  induction s using List.reverseRecOn with
  | nil => rfl
  | append_singleton s c ih =>
    rw [List.reverse_append, List.reverse_singleton, List.singleton_append]
    by_cases hc : isSpace c = true
    · rw [List.dropWhile_cons_of_pos hc, ih, fields_append_space hc, fields_nil, List.append_nil]
    · rw [List.dropWhile_cons_of_neg hc, List.reverse_cons, List.reverse_reverse]

/-- Trimming a text keeps its fields. -/
theorem fields_trimText (s : Text) : fields (trimText s) = fields s := by
  rw [trimText, fields_rdropWhile, fields_dropWhile]

theorem fields_eq_of_trimText_eq {s t : Text} (h : trimText s = trimText t) : fields s = fields t := by
  rw [← fields_trimText s, h, fields_trimText]

/-- A piece is no longer than the text and does not hold what the text is cut at. -/
theorem piece_of_mem_splitOnP {p : Char → Bool} {s piece : Text} (h : piece ∈ s.splitOnP p) :
    piece.length ≤ s.length ∧ ∀ c ∈ piece, c ∈ s ∧ p c = false := by
  induction s generalizing piece with
  | nil =>
    rw [List.splitOnP_nil, List.mem_singleton] at h
    simp [h]
  | cons c s ih =>
    have hrest : ∀ piece ∈ s.splitOnP p, piece.length ≤ (c :: s).length ∧ ∀ d ∈ piece, d ∈ c :: s ∧ p d = false := by
      intro piece hpiece
      obtain ⟨hlength, hmem⟩ := ih hpiece
      exact ⟨Nat.le_succ_of_le hlength, fun d hd => ⟨List.mem_cons_of_mem c (hmem d hd).1, (hmem d hd).2⟩⟩
    rw [List.splitOnP_cons_eq_if_modifyHead] at h
    cases hc : p c with
    | true =>
      rw [hc, if_pos rfl, List.mem_cons] at h
      rcases h with rfl | h
      · exact ⟨Nat.zero_le _, fun d hd => nomatch hd⟩
      · exact hrest piece h
    | false =>
      rw [hc, if_neg Bool.false_ne_true] at h
      obtain ⟨first, rest, hpieces⟩ := List.exists_cons_of_ne_nil (List.splitOnP_ne_nil p s)
      rw [hpieces, List.modifyHead_cons, List.mem_cons] at h
      rcases h with rfl | h
      · have hfirst : first ∈ s.splitOnP p := by simp [hpieces]
        obtain ⟨hlength, -⟩ := ih hfirst
        obtain ⟨-, hmem⟩ := hrest first hfirst
        exact ⟨Nat.succ_le_succ hlength, List.forall_mem_cons.mpr ⟨⟨List.mem_cons_self, hc⟩, hmem⟩⟩
      · exact hrest piece (by simp [hpieces, h])

/-- No field holds white space. -/
theorem isSpace_of_mem_fields {s field : Text} (h : field ∈ fields s) : ∀ c ∈ field, isSpace c = false :=
  fun c hc => ((piece_of_mem_splitOnP (List.mem_filter.mp h).1).2 c hc).2

/-- A text is cut after its first piece. -/
theorem splitOnP_eq_takeWhile (p : Char → Bool) (s : Text) : ∃ rest, s.splitOnP p = s.takeWhile (fun c => !p c) :: rest := by
  induction s with
  | nil => exact ⟨[], rfl⟩
  | cons c s ih =>
    obtain ⟨rest, hrest⟩ := ih
    rw [List.splitOnP_cons_eq_if_modifyHead]
    by_cases hc : p c = true
    · exact ⟨s.splitOnP p, by simp [hc]⟩
    · exact ⟨rest, by simp [hc, hrest]⟩

/-! ### Lines -/

/-- The line terminators of JavaScript. -/
def isLineTerminator (c : Char) : Bool := c == '\n' || c == '\r' || c == '\u2028' || c == '\u2029'

/-- `^marker(.*)$` with the flag `m`, from here on; `atStart` where a line begins. -/
def execMarker (marker : Text) : Bool → Text → Option Text
  | atStart, [] => if atStart && marker.isPrefixOf [] then some [] else none
  | atStart, c :: rest =>
    if atStart && marker.isPrefixOf (c :: rest) then
      some (((c :: rest).drop marker.length).takeWhile fun c => !isLineTerminator c)
    else execMarker marker (isLineTerminator c) rest

/-- What follows the marker on the first line that begins with it. -/
def markedLine (marker s : Text) : Option Text :=
  ((s.splitOnP isLineTerminator).find? marker.isPrefixOf).map (·.drop marker.length)

section

variable {marker : Text}

/-- A marker stands at the beginning of a text if it stands at that of its first line. -/
theorem isPrefixOf_takeWhile (hmarker : ∀ c ∈ marker, isLineTerminator c = false) (s : Text) :
    marker.isPrefixOf (s.takeWhile fun c => !isLineTerminator c) = marker.isPrefixOf s := by
  rw [Bool.eq_iff_iff, List.isPrefixOf_iff_prefix, List.isPrefixOf_iff_prefix]
  constructor
  · exact fun h => h.trans (List.takeWhile_prefix _)
  · rintro ⟨rest, rfl⟩
    rw [List.takeWhile_append_of_pos (by simpa using hmarker)]
    exact List.prefix_append _ _

theorem takeWhile_drop (hmarker : ∀ c ∈ marker, isLineTerminator c = false) {s : Text}
    (h : marker.isPrefixOf s = true) :
    (s.drop marker.length).takeWhile (fun c => !isLineTerminator c) =
      (s.takeWhile fun c => !isLineTerminator c).drop marker.length := by
  obtain ⟨rest, rfl⟩ := List.isPrefixOf_iff_prefix.mp h
  rw [List.drop_left, List.takeWhile_append_of_pos (by simpa using hmarker), List.drop_left]

/-- The expression finds the first line that begins with the marker. -/
theorem execMarker_eq (hne : marker ≠ []) (hmarker : ∀ c ∈ marker, isLineTerminator c = false) (s : Text) :
    execMarker marker true s = markedLine marker s ∧
      execMarker marker false s =
        ((s.splitOnP isLineTerminator).tail.find? marker.isPrefixOf).map (·.drop marker.length) := by
  have hempty : marker.isPrefixOf [] = false := by
    cases marker with
    | nil => exact absurd rfl hne
    | cons c marker => rfl
  induction s with
  | nil => simp [execMarker, markedLine, hempty]
  | cons c s ih =>
    obtain ⟨rest, hrest⟩ := splitOnP_eq_takeWhile isLineTerminator s
    obtain ⟨htrue, hfalse⟩ := ih
    rw [markedLine, hrest] at htrue
    rw [hrest, List.tail_cons] at hfalse
    have hprefix := isPrefixOf_takeWhile hmarker (c :: s)
    by_cases hc : isLineTerminator c = true
    · rw [List.takeWhile_cons_of_neg (by simp [hc]), hempty] at hprefix
      simp [execMarker, markedLine, List.splitOnP_cons_eq_if_modifyHead, hc, ← hprefix, hempty, htrue, hrest]
    · have hlines : (c :: s).splitOnP isLineTerminator = (c :: s).takeWhile (fun c => !isLineTerminator c) :: rest := by
        simp [List.splitOnP_cons_eq_if_modifyHead, hc, hrest]
      refine ⟨?_, ?_⟩
      · rw [markedLine, hlines, List.find?_cons, hprefix]
        simp only [execMarker, Bool.true_and]
        cases hfound : marker.isPrefixOf (c :: s) with
        | true => simp only [if_true, Option.map_some, takeWhile_drop hmarker hfound]
        | false =>
          rw [Bool.not_eq_true] at hc
          simp only [Bool.false_eq_true, if_false, hc, hfalse]
      · rw [hlines, List.tail_cons]
        rw [Bool.not_eq_true] at hc
        simp only [execMarker, Bool.false_and, Bool.false_eq_true, if_false, hc, hfalse]

end

end jslib
