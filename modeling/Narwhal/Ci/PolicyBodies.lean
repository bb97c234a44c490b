import Narwhal.Ci.PolicyEscape

open pylib

namespace narwhal.permissive_ingress_isolation

variable {alnum : Nat → Bool} {isName : Str → Bool}

/-! ### What a search sees of some lines -/

/-- The lines that are not comments, with white space squashed. -/
def content (lines : List Str) : Str := (lines.filter fun line => !isComment line).flatMap (squash true)

theorem content_cons_congr {line line' : Str} {lines lines' : List Str} (hcomment : isComment line = isComment line')
    (hsquash : squash true line = squash true line') (h : content lines = content lines') :
    content (line :: lines) = content (line' :: lines') := by
  unfold content at h ⊢
  rw [List.filter_cons, List.filter_cons, hcomment]
  split_ifs
  · rw [List.flatMap_cons, List.flatMap_cons, hsquash, h]
  · exact h

theorem content_append (lines lines' : List Str) : content (lines ++ lines') = content lines ++ content lines' := by
  rw [content, List.filter_append, List.flatMap_append, content, content]

theorem search_strip (text : Str) : search (matchKind alnum isName) (strip text) =
    search (matchKind alnum isName) (content (splitLines text)) :=
  search_joinLines _

theorem content_splitLines_line {line : Str} (h : ∀ c ∈ line, isBreak c = false) :
    content (splitLines line) = content [line] := by
  by_cases hne : line = []
  · subst hne
    rfl
  · have htake : line.takeWhile (fun c => !isBreak c) = line := by
      rw [List.takeWhile_eq_self_iff]
      exact fun c hc => by rw [h c hc]; rfl
    have hdrop : dropLine line = [] := by
      clear hne htake
      induction line with
      | nil => rfl
      | cons c line ih =>
        obtain ⟨hc, hline⟩ := List.forall_mem_cons.mp h
        rw [dropLine, hc, if_neg Bool.false_ne_true, ih hline]
    rw [splitLines_eq_cons hne, htake, hdrop]
    rfl

/-- Joining lines and splitting them again may only lose empty lines. -/
theorem content_splitLines_joinLines {lines : List Str} (h : ∀ line ∈ lines, ∀ c ∈ line, isBreak c = false) :
    content (splitLines (joinLines lines)) = content lines := by
  induction lines with
  | nil => rfl
  | cons line lines ih =>
    obtain ⟨hline, hlines⟩ := List.forall_mem_cons.mp h
    cases lines with
    | nil =>
      have hjoin : joinLines [line] = line := by simp [joinLines]
      rw [hjoin, content_splitLines_line hline]
    | cons next lines =>
      rw [joinLines_cons_cons, splitLines_body_cons hline]
      exact content_cons_congr rfl rfl (ih hlines)

/-! ### Bodies -/

theorem dropWhile_isSpace_chop (tabs : Bool) (line : Str) : (chop tabs line).dropWhile isSpace = line.dropWhile isSpace := by
  cases tabs with
  | false => rfl
  | true =>
    rw [chop, if_pos rfl]
    induction line with
    | nil => rfl
    | cons c line ih =>
      by_cases hc : c = 9
      · subst hc
        exact ih
      · rw [List.dropWhile_cons, if_neg (by simpa using hc)]

theorem isComment_chop (tabs : Bool) (line : Str) : isComment (chop tabs line) = isComment line := by
  rw [isComment, dropWhile_isSpace_chop, isComment]

theorem squash_chop (tabs : Bool) (line : Str) : squash true (chop tabs line) = squash true line := by
  cases tabs with
  | false => rfl
  | true =>
    rw [chop, if_pos rfl]
    induction line with
    | nil => rfl
    | cons c line ih =>
      by_cases hc : c = 9
      · subst hc
        exact ih
      · rw [List.dropWhile_cons, if_neg (by simpa using hc)]

theorem content_map_chop (tabs : Bool) (lines : List Str) : content (lines.map (chop tabs)) = content lines := by
  induction lines with
  | nil => rfl
  | cons line lines ih => exact content_cons_congr (isComment_chop tabs line) (squash_chop tabs line) ih

theorem Span.isBreak_lines {span : Span} {text line : Str} (hline : line ∈ span.lines text) {c : Nat} (hc : c ∈ line) :
    isBreak c = false :=
  (mem_of_mem_splitLines (List.mem_of_mem_take (List.mem_of_mem_drop hline)) hc).2

theorem search_strip_body (span : Span) (text : Str) : search (matchKind alnum isName) (strip (span.body text)) =
    search (matchKind alnum isName) (content (span.lines text)) := by
  have hbreak : ∀ line ∈ (span.lines text).map (chop span.tabs), ∀ c ∈ line, isBreak c = false := by
    intro line hline c hc
    obtain ⟨raw, hraw, rfl⟩ := List.mem_map.mp hline
    refine span.isBreak_lines hraw ?_
    unfold chop at hc
    split_ifs at hc
    · exact (List.dropWhile_sublist _).subset hc
    · exact hc
  rw [search_strip, Span.body, content_splitLines_joinLines hbreak, content_map_chop]

/-! ### Lines with numbers -/

theorem map_fst_filter_zipIdx {lines : List Str} {start stop n : Nat} :
    ((lines.zipIdx n).filter fun entry => start ≤ entry.2 ∧ entry.2 < stop).map Prod.fst =
      (lines.take (stop - n)).drop (start - n) := by
  induction lines generalizing n with
  | nil => simp
  | cons line lines ih =>
    rw [List.zipIdx_cons, List.filter_cons]
    split_ifs with hn
    · obtain ⟨hstart, hstop⟩ := of_decide_eq_true hn
      have htake : stop - n = stop - (n + 1) + 1 := by omega
      have hdrop : start - n = 0 := by omega
      have hdrop' : start - (n + 1) = 0 := by omega
      rw [List.map_cons, ih, htake, hdrop, hdrop', List.take_succ_cons, List.drop_zero, List.drop_zero]
    · rw [ih]
      by_cases hstop : stop ≤ n
      · have htake : stop - n = 0 := by omega
        have htake' : stop - (n + 1) = 0 := by omega
        rw [htake, htake', List.take_zero, List.take_zero, List.drop_nil, List.drop_nil]
      · have hlt : n < start := by simpa [hstop] using hn
        have htake : stop - n = stop - (n + 1) + 1 := by omega
        have hdrop : start - n = start - (n + 1) + 1 := by omega
        rw [htake, hdrop, List.take_succ_cons, List.drop_succ_cons]

/-- A declaration inside a body is found in the body. -/
theorem search_body_of_inside {text : Str} {span : Span} {found : List (Nat × Nat)} (h : Declaration alnum text found)
    (hinside : Inside span found) : search (KIND_RE alnum) (strip (span.body text)) = true := by
  obtain ⟨first, block, rest, hkept, -, hnumbers, hsearch⟩ := exists_block_of_declaration h
  let inSpan : Str × Nat → Bool := fun entry => span.start ≤ entry.2 ∧ entry.2 < span.stop
  have hblock : block.filter inSpan = block := by
    refine List.filter_eq_self.mpr fun entry hentry => ?_
    obtain ⟨c, hc, hnumber⟩ := hnumbers entry hentry
    have hspan := hinside c hc
    rw [hnumber] at hspan
    exact decide_eq_true hspan
  have hlines : (span.lines text).filter (fun line => !isComment line) = ((keptLines text).filter inSpan).map Prod.fst := by
    have hspan : span.lines text = ((splitLines text).zipIdx.filter inSpan).map Prod.fst :=
      (map_fst_filter_zipIdx (n := 0)).symm
    rw [hspan, List.filter_map, keptLines, List.filter_filter, List.filter_filter]
    exact congrArg (List.map Prod.fst) (List.filter_congr fun entry _ => Bool.and_comm _ _)
  rw [KIND_RE_eq, search_strip_body, content, hlines, hkept, List.filter_append, List.filter_append, hblock,
    List.map_append, List.map_append]
  exact search_flatMap isKindName_nil hsearch

end narwhal.permissive_ingress_isolation
