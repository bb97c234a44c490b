import Narwhal.Lib.Fold
import Narwhal.Lib.Words

open jslib
open pylib (mapM_eq_some_iff)

namespace urllib

/-! The segments of the path of a URL whose scheme is `http` or `https`, as the client requests them and as the server
    reads them. -/

def isSlash (c : Char) : Bool := c == '/' || c == '\\'

/-- A tab or a line break is removed from the text of a URL. -/
def isRemoved (c : Char) : Bool := c == '\t' || c == '\n' || c == '\r'

def isPathEnd (c : Char) : Bool := c == '?' || c == '#'

/-- The path goes as far as the query or the fragment. -/
def pathText (s : Text) : Text := (s.filter fun c => !isRemoved c).takeWhile fun c => !isPathEnd c

/-- A segment with its escaped dots, in any letter case, read as dots. -/
def dots : Text → Option Nat
  | [] => some 0
  | '.' :: s => (dots s).map (· + 1)
  | '%' :: '2' :: c :: s => if c = 'e' ∨ c = 'E' then (dots s).map (· + 1) else none
  | _ => none

def isSingleDot (segment : Text) : Bool := dots segment = some 1

def isDoubleDot (segment : Text) : Bool := dots segment = some 2

/-- The segments after these; dots at the very end leave an empty one. -/
def resolve : List Text → List Text → List Text
  | stack, [] => stack
  | stack, segment :: rest =>
    let stack' := if isDoubleDot segment then stack.dropLast else if isSingleDot segment then stack else stack ++ [segment]
    if rest = [] ∧ (isDoubleDot segment ∨ isSingleDot segment) then stack' ++ [[]] else resolve stack' rest

/-- The segments that are requested for a text that is joined to a path with these segments. -/
def segments (base : List Text) (s : Text) : List Text := resolve base ((pathText s).splitOnP isSlash)

/-- How a server reads the escapes in a segment: a segment without any is read as it is, and one with some becomes shorter,
    or is refused. -/
structure Unescape where
  decode : Text → Option Text
  plain : ∀ s, '%' ∉ s → decode s = some s
  shrinks : ∀ s t, '%' ∈ s → decode s = some t → t.length < s.length

/-- No character is special in the path of a URL. -/
def isClean (s : Text) : Bool := s.all fun c => !isSlash c && !isRemoved c && !isPathEnd c && c != '%'

/-- A segment that the client and the server read as it is. -/
def isSegment (s : Text) : Bool := isClean s && !isSingleDot s && !isDoubleDot s

section

variable {base : List Text} {s t : Text}

theorem isClean_iff : isClean s = true ↔
    ∀ c ∈ s, isSlash c = false ∧ isRemoved c = false ∧ isPathEnd c = false ∧ c ≠ '%' := by
  simp [isClean, List.all_eq_true, and_assoc]

/-- What is left of the base, and what came after it. -/
theorem exists_resolve_eq (stack segs : List Text) : ∃ kept pushed, kept <+: stack ∧ resolve stack segs = kept ++ pushed ∧
    ∀ x ∈ pushed, x ∈ segs ∨ x = [] := by
  induction segs generalizing stack with
  | nil => exact ⟨stack, [], List.prefix_refl stack, (List.append_nil stack).symm, by simp⟩
  | cons segment rest ih =>
    obtain ⟨kept, pushed, hkept, heq, hpushed⟩ : ∃ kept pushed, kept <+: stack ∧
        (if isDoubleDot segment then stack.dropLast else if isSingleDot segment then stack else stack ++ [segment]) =
          kept ++ pushed ∧ ∀ x ∈ pushed, x = segment := by
      split
      · exact ⟨stack.dropLast, [], List.dropLast_prefix stack, (List.append_nil _).symm, by simp⟩
      · split
        · exact ⟨stack, [], List.prefix_refl stack, (List.append_nil _).symm, by simp⟩
        · exact ⟨stack, [segment], List.prefix_refl stack, rfl, by simp⟩
    simp only [resolve, heq]
    split
    · refine ⟨kept, pushed ++ [[]], hkept, List.append_assoc _ _ _, fun x hx => ?_⟩
      rcases List.mem_append.mp hx with hx | hx
      · exact .inl (hpushed x hx ▸ List.mem_cons_self)
      · exact .inr (List.mem_singleton.mp hx)
    · obtain ⟨kept', pushed', hkept', heq', hpushed'⟩ := ih (kept ++ pushed)
      have hrest : ∀ x ∈ pushed', x ∈ segment :: rest ∨ x = [] :=
        fun x hx => (hpushed' x hx).imp_left (List.mem_cons_of_mem segment)
      rcases List.prefix_or_prefix_of_prefix hkept' (List.prefix_append kept pushed) with hle | ⟨more, rfl⟩
      · exact ⟨kept', pushed', hle.trans hkept, heq', hrest⟩
      · rw [List.prefix_append_right_inj] at hkept'
        refine ⟨kept, more ++ pushed', hkept, by rw [heq', List.append_assoc], fun x hx => ?_⟩
        rcases List.mem_append.mp hx with hx | hx
        · exact .inl (hpushed x (hkept'.subset hx) ▸ List.mem_cons_self)
        · exact hrest x hx

/-- Segments without dots are added as they are. -/
theorem resolve_segments {segs : List Text} (h : ∀ x ∈ segs, isSingleDot x = false ∧ isDoubleDot x = false)
    (stack rest : List Text) : resolve stack (segs ++ rest) = resolve (stack ++ segs) rest := by
  induction segs generalizing stack with
  | nil => rw [List.nil_append, List.append_nil]
  | cons x segs ih =>
    rw [List.forall_mem_cons] at h
    simp only [List.cons_append, resolve, h.1.1, h.1.2, Bool.false_eq_true, or_self, and_false, if_false]
    rw [ih h.2, List.append_assoc]
    rfl

/-- The text of a path: segments, each followed by a slash, one more segment, and the last one. -/
def joined (lefts : List Text) (s last : Text) : Text := lefts.flatMap (· ++ ['/']) ++ (s ++ '/' :: last)

theorem pathText_append (h : isClean s = true) (t : Text) : pathText (s ++ t) = s ++ pathText t := by
  rw [isClean_iff] at h
  rw [pathText, List.filter_append, List.filter_eq_self.mpr fun c hc => by simp [(h c hc).2.1],
    List.takeWhile_append_of_pos fun c hc => by simp [(h c hc).2.2.1]]
  rfl

theorem pathText_slash (t : Text) : pathText ('/' :: t) = '/' :: pathText t := by
  simp [pathText, isRemoved, isPathEnd]

/-- The pieces of a joined path. -/
theorem splitOnP_pathText_joined {lefts : List Text} (hlefts : ∀ x ∈ lefts, isClean x = true) (s last : Text) :
    (pathText (joined lefts s last)).splitOnP isSlash = lefts ++ (pathText (s ++ '/' :: last)).splitOnP isSlash := by
  induction lefts with
  | nil => rfl
  | cons x lefts ih =>
    rw [List.forall_mem_cons] at hlefts
    have hcons : joined (x :: lefts) s last = x ++ '/' :: joined lefts s last := by
      simp [joined]
    rw [hcons, pathText_append hlefts.1, pathText_slash,
      List.splitOnP_append_cons_of_forall_mem (fun c hc => (isClean_iff.mp hlefts.1 c hc).1) '/' rfl, ih hlefts.2]
    rfl

/-- What a piece with an escape comes from. -/
theorem length_le_of_escape {last x : Text} (hlast : isClean last = true)
    (hx : x ∈ (pathText (s ++ '/' :: last)).splitOnP isSlash) (hescape : '%' ∈ x) : x.length ≤ s.length := by
  have hfilter : (s.filter fun c => !isRemoved c).length ≤ s.length := List.length_filter_le _ _
  have hpath : (pathText (s ++ '/' :: last) = pathText s) ∨
      pathText (s ++ '/' :: last) = (s.filter fun c => !isRemoved c) ++ '/' :: last := by
    have hrest := pathText_slash last
    rw [← List.append_nil last, pathText_append hlast] at hrest
    rw [pathText, List.filter_append, List.takeWhile_append]
    split
    · exact .inr (congrArg _ (by simpa [pathText] using hrest))
    · exact .inl rfl
  rcases hpath with hpath | hpath
  · rw [hpath] at hx
    have hprefix := (List.takeWhile_prefix (fun c => !isPathEnd c) (l := s.filter fun c => !isRemoved c)).length_le
    have hpiece := (piece_of_mem_splitOnP hx).1
    rw [pathText] at hpiece
    omega
  · rw [hpath, List.splitOnP_append_cons _ _ rfl, List.mem_append] at hx
    rcases hx with hx | hx
    · have hpiece := (piece_of_mem_splitOnP hx).1
      omega
    · rw [isClean_iff] at hlast
      exact absurd rfl (hlast '%' ((piece_of_mem_splitOnP hx).2 '%' hescape).1).2.2.2

/-- A segment in the middle of a path is read as it is exactly if nothing in it is special. -/
theorem segments_joined_iff (unescape : Unescape) {lefts : List Text} {last : Text}
    (hlefts : ∀ x ∈ last :: lefts, isSegment x = true) (base : List Text) (s : Text) :
    (∃ after, segments base (joined lefts s last) = base ++ after ∧
      after.mapM unescape.decode = some (lefts ++ [s, last])) ↔ isSegment s = true := by
  have hparts : ∀ x, isSegment x = true ↔ isClean x = true ∧ isSingleDot x = false ∧ isDoubleDot x = false := by
    intro x
    simp [isSegment, and_assoc]
  simp only [hparts] at hlefts ⊢
  rw [List.forall_mem_cons] at hlefts
  obtain ⟨⟨hlast, hlastDots⟩, hlefts⟩ := hlefts
  rw [segments, splitOnP_pathText_joined fun x hx => (hlefts x hx).1]
  have hclean : isClean s = true →
      resolve base (lefts ++ (pathText (s ++ '/' :: last)).splitOnP isSlash) =
        (if isDoubleDot s then (base ++ lefts).dropLast else if isSingleDot s then base ++ lefts else base ++ lefts ++ [s]) ++
          [last] := by
    intro hs
    have hpath : pathText last = last := by
      have happend := pathText_append hlast []
      simpa [pathText] using happend
    rw [pathText_append hs, pathText_slash, hpath,
      List.splitOnP_append_cons_of_forall_mem (fun c hc => (isClean_iff.mp hs c hc).1) '/' rfl,
      List.splitOnP_eq_singleton fun c hc => (isClean_iff.mp hlast c hc).1, resolve_segments fun x hx => (hlefts x hx).2]
    simp [resolve, hlastDots]
  constructor
  · rintro ⟨after, hresolve, hdecode⟩
    rw [mapM_eq_some_iff] at hdecode
    have hs : isClean s = true := by
      obtain ⟨kept, pushed, ⟨dropped, rfl⟩, heq, hpushed⟩ :=
        exists_resolve_eq base (lefts ++ (pathText (s ++ '/' :: last)).splitOnP isSlash)
      rw [heq, List.append_assoc, List.append_cancel_left_eq] at hresolve
      obtain ⟨x, hx, hdecoded⟩ : ∃ x ∈ after, unescape.decode x = some s := by
        rw [← List.mem_map, hdecode]
        simp
      have horigin := hpushed x (hresolve ▸ List.mem_append_right dropped hx)
      rw [List.mem_append] at horigin
      have hescape : '%' ∉ x := by
        intro hmem
        have hlt := unescape.shrinks x s hmem hdecoded
        rcases horigin with (hleft | hpiece) | rfl
        · exact absurd rfl (isClean_iff.mp (hlefts x hleft).1 '%' hmem).2.2.2
        · exact absurd (length_le_of_escape hlast hpiece hmem) (by omega)
        · cases hmem
      rw [unescape.plain x hescape] at hdecoded
      obtain rfl := Option.some.inj hdecoded
      rcases horigin with (hleft | hpiece) | rfl
      · exact (hlefts x hleft).1
      · rw [isClean_iff]
        intro c hc
        obtain ⟨hpath, hslash⟩ := (piece_of_mem_splitOnP hpiece).2 c hc
        rw [pathText] at hpath
        have hend := List.all_eq_true.mp List.all_takeWhile c hpath
        have hremoved := (List.mem_filter.mp ((List.takeWhile_sublist _).subset hpath)).2
        refine ⟨hslash, by simpa using hremoved, by simpa using hend, ?_⟩
        rintro rfl
        exact hescape hc
      · rfl
    refine ⟨hs, ?_⟩
    rw [hclean hs] at hresolve
    have hlength := congrArg List.length hdecode
    have htotal := congrArg List.length hresolve
    simp only [List.length_map, List.length_append, List.length_cons, List.length_nil] at hlength htotal
    cases hdouble : isDoubleDot s with
    | true =>
      simp only [hdouble, if_true, List.length_dropLast, List.length_append] at htotal
      omega
    | false =>
      cases hsingle : isSingleDot s with
      | true =>
        simp only [hdouble, hsingle, Bool.false_eq_true, if_false, if_true, List.length_append] at htotal
        omega
      | false => exact ⟨rfl, rfl⟩
  · rintro ⟨hs, hsingle, hdouble⟩
    refine ⟨lefts ++ [s, last], ?_, ?_⟩
    · rw [hclean hs, hsingle, hdouble]
      simp
    · rw [mapM_eq_some_iff]
      refine List.map_congr_left fun x hx => unescape.plain x fun hmem => ?_
      have hx : isClean x = true := by
        rcases List.mem_append.mp hx with hx | hx
        · exact (hlefts x hx).1
        · rcases List.mem_pair.mp hx with rfl | rfl
          · exact hs
          · exact hlast
      exact absurd rfl (isClean_iff.mp hx '%' hmem).2.2.2

end

end urllib
