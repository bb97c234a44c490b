import Narwhal.Ci.PolicyDocuments

open pylib

namespace narwhal.permissive_ingress_isolation

variable {alnum : Nat → Bool}

/-! ### The order of the heredocs -/

/-- Heredocs one after the other between two lines, with at least the last line of one and the first
    of the next between their bodies. -/
def Ordered (start stop : Nat) : List Span → Prop
  | [] => True
  | span :: rest => start ≤ span.start ∧ span.start ≤ span.stop ∧ span.stop ≤ stop ∧ Ordered (span.stop + 2) stop rest

theorem Ordered.mono {start start' stop : Nat} (hle : start ≤ start') {spans : List Span} (h : Ordered start' stop spans) :
    Ordered start stop spans := by
  cases spans with
  | nil => trivial
  | cons span rest => exact ⟨hle.trans h.1, h.2⟩

theorem ordered_spansFrom (alnum : Nat → Bool) (lines : List Str) : ∀ i,
    Ordered (i + 1) (i + lines.length) (spansFrom alnum none i lines) ∧
    ∀ start tabs delim, start ≤ i →
      Ordered start (i + lines.length) (spansFrom alnum (some (start, tabs, delim)) i lines) := by
  induction lines with
  | nil => exact fun i => ⟨trivial, fun start tabs delim h => ⟨le_rfl, h, le_rfl, trivial⟩⟩
  | cons line lines ih =>
    intro i
    have hlength : i + (line :: lines).length = i + 1 + lines.length := by rw [List.length_cons]; omega
    rw [hlength]
    constructor
    · rw [spansFrom]
      cases opening alnum line with
      | none => exact (ih (i + 1)).1.mono (by omega)
      | some found => exact (ih (i + 1)).2 (i + 1) found.1 found.2 le_rfl
    · intro start tabs delim h
      rw [spansFrom]
      split_ifs
      · have hle : i ≤ i + 1 + lines.length := by omega
        exact ⟨le_rfl, h, hle, (ih (i + 1)).1⟩
      · exact (ih (i + 1)).2 start tabs delim (by omega)

theorem Ordered.of_append {start stop : Nat} {before after : List Span} {span : Span}
    (h : Ordered start stop (before ++ span :: after)) :
    start ≤ span.start ∧ span.start ≤ span.stop ∧ span.stop ≤ stop ∧ ∀ other ∈ before, other.stop + 2 ≤ span.start := by
  induction before generalizing start with
  | nil => exact ⟨h.1, h.2.1, h.2.2.1, by simp⟩
  | cons other before ih =>
    obtain ⟨hstart, hother, -, hrest⟩ := h
    obtain ⟨hspan, hstop, hle, hbefore⟩ := ih hrest
    exact ⟨by omega, hstop, hle, List.forall_mem_cons.mpr ⟨hspan, hbefore⟩⟩

theorem ordered_spans (alnum : Nat → Bool) (text : Str) : Ordered 1 (splitLines text).length (spans alnum text) := by
  have h := (ordered_spansFrom alnum (splitLines text) 0).1
  rw [Nat.zero_add, Nat.zero_add] at h
  exact h

/-! ### The text from a line on -/

/-- The text from the line of this number on. -/
def textFrom : Nat → Str → Str
  | 0, text => text
  | n + 1, text => textFrom n (dropLine text)

theorem splitLines_textFrom (n : Nat) (text : Str) : splitLines (textFrom n text) = (splitLines text).drop n := by
  induction n generalizing text with
  | zero => rfl
  | succ n ih =>
    rw [textFrom, ih]
    by_cases h : text = []
    · subst h
      simp [dropLine, splitLines, splitLinesFrom]
    · rw [splitLines_eq_cons h, List.drop_succ_cons]

theorem textFrom_add (n m : Nat) (text : Str) : textFrom (n + m) text = textFrom m (textFrom n text) := by
  induction n generalizing text with
  | zero => rw [Nat.zero_add, textFrom]
  | succ n ih => rw [Nat.succ_add, textFrom, ih, textFrom]

/-- The first line of a text is followed by a line break, or nothing. -/
theorem exists_first_line (text : Str) : ∃ front, text = front ++ dropLine text ∧ (text ≠ [] → front ≠ []) ∧
    (dropLine text ≠ [] → ∀ c ∈ front.getLast?, isBreak c = true) := by
  induction text with
  | nil => exact ⟨[], rfl, by simp, by simp [dropLine]⟩
  | cons c text ih =>
    rw [dropLine]
    split_ifs with hc hcr
    · obtain ⟨rfl, hlf⟩ := hcr
      cases text with
      | nil => cases hlf
      | cons d text =>
        obtain rfl := Option.some.inj hlf
        exact ⟨[13, 10], rfl, by simp, fun _ => by simp [isBreak]⟩
    · exact ⟨[c], rfl, by simp, fun _ => by simpa using hc⟩
    · obtain ⟨front, htext, hne, hlast⟩ := ih
      refine ⟨c :: front, by rw [List.cons_append, ← htext], by simp, fun hrest d hd => ?_⟩
      have hfront : front ≠ [] := hne (by rintro rfl; exact hrest rfl)
      rw [List.getLast?_cons_of_ne_nil hfront] at hd
      exact hlast hrest d hd

theorem textFrom_suffix (n : Nat) (text : Str) : textFrom n text <:+ text := by
  induction n generalizing text with
  | zero => exact List.suffix_rfl
  | succ n ih =>
    obtain ⟨front, htext, -⟩ := exists_first_line text
    exact (ih _).trans ⟨front, htext.symm⟩

/-! ### Content of parts of a text -/

theorem content_splitLines_lf (rest : Str) : content (splitLines (10 :: rest)) = content (splitLines rest) := rfl

theorem content_cons (line : Str) (lines : List Str) : content (line :: lines) = content [line] ++ content lines :=
  content_append [line] lines

/-- A line feed that follows a carriage return belongs to it. -/
theorem dropLine_append {front : Str} (hne : front ≠ []) (h : ∀ c ∈ front.getLast?, isBreak c = true) (rest : Str) :
    (front ++ rest).takeWhile (fun c => !isBreak c) = front.takeWhile (fun c => !isBreak c) ∧
    (dropLine (front ++ rest) = dropLine front ++ rest ∨
      dropLine front = [] ∧ rest = 10 :: dropLine (front ++ rest)) := by
  induction front with
  | nil => exact absurd rfl hne
  | cons c front ih =>
    rw [List.cons_append, List.takeWhile_cons, List.takeWhile_cons, dropLine, dropLine]
    cases hc : isBreak c with
    | true =>
      refine ⟨rfl, ?_⟩
      rw [if_pos rfl, if_pos rfl]
      cases front with
      | cons d front =>
        refine .inl ?_
        by_cases hcr : c = 13 ∧ (d :: front).head? = some 10
        · have hcr' : c = 13 ∧ (d :: front ++ rest).head? = some 10 := hcr
          rw [if_pos hcr, if_pos hcr']
          rfl
        · have hcr' : ¬ (c = 13 ∧ (d :: front ++ rest).head? = some 10) := hcr
          rw [if_neg hcr, if_neg hcr']
      | nil =>
        rw [List.nil_append]
        by_cases hcr : c = 13 ∧ rest.head? = some 10
        · obtain ⟨rest, rfl⟩ := List.head?_eq_some_iff.mp hcr.2
          exact .inr ⟨by simp, by simp [hcr.1]⟩
        · exact .inl (by simp [hcr])
    | false =>
      have hfront : front ≠ [] := by
        rintro rfl
        rw [h c rfl] at hc
        cases hc
      rw [List.getLast?_cons_of_ne_nil hfront] at h
      obtain ⟨htake, hdrop⟩ := ih hfront h
      exact ⟨congrArg (c :: ·) htake, hdrop⟩

theorem getLast?_of_suffix {s t : Str} (h : s <:+ t) (hne : s ≠ []) : s.getLast? = t.getLast? := by
  obtain ⟨front, rfl⟩ := h
  rw [List.getLast?_append_of_ne_nil _ hne]

/-- The content of a text is that of its parts, where the first one ends with a line break. -/
theorem content_splitLines_append {front : Str} (h : ∀ c ∈ front.getLast?, isBreak c = true) (rest : Str) :
    content (splitLines (front ++ rest)) = content (splitLines front) ++ content (splitLines rest) := by
  by_cases hne : front = []
  · subst hne
    rfl
  · obtain ⟨htake, hdrop⟩ := dropLine_append hne h rest
    obtain ⟨line, hfront, hline, -⟩ := exists_first_line front
    have hshort : (dropLine front).length < front.length := by
      have hpos := List.length_pos_iff.mpr (hline hne)
      have hlength := congrArg List.length hfront
      rw [List.length_append] at hlength
      omega
    have hlast : ∀ c ∈ (dropLine front).getLast?, isBreak c = true := by
      intro c hc
      by_cases hnil : dropLine front = []
      · rw [hnil] at hc
        cases hc
      · rw [getLast?_of_suffix ⟨line, hfront.symm⟩ hnil] at hc
        exact h c hc
    rw [splitLines_eq_cons (by simp [hne]), splitLines_eq_cons hne, htake,
      content_cons _ (splitLines (dropLine (front ++ rest))), content_cons _ (splitLines (dropLine front)), List.append_assoc]
    refine congrArg (content [front.takeWhile fun c => !isBreak c] ++ ·) ?_
    obtain hdrop | ⟨hnil, hrest⟩ := hdrop
    · rw [hdrop, content_splitLines_append hlast rest]
    · rw [hnil, ← content_splitLines_lf, ← hrest]
      rfl
termination_by front.length

/-! ### Taking out a body -/

theorem dropLine_line_append {line : Str} (h : ∀ c ∈ line, isBreak c = false) (rest : Str) :
    dropLine (line ++ rest) = dropLine rest := by
  induction line with
  | nil => rfl
  | cons c line ih =>
    obtain ⟨hc, hline⟩ := List.forall_mem_cons.mp h
    rw [List.cons_append, dropLine, hc, if_neg Bool.false_ne_true, ih hline]

/-- What is left of the first line of a text, once its characters are taken out, is an empty line. -/
theorem content_after_line {text rest : Str} (h : text = text.takeWhile (fun c => !isBreak c) ++ rest) :
    content (splitLines rest) = content (splitLines (dropLine text)) ∧ dropLine text <:+ rest := by
  have hline : ∀ c ∈ text.takeWhile (fun c => !isBreak c), isBreak c = false := by
    intro c hc
    simpa using List.mem_takeWhile_imp hc
  have hrest : rest = text.dropWhile fun c => !isBreak c := by
    refine List.append_cancel_left (h.symm.trans ?_)
    rw [List.takeWhile_append_dropWhile]
  have hdrop : dropLine text = dropLine rest := by
    rw [h, dropLine_line_append hline]
  have hsuffix := textFrom_suffix 1 rest
  rw [hdrop]
  refine ⟨?_, hsuffix⟩
  cases hcases : rest with
  | nil => rfl
  | cons c tail =>
    have hbreak : isBreak c = true := by
      have hnot := List.head?_dropWhile_not (fun c => !isBreak c) text
      rw [← hrest, hcases] at hnot
      simpa using hnot
    rw [splitLines_eq_cons (by simp), List.takeWhile_cons, if_neg (by simp [hbreak])]
    rfl

/-- Once the first lines of a text are taken out, the content is that of the lines behind them. -/
theorem content_after_lines {m : Nat} (hm : 0 < m) {text rest : Str}
    (h : text = joinLines ((splitLines text).take m) ++ rest) :
    content (splitLines rest) = content ((splitLines text).drop m) ∧ textFrom m text <:+ rest := by
  induction m generalizing text rest with
  | zero => omega
  | succ m ih =>
    by_cases hne : text = []
    · obtain ⟨-, rfl⟩ := List.append_eq_nil_iff.mp (h.symm.trans hne)
      rw [hne]
      refine ⟨by simp [splitLines, splitLinesFrom], ?_⟩
      exact textFrom_suffix _ _
    · have hlines := splitLines_eq_cons hne
      have hsingle : joinLines ((splitLines text).take (m + 1)) = text.takeWhile (fun c => !isBreak c) →
          (splitLines (dropLine text)).drop m = splitLines (dropLine text) ∨ dropLine text = [] →
          content (splitLines rest) = content ((splitLines text).drop (m + 1)) ∧ textFrom (m + 1) text <:+ rest := by
        intro hjoin hdrop
        rw [hjoin] at h
        obtain ⟨hcontent, hsuffix⟩ := content_after_line h
        rw [hlines, List.drop_succ_cons, hcontent]
        refine ⟨?_, (textFrom_suffix m _).trans hsuffix⟩
        obtain hdrop | hnil := hdrop
        · rw [hdrop]
        · simp [hnil, splitLines, splitLinesFrom]
      cases hmore : (splitLines (dropLine text)).take m with
      | nil =>
        refine hsingle ?_ ?_
        · rw [hlines, List.take_succ_cons, hmore]
          simp [joinLines]
        · obtain hzero | hnil := List.take_eq_nil_iff.mp hmore
          · exact .inl (by rw [hzero, List.drop_zero])
          · refine .inr ?_
            by_contra hdrop
            rw [splitLines_eq_cons hdrop] at hnil
            cases hnil
      | cons next more =>
        have hpos : 0 < m := by
          by_contra hzero
          have hm0 : m = 0 := by omega
          rw [hm0, List.take_zero] at hmore
          cases hmore
        have hjoin : joinLines ((splitLines text).take (m + 1)) =
            text.takeWhile (fun c => !isBreak c) ++ 10 :: joinLines ((splitLines (dropLine text)).take m) := by
          rw [hlines, List.take_succ_cons, hmore, joinLines_cons_cons]
        have hline : ∀ c ∈ text.takeWhile (fun c => !isBreak c), isBreak c = false := by
          intro c hc
          simpa using List.mem_takeWhile_imp hc
        have hdrop : dropLine text = joinLines ((splitLines (dropLine text)).take m) ++ rest := by
          rw [hjoin, List.append_assoc, List.cons_append] at h
          exact (congrArg dropLine h).trans (dropLine_line_append hline _)
        obtain ⟨hcontent, hsuffix⟩ := ih hpos hdrop
        rw [hlines, List.drop_succ_cons]
        exact ⟨hcontent, hsuffix⟩

/-! ### Lines that are left -/

/-- The content of the lines with these numbers, from a number on. -/
def part (keep : Nat → Bool) : Nat → List Str → Str
  | _, [] => []
  | i, line :: rest => (if keep i then content [line] else []) ++ part keep (i + 1) rest

theorem part_append (keep : Nat → Bool) (i : Nat) (a b : List Str) :
    part keep i (a ++ b) = part keep i a ++ part keep (i + a.length) b := by
  induction a generalizing i with
  | nil => rfl
  | cons line a ih =>
    have hlength : i + (line :: a).length = i + 1 + a.length := by rw [List.length_cons]; omega
    rw [List.cons_append, part, part, ih, hlength, List.append_assoc]

theorem part_congr {keep keep' : Nat → Bool} {i : Nat} {lines : List Str}
    (h : ∀ j, i ≤ j → j < i + lines.length → keep j = keep' j) : part keep i lines = part keep' i lines := by
  induction lines generalizing i with
  | nil => rfl
  | cons line lines ih =>
    rw [List.length_cons] at h
    rw [part, part, h i le_rfl (by omega), ih fun j hij hj => h j (by omega) (by omega)]

theorem part_true (i : Nat) (lines : List Str) : part (fun _ => true) i lines = content lines := by
  induction lines generalizing i with
  | nil => rfl
  | cons line lines ih => rw [part, if_pos rfl, ih, ← content_cons]

theorem part_false (i : Nat) (lines : List Str) : part (fun _ => false) i lines = [] := by
  induction lines generalizing i with
  | nil => rfl
  | cons line lines ih => rw [part, if_neg Bool.false_ne_true, ih, List.nil_append]

theorem part_eq_flatMap (keep : Nat → Bool) (i : Nat) (lines : List Str) : part keep i lines =
    ((((lines.zipIdx i).filter fun entry => !isComment entry.1).filter fun entry => keep entry.2).map Prod.fst).flatMap
      (squash true) := by
  induction lines generalizing i with
  | nil => rfl
  | cons line lines ih =>
    rw [part, ih, List.zipIdx_cons, List.filter_cons]
    cases hcomment : isComment line with
    | true => cases keep i <;> simp [content, hcomment]
    | false => cases hkeep : keep i <;> simp [content, hcomment, hkeep]

/-! ### Cuts in place -/

/-- The text without the bodies of some heredocs, each taken out where it occurs first. -/
def cuts (text : Str) (cut : List Span) : Str := cut.foldl (fun t span => removeFirst (span.raw text) t) text

/-- The body of the heredoc is taken out where it stands, or nothing is. -/
def CutInPlace (text : Str) (span : Span) (t : Str) : Prop :=
  removeFirst (span.raw text) t = t ∨ ∃ front rest, t = front ++ textFrom span.start text ∧
    textFrom span.start text = span.raw text ++ rest ∧ removeFirst (span.raw text) t = front ++ rest

/-- No cut takes anything out but the body that it is for. -/
def InPlace (alnum : Nat → Bool) (text : Str) : Prop :=
  ∀ before span after, spans alnum text = before ++ span :: after → CutInPlace text span (cuts text before)

theorem outside_eq_cuts (text : Str) : outside alnum text = cuts text (spans alnum text) := by
  rw [outside, heredocs, List.foldl_map, cuts]

/-- After some cuts, the text from the last of them on is as it was, and lines are missing from the
    bodies only. -/
structure CutState (text : Str) (cut : List Span) (keep : Nat → Bool) : Prop where
  kept : ∀ i, (∀ span ∈ cut, ¬ (span.start ≤ i ∧ i < span.stop)) → keep i = true
  content_eq : content (splitLines (cuts text cut)) = part keep 0 (splitLines text)
  suffix : ∀ n, (∀ span ∈ cut, span.stop ≤ n) → textFrom n text <:+ cuts text cut

theorem removeFirst_nil (t : Str) : removeFirst [] t = t := by
  cases t <;> simp [removeFirst]

theorem textFrom_suffix_of_le {n m : Nat} (h : n ≤ m) (text : Str) : textFrom m text <:+ textFrom n text := by
  obtain ⟨k, rfl⟩ := Nat.exists_eq_add_of_le h
  rw [textFrom_add]
  exact textFrom_suffix k _

theorem Span.lines_eq (span : Span) (text : Str) :
    span.lines text = (splitLines (textFrom span.start text)).take (span.stop - span.start) := by
  rw [splitLines_textFrom, Span.lines, List.drop_take]

section

variable {text : Str} {cut : List Span} {keep : Nat → Bool} {span : Span}

theorem CutState.of_same (h : CutState text cut keep) (hsame : cuts text (cut ++ [span]) = cuts text cut) :
    CutState text (cut ++ [span]) keep where
  kept i hi := h.kept i fun other hother => hi other (List.mem_append_left _ hother)
  content_eq := by rw [hsame, h.content_eq]
  suffix n hn := by
    rw [hsame]
    exact h.suffix n fun other hother => hn other (List.mem_append_left _ hother)

/-- What stands in front of a body ends with a line break. -/
theorem CutState.break_before (h : CutState text cut keep) (hstart : 0 < span.start)
    (hcut : ∀ other ∈ cut, other.stop + 2 ≤ span.start) {front : Str}
    (ht : cuts text cut = front ++ textFrom span.start text)
    (hne : textFrom span.start text ≠ []) : ∀ c ∈ front.getLast?, isBreak c = true := by
  obtain ⟨n, hn⟩ : ∃ n, span.start = n + 1 := ⟨span.start - 1, by omega⟩
  have hstop : ∀ other ∈ cut, other.stop ≤ n := by
    intro other hother
    have := hcut other hother
    omega
  have hnext : textFrom span.start text = dropLine (textFrom n text) := by rw [hn, textFrom_add, textFrom, textFrom]
  obtain ⟨before, hbefore⟩ := h.suffix n hstop
  obtain ⟨line, hline, hlineNe, hlast⟩ := exists_first_line (textFrom n text)
  have hfront : front = before ++ line := by
    rw [← hbefore, hline, ← hnext, ← List.append_assoc] at ht
    exact (List.append_cancel_right ht).symm
  rw [hnext] at hne
  have hne' : line ≠ [] := hlineNe (by rintro hnil; rw [hnil] at hne; exact hne rfl)
  rw [hfront, List.getLast?_append_of_ne_nil _ hne']
  exact hlast hne

/-- In front of a body, the content is that of the lines that are left there. -/
theorem CutState.content_front (h : CutState text cut keep) (hlength : span.start ≤ (splitLines text).length)
    (hcut : ∀ other ∈ cut, other.stop + 2 ≤ span.start) {front : Str}
    (ht : cuts text cut = front ++ textFrom span.start text)
    (hlast : ∀ c ∈ front.getLast?, isBreak c = true) :
    content (splitLines front) = part keep 0 ((splitLines text).take span.start) := by
  have hbehind : part keep span.start ((splitLines text).drop span.start) = content ((splitLines text).drop span.start) := by
    rw [← part_true span.start]
    refine part_congr fun j hj _ => h.kept j fun other hother hin => ?_
    have := hcut other hother
    omega
  have hlines := h.content_eq
  rw [ht, content_splitLines_append hlast, splitLines_textFrom, ← List.take_append_drop span.start (splitLines text),
    part_append, List.length_take_of_le hlength, Nat.zero_add, List.take_append_drop, hbehind] at hlines
  exact List.append_cancel_right hlines

/-- The lines that are kept once those of a body are not. -/
def without (keep : Nat → Bool) (span : Span) (i : Nat) : Bool := keep i && !(span.start ≤ i && i < span.stop)

theorem without_of_not_mem {i : Nat} (h : ¬ (span.start ≤ i ∧ i < span.stop)) : without keep span i = keep i := by
  have hspan : (decide (span.start ≤ i) && decide (i < span.stop)) = false := by
    rw [← Bool.decide_and, decide_eq_false h]
  rw [without, hspan, Bool.not_false, Bool.and_true]

theorem part_without {lines : List Str} (hstop : span.start ≤ span.stop) (hlength : span.stop ≤ lines.length)
    (hkept : ∀ j, span.stop ≤ j → keep j = true) : part (without keep span) 0 lines =
      part keep 0 (lines.take span.start) ++ content (lines.drop span.stop) := by
  have htake : (lines.take span.start).length = span.start := List.length_take_of_le (hstop.trans hlength)
  have hlines : ((lines.take span.stop).drop span.start).length = span.stop - span.start := by
    rw [List.length_drop, List.length_take_of_le hlength]
  have hadd : span.start + (span.stop - span.start) = span.stop := by omega
  have hsplit : lines = lines.take span.start ++ ((lines.take span.stop).drop span.start ++ lines.drop span.stop) := by
    have hfront : lines.take span.stop = lines.take span.start ++ (lines.take span.stop).drop span.start := by
      have hparts := (List.take_append_drop span.start (lines.take span.stop)).symm
      rwa [List.take_take, Nat.min_eq_left hstop] at hparts
    rw [← List.append_assoc, ← hfront, List.take_append_drop]
  have hbefore : part (without keep span) 0 (lines.take span.start) = part keep 0 (lines.take span.start) :=
    part_congr fun j _ hj => without_of_not_mem (by omega)
  have hbody : part (without keep span) span.start ((lines.take span.stop).drop span.start) = [] := by
    rw [← part_false span.start ((lines.take span.stop).drop span.start)]
    refine part_congr fun j hj hj' => ?_
    have hlt : j < span.stop := by omega
    rw [without, decide_eq_true hj, decide_eq_true hlt, Bool.and_self, Bool.not_true, Bool.and_false]
  have hbehind : part (without keep span) span.stop (lines.drop span.stop) = content (lines.drop span.stop) := by
    rw [← part_true span.stop]
    exact part_congr fun j hj _ => by rw [without_of_not_mem (by omega), hkept j hj]
  rw [← hbefore, ← hbehind]
  conv_lhs => rw [hsplit]
  rw [part_append, part_append, htake, hlines, Nat.zero_add, hadd, hbody, List.nil_append]

theorem CutState.concat (h : CutState text cut keep) (hstart : 0 < span.start) (hstop : span.start ≤ span.stop)
    (hlength : span.stop ≤ (splitLines text).length) (hcut : ∀ other ∈ cut, other.stop + 2 ≤ span.start)
    (hplace : CutInPlace text span (cuts text cut)) : ∃ keep', CutState text (cut ++ [span]) keep' := by
  have hstep : cuts text (cut ++ [span]) = removeFirst (span.raw text) (cuts text cut) := by
    rw [cuts, List.foldl_concat, cuts]
  obtain hsame | ⟨front, rest, ht, hbody, hremoved⟩ := hplace
  · exact ⟨keep, h.of_same (hstep.trans hsame)⟩
  by_cases hempty : span.start = span.stop
  · have hraw : span.raw text = [] := by
      rw [Span.raw, Span.lines_eq, hempty, Nat.sub_self, List.take_zero]
      rfl
    exact ⟨keep, h.of_same (by rw [hstep, hraw, removeFirst_nil])⟩
  by_cases hnil : textFrom span.start text = []
  · obtain ⟨-, rfl⟩ := List.append_eq_nil_iff.mp (hbody.symm.trans hnil)
    exact ⟨keep, h.of_same (by rw [hstep, hremoved, ht, hnil])⟩
  have hlast := h.break_before hstart hcut ht hnil
  have hfront := h.content_front (hstop.trans hlength) hcut ht hlast
  have hadd : span.stop = span.start + (span.stop - span.start) := by omega
  rw [Span.raw, Span.lines_eq] at hbody
  obtain ⟨hrest, hsuffix⟩ := content_after_lines (by omega) hbody
  rw [splitLines_textFrom, List.drop_drop, ← hadd] at hrest
  rw [← textFrom_add, ← hadd] at hsuffix
  refine ⟨without keep span, ?_, ?_, ?_⟩
  · intro i hi
    have hkeep := h.kept i fun other hother => hi other (List.mem_append_left _ hother)
    rw [without_of_not_mem (hi span (by simp)), hkeep]
  · have hkept : ∀ j, span.stop ≤ j → keep j = true := by
      refine fun j hj => h.kept j fun other hother hin => ?_
      have := hcut other hother
      omega
    rw [hstep, hremoved, content_splitLines_append hlast, hfront, hrest, part_without hstop hlength hkept]
  · intro n hn
    rw [hstep, hremoved]
    have hle := hn span (by simp)
    exact ((textFrom_suffix_of_le hle text).trans hsuffix).trans (List.suffix_append _ _)

theorem cutState_of_inPlace {alnum : Nat → Bool} (h : InPlace alnum text) {cut after : List Span}
    (hspans : spans alnum text = cut ++ after) : ∃ keep, CutState text cut keep := by
  induction cut using List.reverseRecOn generalizing after with
  | nil =>
    refine ⟨fun _ => true, fun _ _ => rfl, (part_true 0 _).symm, fun n _ => textFrom_suffix n text⟩
  | append_singleton cut span ih =>
    rw [List.append_assoc, List.singleton_append] at hspans
    obtain ⟨keep, hkeep⟩ := ih hspans
    have hordered := ordered_spans alnum text
    rw [hspans] at hordered
    obtain ⟨hstart, hstop, hlength, hcut⟩ := hordered.of_append
    exact hkeep.concat hstart hstop hlength hcut (h cut span after hspans)

/-- No declaration runs over the border of a body. -/
def Whole (alnum : Nat → Bool) (text : Str) : Prop :=
  ∀ found, Declaration alnum text found → ∀ span ∈ spans alnum text,
    Inside span found ∨ ∀ c ∈ found, ¬ (span.start ≤ c.2 ∧ c.2 < span.stop)

/-- After cuts in place a declaration outside the bodies is still there. -/
theorem search_outside {alnum : Nat → Bool} (hplace : InPlace alnum text) (hwhole : Whole alnum text)
    (h : ¬ Covered alnum text) : search (KIND_RE alnum) (strip (outside alnum text)) = true := by
  obtain ⟨found, hfound, hnone⟩ : ∃ found, Declaration alnum text found ∧
      ∀ span ∈ spans alnum text, ¬ Inside span found := by
    simpa only [Covered, not_forall, not_exists, not_and, exists_prop] using h
  obtain ⟨first, block, rest, hkept, -, hnumbers, hsearch⟩ := exists_block_of_declaration hfound
  obtain ⟨keep, hcut⟩ := cutState_of_inPlace hplace (List.append_nil (spans alnum text)).symm
  have hblock : block.filter (fun entry => keep entry.2) = block := by
    refine List.filter_eq_self.mpr fun entry hentry => hcut.kept entry.2 fun span hspan => ?_
    obtain ⟨c, hc, hnumber⟩ := hnumbers entry hentry
    obtain hinside | hfree := hwhole found hfound span hspan
    · exact absurd hinside (hnone span hspan)
    · rw [← hnumber]
      exact hfree c hc
  have hlines : content (splitLines (outside alnum text)) =
      (((keptLines text).filter fun entry => keep entry.2).map Prod.fst).flatMap (squash true) := by
    rw [outside_eq_cuts, hcut.content_eq, part_eq_flatMap, keptLines]
  rw [KIND_RE_eq, search_strip, hlines, hkept, List.filter_append, List.filter_append, hblock, List.map_append, List.map_append]
  exact search_flatMap isKindName_nil hsearch

end

end narwhal.permissive_ingress_isolation
