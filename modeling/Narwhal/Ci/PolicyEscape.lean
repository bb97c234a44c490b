import Mathlib.Data.List.TakeWhile
import Narwhal.Ci.PolicyLines

open pylib

namespace narwhal.permissive_ingress_isolation

variable {alnum : Nat → Bool} {isName : Str → Bool}

/-! ### The extent of a declaration -/

theorem isQuote_of_isWord {c : Nat} (h : isWord alnum c = true) : isQuote c = false := by
  by_contra hquote
  simp only [isQuote, Bool.not_eq_false, Bool.or_eq_true, beq_iff_eq] at hquote
  obtain rfl | rfl := hquote <;> simp [isWord] at h

theorem isSpace_of_isQuote {c : Nat} (h : isQuote c = true) : isSpace c = false := by
  simp only [isQuote, Bool.or_eq_true, beq_iff_eq] at h
  obtain rfl | rfl := h <;> rfl

theorem exists_quote (s : Str) : ∃ quote, s = quote ++ skipQuote s ∧ (∀ c ∈ quote, isSpace c = false) ∧
    ∀ t : Str, (∀ c ∈ t.head?, isQuote c = false) → skipQuote (quote ++ t) = t := by
  have hplain : ∀ t : Str, (∀ c ∈ t.head?, isQuote c = false) → skipQuote ([] ++ t) = t := by
    intro t ht
    cases t with
    | nil => rfl
    | cons c t => rw [List.nil_append, skipQuote, if_neg (by simp [ht c rfl])]
  cases s with
  | nil => exact ⟨[], rfl, by simp, hplain⟩
  | cons c s =>
    cases hc : isQuote c with
    | true => exact ⟨[c], by simp [skipQuote, hc], by simpa using isSpace_of_isQuote hc, fun t _ => by simp [skipQuote, hc]⟩
    | false => exact ⟨[], by simp [skipQuote, hc], by simp, hplain⟩

theorem head?_append_mem {s t : Str} {p : Nat → Prop} (hs : ∀ c ∈ s, p c) (ht : ∀ c ∈ t.head?, p c) :
    ∀ c ∈ (s ++ t).head?, p c := by
  intro c hc
  cases s with
  | nil => exact ht c hc
  | cons d s => exact hs c (by simp_all)

theorem dropWhile_append_of_head {p : Nat → Bool} {s t : Str} (hs : ∀ c ∈ s, p c = true)
    (ht : ∀ c ∈ t.head?, p c = false) : (s ++ t).dropWhile p = t := by
  rw [List.dropWhile_append_of_pos hs]
  cases t with
  | nil => rfl
  | cons c t => rw [List.dropWhile_cons, if_neg (by simp [ht c rfl])]

/-- The front part of a declaration leads to any name. -/
theorem exists_front_of_afterKind {s rest : Str} (h : afterKind s = some rest) : ∃ front, s = front ++ rest ∧
    front.head? = some 107 ∧
    ∀ t : Str, (∀ c ∈ t.head?, isSpace c = false ∧ isQuote c = false) → afterKind (front ++ t) = some t := by
  unfold afterKind at h
  split_ifs at h with hkind
  obtain ⟨tail, rfl⟩ := List.isPrefixOf_iff_prefix.mp hkind
  have hdrop : (lit "kind" ++ tail).drop 4 = tail := rfl
  rw [hdrop] at h
  unfold afterColon at h
  split at h
  next more hmore =>
    obtain rfl := Option.some.inj h
    obtain ⟨q, htail, -, hq⟩ := exists_quote tail
    obtain ⟨q', hafter, hq', hquote⟩ := exists_quote (more.dropWhile isSpace)
    have hcolon : skipQuote tail = (skipQuote tail).takeWhile isSpace ++ 58 :: more := by
      rw [← hmore, List.takeWhile_append_dropWhile]
    have hspaces : more = more.takeWhile isSpace ++ (q' ++ skipQuote (more.dropWhile isSpace)) := by
      rw [← hafter, List.takeWhile_append_dropWhile]
    refine ⟨lit "kind" ++ (q ++ ((skipQuote tail).takeWhile isSpace ++ 58 :: (more.takeWhile isSpace ++ q'))), ?_, rfl,
      fun t ht => ?_⟩
    · simp only [List.append_assoc, List.cons_append]
      rw [← hspaces, ← hcolon, ← htail]
    · have hspace : ∀ s : Str, ∀ c ∈ s.takeWhile isSpace, isSpace c = true := fun s c hc => List.mem_takeWhile_imp hc
      have hfirst : ∀ c ∈ ((skipQuote tail).takeWhile isSpace ++ 58 :: (more.takeWhile isSpace ++ (q' ++ t))).head?,
          isQuote c = false := by
        refine head?_append_mem (fun c hc => ?_) fun c hc => by
          obtain rfl := Option.some.inj hc
          rfl
        by_contra hquote
        have hnot := isSpace_of_isQuote (Bool.not_eq_false _ ▸ hquote)
        rw [hspace _ c hc] at hnot
        cases hnot
      have hname : ∀ c ∈ (q' ++ t).head?, isSpace c = false := head?_append_mem hq' fun c hc => (ht c hc).1
      simp only [List.append_assoc, List.cons_append]
      rw [afterKind_kind, hq _ hfirst, dropWhile_append_of_head (hspace _) (by simp [isSpace]), afterColon,
        dropWhile_append_of_head (hspace _) hname, hquote t fun c hc => (ht c hc).2]
  next => cases h

/-- What is matched is a match in front of anything that does not go on with the name. -/
theorem exists_name_of_matchKind (hname : isName [] = false) {found after : Str}
    (h : matchKind alnum isName (found ++ after) = some found) :
    found.head? = some 107 ∧ (∀ c ∈ found.getLast?, isWord alnum c = true) ∧
      (∀ c ∈ after.head?, isWord alnum c = false) ∧
      ∀ t : Str, (∀ c ∈ t.head?, isWord alnum c = false) → (matchKind alnum isName (found ++ t)).isSome = true := by
  unfold matchKind at h
  cases hrest : afterKind (found ++ after) with
  | none => simp [hrest] at h
  | some rest =>
    simp only [hrest] at h
    split_ifs at h with hmatch
    obtain ⟨front, hfront, hkind, hleads⟩ := exists_front_of_afterKind hrest
    obtain ⟨word, hword⟩ : ∃ word, rest.takeWhile (isWord alnum) = word := ⟨_, rfl⟩
    obtain ⟨behind, hbehind⟩ : ∃ behind, rest.dropWhile (isWord alnum) = behind := ⟨_, rfl⟩
    have hsplit : found ++ after = (front ++ word) ++ behind := by
      rw [hfront, List.append_assoc, ← hword, ← hbehind, List.takeWhile_append_dropWhile]
    have hfound : front ++ word = found := by
      have hlength : (front ++ word ++ behind).length - behind.length = (front ++ word).length := by
        rw [List.length_append, Nat.add_sub_cancel_right]
      have htake := Option.some.inj h
      rw [hbehind, hsplit, hlength, List.take_left] at htake
      exact htake
    have hafter : after = behind := by
      rw [hfound] at hsplit
      exact List.append_cancel_left hsplit
    have hletters : ∀ c ∈ word, isWord alnum c = true := fun c hc => List.mem_takeWhile_imp (hword ▸ hc)
    have hne : word ≠ [] := by
      rintro rfl
      rw [hword, hname] at hmatch
      cases hmatch
    refine ⟨?_, ?_, ?_, fun t ht => ?_⟩
    · rw [← hfound, List.head?_append, hkind]
      rfl
    · intro c hc
      rw [← hfound, List.getLast?_append_of_ne_nil _ hne] at hc
      exact hletters c (List.mem_of_getLast? hc)
    · intro c hc
      have hnot := List.head?_dropWhile_not (isWord alnum) rest
      rw [hbehind, ← hafter, Option.mem_def.mp hc] at hnot
      exact hnot
    · have hfirst : ∀ c ∈ (word ++ t).head?, isSpace c = false ∧ isQuote c = false := by
        intro c hc
        obtain ⟨d, word, rfl⟩ := List.exists_cons_of_ne_nil hne
        obtain rfl := Option.some.inj hc
        have hd := hletters d List.mem_cons_self
        exact ⟨isSpace_of_isWord hd, isQuote_of_isWord hd⟩
      refine isSome_matchKind_iff.mpr ⟨word ++ t, ?_, ?_⟩
      · rw [← hfound, List.append_assoc, hleads _ hfirst]
      · have htake : (word ++ t).takeWhile (isWord alnum) = word := by
          rw [List.takeWhile_append_of_pos hletters]
          cases t with
          | nil => simp
          | cons c t => simp [ht c rfl]
        rw [htake, ← hword]
        exact hmatch

/-! ### Declarations and bodies -/

/-- The characters are a declaration of a policy in the text without its comment lines. -/
def Declaration (alnum : Nat → Bool) (text : Str) (found : List (Nat × Nat)) : Prop :=
  ∃ before after, marked (keptLines text) = before ++ (found ++ after) ∧
    KIND_RE alnum (chars (found ++ after)) = some (chars found)

def Inside (span : Span) (found : List (Nat × Nat)) : Prop := ∀ c ∈ found, span.start ≤ c.2 ∧ c.2 < span.stop

/-- Every declaration lies inside the body of a heredoc. -/
def Covered (alnum : Nat → Bool) (text : Str) : Prop :=
  ∀ found, Declaration alnum text found → ∃ span ∈ spans alnum text, Inside span found

def isKindName (word : Str) : Bool := isAuthenticationName word || isPolicyName word

theorem isKindName_nil : isKindName [] = false := by decide

theorem KIND_RE_eq : KIND_RE alnum = matchKind alnum isKindName := rfl

/-- A declaration is found in the lines it lies in. -/
theorem exists_block_of_declaration {text : Str} {found : List (Nat × Nat)} (h : Declaration alnum text found) :
    ∃ first block rest, keptLines text = first ++ block ++ rest ∧ found ≠ [] ∧
      (∀ entry ∈ block, ∃ c ∈ found, c.2 = entry.2) ∧
      search (KIND_RE alnum) (joinLines (block.map Prod.fst)) = true := by
  obtain ⟨before, after, hmarked, hmatch⟩ := h
  rw [chars_append] at hmatch
  obtain ⟨hfirst, hlast, hafter, hleads⟩ := exists_name_of_matchKind isKindName_nil hmatch
  have hne : found ≠ [] := by
    rintro rfl
    cases hfirst
  have hk : ∀ c ∈ found.head?, c.1 ≠ 10 := by
    intro c hc
    rw [chars, List.head?_map, Option.mem_def.mp hc] at hfirst
    rw [Option.some.inj hfirst]
    decide
  have hl : ∀ c ∈ found.getLast?, c.1 ≠ 10 := by
    intro c hc hlf
    have hword := hlast c.1 (by rw [chars, List.getLast?_map, Option.mem_def.mp hc]; rfl)
    rw [hlf] at hword
    simp [isWord] at hword
  obtain ⟨first, line, i, rest, col, hentries, hcut⟩ := exists_line_of_marked hmarked hne hk
  obtain ⟨block, rest', more, hblock, hblockNe, hnumbers, hjoin, hmore⟩ := exists_block_of_marked hcut hne hl
  obtain ⟨entry, others, rfl⟩ := List.exists_cons_of_ne_nil hblockNe
  obtain ⟨rfl, rfl⟩ := List.cons.inj hblock
  refine ⟨first, (line, i) :: others, rest', by simp [hentries], hne, ?_, ?_⟩
  · intro entry hentry
    obtain rfl | hentry := List.mem_cons.mp hentry
    · exact hnumbers (line.drop col, i) List.mem_cons_self
    · exact hnumbers entry (List.mem_cons_of_mem _ hentry)
  · have hline : joinLines (((line, i) :: others).map Prod.fst) =
        line.take col ++ joinLines (((line.drop col, i) :: others).map Prod.fst) := by
      cases others with
      | nil => simp [joinLines]
      | cons next others =>
        rw [List.map_cons, List.map_cons, List.map_cons, List.map_cons, joinLines_cons_cons, joinLines_cons_cons,
          ← List.append_assoc, List.take_append_drop]
    rw [hline, hjoin]
    refine search_append_left _ (search_of_isSome (hleads more fun c hc => ?_))
    obtain ⟨j, hj⟩ := hmore c hc
    exact hafter c (by rw [chars, List.head?_map, hj]; rfl)

end narwhal.permissive_ingress_isolation
