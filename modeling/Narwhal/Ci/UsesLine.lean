import Narwhal.Ci.ActionBump

open pylib

namespace narwhal.action_bump

/-! ### The parts of a line -/

def Blank (s : Str) : Prop := s ≠ [] ∧ ∀ c ∈ s, isSpace c = true

/-- The parts are what the pattern asks of each. -/
structure Uses.Valid (u : Uses) : Prop where
  lead : Blank u.lead
  marker : ∀ m ∈ u.marker, ∃ gap, m = 45 :: gap ∧ Blank gap
  gap : Blank u.gap
  ref : ∀ c ∈ u.ref, isRefChar c = true
  isRef : isRef u.ref = true
  sha : u.sha.length = 40 ∧ u.sha.all isLowerHex = true
  beforeHash : Blank u.beforeHash
  afterHash : Blank u.afterHash
  tag : ∀ c ∈ u.tag, isTagChar c = true
  isTag : isTag u.tag = true
  trail : ∀ c ∈ u.trail, isSpace c = true

def Uses.text (u : Uses) : Str := u.before ++ u.sha ++ u.between ++ u.tag ++ u.trail

section

variable {kind : Nat → Bool} {s a w rest : Str}

theorem takeWhile_append (ha : ∀ c ∈ a, kind c = true) (hrest : ∀ c ∈ rest.head?, kind c = false) :
    (a ++ rest).takeWhile kind = a ∧ (a ++ rest).dropWhile kind = rest := by
  induction a with
  | nil =>
    cases rest with
    | nil => exact ⟨rfl, rfl⟩
    | cons c rest => simp [hrest c rfl]
  | cons c a ih =>
    obtain ⟨htake, hdrop⟩ := ih fun d hd => ha d (List.mem_cons_of_mem c hd)
    simp [ha c List.mem_cons_self, htake, hdrop]

/-- Two texts that are equal are equal up to the first of a code point, and after it. -/
theorem eq_of_append_cons_eq {x : Nat} {a' rest' : Str} (ha : x ∉ a) (ha' : x ∉ a')
    (h : a ++ x :: rest = a' ++ x :: rest') : a = a' ∧ rest = rest' := by
  have hother : ∀ {t : Str}, x ∉ t → ∀ c ∈ t, (c != x) = true :=
    fun ht c hc => bne_iff_ne.mpr fun heq => ht (heq ▸ hc)
  have hfirst : ∀ t : Str, ∀ c ∈ (x :: t).head?, (c != x) = false := by
    rintro t c ⟨⟩
    simp
  obtain ⟨htake, hdrop⟩ := takeWhile_append (hother ha) (hfirst rest)
  obtain ⟨htake', hdrop'⟩ := takeWhile_append (hother ha') (hfirst rest')
  rw [h] at htake hdrop
  exact ⟨htake.symm.trans htake', List.tail_eq_of_cons_eq (hdrop.symm.trans hdrop')⟩

theorem cut_eq_some_iff :
    cut kind s = some (a, rest) ↔
      (a ≠ [] ∧ ∀ c ∈ a, kind c = true) ∧ (∀ c ∈ rest.head?, kind c = false) ∧ s = a ++ rest := by
  constructor
  · intro h
    unfold cut at h
    split at h
    · cases h
    · next hne =>
      cases h
      refine ⟨⟨hne, fun c hc => ?_⟩, fun c hc => ?_, List.takeWhile_append_dropWhile.symm⟩
      · exact List.all_eq_true.mp List.all_takeWhile c hc
      · have := List.head?_dropWhile_not kind s
        rw [hc] at this
        exact this
  · rintro ⟨⟨hne, ha⟩, hrest, rfl⟩
    obtain ⟨htake, hdrop⟩ := takeWhile_append ha hrest
    rw [cut, htake, hdrop, if_neg hne]

theorem cut_append (ha : a ≠ [] ∧ ∀ c ∈ a, kind c = true) (hrest : ∀ c ∈ rest.head?, kind c = false) :
    cut kind (a ++ rest) = some (a, rest) :=
  cut_eq_some_iff.mpr ⟨ha, hrest, rfl⟩

theorem word_eq_some_iff : word w s = some rest ↔ s = w ++ rest := by
  unfold word
  constructor
  · intro h
    split at h
    · next hw =>
      obtain ⟨tail, rfl⟩ := List.isPrefixOf_iff_prefix.mp hw
      simpa using h
    · cases h
  · rintro rfl
    simp

theorem cutSha_eq_some_iff :
    cutSha s = some (a, rest) ↔ (a.length = 40 ∧ a.all isLowerHex = true) ∧ s = a ++ rest := by
  unfold cutSha
  constructor
  · intro h
    split at h
    · next hsha =>
      cases h
      exact ⟨hsha, (List.take_append_drop 40 s).symm⟩
    · cases h
  · rintro ⟨⟨hlength, hhex⟩, rfl⟩
    rw [← hlength, List.take_left, List.drop_left, if_pos ⟨rfl, hhex⟩]

end

theorem cutMarker_eq_some {s rest : Str} {marker : Option Str} (h : cutMarker s = some (marker, rest)) :
    (∀ m ∈ marker, ∃ gap, m = 45 :: gap ∧ Blank gap) ∧ s = marker.getD [] ++ rest := by
  unfold cutMarker at h
  split at h
  · cases h
    exact ⟨by simp, rfl⟩
  · next tail htail =>
    obtain ⟨⟨gap, tail'⟩, hcut, hmarker⟩ := Option.map_eq_some_iff.mp h
    obtain ⟨rfl, rfl⟩ := Prod.mk.inj hmarker
    obtain ⟨hgap, -, rfl⟩ := cut_eq_some_iff.mp hcut
    refine ⟨fun m hm => ⟨gap, (Option.some.inj hm).symm, hgap⟩, ?_⟩
    rw [word_eq_some_iff.mp htail]
    rfl

theorem cutMarker_append {marker : Option Str} {rest : Str}
    (hmarker : ∀ m ∈ marker, ∃ gap, m = 45 :: gap ∧ Blank gap)
    (hrest : ∀ c ∈ rest.head?, isSpace c = false ∧ c ≠ 45) :
    cutMarker (marker.getD [] ++ rest) = some (marker, rest) := by
  cases marker with
  | none =>
    have hword : word [45] rest = none := by
      cases hw : word [45] rest with
      | none => rfl
      | some tail =>
        rw [word_eq_some_iff.mp hw] at hrest
        exact ((hrest 45 rfl).2 rfl).elim
    rw [Option.getD_none, List.nil_append, cutMarker, hword]
  | some m =>
    obtain ⟨gap, rfl, hgap⟩ := hmarker m rfl
    have hword : word [45] (45 :: gap ++ rest) = some (gap ++ rest) := word_eq_some_iff.mpr rfl
    have hcut : cut isSpace (gap ++ rest) = some (gap, rest) :=
      cut_eq_some_iff.mpr ⟨hgap, fun c hc => (hrest c hc).1, rfl⟩
    rw [Option.getD_some, cutMarker, hword]
    simp only [hcut, Option.map_some]

private theorem some_bind {α β : Type} (a : α) (f : α → Option β) : (some a >>= f) = f a := rfl

/-- A line that matches is the text of its parts. -/
theorem usesRe_eq_some {line : Str} {u : Uses} (h : usesRe line = some u) : u.Valid ∧ line = u.text := by
  unfold usesRe at h
  obtain ⟨⟨lead, s₁⟩, hlead, h⟩ := Option.bind_eq_some_iff.mp h
  obtain ⟨⟨marker, s₂⟩, hmarker, h⟩ := Option.bind_eq_some_iff.mp h
  obtain ⟨s₃, huses, h⟩ := Option.bind_eq_some_iff.mp h
  obtain ⟨⟨gap, s₄⟩, hgap, h⟩ := Option.bind_eq_some_iff.mp h
  obtain ⟨⟨ref, s₅⟩, href, h⟩ := Option.bind_eq_some_iff.mp h
  obtain ⟨s₆, hat, h⟩ := Option.bind_eq_some_iff.mp h
  obtain ⟨⟨sha, s₇⟩, hsha, h⟩ := Option.bind_eq_some_iff.mp h
  obtain ⟨⟨beforeHash, s₈⟩, hbefore, h⟩ := Option.bind_eq_some_iff.mp h
  obtain ⟨s₉, hhash, h⟩ := Option.bind_eq_some_iff.mp h
  obtain ⟨⟨afterHash, s₁₀⟩, hafter, h⟩ := Option.bind_eq_some_iff.mp h
  obtain ⟨⟨tag, trail⟩, htag, h⟩ := Option.bind_eq_some_iff.mp h
  dsimp only at h
  split at h
  case isFalse => cases h
  next htrail =>
  cases h
  obtain ⟨hleadBlank, -, rfl⟩ := cut_eq_some_iff.mp hlead
  obtain ⟨hmarkerBlank, rfl⟩ := cutMarker_eq_some hmarker
  obtain rfl := word_eq_some_iff.mp huses
  obtain ⟨hgapBlank, -, rfl⟩ := cut_eq_some_iff.mp hgap
  obtain ⟨href, hisRef⟩ := Option.filter_eq_some_iff.mp href
  obtain ⟨⟨-, hrefChars⟩, -, rfl⟩ := cut_eq_some_iff.mp href
  obtain rfl := word_eq_some_iff.mp hat
  obtain ⟨hshaHex, rfl⟩ := cutSha_eq_some_iff.mp hsha
  obtain ⟨hbeforeBlank, -, rfl⟩ := cut_eq_some_iff.mp hbefore
  obtain rfl := word_eq_some_iff.mp hhash
  obtain ⟨hafterBlank, -, rfl⟩ := cut_eq_some_iff.mp hafter
  obtain ⟨htag, hisTag⟩ := Option.filter_eq_some_iff.mp htag
  obtain ⟨⟨-, htagChars⟩, -, rfl⟩ := cut_eq_some_iff.mp htag
  refine ⟨⟨hleadBlank, hmarkerBlank, hgapBlank, hrefChars, hisRef, hshaHex, hbeforeBlank, hafterBlank, htagChars,
    hisTag, by simpa using htrail⟩, ?_⟩
  simp [Uses.text, Uses.before, Uses.between]

theorem isSpace_of_isAlnum {c : Nat} (h : isAlnum c = true) : isSpace c = false := by
  simp only [isAlnum, isDigit, isSpace, Bool.or_eq_true, Bool.and_eq_true, decide_eq_true_eq, Bool.or_eq_false_iff,
    Bool.and_eq_false_iff, decide_eq_false_iff_not, beq_eq_false_iff_ne] at *
  omega

theorem isSpace_of_isRefChar {c : Nat} (h : isRefChar c = true) : isSpace c = false := by
  simp only [isRefChar, Bool.or_eq_true, beq_iff_eq] at h
  obtain (((h | rfl) | rfl) | rfl) | rfl := h
  · exact isSpace_of_isAlnum h
  all_goals rfl

theorem isSpace_of_isTagChar {c : Nat} (h : isTagChar c = true) : isSpace c = false := by
  simp only [isTagChar, Bool.or_eq_true, beq_iff_eq] at h
  obtain ((h | rfl) | rfl) | rfl := h
  · exact isSpace_of_isAlnum h
  all_goals rfl

theorem isTagChar_of_isSpace {c : Nat} (h : isSpace c = true) : isTagChar c = false := by
  cases htag : isTagChar c with
  | false => rfl
  | true =>
    rw [isSpace_of_isTagChar htag] at h
    cases h

theorem isSpace_of_isLowerHex {c : Nat} (h : isLowerHex c = true) : isSpace c = false := by
  simp only [isLowerHex, isSpace, Bool.or_eq_true, Bool.and_eq_true, decide_eq_true_eq, Bool.or_eq_false_iff,
    Bool.and_eq_false_iff, decide_eq_false_iff_not, beq_eq_false_iff_ne] at *
  omega

/-- The first code point of a text that is not empty is one of it. -/
theorem head?_append {s rest : Str} {p : Nat → Prop} (hs : s ≠ []) (h : ∀ c ∈ s, p c) :
    ∀ c ∈ (s ++ rest).head?, p c := by
  cases s with
  | nil => exact (hs rfl).elim
  | cons c s =>
    rintro d hd
    exact h d (Option.some.inj hd ▸ List.mem_cons_self)

theorem isRef_ne_nil {ref : Str} (h : isRef ref = true) : ref ≠ [] := by
  rintro rfl
  cases h

theorem isTag_ne_nil {tag : Str} (h : isTag tag = true) : tag ≠ [] := by
  rintro rfl
  cases h

/-- The text of parts that are right is matched by these parts. -/
theorem Uses.Valid.usesRe {u : Uses} (h : u.Valid) : usesRe u.text = some u := by
  obtain ⟨lead, marker, gap, ref, sha, beforeHash, afterHash, tag, trail⟩ := u
  obtain ⟨hlead, hmarker, hgap, href, hisRef, hsha, hbefore, hafter, htag, hisTag, htrail⟩ := h
  dsimp only at *
  have huses : ∀ rest : Str, ∀ c ∈ (lit "uses:" ++ rest).head?, isSpace c = false ∧ c ≠ 45 := by
    rintro rest c hc
    obtain rfl := Option.some.inj hc
    decide
  have hstart : ∀ rest : Str, ∀ c ∈ (marker.getD [] ++ (lit "uses:" ++ rest)).head?, isSpace c = false := by
    rintro rest c hc
    cases marker with
    | none => exact (huses rest c hc).1
    | some m =>
      obtain ⟨m, rfl, -⟩ := hmarker m rfl
      obtain rfl := Option.some.inj hc
      rfl
  have htext : Uses.text ⟨lead, marker, gap, ref, sha, beforeHash, afterHash, tag, trail⟩ =
      lead ++ (marker.getD [] ++ (lit "uses:" ++ (gap ++ (ref ++ ([64] ++ (sha ++ (beforeHash ++
        ([35] ++ (afterHash ++ (tag ++ trail)))))))))) := by
    simp [Uses.text, Uses.before, Uses.between]
  rw [htext, usesRe.eq_def, cut_append hlead (hstart _), some_bind]
  dsimp only
  rw [cutMarker_append hmarker (huses _), some_bind]
  dsimp only
  rw [word_eq_some_iff.mpr rfl, some_bind, cut_append hgap (head?_append (isRef_ne_nil hisRef) fun c hc =>
    isSpace_of_isRefChar (href c hc)), some_bind]
  dsimp only
  rw [cut_append ⟨isRef_ne_nil hisRef, href⟩ (by rintro c ⟨⟩; rfl), Option.filter_some, if_pos hisRef, some_bind]
  dsimp only
  rw [word_eq_some_iff.mpr rfl, some_bind, cutSha_eq_some_iff.mpr ⟨hsha, rfl⟩, some_bind]
  dsimp only
  rw [cut_append hbefore (by rintro c ⟨⟩; rfl), some_bind]
  dsimp only
  rw [word_eq_some_iff.mpr rfl, some_bind, cut_append hafter (head?_append (isTag_ne_nil hisTag) fun c hc =>
    isSpace_of_isTagChar (htag c hc)), some_bind]
  dsimp only
  rw [cut_append ⟨isTag_ne_nil hisTag, htag⟩ fun c hc => isTagChar_of_isSpace (htrail c (List.mem_of_mem_head? hc)),
    Option.filter_some, if_pos hisTag, some_bind]
  dsimp only
  rw [if_pos (by simpa using htrail)]

theorem usesRe_eq_some_iff {line : Str} {u : Uses} : usesRe line = some u ↔ u.Valid ∧ line = u.text :=
  ⟨usesRe_eq_some, fun h => h.2 ▸ h.1.usesRe⟩

/-- A line that matches also matches with more blanks at its end. -/
theorem usesRe_append {line blanks : Str} {u : Uses} (h : usesRe line = some u)
    (hblanks : ∀ c ∈ blanks, isSpace c = true) :
    usesRe (line ++ blanks) = some { u with trail := u.trail ++ blanks } := by
  obtain ⟨hvalid, rfl⟩ := usesRe_eq_some h
  apply usesRe_eq_some_iff.mpr
  refine ⟨{ hvalid with trail := fun c hc => ?_ }, ?_⟩
  · obtain hc | hc := List.mem_append.mp hc
    · exact hvalid.trail c hc
    · exact hblanks c hc
  · simp [Uses.text, Uses.before, Uses.between]

/-! ### The line with its SHA and its tag left out -/

theorem lt_not_mem_of_isSpace {s : Str} (h : ∀ c ∈ s, isSpace c = true) : 60 ∉ s := by
  intro hmem
  cases h 60 hmem

theorem Uses.Valid.lt_not_mem_before {u : Uses} (h : u.Valid) : 60 ∉ u.before := by
  have hmarker : 60 ∉ u.marker.getD [] := by
    cases hm : u.marker with
    | none => simp
    | some m =>
      obtain ⟨gap, rfl, hgap⟩ := h.marker m hm
      simpa using lt_not_mem_of_isSpace hgap.2
  have href : 60 ∉ u.ref := fun hmem => by cases h.ref 60 hmem
  have huses : 60 ∉ lit "uses:" := by decide
  simp [Uses.before, lt_not_mem_of_isSpace h.lead.2, lt_not_mem_of_isSpace h.gap.2, hmarker, href, huses]

theorem Uses.Valid.lt_not_mem_between {u : Uses} (h : u.Valid) : 60 ∉ u.between := by
  simp [Uses.between, lt_not_mem_of_isSpace h.beforeHash.2, lt_not_mem_of_isSpace h.afterHash.2]

/-- Two lines that agree with `<SHA>` and `<TAG>` agree up to the SHA, between it and the tag, and after the tag. -/
theorem eq_of_norm_eq {u v : Uses} (hu : u.Valid) (hv : v.Valid) (h : u.norm = v.norm) :
    u.before = v.before ∧ u.between = v.between ∧ u.trail = v.trail := by
  have hsha : lit "<SHA>" = 60 :: lit "SHA>" := rfl
  have htag : lit "<TAG>" = 60 :: lit "TAG>" := rfl
  simp only [Uses.norm, hsha, htag, List.append_assoc, List.cons_append] at h
  obtain ⟨hbefore, h⟩ := eq_of_append_cons_eq hu.lt_not_mem_before hv.lt_not_mem_before h
  obtain ⟨hbetween, h⟩ := eq_of_append_cons_eq hu.lt_not_mem_between hv.lt_not_mem_between
    (List.append_cancel_left h)
  exact ⟨hbefore, hbetween, List.append_cancel_left h⟩

end narwhal.action_bump
