import Mathlib.Data.List.Basic
import Mathlib.Data.List.Infix

namespace jslib

/-! Glob patterns of keys, without classes and escapes. -/

/-- A `*` stands for any text and a `?` for any character. -/
def globMatch : List Char → List Char → Bool
  | [], s => s == []
  | '*' :: p, s => s.tails.any (globMatch p)
  | '?' :: p, s => s != [] && globMatch p s.tail
  | c :: p, s => s.head? == some c && globMatch p s.tail

/-- The text has nothing in it that a pattern gives a meaning. -/
def isLiteral (s : List Char) : Bool := !s.contains '*' && !s.contains '?' && !s.contains '['

theorem globMatch_star {p s : List Char} :
    globMatch ('*' :: p) s = true ↔ ∃ front rest, s = front ++ rest ∧ globMatch p rest = true := by
  rw [globMatch, List.any_eq_true]
  constructor
  · rintro ⟨rest, hmem, hmatch⟩
    obtain ⟨front, rfl⟩ := (List.mem_tails _ _).mp hmem
    exact ⟨front, rest, rfl, hmatch⟩
  · rintro ⟨front, rest, rfl, hmatch⟩
    exact ⟨rest, (List.mem_tails _ _).mpr (List.suffix_append front rest), hmatch⟩

theorem globMatch_cons {c : Char} {p s : List Char} (hstar : c ≠ '*') (hquestion : c ≠ '?') :
    globMatch (c :: p) s = true ↔ ∃ rest, s = c :: rest ∧ globMatch p rest = true := by
  have hunfold : globMatch (c :: p) s = (s.head? == some c && globMatch p s.tail) := by
    rw [globMatch.eq_def]
    split
    · next heq => cases heq
    · next heq => exact absurd (List.cons.inj heq).1 hstar
    · next heq => exact absurd (List.cons.inj heq).1 hquestion
    · next heq =>
      obtain ⟨rfl, rfl⟩ := List.cons.inj heq
      rfl
  rw [hunfold]
  cases s with
  | nil => simp
  | cons d s =>
    simp only [List.head?_cons, List.tail_cons, Bool.and_eq_true, beq_iff_eq, Option.some.injEq, List.cons.injEq]
    constructor
    · rintro ⟨rfl, hmatch⟩
      exact ⟨s, ⟨rfl, rfl⟩, hmatch⟩
    · rintro ⟨rest, ⟨rfl, rfl⟩, hmatch⟩
      exact ⟨rfl, hmatch⟩

/-- A literal beginning of a pattern is found as it is. -/
theorem globMatch_append {literal p s : List Char} (h : isLiteral literal = true) :
    globMatch (literal ++ p) s = true ↔ ∃ rest, s = literal ++ rest ∧ globMatch p rest = true := by
  induction literal generalizing s with
  | nil => simp
  | cons c literal ih =>
    have hplain : (c ≠ '*' ∧ c ≠ '?') ∧ isLiteral literal = true := by
      simp only [isLiteral, List.contains_cons, Bool.not_or, Bool.and_eq_true, Bool.not_eq_true', beq_eq_false_iff_ne] at h ⊢
      exact ⟨⟨h.1.1.1.symm, h.1.2.1.symm⟩, ⟨h.1.1.2, h.1.2.2⟩, h.2.2⟩
    rw [List.cons_append, globMatch_cons hplain.1.1 hplain.1.2]
    constructor
    · rintro ⟨rest, rfl, hmatch⟩
      obtain ⟨rest', rfl, hrest⟩ := (ih hplain.2).mp hmatch
      exact ⟨rest', rfl, hrest⟩
    · rintro ⟨rest, rfl, hmatch⟩
      exact ⟨literal ++ rest, rfl, (ih hplain.2).mpr ⟨rest, rfl, hmatch⟩⟩

theorem globMatch_literal {literal s : List Char} (h : isLiteral literal = true) :
    globMatch literal s = true ↔ s = literal := by
  have happend := globMatch_append (p := []) (s := s) h
  rw [List.append_nil] at happend
  rw [happend]
  simp [globMatch]

/-- A pattern that ends in a star matches what begins like it. -/
theorem globMatch_starred {literal s : List Char} (h : isLiteral literal = true) :
    globMatch (literal ++ ['*']) s = true ↔ ∃ rest, s = literal ++ rest := by
  rw [globMatch_append h]
  constructor
  · rintro ⟨rest, hs, -⟩
    exact ⟨rest, hs⟩
  · rintro ⟨rest, hs⟩
    exact ⟨rest, hs, globMatch_star.mpr ⟨rest, [], (List.append_nil rest).symm, rfl⟩⟩

end jslib
