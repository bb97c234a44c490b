import Narwhal.Lib.Json

namespace pylib

/-- The pieces of a text between the separators, found from the left and not
    overlapping; `skip` counts the code points of a separator still to pass. -/
def splitFrom (sep : Str) : Nat → Str → Str → List Str
  | _, piece, [] => [piece.reverse]
  | skip + 1, piece, _ :: rest => splitFrom sep skip piece rest
  | 0, piece, c :: rest =>
    if sep.isPrefixOf (c :: rest) then piece.reverse :: splitFrom sep (sep.length - 1) [] rest
    else splitFrom sep 0 (c :: piece) rest

/-- `s.split(sep)` for a separator that is not empty. -/
def split (sep s : Str) : List Str := splitFrom sep 0 [] s

theorem splitFrom_singleton {c : Nat} {piece s : Str} :
    splitFrom [c] 0 piece s = s.splitOnPPrepend (· == c) piece := by
  induction s generalizing piece with
  | nil => rfl
  | cons d rest ih =>
    rw [List.splitOnPPrepend_cons_eq_if, ← List.splitOnPPrepend_nil_right, ← ih, ← ih]
    by_cases h : c = d
    · simp [splitFrom, List.isPrefixOf, h]
    · simp [splitFrom, List.isPrefixOf, h, Ne.symm h]

theorem split_singleton (c : Nat) (s : Str) : split [c] s = s.splitOn c := splitFrom_singleton

/-- The pieces with the separator between them are the text. -/
theorem intercalate_split (c : Nat) (s : Str) : [c].intercalate (split [c] s) = s := by
  rw [split_singleton, List.intercalate_splitOn]

/-- No piece holds the separator. -/
theorem not_mem_of_mem_split {c : Nat} {s part : Str} (h : part ∈ split [c] s) : c ∉ part := by
  rw [split_singleton] at h
  induction s generalizing part with
  | nil =>
    obtain rfl := List.mem_singleton.mp h
    exact List.not_mem_nil
  | cons d rest ih =>
    rw [List.splitOn_cons_eq_if_modifyHead] at h
    split at h
    · obtain rfl | h := List.mem_cons.mp h
      · exact List.not_mem_nil
      · exact ih h
    · next hne =>
      cases hparts : rest.splitOn c with
      | nil => exact (List.splitOn_ne_nil c rest hparts).elim
      | cons first others =>
        rw [hparts, List.modifyHead_cons] at h
        obtain rfl | h := List.mem_cons.mp h
        · have hfirst : c ∉ first := ih (hparts ▸ List.mem_cons_self)
          intro hmem
          obtain rfl | hmem := List.mem_cons.mp hmem
          · simp at hne
          · exact hfirst hmem
        · exact ih (hparts ▸ List.mem_cons_of_mem first h)

/-- `s.split(sep)[0]` -/
def beforeFirst (sep s : Str) : Str := (split sep s).headD []

/-- `s.split(sep)[-1]` -/
def afterLast (sep s : Str) : Str := (split sep s).getLastD []

/-- `s.rpartition(c)`: what stands before the last `c` and after it, where there is one. -/
def rpartition (c : Nat) : Str → Option (Str × Str)
  | [] => none
  | x :: rest =>
    match rpartition c rest with
    | some (before, after) => some (x :: before, after)
    | none => if x = c then some ([], rest) else none

theorem rpartition_eq_none_iff {c : Nat} {s : Str} : rpartition c s = none ↔ c ∉ s := by
  induction s with
  | nil => simp [rpartition]
  | cons x s ih =>
    rw [rpartition, List.mem_cons, not_or, ← ih]
    cases rpartition c s with
    | none => simp [eq_comm]
    | some parts => simp

theorem rpartition_append {c : Nat} {after : Str} (h : c ∉ after) (before : Str) :
    rpartition c (before ++ c :: after) = some (before, after) := by
  induction before with
  | nil => simp [rpartition, rpartition_eq_none_iff.mpr h]
  | cons x before ih => rw [List.cons_append, rpartition, ih]

theorem eq_of_rpartition {c : Nat} {s before after : Str} (h : rpartition c s = some (before, after)) :
    s = before ++ c :: after ∧ c ∉ after := by
  induction s generalizing before with
  | nil => cases h
  | cons x s ih =>
    rw [rpartition] at h
    cases hrest : rpartition c s with
    | none =>
      simp only [hrest] at h
      split_ifs at h with hx
      cases h
      exact ⟨by rw [hx]; rfl, rpartition_eq_none_iff.mp hrest⟩
    | some parts =>
      obtain ⟨before', after'⟩ := parts
      simp only [hrest, Option.some.injEq, Prod.mk.injEq] at h
      obtain ⟨rfl, rfl⟩ := h
      obtain ⟨hs, hnot⟩ := ih hrest
      exact ⟨congrArg (x :: ·) hs, hnot⟩

/-- `part in s` -/
def isInfix (part s : Str) : Bool := s.tails.any part.isPrefixOf

/-- `s.removeprefix(head)` -/
def removeHead (head s : Str) : Str := if head.isPrefixOf s then s.drop head.length else s

/-- `s.upper()`: the ASCII letters, and what the Unicode tables give for other code points. -/
def upper (table : Nat → Str) (s : Str) : Str :=
  s.flatMap fun c => if 97 ≤ c ∧ c < 123 then [c - 32] else if c < 128 then [c] else table c

/-- The same text when the case of ASCII letters is left aside. -/
def sameLetters (s t : Str) : Prop :=
  s.map (fun c => if 97 ≤ c ∧ c < 123 then c - 32 else c) = t.map (fun c => if 97 ≤ c ∧ c < 123 then c - 32 else c)

instance (s t : Str) : Decidable (sameLetters s t) := inferInstanceAs (Decidable (_ = _))

theorem upper_eq_of_ascii {table : Nat → Str} {s : Str} (h : ∀ c ∈ s, c < 128) :
    upper table s = s.map fun c => if 97 ≤ c ∧ c < 123 then c - 32 else c := by
  induction s with
  | nil => rfl
  | cons c rest ih =>
    have hrest := ih fun d hd => h d (List.mem_cons_of_mem c hd)
    have hc : c < 128 := h c List.mem_cons_self
    unfold upper at hrest ⊢
    rw [List.flatMap_cons, hrest, List.map_cons]
    by_cases hlow : 97 ≤ c ∧ c < 123
    · rw [if_pos hlow, if_pos hlow, List.singleton_append]
    · rw [if_neg hlow, if_neg hlow, if_pos hc, List.singleton_append]

/-- A text that spells a word of ASCII capitals in any case has the word as its upper case. -/
theorem upper_eq_of_sameLetters {table : Nat → Str} {s word : Str} (hword : ∀ c ∈ word, c < 97)
    (h : sameLetters s word) : upper table s = word := by
  have hself : word.map (fun c => if 97 ≤ c ∧ c < 123 then c - 32 else c) = word := by
    conv_rhs => rw [← List.map_id word]
    apply List.map_congr_left
    intro c hc
    have := hword c hc
    rw [if_neg (by omega)]
    rfl
  unfold sameLetters at h
  rw [hself] at h
  rw [upper_eq_of_ascii, h]
  intro c hc
  have hup : (if 97 ≤ c ∧ c < 123 then c - 32 else c) ∈ word := by
    rw [← h]
    exact List.mem_map_of_mem hc
  have := hword _ hup
  split at this <;> omega

end pylib
