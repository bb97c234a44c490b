import Narwhal.Ci.KindSearch

open pylib

namespace narwhal.permissive_ingress_isolation

/-! ### Characters with the numbers of their lines -/

/-- The lines that are not comments, with their numbers. -/
def keptLines (text : Str) : List (Str × Nat) := (splitLines text).zipIdx.filter fun entry => !isComment entry.1

/-- The characters of the lines, joined, each with the number of its line. -/
def marked : List (Str × Nat) → List (Nat × Nat)
  | [] => []
  | [(line, i)] => line.map (·, i)
  | (line, i) :: rest => line.map (·, i) ++ (10, i) :: marked rest

def chars (found : List (Nat × Nat)) : Str := found.map Prod.fst

theorem marked_cons_cons (line : Str) (i : Nat) (next : Str × Nat) (rest : List (Str × Nat)) :
    marked ((line, i) :: next :: rest) = line.map (·, i) ++ (10, i) :: marked (next :: rest) := rfl

theorem joinLines_cons_cons (line next : Str) (rest : List Str) :
    joinLines (line :: next :: rest) = line ++ 10 :: joinLines (next :: rest) := by
  simp [joinLines, List.intercalate]

theorem chars_map (line : Str) (i : Nat) : chars (line.map (·, i)) = line := by
  rw [chars, List.map_map]
  exact List.map_id line

theorem chars_append (a b : List (Nat × Nat)) : chars (a ++ b) = chars a ++ chars b := List.map_append

theorem chars_marked (entries : List (Str × Nat)) : chars (marked entries) = joinLines (entries.map Prod.fst) := by
  induction entries with
  | nil => rfl
  | cons entry entries ih =>
    obtain ⟨line, i⟩ := entry
    cases entries with
    | nil => simp [marked, chars_map, joinLines]
    | cons next rest =>
      rw [marked_cons_cons, chars_append, chars_map, List.map_cons, List.map_cons, joinLines_cons_cons]
      exact congrArg (line ++ 10 :: ·) ih

theorem map_fst_keptLines (text : Str) :
    (keptLines text).map Prod.fst = (splitLines text).filter fun line => !isComment line := by
  have hcomp : (fun entry : Str × Nat => !isComment entry.1) = (fun line => !isComment line) ∘ Prod.fst := rfl
  rw [keptLines, hcomp, ← List.filter_map, List.zipIdx_map_fst]

theorem chars_keptLines (text : Str) : chars (marked (keptLines text)) = strip text := by
  rw [chars_marked, map_fst_keptLines, strip]

/-- Some characters begin in a line, or at the line feed behind it. -/
theorem exists_line_of_marked {entries : List (Str × Nat)} {before found after : List (Nat × Nat)}
    (h : marked entries = before ++ (found ++ after)) (hne : found ≠ []) (hfirst : ∀ c ∈ found.head?, c.1 ≠ 10) :
    ∃ first line i rest col, entries = first ++ (line, i) :: rest ∧ marked ((line.drop col, i) :: rest) = found ++ after := by
  induction entries generalizing before with
  | nil =>
    have hnil := (List.append_eq_nil_iff.mp h.symm).2
    exact absurd (List.append_eq_nil_iff.mp hnil).1 hne
  | cons entry entries ih =>
    obtain ⟨line, i⟩ := entry
    cases entries with
    | nil =>
      obtain ⟨front, back, rfl, -, hback⟩ := List.map_eq_append_iff.mp h
      refine ⟨[], front ++ back, i, [], front.length, rfl, ?_⟩
      rw [List.drop_left]
      exact hback
    | cons next rest =>
      rw [marked_cons_cons] at h
      obtain ⟨gap, hgap, htail⟩ | ⟨gap, hline, htail⟩ := List.append_eq_append_iff.mp h
      · cases gap with
        | nil =>
          rw [List.nil_append] at htail
          cases found with
          | nil => exact absurd rfl hne
          | cons c found =>
            obtain ⟨hc, -⟩ := List.cons.inj htail
            exact absurd (congrArg Prod.fst hc).symm (hfirst c rfl)
        | cons c gap =>
          obtain ⟨-, htail⟩ := List.cons.inj htail
          obtain ⟨first, line', i', rest', col, hentries, hfound⟩ := ih htail
          exact ⟨(line, i) :: first, line', i', rest', col, by rw [hentries, List.cons_append], hfound⟩
      · obtain ⟨front, back, rfl, -, hback⟩ := List.map_eq_append_iff.mp hline
        refine ⟨[], front ++ back, i, next :: rest, front.length, rfl, ?_⟩
        rw [List.drop_left, marked_cons_cons, htail, hback]

/-- Some characters from the start of the lines on, which do not end with a line feed, lie in the first
    ones. -/
theorem exists_block_of_marked {entries : List (Str × Nat)} {found after : List (Nat × Nat)}
    (h : marked entries = found ++ after) (hne : found ≠ []) (hlast : ∀ c ∈ found.getLast?, c.1 ≠ 10) :
    ∃ block rest more, entries = block ++ rest ∧ block ≠ [] ∧ (∀ entry ∈ block, ∃ c ∈ found, c.2 = entry.2) ∧
      joinLines (block.map Prod.fst) = chars found ++ more ∧ ∀ c ∈ more.head?, ∃ i, after.head? = some (c, i) := by
  induction entries generalizing found with
  | nil => exact absurd (List.append_eq_nil_iff.mp h.symm).1 hne
  | cons entry entries ih =>
    obtain ⟨line, i⟩ := entry
    have hline : ∀ gap, line.map (·, i) = found ++ gap → (∀ c ∈ gap.head?, after.head? = some c) →
        ∃ block rest more, (line, i) :: entries = block ++ rest ∧ block ≠ [] ∧
          (∀ entry ∈ block, ∃ c ∈ found, c.2 = entry.2) ∧ joinLines (block.map Prod.fst) = chars found ++ more ∧
          ∀ c ∈ more.head?, ∃ i, after.head? = some (c, i) := by
      intro gap hgap hafter
      refine ⟨[(line, i)], entries, chars gap, rfl, by simp, ?_, ?_, ?_⟩
      · intro entry hentry
        obtain rfl := List.mem_singleton.mp hentry
        obtain ⟨c, hc⟩ := List.exists_mem_of_ne_nil _ hne
        have hmem : c ∈ line.map (·, i) := hgap ▸ List.mem_append_left gap hc
        obtain ⟨_, -, hci⟩ := List.mem_map.mp hmem
        exact ⟨c, hc, by rw [← hci]⟩
      · rw [← chars_append, ← hgap, chars_map]
        simp [joinLines]
      · intro c hc
        cases gap with
        | nil => cases hc
        | cons d gap =>
          obtain rfl := Option.some.inj hc
          exact ⟨d.2, hafter d rfl⟩
    cases entries with
    | nil => exact hline after h fun c hc => hc
    | cons next rest =>
      rw [marked_cons_cons] at h
      obtain ⟨gap, hgap, htail⟩ | ⟨gap, hgap, htail⟩ := List.append_eq_append_iff.mp h
      · cases gap with
        | nil =>
          rw [List.append_nil] at hgap
          exact hline [] (by rw [List.append_nil, hgap]) (by simp)
        | cons c gap =>
          rw [List.cons_append] at htail
          obtain ⟨hc, hgapTail⟩ := List.cons.inj htail
          subst hc hgap
          have hne' : gap ≠ [] := by
            rintro rfl
            exact hlast (10, i) (by simp) rfl
          have hlast' : ∀ c ∈ gap.getLast?, c.1 ≠ 10 := by
            intro c hc
            refine hlast c ?_
            rw [List.getLast?_append, List.getLast?_cons, Option.mem_def.mp hc]
            rfl
          obtain ⟨block, rest', more, hentries, hblock, hnumbers, hjoin, hmore⟩ := ih hgapTail hne' hlast'
          refine ⟨(line, i) :: block, rest', more, by rw [hentries, List.cons_append], by simp, ?_, ?_, hmore⟩
          · intro entry hentry
            obtain rfl | hentry := List.mem_cons.mp hentry
            · exact ⟨(10, i), by simp, rfl⟩
            · obtain ⟨c, hc, hnumber⟩ := hnumbers entry hentry
              exact ⟨c, List.mem_append_right _ (List.mem_cons_of_mem _ hc), hnumber⟩
          · obtain ⟨first, others, rfl⟩ := List.exists_cons_of_ne_nil hblock
            rw [List.map_cons, List.map_cons, joinLines_cons_cons, ← List.map_cons, hjoin, chars_append, chars_map]
            simp [chars]
      · refine hline gap hgap fun c hc => ?_
        rw [htail]
        cases gap with
        | nil => cases hc
        | cons d gap => exact hc

end narwhal.permissive_ingress_isolation
