import Narwhal.Ci.PolicyInPlace

open pylib

namespace narwhal.permissive_ingress_isolation

section

variable {alnum : Nat → Bool} {text : Str}

/-! ### All declarations of a text -/

/-- The declarations of a text, by where they begin. -/
def declarations (alnum : Nat → Bool) (text : Str) : List (List (Nat × Nat)) :=
  (marked (keptLines text)).tails.filterMap fun rest =>
    (KIND_RE alnum (chars rest)).map fun found => rest.take found.length

theorem eq_take_of_KIND_RE {s found : Str} (h : KIND_RE alnum s = some found) : found = s.take found.length := by
  unfold KIND_RE matchKind at h
  split at h
  · split_ifs at h
    rw [← Option.some.inj h, List.length_take, List.take_eq_take_iff]
    omega
  · cases h

theorem mem_declarations_iff {found : List (Nat × Nat)} : found ∈ declarations alnum text ↔ Declaration alnum text found := by
  simp only [declarations, List.mem_filterMap, List.mem_tails, Option.map_eq_some_iff]
  constructor
  · rintro ⟨rest, ⟨before, hbefore⟩, name, hname, rfl⟩
    refine ⟨before, rest.drop name.length, ?_, ?_⟩
    · rw [List.take_append_drop, hbefore]
    · rw [List.take_append_drop, hname, chars, List.map_take]
      exact congrArg some (eq_take_of_KIND_RE hname)
  · rintro ⟨before, after, hmarked, hmatch⟩
    refine ⟨found ++ after, ⟨before, hmarked.symm⟩, chars found, hmatch, ?_⟩
    rw [chars, List.length_map, List.take_left]

instance (span : Span) (found : List (Nat × Nat)) : Decidable (Inside span found) :=
  inferInstanceAs (Decidable (∀ c ∈ found, span.start ≤ c.2 ∧ c.2 < span.stop))

instance : Decidable (Covered alnum text) :=
  decidable_of_iff (∀ found ∈ declarations alnum text, ∃ span ∈ spans alnum text, Inside span found)
    (forall_congr' fun _ => imp_congr_left mem_declarations_iff)

instance : Decidable (Whole alnum text) :=
  decidable_of_iff (∀ found ∈ declarations alnum text, ∀ span ∈ spans alnum text,
      Inside span found ∨ ∀ c ∈ found, ¬ (span.start ≤ c.2 ∧ c.2 < span.stop))
    (forall_congr' fun _ => imp_congr_left mem_declarations_iff)

end

/-! ### The scan of a script -/

/-- A scan that does not raise is complete if and only if all declarations lie inside bodies, or one is
    left after the cuts, or a body with one cannot be scanned. It is complete where each cut takes out
    the body that it is for and no declaration runs over the border of a body. -/
theorem documents_complete (alnum : Nat → Bool) (load : Loader) (rel : Str) (WARNED : List Str) (text : Str) :
    ((∀ s, documents alnum load rel (lit ".sh") WARNED text = .ok s → Complete alnum load rel WARNED text s) ↔
      Covered alnum text ∨ search (KIND_RE alnum) (strip (outside alnum text)) = true ∨
      ∃ span ∈ spans alnum text, search (KIND_RE alnum) (strip (span.body text)) = true ∧
        Refused alnum load rel (lit ".sh") (span.body text)) ∧
    (InPlace alnum text → Whole alnum text →
      ∀ s, documents alnum load rel (lit ".sh") WARNED text = .ok s → Complete alnum load rel WARNED text s) := by
  refine ⟨documents_complete_iff, fun hplace hwhole => documents_complete_iff.mpr ?_⟩
  by_cases hcovered : Covered alnum text
  · exact .inl hcovered
  · exact .inr (.inl (search_outside hplace hwhole hcovered))

/-- Code points above 127 that are not letters. -/
def ascii (_ : Nat) : Bool := false

def networkPolicy : Value := .dict [(.str (lit "kind"), .str (lit "NetworkPolicy"))]

def onePolicy : Loader := fun _ _ => .ok [networkPolicy]

def applied : Str := lit "kubectl apply -f - <<EOF\nkind: NetworkPolicy\nEOF\n"

theorem documents_complete_applied :
    ∃ s, documents ascii onePolicy (lit "a.sh") (lit ".sh") [] applied = .ok s ∧ networkPolicy ∈ s.docs ∧
      Complete ascii onePolicy (lit "a.sh") [] applied s := by
  have hspans : spans ascii applied = [⟨1, 2, false⟩] := by decide +kernel
  have hplace : InPlace ascii applied := by
    intro before span after h
    rw [hspans] at h
    obtain ⟨rfl, h⟩ | ⟨_, -, h⟩ := List.append_eq_cons_iff.mp h.symm
    · obtain ⟨rfl, -⟩ := List.cons.inj h
      exact .inr ⟨lit "kubectl apply -f - <<EOF\n", lit "\nEOF\n", by decide +kernel, by decide +kernel, by decide +kernel⟩
    · simp at h
  have hdocs : documents ascii onePolicy (lit "a.sh") (lit ".sh") [] applied = .ok ⟨[networkPolicy], [], []⟩ := by
    have hchunks : chunks ascii applied = [lit "kind: NetworkPolicy"] := by decide +kernel
    rw [documents_sh, if_neg (by decide +kernel), if_neg (by decide +kernel), hchunks]
    rfl
  exact ⟨_, hdocs, List.mem_singleton.mpr rfl,
    (documents_complete ascii onePolicy (lit "a.sh") [] applied).2 hplace (by decide +kernel) _ hdocs⟩

/-- A policy in a here-string, part of which is taken out for the body of a heredoc further down. -/
def hereString : Str := lit "kubectl apply -f - <<< 'kind: NetworkPolicy'\ncat <<EOF\nkind\nEOF\n"

/-- A heredoc in a comment, which begins between two parts of a declaration. -/
def commentedHeredoc : Str := lit "kind:\n# cat <<EOF\n  NetworkPolicy\nEOF\n"

/-- The scan of a script succeeds with nothing found and nothing left unread. -/
def Escapes (text : Str) : Prop :=
  documents ascii onePolicy (lit "a.sh") (lit ".sh") [] text = .ok ⟨[], [], []⟩ ∧
    ¬ Complete ascii onePolicy (lit "a.sh") [] text ⟨[], [], []⟩

theorem declaration_escapes : Escapes hereString ∧ Escapes commentedHeredoc := by
  have hraises : ∀ text ∈ [hereString, commentedHeredoc], search (KIND_RE ascii) (strip text) = true ∧
      search (KIND_RE ascii) (strip (outside ascii text)) = false ∧ chunks ascii text = [] := by decide +kernel
  have hcovered : ∀ text ∈ [hereString, commentedHeredoc], ¬ Covered ascii text := by decide +kernel
  have hescapes : ∀ text ∈ [hereString, commentedHeredoc], Escapes text := by
    intro text htext
    obtain ⟨hkind, houtside, hchunks⟩ := hraises text htext
    refine ⟨?_, fun hcomplete => hcovered text htext hcomplete.1⟩
    rw [documents_sh, if_neg (by simp [hkind]), if_neg (by simp [houtside]), hchunks]
    rfl
  exact ⟨hescapes _ List.mem_cons_self, hescapes _ (List.mem_cons_of_mem _ List.mem_cons_self)⟩

end narwhal.permissive_ingress_isolation
