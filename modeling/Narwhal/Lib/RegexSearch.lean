import Narwhal.Lib.Regex

open Computability

/-! Searching a text for a part that a regular expression matches. A search is followed piece by piece: what
    it has begun to match before a piece bounds what it has begun to match after it. -/

namespace Regex

variable {κ α : Type}

/-! ### Expressions -/

def opt (r : Regex κ) : Regex κ := .alt .blank r

def plus (r : Regex κ) : Regex κ := .seq r (.star r)

/-- `r{n}` -/
def times : Nat → Regex κ → Regex κ
  | 0, _ => .blank
  | n + 1, r => .seq r (times n r)

/-- `r{n,}` -/
def atLeast (n : Nat) (r : Regex κ) : Regex κ := .seq (times n r) (.star r)

/-- `r{m,n}` -/
def between (m n : Nat) (r : Regex κ) : Regex κ := .seq (times m r) (times (n - m) (opt r))

/-- One expression after the other. -/
def chain (rs : List (Regex κ)) : Regex κ := rs.foldr .seq .blank

/-- One of some expressions. -/
def oneOf (rs : List (Regex κ)) : Regex κ := rs.foldr .alt .never

variable {mem : κ → α → Bool}

theorem mem_lang_times_sym {k : κ} {n : Nat} {w : List α} :
    w ∈ (times n (.sym k)).lang mem ↔ w.length = n ∧ ∀ a ∈ w, mem k a = true := by
  induction n generalizing w with
  | zero =>
    constructor
    · rintro (rfl : w = [])
      exact ⟨rfl, fun a ha => nomatch ha⟩
    · rintro ⟨hlength, -⟩
      exact List.length_eq_zero_iff.mp hlength
  | succ n ih =>
    rw [times, lang, Language.mem_mul]
    constructor
    · rintro ⟨u, ⟨a, rfl, ha⟩, v, hv, rfl⟩
      obtain ⟨hlength, hall⟩ := ih.mp hv
      exact ⟨congrArg (· + 1) hlength, List.forall_mem_cons.mpr ⟨ha, hall⟩⟩
    · rintro ⟨hlength, hall⟩
      obtain ⟨a, v, rfl⟩ := List.exists_cons_of_length_eq_add_one hlength
      obtain ⟨ha, hall⟩ := List.forall_mem_cons.mp hall
      exact ⟨[a], ⟨a, rfl, ha⟩, v, ih.mpr ⟨Nat.succ.inj hlength, hall⟩, rfl⟩

theorem mem_lang_times_opt {r : Regex κ} {m n : Nat} (hmn : m ≤ n) {w : List α} (h : w ∈ (times m r).lang mem) :
    w ∈ (times n (opt r)).lang mem := by
  induction m generalizing n w with
  | zero =>
    obtain rfl : w = [] := h
    clear hmn
    induction n with
    | zero => rfl
    | succ n ih => exact Language.mem_mul.mpr ⟨[], .inl rfl, [], ih, rfl⟩
  | succ m ih =>
    obtain ⟨n, rfl⟩ := Nat.exists_eq_add_of_le' (Nat.lt_of_lt_of_le (Nat.succ_pos m) hmn)
    obtain ⟨u, hu, v, hv, rfl⟩ := Language.mem_mul.mp h
    exact Language.mem_mul.mpr ⟨u, .inr hu, v, ih (Nat.le_of_succ_le_succ hmn) hv, rfl⟩

/-- `r{m,n}` matches what `r{k}` matches, for a `k` of this range. -/
theorem mem_lang_between_of_times {k : κ} {m n l : Nat} (hm : m ≤ l) (hn : l ≤ n) {w : List α}
    (h : w ∈ (times l (.sym k)).lang mem) : w ∈ (between m n (.sym k)).lang mem := by
  obtain ⟨hlength, hall⟩ := mem_lang_times_sym.mp h
  refine Language.mem_mul.mpr ⟨w.take m, mem_lang_times_sym.mpr ⟨?_, ?_⟩, w.drop m, ?_, List.take_append_drop m w⟩
  · rw [List.length_take, hlength, Nat.min_eq_left hm]
  · exact fun a ha => hall a (List.mem_of_mem_take ha)
  · refine mem_lang_times_opt (Nat.sub_le_sub_right hn m) (mem_lang_times_sym.mpr ⟨?_, ?_⟩)
    · rw [List.length_drop, hlength]
    · exact fun a ha => hall a (List.mem_of_mem_drop ha)

/-! ### Matches of a whole text -/

/-- What can be left of some expressions after a letter. -/
def next (mem : κ → α → Bool) (ts : List (Regex κ)) (a : α) : List (Regex κ) := ts.flatMap (steps mem a)

theorem mem_next_iff {ts : List (Regex κ)} {a : α} {u : Regex κ} : u ∈ next mem ts a ↔ ∃ t ∈ ts, u ∈ t.steps mem a :=
  List.mem_flatMap

theorem next_mono {ts ts' : List (Regex κ)} (h : ts ⊆ ts') (a : α) : next mem ts a ⊆ next mem ts' a := by
  intro u hu
  obtain ⟨t, ht, hu⟩ := mem_next_iff.mp hu
  exact mem_next_iff.mpr ⟨t, h ht, hu⟩

theorem cons_mem_some_lang {ts : List (Regex κ)} {a : α} {w : List α} :
    (∃ t ∈ ts, a :: w ∈ t.lang mem) ↔ ∃ t ∈ next mem ts a, w ∈ t.lang mem := by
  simp only [cons_mem_lang, mem_next_iff]
  constructor
  · rintro ⟨t, ht, u, hu, hw⟩
    exact ⟨u, ⟨t, ht, hu⟩, hw⟩
  · rintro ⟨u, ⟨t, ht, hu⟩, hw⟩
    exact ⟨t, ht, u, hu, hw⟩

/-- Whether an expression matches a text as a whole. -/
def fits (mem : κ → α → Bool) (r : Regex κ) (w : List α) : Bool := (w.foldl (next mem) [r]).any nullable

theorem fits_iff {r : Regex κ} {w : List α} : fits mem r w = true ↔ w ∈ r.lang mem := by
  have hrun : ∀ ts : List (Regex κ), (w.foldl (next mem) ts).any nullable = true ↔ ∃ t ∈ ts, w ∈ t.lang mem := by
    induction w with
    | nil =>
      intro ts
      rw [List.foldl_nil, List.any_eq_true]
      exact exists_congr fun t => and_congr_right fun _ => nil_mem_lang.symm
    | cons a w ih =>
      intro ts
      rw [List.foldl_cons, ih, cons_mem_some_lang]
  rw [fits, hrun]
  simp

/-! ### Matches of a part of a text -/

/-- Whether one of some expressions matches the beginning of a text, or `r` a part of it. -/
def seek (mem : κ → α → Bool) (r : Regex κ) : List (Regex κ) → List α → Bool
  | ts, [] => (r :: ts).any nullable
  | ts, a :: w => (r :: ts).any nullable || seek mem r (next mem (r :: ts) a) w

/-- Whether an expression matches a part of a text. -/
def finds (mem : κ → α → Bool) (r : Regex κ) (w : List α) : Bool := seek mem r [] w

/-! ### Texts without a match -/

variable [DecidableEq κ]

/-- After a text that has nothing found in it, where some expressions were left before, only some are left. -/
def quiet (mem : κ → α → Bool) (r : Regex κ) : List (Regex κ) → List α → List (Regex κ) → Bool
  | before, [], left => before.all fun t => left.contains t
  | before, a :: w, left => !(r :: before).any nullable && quiet mem r (next mem (r :: before) a) w left

variable {r : Regex κ}

theorem quiet_nil_iff {before left : List (Regex κ)} : quiet mem r before [] left = true ↔ before ⊆ left := by
  simp [quiet, List.subset_def]

theorem quiet_cons_iff {before left : List (Regex κ)} {a : α} {w : List α} :
    quiet mem r before (a :: w) left = true ↔
      (∀ t ∈ r :: before, t.nullable = false) ∧ quiet mem r (next mem (r :: before) a) w left = true := by
  rw [quiet, Bool.and_eq_true, Bool.not_eq_true', List.any_eq_false]
  simp

/-- Less can be left before, and more after. -/
theorem quiet_mono {before before' left left' : List (Regex κ)} {w : List α} (h : quiet mem r before w left = true)
    (hbefore : before' ⊆ before) (hleft : left ⊆ left') : quiet mem r before' w left' = true := by
  induction w generalizing before before' with
  | nil => exact quiet_nil_iff.mpr fun t ht => hleft (quiet_nil_iff.mp h (hbefore ht))
  | cons a w ih =>
    obtain ⟨hnullable, hrest⟩ := quiet_cons_iff.mp h
    have hcons : r :: before' ⊆ r :: before := List.cons_subset_cons r hbefore
    exact quiet_cons_iff.mpr ⟨fun t ht => hnullable t (hcons ht), ih hrest (next_mono hcons a)⟩

theorem quiet_append {before between left : List (Regex κ)} {u v : List α} (hu : quiet mem r before u between = true)
    (hv : quiet mem r between v left = true) : quiet mem r before (u ++ v) left = true := by
  induction u generalizing before with
  | nil => exact quiet_mono hv (quiet_nil_iff.mp hu) (List.Subset.refl left)
  | cons a u ih =>
    obtain ⟨hnullable, hrest⟩ := quiet_cons_iff.mp hu
    exact quiet_cons_iff.mpr ⟨hnullable, ih hrest⟩

/-- A text of pieces of which each keeps to some expressions keeps to them. -/
theorem quiet_flatten {inside : List (Regex κ)} {pieces : List (List α)}
    (h : ∀ piece ∈ pieces, quiet mem r inside piece inside = true) : quiet mem r inside pieces.flatten inside = true := by
  induction pieces with
  | nil => exact quiet_nil_iff.mpr (List.Subset.refl inside)
  | cons piece pieces ih =>
    obtain ⟨hpiece, hpieces⟩ := List.forall_mem_cons.mp h
    exact quiet_append hpiece (ih hpieces)

/-- A run of letters of which each keeps to some expressions keeps to them. -/
theorem quiet_run {inside : List (Regex κ)} {w : List α} (h : ∀ a ∈ w, quiet mem r inside [a] inside = true) :
    quiet mem r inside w inside = true := by
  have hpieces : (w.map fun a => [a]).flatten = w := List.flatMap_singleton' w
  rw [← hpieces]
  apply quiet_flatten
  intro piece hpiece
  obtain ⟨a, ha, rfl⟩ := List.mem_map.mp hpiece
  exact h a ha

/-- Nothing is found in a quiet text. -/
theorem finds_eq_false {w : List α} {left : List (Regex κ)} (h : quiet mem r [] w left = true)
    (hleft : (r :: left).any nullable = false) : finds mem r w = false := by
  have hseek : ∀ (w : List α) (before : List (Regex κ)), quiet mem r before w left = true →
      seek mem r before w = false := by
    intro w
    induction w with
    | nil =>
      intro before hbefore
      rw [List.any_eq_false] at hleft
      exact List.any_eq_false.mpr fun t ht => hleft t (List.cons_subset_cons r (quiet_nil_iff.mp hbefore) ht)
    | cons a w ih =>
      intro before hbefore
      rw [quiet, Bool.and_eq_true, Bool.not_eq_true'] at hbefore
      rw [seek, hbefore.1, Bool.false_or]
      exact ih _ hbefore.2
  exact hseek w [] h

end Regex
