import Mathlib.Computability.Language
import Mathlib.Data.List.Sublists
import Narwhal.Lib.Reach

open Computability

/-! Regular expressions over classes of letters. Whether an expression matches every text is decided by
    exploring the sets of expressions that letters leave of it. -/

/-- A regular expression; `κ` are the classes of letters. -/
inductive Regex (κ : Type) where
  | never
  | blank
  | sym (k : κ)
  | alt (r s : Regex κ)
  | seq (r s : Regex κ)
  | star (r : Regex κ)
deriving DecidableEq

namespace Regex

section

variable {κ α : Type}

def nullable : Regex κ → Bool
  | .never => false
  | .blank => true
  | .sym _ => false
  | .alt r s => r.nullable || s.nullable
  | .seq r s => r.nullable && s.nullable
  | .star _ => true

def classes : Regex κ → List κ
  | .never => []
  | .blank => []
  | .sym k => [k]
  | .alt r s => r.classes ++ s.classes
  | .seq r s => r.classes ++ s.classes
  | .star r => r.classes

/-- What can be left of an expression after some letters. -/
def parts : Regex κ → List (Regex κ)
  | .never => []
  | .blank => []
  | .sym _ => [.blank]
  | .alt r s => r.parts ++ s.parts
  | .seq r s => r.parts.map (.seq · s) ++ s.parts
  | .star r => r.parts.map (.seq · (.star r))

/-- The expression, and what can be left of it. -/
def states (r : Regex κ) : List (Regex κ) := r :: r.parts

theorem parts_subset {r t : Regex κ} (ht : t ∈ r.parts) : t.parts ⊆ r.parts := by
  induction r generalizing t with
  | never => cases ht
  | blank => cases ht
  | sym k =>
    rw [List.mem_singleton.mp ht]
    exact List.nil_subset _
  | alt r s hr hs =>
    obtain ht | ht := List.mem_append.mp ht
    · exact List.subset_append_of_subset_left _ (hr ht)
    · exact List.subset_append_of_subset_right _ (hs ht)
  | seq r s hr hs =>
    obtain ht | ht := List.mem_append.mp ht
    · obtain ⟨r', hr', rfl⟩ := List.mem_map.mp ht
      have hmap := List.map_subset (Regex.seq · s) (hr hr')
      exact List.append_subset.mpr ⟨List.subset_append_of_subset_left _ hmap, List.subset_append_right _ _⟩
    · exact List.subset_append_of_subset_right _ (hs ht)
  | star r hr =>
    obtain ⟨r', hr', rfl⟩ := List.mem_map.mp ht
    have hmap := List.map_subset (Regex.seq · (.star r)) (hr hr')
    exact List.append_subset.mpr ⟨hmap, List.Subset.refl _⟩

theorem classes_parts {r t : Regex κ} (ht : t ∈ r.parts) : t.classes ⊆ r.classes := by
  induction r generalizing t with
  | never => cases ht
  | blank => cases ht
  | sym k =>
    rw [List.mem_singleton.mp ht]
    exact List.nil_subset _
  | alt r s hr hs =>
    obtain ht | ht := List.mem_append.mp ht
    · exact List.subset_append_of_subset_left _ (hr ht)
    · exact List.subset_append_of_subset_right _ (hs ht)
  | seq r s hr hs =>
    obtain ht | ht := List.mem_append.mp ht
    · obtain ⟨r', hr', rfl⟩ := List.mem_map.mp ht
      exact List.append_subset.mpr ⟨List.subset_append_of_subset_left _ (hr hr'), List.subset_append_right _ _⟩
    · exact List.subset_append_of_subset_right _ (hs ht)
  | star r hr =>
    obtain ⟨r', hr', rfl⟩ := List.mem_map.mp ht
    exact List.append_subset.mpr ⟨hr hr', List.Subset.refl _⟩

section

variable (mem : κ → α → Bool)

/-- The texts that an expression matches as a whole. -/
def lang : Regex κ → Language α
  | .never => 0
  | .blank => 1
  | .sym k => {w | ∃ a, w = [a] ∧ mem k a = true}
  | .alt r s => r.lang + s.lang
  | .seq r s => r.lang * s.lang
  | .star r => r.lang∗

/-- What can be left after a letter. -/
def steps (a : α) : Regex κ → List (Regex κ)
  | .never => []
  | .blank => []
  | .sym k => if mem k a then [.blank] else []
  | .alt r s => r.steps a ++ s.steps a
  | .seq r s => (r.steps a).map (.seq · s) ++ if r.nullable then s.steps a else []
  | .star r => (r.steps a).map (.seq · (.star r))

end

variable {mem : κ → α → Bool}

theorem steps_subset_parts (a : α) (r : Regex κ) : r.steps mem a ⊆ r.parts := by
  induction r with
  | never => exact List.Subset.refl _
  | blank => exact List.Subset.refl _
  | sym k =>
    rw [steps]
    split_ifs
    · exact List.Subset.refl _
    · exact List.nil_subset _
  | alt r s hr hs =>
    exact List.append_subset.mpr ⟨List.subset_append_of_subset_left _ hr, List.subset_append_of_subset_right _ hs⟩
  | seq r s hr hs =>
    refine List.append_subset.mpr ⟨List.subset_append_of_subset_left _ (List.map_subset _ hr), ?_⟩
    split_ifs
    · exact List.subset_append_of_subset_right _ hs
    · exact List.nil_subset _
  | star r hr => exact List.map_subset _ hr

theorem states_closed {r t u : Regex κ} {a : α} (ht : t ∈ r.states) (hu : u ∈ t.steps mem a) : u ∈ r.states := by
  apply List.mem_cons_of_mem
  obtain rfl | ht := List.mem_cons.mp ht
  · exact steps_subset_parts a t hu
  · exact parts_subset ht (steps_subset_parts a t hu)

/-- Letters that no class tells apart leave the same. -/
theorem steps_congr {a b : α} {r : Regex κ} (h : ∀ k ∈ r.classes, mem k a = mem k b) :
    r.steps mem a = r.steps mem b := by
  induction r with
  | never => rfl
  | blank => rfl
  | sym k => rw [steps, steps, h k (List.mem_singleton_self k)]
  | alt r s hr hs =>
    rw [steps, steps, hr fun k hk => h k (List.mem_append_left _ hk), hs fun k hk => h k (List.mem_append_right _ hk)]
  | seq r s hr hs =>
    rw [steps, steps, hr fun k hk => h k (List.mem_append_left _ hk), hs fun k hk => h k (List.mem_append_right _ hk)]
  | star r hr => rw [steps, steps, hr h]

/-! ### Derivatives -/

theorem nil_mem_lang {r : Regex κ} : [] ∈ r.lang mem ↔ r.nullable = true := by
  induction r with
  | never => exact iff_of_false id Bool.false_ne_true
  | blank => exact iff_of_true rfl rfl
  | sym k =>
    refine iff_of_false ?_ Bool.false_ne_true
    rintro ⟨a, ha, -⟩
    cases ha
  | alt r s hr hs => rw [lang, Language.mem_add, hr, hs, nullable, Bool.or_eq_true]
  | seq r s hr hs =>
    rw [lang, Language.mem_mul, nullable, Bool.and_eq_true, ← hr, ← hs]
    constructor
    · rintro ⟨u, hu, v, hv, huv⟩
      obtain ⟨rfl, rfl⟩ := List.append_eq_nil_iff.mp huv
      exact ⟨hu, hv⟩
    · rintro ⟨hu, hv⟩
      exact ⟨[], hu, [], hv, rfl⟩
  | star r _ => exact iff_of_true (Language.nil_mem_kstar _) rfl

theorem cons_mem_mul {l m : Language α} {a : α} {w : List α} :
    a :: w ∈ l * m ↔ (∃ u v, w = u ++ v ∧ a :: u ∈ l ∧ v ∈ m) ∨ ([] ∈ l ∧ a :: w ∈ m) := by
  rw [Language.mem_mul]
  constructor
  · rintro ⟨u, hu, v, hv, huv⟩
    cases u with
    | nil => exact .inr ⟨hu, huv ▸ hv⟩
    | cons b u =>
      obtain ⟨rfl, rfl⟩ := List.cons.inj huv
      exact .inl ⟨u, v, rfl, hu, hv⟩
  · rintro (⟨u, v, rfl, hu, hv⟩ | ⟨hnil, hw⟩)
    · exact ⟨a :: u, hu, v, hv, rfl⟩
    · exact ⟨[], hnil, a :: w, hw, rfl⟩

theorem cons_mem_kstar {l : Language α} {a : α} {w : List α} :
    a :: w ∈ l∗ ↔ ∃ u v, w = u ++ v ∧ a :: u ∈ l ∧ v ∈ l∗ := by
  constructor
  · intro h
    obtain ⟨pieces, hw, hpieces⟩ := Language.mem_kstar_iff_exists_nonempty.mp h
    cases pieces with
    | nil => cases hw
    | cons piece rest =>
      obtain ⟨hpiece, hne⟩ := hpieces piece List.mem_cons_self
      obtain ⟨b, u, rfl⟩ := List.exists_cons_of_ne_nil hne
      obtain ⟨rfl, rfl⟩ := List.cons.inj hw
      have hrest := Language.join_mem_kstar fun y hy => (hpieces y (List.mem_cons_of_mem _ hy)).1
      exact ⟨u, rest.flatten, rfl, hpiece, hrest⟩
  · rintro ⟨u, v, rfl, hu, hv⟩
    obtain ⟨pieces, rfl, hpieces⟩ := Language.mem_kstar.mp hv
    refine Language.mem_kstar.mpr ⟨(a :: u) :: pieces, rfl, fun y hy => ?_⟩
    obtain rfl | hy := List.mem_cons.mp hy
    · exact hu
    · exact hpieces y hy

/-- A text with a first letter is matched if its rest is matched by something that is left. -/
theorem cons_mem_lang {a : α} {w : List α} {r : Regex κ} :
    a :: w ∈ r.lang mem ↔ ∃ t ∈ r.steps mem a, w ∈ t.lang mem := by
  have hseq : ∀ {r s : Regex κ} {w : List α}, (∃ t ∈ (r.steps mem a).map (Regex.seq · s), w ∈ t.lang mem) ↔
      ∃ u v, w = u ++ v ∧ (∃ t ∈ r.steps mem a, u ∈ t.lang mem) ∧ v ∈ s.lang mem := by
    intro r s w
    constructor
    · rintro ⟨t, ht', hw⟩
      obtain ⟨t, ht, rfl⟩ := List.mem_map.mp ht'
      obtain ⟨u, hu, v, hv, rfl⟩ := Language.mem_mul.mp hw
      exact ⟨u, v, rfl, ⟨t, ht, hu⟩, hv⟩
    · rintro ⟨u, v, rfl, ⟨t, ht, hu⟩, hv⟩
      exact ⟨.seq t s, List.mem_map.mpr ⟨t, ht, rfl⟩, Language.append_mem_mul hu hv⟩
  induction r generalizing w with
  | never => exact iff_of_false id (by simp [steps])
  | blank => exact iff_of_false (List.cons_ne_nil a w) (by simp [steps])
  | sym k =>
    rw [steps]
    constructor
    · rintro ⟨b, hw, hb⟩
      obtain ⟨rfl, rfl⟩ := List.cons.inj hw
      rw [if_pos hb]
      exact ⟨.blank, List.mem_singleton_self _, rfl⟩
    · rintro ⟨t, ht, hw⟩
      split_ifs at ht with ha
      · rw [List.mem_singleton.mp ht] at hw
        exact ⟨a, by rw [(hw : w = [])], ha⟩
      · cases ht
  | alt r s hr hs =>
    rw [lang, Language.mem_add, steps]
    simp only [List.mem_append, or_and_right, exists_or, hr, hs]
  | seq r s hr hs =>
    rw [lang, cons_mem_mul, nil_mem_lang, steps]
    simp only [List.mem_append, or_and_right, exists_or, hseq, hr]
    refine or_congr_right ?_
    by_cases hnull : r.nullable = true
    · simp [hnull, hs]
    · simp [hnull]
  | star r hr =>
    rw [lang, cons_mem_kstar, steps, hseq]
    simp only [hr]
    rfl

/-! ### Runs of sets of expressions -/

variable [DecidableEq κ]

/-- What can be left of one of a set of states of `r` after a letter. -/
def after (mem : κ → α → Bool) (r : Regex κ) (ts : List (Regex κ)) (a : α) : List (Regex κ) :=
  r.states.filter fun u => ts.any fun t => (t.steps mem a).contains u

theorem mem_after_iff {r : Regex κ} {ts : List (Regex κ)} (hts : ts ⊆ r.states) {a : α} {u : Regex κ} :
    u ∈ after mem r ts a ↔ ∃ t ∈ ts, u ∈ t.steps mem a := by
  simp only [after, List.mem_filter, List.any_eq_true, List.contains_iff_mem]
  exact and_iff_right_of_imp fun ⟨t, ht, hu⟩ => states_closed (hts ht) hu

theorem after_sublist (r : Regex κ) (ts : List (Regex κ)) (a : α) : (after mem r ts a).Sublist r.states :=
  List.filter_sublist

theorem after_congr {r : Regex κ} {ts : List (Regex κ)} (hts : ts ⊆ r.states) {a b : α}
    (h : ∀ k ∈ r.classes, mem k a = mem k b) : after mem r ts a = after mem r ts b := by
  apply List.filter_congr
  intro u _
  have hsteps : ∀ t ∈ ts, t.steps mem a = t.steps mem b := by
    intro t ht
    apply steps_congr
    intro k hk
    obtain rfl | ht := List.mem_cons.mp (hts ht)
    · exact h k hk
    · exact h k (classes_parts ht hk)
  rw [Bool.eq_iff_iff]
  simp only [List.any_eq_true]
  exact exists_congr fun t => and_congr_right fun ht => by rw [hsteps t ht]

theorem mem_lang_of_run {r : Regex κ} {ts : List (Regex κ)} (hts : ts ⊆ r.states) (w : List α) :
    (∃ t ∈ ts, w ∈ t.lang mem) ↔ (w.foldl (after mem r) ts).any nullable = true := by
  induction w generalizing ts with
  | nil =>
    rw [List.foldl_nil, List.any_eq_true]
    exact exists_congr fun t => and_congr_right fun _ => nil_mem_lang
  | cons a w ih =>
    rw [List.foldl_cons, ← ih (after_sublist r ts a).subset]
    simp only [cons_mem_lang, mem_after_iff hts]
    constructor
    · rintro ⟨t, ht, u, hu, hw⟩
      exact ⟨u, ⟨t, ht, hu⟩, hw⟩
    · rintro ⟨u, ⟨t, ht, hu⟩, hw⟩
      exact ⟨t, ht, u, hu, hw⟩

/-! ### Expressions that match everything -/

/-- Every set of states that can be reached has a nullable one. -/
def matchesAll (mem : κ → α → Bool) (letters : List α) (r : Regex κ) : Bool :=
  (reach.explore (fun ts => letters.map (after mem r ts)) (2 ^ r.states.length) [[r]]).all fun ts => ts.any nullable

/-- Where the letters stand for all that its classes tell apart, the exploration decides whether an
    expression matches every text. -/
theorem matchesAll_iff {r : Regex κ} {letters : List α}
    (hletters : ∀ a, ∃ b ∈ letters, ∀ k ∈ r.classes, mem k a = mem k b) :
    matchesAll mem letters r = true ↔ ∀ w, w ∈ r.lang mem := by
  have hstart : ([r] : List (Regex κ)).Sublist r.states := List.singleton_sublist.mpr List.mem_cons_self
  have hreach : ∀ ts, ts ∈ reach.explore (fun ts => letters.map (after mem r ts)) (2 ^ r.states.length) [[r]] ↔
      ∃ s ∈ [[r]], Relation.ReflTransGen (fun s t => t ∈ letters.map (after mem r s)) s ts := by
    intro ts
    refine reach.mem_explore_iff (U := r.states.sublists.toFinset) ?_ ?_ ?_
    · intro s _ t ht
      obtain ⟨a, -, rfl⟩ := List.mem_map.mp ht
      exact List.mem_toFinset.mpr (List.mem_sublists.mpr (after_sublist r s a))
    · intro s hs
      rw [List.mem_singleton.mp hs]
      exact List.mem_toFinset.mpr (List.mem_sublists.mpr hstart)
    · have hall := List.toFinset_card_le r.states.sublists
      rw [List.length_sublists] at hall
      exact (Finset.card_le_card Finset.sdiff_subset).trans hall
  have hmatches : ∀ w, w ∈ r.lang mem ↔ (w.foldl (after mem r) [r]).any nullable = true := by
    intro w
    rw [← mem_lang_of_run hstart.subset]
    simp
  rw [matchesAll, List.all_eq_true]
  constructor
  · intro h w
    rw [hmatches]
    apply h
    rw [hreach]
    refine ⟨[r], List.mem_singleton_self _, ?_⟩
    -- each letter of the text has one that stands for it
    induction w using List.reverseRecOn with
    | nil => exact .refl
    | append_singleton w a ih =>
      obtain ⟨b, hb, hab⟩ := hletters a
      have hsub : w.foldl (after mem r) [r] ⊆ r.states := by
        cases w using List.reverseRecOn with
        | nil => exact hstart.subset
        | append_singleton w a' =>
          rw [List.foldl_append]
          exact (after_sublist r _ a').subset
      refine .tail ih ?_
      rw [List.foldl_append]
      exact List.mem_map.mpr ⟨b, hb, (after_congr hsub hab).symm⟩
  · intro h ts hts
    obtain ⟨s, hs, hrun⟩ := (hreach ts).mp hts
    clear hts
    have hword : ∃ w : List α, ts = w.foldl (after mem r) [r] := by
      induction hrun with
      | refl => exact ⟨[], List.mem_singleton.mp hs⟩
      | tail _ hstep ih =>
        obtain ⟨w, rfl⟩ := ih
        obtain ⟨a, -, rfl⟩ := List.mem_map.mp hstep
        exact ⟨w ++ [a], by rw [List.foldl_append]; rfl⟩
    obtain ⟨w, rfl⟩ := hword
    exact (hmatches w).mp (h w)

end

end Regex
