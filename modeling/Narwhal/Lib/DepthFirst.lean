import Mathlib.Logic.Relation
import Narwhal.Lib.Fold

open pylib

namespace depthfirst

/-! Depth-first search over a directed graph, with three colours. A node that is met again on the
path that led to it is reported. -/

/-- A node is active while what follows it is searched. -/
inductive Colour where
  | active
  | done
deriving DecidableEq

structure Search (σ : Type) where
  colour : σ → Option Colour
  found : List σ

namespace Search

variable {σ : Type} [DecidableEq σ]

def start : Search σ := ⟨fun _ => none, []⟩

def paint (s : Search σ) (v : σ) (c : Colour) : Search σ :=
  { s with colour := fun w => if w = v then some c else s.colour w }

def report (s : Search σ) (v : σ) : Search σ := { s with found := s.found ++ [v] }

@[simp] theorem paint_found (s : Search σ) (v : σ) (c : Colour) : (s.paint v c).found = s.found := rfl

theorem paint_colour (s : Search σ) (v : σ) (c : Colour) (w : σ) :
    (s.paint v c).colour w = if w = v then some c else s.colour w := rfl

end Search

section

variable {σ : Type} {next : σ → List σ} {s s' : Search σ} {v : σ}

/-! ### Following edges -/

/-- `w` can be reached from `v` in one step or more. -/
abbrev Follows (next : σ → List σ) : σ → σ → Prop := Relation.TransGen fun v w => w ∈ next v

theorem not_follows_self (h : Acc (fun u v => u ∈ next v) v) : ¬ Follows next v v := by
  induction h with
  | intro v _ ih =>
    intro hcycle
    obtain ⟨w, hw, hback⟩ := Relation.TransGen.head'_iff.mp hcycle
    exact ih w hw (.tail' hback hw)

/-! ### What a search leaves as it was -/

/-- The path is the same after as before, what is done stays done, and reports are only added. -/
structure Extends (s s' : Search σ) : Prop where
  active : ∀ w, s'.colour w = some .active ↔ s.colour w = some .active
  done : ∀ w, s.colour w = some .done → s'.colour w = some .done
  found : s.found <+: s'.found

theorem Extends.refl (s : Search σ) : Extends s s := ⟨fun _ => .rfl, fun _ => id, List.prefix_rfl⟩

theorem Extends.trans {s t u : Search σ} (hst : Extends s t) (htu : Extends t u) : Extends s u where
  active w := (htu.active w).trans (hst.active w)
  done w h := htu.done w (hst.done w h)
  found := hst.found.trans htu.found

theorem Extends.colour_eq_none {w : σ} (h : Extends s s') (hw : s'.colour w = none) : s.colour w = none := by
  cases hcolour : s.colour w with
  | none => rfl
  | some c =>
    cases c with
    | active =>
      rw [(h.active w).mpr hcolour] at hw
      cases hw
    | done =>
      rw [h.done w hcolour] at hw
      cases hw

/-- The nodes that are not met yet. -/
def unseen (nodes : List σ) (s : Search σ) : List σ := nodes.filter fun w => s.colour w = none

theorem Extends.length_unseen_le (nodes : List σ) (h : Extends s s') :
    (unseen nodes s').length ≤ (unseen nodes s).length :=
  (List.monotone_filter_right nodes fun w hw => by
    simp only [decide_eq_true_eq] at hw ⊢
    exact h.colour_eq_none hw).length_le

/-- Every node of the path leads to this node. -/
def LeadsTo (next : σ → List σ) (s : Search σ) (v : σ) : Prop := ∀ u, s.colour u = some .active → Follows next u v

theorem LeadsTo.of_extends (h : LeadsTo next s v) (hext : Extends s s') : LeadsTo next s' v :=
  fun u hu => h u ((hext.active u).mp hu)

end

section

variable {σ : Type} [DecidableEq σ]

/-- The search from one node; `none` is a search that goes deeper than the bound. -/
def visit (next : σ → List σ) : Nat → Search σ → σ → Option (Search σ)
  | 0, _, _ => none
  | depth + 1, s, v =>
    match s.colour v with
    | some .active => some (s.report v)
    | some .done => some s
    | none => do
      let s ← (next v).foldlM (fun s w => visit next depth s w) (s.paint v .active)
      return s.paint v .done

variable {next : σ → List σ} {depth : Nat} {s s' : Search σ} {v : σ}

/-- What a search of one node does: nothing else than a report or nothing at all on a node that it
    has met, and else a search of what follows the node. -/
theorem visit_cases (h : visit next depth s v = some s') :
    (s.colour v = some .active ∧ s' = s.report v) ∨ (s.colour v = some .done ∧ s' = s) ∨
    ∃ depth' t, depth = depth' + 1 ∧ s.colour v = none ∧
      (next v).foldlM (fun s w => visit next depth' s w) (s.paint v .active) = some t ∧ s' = t.paint v .done := by
  cases depth with
  | zero => cases h
  | succ depth' =>
    rw [visit] at h
    cases hcolour : s.colour v with
    | none =>
      rw [hcolour] at h
      obtain ⟨t, ht, hs'⟩ := Option.bind_eq_some_iff.mp h
      exact .inr (.inr ⟨depth', t, rfl, rfl, ht, (Option.some.inj hs').symm⟩)
    | some c =>
      rw [hcolour] at h
      cases c with
      | active => exact .inl ⟨rfl, (Option.some.inj h).symm⟩
      | done => exact .inr (.inl ⟨rfl, (Option.some.inj h).symm⟩)

theorem extends_foldlM (hstep : ∀ s w s', visit next depth s w = some s' → Extends s s') {ws : List σ}
    (h : ws.foldlM (fun s w => visit next depth s w) s = some s') : Extends s s' := by
  induction ws generalizing s with
  | nil =>
    cases h
    exact .refl _
  | cons w ws ih =>
    obtain ⟨t, ht, hrest⟩ := foldlM_cons_some_iff.mp h
    exact (hstep s w t ht).trans (ih hrest)

/-- A node is active between its two colours only, so that the path at the end is the one before. -/
theorem Extends.close (hv : s.colour v = none) (h : Extends (s.paint v .active) s') :
    Extends s (s'.paint v .done) where
  active w := by
    rw [Search.paint_colour]
    split_ifs with hw
    · subst hw
      simp [hv]
    · rw [h.active w, Search.paint_colour, if_neg hw]
  done w hw := by
    rw [Search.paint_colour]
    split_ifs with hwv
    · rfl
    · exact h.done w (by rw [Search.paint_colour, if_neg hwv, hw])
  found := h.found

theorem extends_visit (h : visit next depth s v = some s') : Extends s s' := by
  induction depth generalizing s s' v with
  | zero => cases h
  | succ depth ih =>
    obtain ⟨-, rfl⟩ | ⟨-, rfl⟩ | ⟨depth', t, hdepth, hv, ht, rfl⟩ := visit_cases h
    · exact ⟨fun _ => .rfl, fun _ => id, List.prefix_append _ _⟩
    · exact .refl s'
    · cases hdepth
      exact (extends_foldlM (fun s w s' => ih) ht).close hv

theorem extends_foldlM_visit {ws : List σ} (h : ws.foldlM (fun s w => visit next depth s w) s = some s') :
    Extends s s' :=
  extends_foldlM (fun _ _ _ => extends_visit) h

/-! ### The search ends -/

theorem length_unseen_paint {nodes : List σ} {c : Colour} (hv : v ∈ nodes) (hnone : s.colour v = none) :
    (unseen nodes (s.paint v c)).length < (unseen nodes s).length := by
  have hsub : (unseen nodes (s.paint v c)).Sublist (unseen nodes s) := by
    refine List.monotone_filter_right nodes fun w hw => ?_
    simp only [Search.paint_colour, decide_eq_true_eq] at hw ⊢
    split_ifs at hw with hwv
    · simp at hw
    · exact decide_eq_true_eq.mp hw
  refine Nat.lt_of_le_of_ne hsub.length_le fun hlength => ?_
  have hmem : v ∈ unseen nodes s := List.mem_filter.mpr ⟨hv, by simp [hnone]⟩
  rw [← hsub.eq_of_length hlength] at hmem
  simp [unseen, Search.paint_colour] at hmem

theorem exists_foldlM_visit {nodes : List σ}
    (hstep : ∀ s, ∀ w ∈ nodes, (unseen nodes s).length < depth → ∃ s', visit next depth s w = some s')
    {ws : List σ} (hws : ∀ w ∈ ws, w ∈ nodes) (hdepth : (unseen nodes s).length < depth) :
    ∃ s', ws.foldlM (fun s w => visit next depth s w) s = some s' := by
  induction ws generalizing s with
  | nil => exact ⟨s, rfl⟩
  | cons w ws ih =>
    obtain ⟨hw, hws⟩ := List.forall_mem_cons.mp hws
    obtain ⟨t, ht⟩ := hstep s w hw hdepth
    obtain ⟨s', hs'⟩ := ih hws (Nat.lt_of_le_of_lt ((extends_visit ht).length_unseen_le nodes) hdepth)
    exact ⟨s', foldlM_cons_some_iff.mpr ⟨t, ht, hs'⟩⟩

/-- The path of a search has no node twice, so that no search goes deeper than there are nodes. -/
theorem exists_visit {nodes : List σ} (hclosed : ∀ v ∈ nodes, ∀ w ∈ next v, w ∈ nodes) (hv : v ∈ nodes)
    (hdepth : (unseen nodes s).length < depth) : ∃ s', visit next depth s v = some s' := by
  induction depth generalizing s v with
  | zero => omega
  | succ depth ih =>
    rw [visit]
    cases hcolour : s.colour v with
    | some c => cases c <;> exact ⟨_, rfl⟩
    | none =>
      have hless := length_unseen_paint (c := .active) hv hcolour
      obtain ⟨t, ht⟩ := exists_foldlM_visit (fun s w hw => ih hw) (hclosed v hv) (s := s.paint v .active) (by omega)
      exact ⟨t.paint v .done, by simp [ht]⟩

/-! ### A report is a cycle -/

theorem LeadsTo.child {w : σ} (h : LeadsTo next s v) (hw : w ∈ next v) : LeadsTo next (s.paint v .active) w := by
  intro u hu
  rw [Search.paint_colour] at hu
  split_ifs at hu with huv
  · subst huv
    exact .single hw
  · exact (h u hu).tail hw

variable {P : σ → Prop}

theorem found_of_foldlM_visit
    (hstep : ∀ s w s', visit next depth s w = some s' → LeadsTo next s w → P w →
      ∀ u ∈ s'.found, u ∈ s.found ∨ P u ∧ Follows next u u)
    {ws : List σ} (h : ws.foldlM (fun s w => visit next depth s w) s = some s')
    (hleads : ∀ w ∈ ws, LeadsTo next s w) (hP : ∀ w ∈ ws, P w) {u : σ} (hu : u ∈ s'.found) :
    u ∈ s.found ∨ P u ∧ Follows next u u := by
  induction ws generalizing s with
  | nil =>
    cases h
    exact .inl hu
  | cons w ws ih =>
    obtain ⟨t, ht, hrest⟩ := foldlM_cons_some_iff.mp h
    obtain ⟨hw, hleads⟩ := List.forall_mem_cons.mp hleads
    obtain ⟨hPw, hP⟩ := List.forall_mem_cons.mp hP
    obtain hmem | hcycle := ih hrest (fun w hw => (hleads w hw).of_extends (extends_visit ht)) hP
    · exact hstep s w t ht hw hPw u hmem
    · exact .inr hcycle

/-- A node that is met while it is active lies on the path, and the path leads back to it. -/
theorem found_of_visit (hclosed : ∀ v, P v → ∀ w ∈ next v, P w) (h : visit next depth s v = some s')
    (hleads : LeadsTo next s v) (hP : P v) {u : σ} (hu : u ∈ s'.found) : u ∈ s.found ∨ P u ∧ Follows next u u := by
  induction depth generalizing s s' v u with
  | zero => cases h
  | succ depth ih =>
    obtain ⟨hactive, rfl⟩ | ⟨-, rfl⟩ | ⟨depth', t, hdepth, hv, ht, rfl⟩ := visit_cases h
    · obtain hmem | hmem := List.mem_append.mp hu
      · exact .inl hmem
      · obtain rfl := List.mem_singleton.mp hmem
        exact .inr ⟨hP, hleads _ hactive⟩
    · exact .inl hu
    · cases hdepth
      exact found_of_foldlM_visit (fun s w s' h hleads hP u hu => ih h hleads hP hu) ht (fun w => hleads.child)
        (hclosed v hP) hu

/-! ### A cycle is reported -/

/-- Nothing that follows a done node leads to a cycle. -/
def Settled (next : σ → List σ) (s : Search σ) : Prop :=
  ∀ w, s.colour w = some .done → Acc (fun u v => u ∈ next v) w

theorem settled_foldlM_visit
    (hstep : ∀ s w s', visit next depth s w = some s' → Settled next s → s'.found = s.found →
      Settled next s' ∧ s'.colour w = some .done)
    {ws : List σ} (h : ws.foldlM (fun s w => visit next depth s w) s = some s') (hsettled : Settled next s)
    (hfound : s'.found = s.found) : Settled next s' ∧ ∀ w ∈ ws, s'.colour w = some .done := by
  induction ws generalizing s with
  | nil =>
    cases h
    exact ⟨hsettled, by simp⟩
  | cons w ws ih =>
    obtain ⟨t, ht, hrest⟩ := foldlM_cons_some_iff.mp h
    have hext := extends_foldlM_visit hrest
    have htfound : t.found = s.found := by
      refine (List.IsPrefix.eq_of_length_le (extends_visit ht).found ?_).symm
      rw [← hfound]
      exact hext.found.length_le
    obtain ⟨htsettled, hw⟩ := hstep s w t ht hsettled htfound
    obtain ⟨hsettled', hws⟩ := ih hrest htsettled (hfound.trans htfound.symm)
    exact ⟨hsettled', List.forall_mem_cons.mpr ⟨hext.done w hw, hws⟩⟩

/-- A node is done after all that follow it, unless one of them was met on the path. -/
theorem settled_visit (h : visit next depth s v = some s') (hsettled : Settled next s)
    (hfound : s'.found = s.found) : Settled next s' ∧ s'.colour v = some .done := by
  induction depth generalizing s s' v with
  | zero => cases h
  | succ depth ih =>
    obtain ⟨-, rfl⟩ | ⟨hdone, rfl⟩ | ⟨depth', t, hdepth, hv, ht, rfl⟩ := visit_cases h
    · simp [Search.report] at hfound
    · exact ⟨hsettled, hdone⟩
    · cases hdepth
      have hpaint : Settled next (s.paint v .active) := by
        intro w hw
        rw [Search.paint_colour] at hw
        split_ifs at hw with hwv
        · cases hw
        · exact hsettled w hw
      obtain ⟨htsettled, hnext⟩ := settled_foldlM_visit (fun s w s' => ih) ht hpaint hfound
      refine ⟨fun w hw => ?_, by rw [Search.paint_colour, if_pos rfl]⟩
      rw [Search.paint_colour] at hw
      split_ifs at hw with hwv
      · subst hwv
        exact .intro w fun u hu => htsettled u (hnext u hu)
      · exact htsettled w hw

/-- A search from each of the nodes ends, and it reports something if and only if one of them lies on
    a cycle. -/
theorem exists_visit_all {nodes : List σ} (hclosed : ∀ v ∈ nodes, ∀ w ∈ next v, w ∈ nodes)
    (hdepth : nodes.length < depth) :
    ∃ s, nodes.foldlM (fun s w => visit next depth s w) .start = some s ∧
      (s.found ≠ [] ↔ ∃ v ∈ nodes, Follows next v v) := by
  have hunseen : (unseen nodes .start).length < depth := Nat.lt_of_le_of_lt (List.length_filter_le _ _) hdepth
  obtain ⟨s, hs⟩ := exists_foldlM_visit (fun s w hw => exists_visit hclosed hw) (fun w hw => hw) hunseen
  refine ⟨s, hs, ?_, ?_⟩
  · intro hne
    obtain ⟨u, hu⟩ := List.exists_mem_of_ne_nil _ hne
    have hleads : ∀ w ∈ nodes, LeadsTo next .start w := fun w _ u hu => by cases hu
    obtain hnil | ⟨hmem, hcycle⟩ := found_of_foldlM_visit (P := (· ∈ nodes))
      (fun s w s' h hleads hP u hu => found_of_visit hclosed h hleads hP hu) hs hleads (fun w hw => hw) hu
    · cases hnil
    · exact ⟨u, hmem, hcycle⟩
  · rintro ⟨v, hv, hcycle⟩ hnil
    have hstart : Settled next (.start : Search σ) := fun w hw => by cases hw
    obtain ⟨hsettled, hall⟩ := settled_foldlM_visit (fun s w s' => settled_visit) hs hstart hnil
    exact not_follows_self (hsettled v (hall v hv)) hcycle

end

end depthfirst
