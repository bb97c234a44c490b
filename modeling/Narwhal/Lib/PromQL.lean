import Mathlib.Data.List.Dedup
import Narwhal.Lib.JsDouble
import Narwhal.Lib.JsGroup

open jslib

namespace promql

/-! Aggregations of PromQL. -/

/-- A series with its value at one time. -/
structure Sample where
  metric : List (Text × Text)
  value : Double
deriving DecidableEq

/-- The value of a label; an absent label is an empty one. -/
def label (metric : List (Text × Text)) (l : Text) : Text := (metric.lookup l).getD []

/-- The metric with these labels only. -/
def restrict (labels : List Text) (metric : List (Text × Text)) : List (Text × Text) :=
  (labels.map fun l => (l, label metric l)).filter fun field => field.2 ≠ []

/-- One sample for each value of the labels, made of all samples that have it: `sum by (labels) (v)`
    and its like. -/
def aggregate (agg : List Sample → Double) (labels : List Text) (v : List Sample) : List Sample :=
  (v.map fun s => restrict labels s.metric).dedup.map fun metric =>
    ⟨metric, agg (v.filter fun s => restrict labels s.metric = metric)⟩

def values (v : List Sample) : List Double := v.map Sample.value

/-- `sum by (le)` of the buckets of a histogram. -/
def buckets (sum : List Double → Double) (v : List Sample) : List (Text × Double) :=
  let le := "le".toList
  (v.map fun s => label s.metric le).dedup.map fun bound =>
    (bound, sum (values (v.filter fun s => label s.metric le = bound)))

/-! ### Labels of a group -/

theorem label_cons (field : Text × Text) (metric : List (Text × Text)) (l : Text) :
    label (field :: metric) l = if l = field.1 then field.2 else label metric l := by
  obtain ⟨k, v⟩ := field
  by_cases h : l = k
  · subst h
    simp [label]
  · simp [label, List.lookup_cons, beq_false_of_ne h, h]

theorem label_restrict (labels : List Text) (metric : List (Text × Text)) (l : Text) :
    label (restrict labels metric) l = if l ∈ labels then label metric l else [] := by
  induction labels with
  | nil => rfl
  | cons l' labels ih =>
    unfold restrict at ih ⊢
    rw [List.map_cons]
    by_cases hempty : label metric l' = []
    · rw [List.filter_cons_of_neg (by simp [hempty]), ih]
      by_cases hl : l = l'
      · subst hl
        simp [hempty]
      · simp [hl]
    · rw [List.filter_cons_of_pos (by simp [hempty]), label_cons, ih]
      by_cases hl : l = l'
      · subst hl
        simp
      · simp [hl]

/-- Two metrics are in one group if they agree on the labels of it. -/
theorem restrict_eq_iff {labels : List Text} {a b : List (Text × Text)} :
    restrict labels a = restrict labels b ↔ ∀ l ∈ labels, label a l = label b l := by
  constructor
  · intro h l hl
    have hlabel := congrArg (label · l) h
    simpa only [label_restrict, if_pos hl] using hlabel
  · intro h
    rw [restrict, restrict, List.map_congr_left fun l hl => by rw [h l hl]]

/-! ### The sample of a group -/

section

variable {agg : List Sample → Double} {labels : List Text} {v : List Sample}

theorem metric_of_mem_aggregate {r : Sample} (h : r ∈ aggregate agg labels v) :
    ∃ s ∈ v, r.metric = restrict labels s.metric := by
  obtain ⟨metric, hmetric, rfl⟩ := List.mem_map.mp h
  obtain ⟨s, hs, rfl⟩ := List.mem_map.mp (List.mem_dedup.mp hmetric)
  exact ⟨s, hs, rfl⟩

/-- Where `f` reads a metric by these labels, the samples with one value of `f` are made one. -/
theorem filter_aggregate {β : Type} [DecidableEq β] {f : List (Text × Text) → β}
    (hf : ∀ a b, f a = f b ↔ restrict labels a = restrict labels b) (hrestrict : ∀ a, f (restrict labels a) = f a) (b : β) :
    (aggregate agg labels v).filter (fun r => f r.metric = b) =
      match v.filter fun s => f s.metric = b with
      | [] => []
      | s :: rest => [⟨restrict labels s.metric, agg (s :: rest)⟩] := by
  rw [aggregate, List.filter_map]
  cases hgroup : v.filter fun s => f s.metric = b with
  | nil =>
    dsimp only
    rw [List.map_eq_nil_iff, List.filter_eq_nil_iff]
    intro metric hmetric
    obtain ⟨s, hs, rfl⟩ := List.mem_map.mp (List.mem_dedup.mp hmetric)
    have hnot := List.filter_eq_nil_iff.mp hgroup s hs
    simpa [hrestrict] using hnot
  | cons s rest =>
    dsimp only
    have hs : s ∈ v.filter fun s => f s.metric = b := hgroup ▸ List.mem_cons_self
    obtain ⟨hmem, hsb⟩ := List.mem_filter.mp hs
    have hsb : f s.metric = b := of_decide_eq_true hsb
    have hsame : ∀ t : Sample, restrict labels t.metric = restrict labels s.metric ↔ f t.metric = b := by
      intro t
      rw [← hf, hsb]
    have hone : (v.map fun s => restrict labels s.metric).dedup.filter (fun metric => f metric = b) =
        [restrict labels s.metric] := by
      have hcount := List.count_eq_one_of_mem (List.nodup_dedup _)
        (List.mem_dedup.mpr (List.mem_map_of_mem (f := fun s : Sample => restrict labels s.metric) hmem))
      rw [← List.replicate_one, ← hcount, ← List.filter_eq]
      apply List.filter_congr
      intro metric hmetric
      obtain ⟨t, -, rfl⟩ := List.mem_map.mp (List.mem_dedup.mp hmetric)
      rw [hrestrict, decide_eq_decide, ← hsame t]
    have hfilter : (v.filter fun t => restrict labels t.metric = restrict labels s.metric) = s :: rest := by
      rw [← hgroup]
      exact List.filter_congr fun t _ => decide_eq_decide.mpr (hsame t)
    change (((v.map fun s => restrict labels s.metric).dedup.filter fun metric => f metric = b).map _) = _
    rw [hone, List.map_singleton, hfilter]

end

/-! ### Exact sums -/

section

variable {σ κ M : Type} [DecidableEq κ] [AddCommMonoid M]

/-- `sum by (labels) (v)` where the values are added up exactly: the key of a series is what it has of
    the labels. -/
def sumBy (key : σ → κ) (value : σ → M) (v : List σ) : List (κ × M) :=
  (v.map key).dedup.map fun k => (k, ((v.filter fun s => key s = k).map value).sum)

theorem nodup_sumBy (key : σ → κ) (value : σ → M) (v : List σ) : ((sumBy key value v).map Prod.fst).Nodup := by
  rw [sumBy, List.map_map]
  exact (List.nodup_dedup _).map fun _ _ h => h

/-- The rows of some keys have the sum of the series of these keys. -/
theorem sum_filter_sumBy (key : σ → κ) (value : σ → M) (p : κ → Bool) (v : List σ) :
    (((sumBy key value v).filter fun row => p row.1).map Prod.snd).sum = ((v.filter fun s => p (key s)).map value).sum := by
  rw [sumBy, List.filter_map, List.map_map]
  refine (sum_map_sum_filter ((List.nodup_dedup (v.map key)).filter p) key value v).trans ?_
  congr 2
  refine List.filter_congr fun s hs => ?_
  have hmem : key s ∈ (v.map key).dedup := List.mem_dedup.mpr (List.mem_map_of_mem hs)
  simp [List.mem_filter, hmem]

end

end promql
