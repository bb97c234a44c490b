import Mathlib.Algebra.BigOperators.Group.List.Basic
import Mathlib.Algebra.Ring.Nat
import Narwhal.Lib.JsMap

namespace jslib

/-! Groups gathered in a map: every item goes to the group of its key, which is begun with
the first item that has the key. -/

section

variable {ι κ γ : Type} [DecidableEq κ]

/-- One item is added to the group of its key. -/
def gather (key : ι → κ) (start : ι → γ) (add : γ → ι → γ) (groups : JsMap κ γ) (item : ι) : JsMap κ γ :=
  groups.set (key item) (add ((groups.get (key item)).getD (start item)) item)

/-- A group with further items. -/
def grown (start : ι → γ) (add : γ → ι → γ) (group : Option γ) : List ι → Option γ
  | [] => group
  | item :: items => some (items.foldl add (add (group.getD (start item)) item))

variable {key : ι → κ} {start : ι → γ} {add : γ → ι → γ}

theorem grown_grown_cons (group : Option γ) (item : ι) (items : List ι) :
    grown start add (some (add (group.getD (start item)) item)) items = grown start add group (item :: items) := by
  cases items <;> rfl

/-- A group holds the items that have its key, in their order. -/
theorem get_foldl_gather (items : List ι) (groups : JsMap κ γ) (k : κ) :
    (items.foldl (gather key start add) groups).get k =
      grown start add (groups.get k) (items.filter fun item => key item = k) := by
  induction items generalizing groups with
  | nil => rfl
  | cons item items ih =>
    rw [List.foldl_cons, ih]
    by_cases hkey : key item = k
    · subst hkey
      rw [gather, JsMap.get_set, if_pos rfl, List.filter_cons_of_pos (by simp), grown_grown_cons]
    · rw [gather, JsMap.get_set, if_neg (Ne.symm hkey), List.filter_cons_of_neg (by simpa using hkey)]

/-- What holds of a group that an item is added to holds of every group. -/
theorem forall_foldl_gather {P : κ → γ → Prop} {items : List ι} {groups : JsMap κ γ}
    (hstart : ∀ item ∈ items, P (key item) (start item))
    (hadd : ∀ item ∈ items, ∀ group, P (key item) group → P (key item) (add group item))
    (h : ∀ k group, groups.get k = some group → P k group) {k : κ} {group : γ}
    (hget : (items.foldl (gather key start add) groups).get k = some group) : P k group := by
  induction items generalizing groups with
  | nil => exact h k group hget
  | cons item items ih =>
    rw [List.forall_mem_cons] at hstart hadd
    refine ih hstart.2 hadd.2 ?_ hget
    intro k' group' hget'
    rw [gather, JsMap.get_set] at hget'
    split_ifs at hget' with hk
    · subst hk
      obtain rfl := Option.some.inj hget'
      apply hadd.1
      cases hold : groups.get (key item) with
      | none => exact hstart.1
      | some old => exact h (key item) old hold
    · exact h k' group' hget'

/-! ### Totals -/

variable {M : Type} [AddCommMonoid M] {weight : γ → M} {value : ι → M}

/-- The weight of all groups. -/
def total (weight : γ → M) (groups : JsMap κ γ) : M := (groups.entries.map fun entry => weight entry.2).sum

theorem sum_setEntry (entries : List (κ × γ)) (k : κ) {group : γ} {d : M}
    (h : weight group = (match entries.lookup k with | none => 0 | some old => weight old) + d) :
    ((setEntry k group entries).map fun entry => weight entry.2).sum = (entries.map fun entry => weight entry.2).sum + d := by
  induction entries with
  | nil => simpa [setEntry] using h
  | cons entry entries ih =>
    obtain ⟨k', old⟩ := entry
    by_cases hk : k' = k
    · subst hk
      simp only [List.lookup_cons_self] at h
      rw [setEntry, if_pos rfl, List.map_cons, List.map_cons, List.sum_cons, List.sum_cons, h]
      exact add_right_comm _ _ _
    · rw [List.lookup_cons, beq_false_of_ne (Ne.symm hk)] at h
      rw [setEntry, if_neg hk, List.map_cons, List.map_cons, List.sum_cons, List.sum_cons, ih h, add_assoc]

theorem total_gather (hstart : ∀ item, weight (start item) = 0)
    (hadd : ∀ group item, weight (add group item) = weight group + value item) (groups : JsMap κ γ) (item : ι) :
    total weight (gather key start add groups item) = total weight groups + value item := by
  apply sum_setEntry
  rw [hadd]
  congr 1
  unfold JsMap.get
  cases groups.entries.lookup (key item) with
  | none => exact hstart item
  | some old => rfl

variable (weight value) in
/-- The groups weigh what their items do. -/
theorem total_foldl_gather (hstart : ∀ item, weight (start item) = 0)
    (hadd : ∀ group item, weight (add group item) = weight group + value item) (items : List ι) (groups : JsMap κ γ) :
    total weight (items.foldl (gather key start add) groups) = total weight groups + (items.map value).sum := by
  induction items generalizing groups with
  | nil => simp
  | cons item items ih =>
    rw [List.foldl_cons, ih, total_gather hstart hadd, List.map_cons, List.sum_cons, add_assoc]

theorem sum_ones (items : List ι) : (items.map fun _ => 1).sum = items.length := by
  induction items with
  | nil => rfl
  | cons item items ih => rw [List.map_cons, List.sum_cons, ih, List.length_cons, Nat.add_comm]

variable (weight value) in
theorem weight_grown (hstart : ∀ item, weight (start item) = 0)
    (hadd : ∀ group item, weight (add group item) = weight group + value item) {items : List ι} {group : γ}
    (h : grown start add none items = some group) : weight group = (items.map value).sum := by
  cases items with
  | nil => cases h
  | cons item items =>
    obtain rfl := Option.some.inj h
    have hfold : ∀ (items : List ι) (group : γ), weight (items.foldl add group) = weight group + (items.map value).sum := by
      intro items
      induction items with
      | nil => simp
      | cons item items ih =>
        intro group
        rw [List.foldl_cons, ih, hadd, List.map_cons, List.sum_cons, add_assoc]
    rw [hfold, hadd, Option.getD_none, hstart, zero_add, List.map_cons, List.sum_cons]

end

section

variable {α κ M : Type} [DecidableEq κ] [AddCommMonoid M]

/-- Of distinct keys one is met at most once. -/
theorem sum_map_ite_of_nodup {keys : List κ} (h : keys.Nodup) (k : κ) (x : M) :
    (keys.map fun key => if k = key then x else 0).sum = if k ∈ keys then x else 0 := by
  induction keys with
  | nil => rfl
  | cons key keys ih =>
    obtain ⟨hnot, hrest⟩ := List.nodup_cons.mp h
    rw [List.map_cons, List.sum_cons, ih hrest]
    by_cases hkey : k = key
    · subst hkey
      simp [hnot]
    · simp [hkey]

/-- Sums over the items of distinct keys add up to the sum over all items that have one of the keys. -/
theorem sum_map_sum_filter {keys : List κ} (h : keys.Nodup) (key : α → κ) (value : α → M) (items : List α) :
    (keys.map fun k => ((items.filter fun item => key item = k).map value).sum).sum =
      ((items.filter fun item => key item ∈ keys).map value).sum := by
  induction items with
  | nil => simp
  | cons item items ih =>
    have hcons : (keys.map fun k => (((item :: items).filter fun item => key item = k).map value).sum) =
        keys.map fun k => (if key item = k then value item else 0) + ((items.filter fun item => key item = k).map value).sum := by
      refine List.map_congr_left fun k _ => ?_
      by_cases hk : key item = k <;> simp [hk]
    rw [hcons, List.sum_map_add, sum_map_ite_of_nodup h, ih]
    by_cases hmem : key item ∈ keys <;> simp [hmem]

theorem getD_get_eq_sum (map : JsMap κ M) (k : κ) :
    (map.get k).getD 0 = ((map.entries.filter fun entry => entry.1 = k).map Prod.snd).sum := by
  obtain ⟨entries, nodup⟩ := map
  simp only [JsMap.get]
  induction entries with
  | nil => rfl
  | cons entry entries ih =>
    obtain ⟨k', v⟩ := entry
    obtain ⟨hnot, hrest⟩ := List.nodup_cons.mp nodup
    by_cases hk : k = k'
    · subst hk
      have hnone : entries.filter (fun entry => entry.1 = k) = [] := by
        refine List.filter_eq_nil_iff.mpr fun entry hentry heq => hnot ?_
        exact List.mem_map.mpr ⟨entry, hentry, of_decide_eq_true heq⟩
      simp [hnone]
    · rw [List.lookup_cons, beq_false_of_ne hk, List.filter_cons_of_neg (by simpa using Ne.symm hk)]
      exact ih hrest

/-- The values of all its keys are what a map holds. -/
theorem sum_getD_get (map : JsMap κ M) {keys : List κ} (hnodup : keys.Nodup)
    (hkeys : ∀ entry ∈ map.entries, entry.1 ∈ keys) : (keys.map fun k => (map.get k).getD 0).sum = total id map := by
  simp only [getD_get_eq_sum]
  rw [sum_map_sum_filter hnodup Prod.fst Prod.snd map.entries, total, List.filter_eq_self.mpr]
  · rfl
  · exact fun entry hentry => decide_eq_true (hkeys entry hentry)

end

end jslib
