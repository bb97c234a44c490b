import Narwhal.Lib.Json

namespace pylib

/-! Dictionaries in the order in which their keys were set, and their sorting by key. -/

/-! ### Items in the order of insertion -/

/-- `d[key] = value`, where the items keep the order in which their keys were set. -/
def putField (key : Str) (value : Json) : List (Str × Json) → List (Str × Json)
  | [] => [(key, value)]
  | (k, v) :: rest => if k = key then (k, value) :: rest else (k, v) :: putField key value rest

/-- The value of a key is the one put last; -/
theorem lookupField_putField_self {key : Str} {value : Json} {d : List (Str × Json)} :
    lookupField key (putField key value d) = some value := by
  induction d with
  | nil => simp [putField, lookupField]
  | cons kv rest ih =>
    rw [putField]
    split_ifs with hk
    · simp [lookupField, hk]
    · simp [lookupField, hk, ih]

/-- other keys keep theirs. -/
theorem lookupField_putField_of_ne {key other : Str} {value : Json} {d : List (Str × Json)} (h : key ≠ other) :
    lookupField other (putField key value d) = lookupField other d := by
  induction d with
  | nil => simp [putField, lookupField, h]
  | cons kv rest ih =>
    rw [putField]
    split_ifs with hk
    · simp [lookupField, hk ▸ h]
    · simp [lookupField, ih]

theorem mem_putField {key : Str} {value : Json} {d : List (Str × Json)} {kv : Str × Json}
    (h : kv ∈ putField key value d) : kv = (key, value) ∨ kv ∈ d := by
  induction d with
  | nil => exact .inl (List.mem_singleton.mp h)
  | cons kv' rest ih =>
    rw [putField] at h
    split_ifs at h with hk
    · obtain rfl | h := List.mem_cons.mp h
      · exact .inl (Prod.ext hk rfl)
      · exact .inr (List.mem_cons_of_mem _ h)
    · obtain rfl | h := List.mem_cons.mp h
      · exact .inr List.mem_cons_self
      · exact (ih h).imp_right (List.mem_cons_of_mem _)

theorem mem_keys_putField_iff {key k : Str} {value : Json} {d : List (Str × Json)} :
    k ∈ (putField key value d).map Prod.fst ↔ k = key ∨ k ∈ d.map Prod.fst := by
  rw [← exists_lookupField_iff, ← exists_lookupField_iff]
  by_cases hk : key = k
  · rw [hk, lookupField_putField_self]
    simp
  · rw [lookupField_putField_of_ne hk, or_iff_right (Ne.symm hk)]

theorem nodup_keys_putField {key : Str} {value : Json} {d : List (Str × Json)} (h : (d.map Prod.fst).Nodup) :
    ((putField key value d).map Prod.fst).Nodup := by
  induction d with
  | nil => exact List.nodup_singleton key
  | cons kv rest ih =>
    obtain ⟨hk, hrest⟩ := List.nodup_cons.mp h
    rw [putField]
    split_ifs with hkey
    · exact List.nodup_cons.mpr ⟨hk, hrest⟩
    · refine List.nodup_cons.mpr ⟨fun hmem => ?_, ih hrest⟩
      obtain heq | hmem := mem_keys_putField_iff.mp hmem
      · exact hkey heq
      · exact hk hmem

/-- With distinct keys every field is found. -/
theorem lookupField_of_mem {fields : List (Str × Json)} (hnodup : (fields.map Prod.fst).Nodup) {key : Str} {value : Json}
    (h : (key, value) ∈ fields) : lookupField key fields = some value := by
  obtain ⟨value', hvalue⟩ := exists_lookupField_iff.mpr (List.mem_map_of_mem (f := Prod.fst) h)
  have heq := List.inj_on_of_nodup_map hnodup (mem_of_lookupField hvalue) h rfl
  rw [hvalue, (Prod.mk.inj heq).2]

/-! ### Items in the order of their keys -/

theorem mem_setField {key : Str} {value : Json} {d : List (Str × Json)} {kv : Str × Json}
    (h : kv ∈ setField key value d) : kv = (key, value) ∨ kv ∈ d := by
  induction d with
  | nil => exact .inl (List.mem_singleton.mp h)
  | cons kv' rest ih =>
    rw [setField] at h
    split_ifs at h
    · exact (List.mem_cons.mp h).imp_right (List.mem_cons_of_mem _)
    · exact List.mem_cons.mp h
    · obtain rfl | h := List.mem_cons.mp h
      · exact .inr List.mem_cons_self
      · exact (ih h).imp_right (List.mem_cons_of_mem _)

theorem lookupField_setField {key other : Str} {value : Json} {d : List (Str × Json)} :
    lookupField other (setField key value d) = if key = other then some value else lookupField other d := by
  induction d with
  | nil => rfl
  | cons kv rest ih =>
    obtain ⟨k, v⟩ := kv
    rw [setField]
    by_cases hk : key = k
    · subst hk
      rw [if_pos rfl, lookupField, lookupField]
      split_ifs <;> rfl
    · rw [if_neg hk]
      by_cases hlt : key < k
      · rw [if_pos hlt, lookupField]
      · rw [if_neg hlt, lookupField, ih, lookupField]
        split_ifs with hother hother'
        · exact absurd (hother'.trans hother.symm) hk
        · rfl
        · rfl
        · rfl

theorem sorted_setField {key : Str} {value : Json} {d : List (Str × Json)} (h : (d.map Prod.fst).Pairwise (· < ·)) :
    ((setField key value d).map Prod.fst).Pairwise (· < ·) := by
  induction d with
  | nil => exact List.pairwise_singleton _ _
  | cons kv rest ih =>
    obtain ⟨k, v⟩ := kv
    obtain ⟨hk, hrest⟩ := List.pairwise_cons.mp h
    rw [setField]
    split_ifs with hkey hlt
    · exact hkey ▸ h
    · refine List.pairwise_cons.mpr ⟨fun k' hk' => ?_, h⟩
      obtain rfl | hk' := List.mem_cons.mp hk'
      · exact hlt
      · exact hlt.trans (hk k' hk')
    · refine List.pairwise_cons.mpr ⟨fun k' hk' => ?_, ih hrest⟩
      obtain ⟨kv, hkv, rfl⟩ := List.mem_map.mp hk'
      obtain rfl | hkv := mem_setField hkv
      · exact lt_of_le_of_ne (not_lt.mp hlt) (Ne.symm hkey)
      · exact hk kv.1 (List.mem_map_of_mem hkv)

/-- What `dictOf` does once some pairs are stored. -/
private theorem dictOf_from {pairs d : List (Str × Json)} (hsorted : (d.map Prod.fst).Pairwise (· < ·)) :
    let d' := pairs.foldl (fun d kv => setField kv.1 kv.2 d) d
    (d'.map Prod.fst).Pairwise (· < ·) ∧ (∀ kv ∈ d', kv ∈ d ∨ kv ∈ pairs) := by
  induction pairs generalizing d with
  | nil => exact ⟨hsorted, fun kv hkv => .inl hkv⟩
  | cons kv pairs ih =>
    obtain ⟨hsorted, hmem⟩ := ih (@sorted_setField kv.1 kv.2 _ hsorted)
    refine ⟨hsorted, fun kv' hkv' => ?_⟩
    obtain hold | hnew := hmem kv' hkv'
    · obtain rfl | hold := mem_setField hold
      · exact .inr List.mem_cons_self
      · exact .inl hold
    · exact .inr (List.mem_cons_of_mem _ hnew)

/-- The keys of a dictionary are in order. -/
theorem sorted_dictOf (pairs : List (Str × Json)) : ((dictOf pairs).map Prod.fst).Pairwise (· < ·) :=
  (dictOf_from List.Pairwise.nil).1

theorem mem_of_mem_dictOf {pairs : List (Str × Json)} {kv : Str × Json} (h : kv ∈ dictOf pairs) : kv ∈ pairs :=
  ((dictOf_from List.Pairwise.nil).2 kv h).resolve_left (List.not_mem_nil)

/-- Pairs with different keys are found under them. -/
theorem lookupField_dictOf {pairs : List (Str × Json)} (h : (pairs.map Prod.fst).Nodup) (key : Str) :
    lookupField key (dictOf pairs) = lookupField key pairs := by
  have hfold : ∀ d : List (Str × Json), lookupField key (pairs.foldl (fun d kv => setField kv.1 kv.2 d) d) =
      (lookupField key pairs).or (lookupField key d) := by
    induction pairs with
    | nil => intro d; rfl
    | cons kv pairs ih =>
      intro d
      obtain ⟨hk, hrest⟩ := List.nodup_cons.mp h
      rw [List.foldl_cons, ih hrest, lookupField_setField, lookupField]
      split_ifs with hkey
      · have hnone : lookupField key pairs = none := by
          rw [Option.eq_none_iff_forall_ne_some]
          intro v hv
          exact hk (hkey ▸ exists_lookupField_iff.mp ⟨v, hv⟩)
        rw [hnone]
        rfl
      · rfl
  rw [dictOf, hfold]
  exact Option.or_none

/-- Pairs that come in the order of their keys stay as they are. -/
theorem dictOf_of_sorted {pairs : List (Str × Json)} (h : (pairs.map Prod.fst).Pairwise (· < ·)) :
    dictOf pairs = pairs := by
  have hset : ∀ {d : List (Str × Json)} {kv : Str × Json}, (∀ kv' ∈ d, kv'.1 < kv.1) →
      setField kv.1 kv.2 d = d ++ [kv] := by
    intro d kv hlt
    induction d with
    | nil => rfl
    | cons kv' d ih =>
      obtain ⟨hhead, hlt⟩ := List.forall_mem_cons.mp hlt
      rw [setField, if_neg hhead.ne', if_neg hhead.not_gt, ih hlt]
      rfl
  have hfold : ∀ pairs d : List (Str × Json), ((d ++ pairs).map Prod.fst).Pairwise (· < ·) →
      pairs.foldl (fun d kv => setField kv.1 kv.2 d) d = d ++ pairs := by
    intro pairs
    induction pairs with
    | nil => intro d _; exact (List.append_nil d).symm
    | cons kv pairs ih =>
      intro d hsorted
      have hlt : ∀ kv' ∈ d, kv'.1 < kv.1 := by
        rw [List.map_append, List.pairwise_append] at hsorted
        exact fun kv' hkv' => hsorted.2.2 kv'.1 (List.mem_map_of_mem hkv') kv.1 List.mem_cons_self
      rw [List.foldl_cons, hset hlt, ih (d ++ [kv]) (by simpa using hsorted), List.append_assoc]
      rfl
  exact hfold pairs [] h

mutual

/-- A value with its dictionaries in the order of their keys, as `sort_keys=True` prints it. -/
def sortKeys : Json → Json
  | .arr items => .arr (sortKeysItems items)
  | .obj fields => .obj (dictOf (sortKeysFields fields))
  | value => value

def sortKeysItems : List Json → List Json
  | [] => []
  | x :: xs => sortKeys x :: sortKeysItems xs

def sortKeysFields : List (Str × Json) → List (Str × Json)
  | [] => []
  | (k, v) :: rest => (k, sortKeys v) :: sortKeysFields rest

end

theorem sortKeysFields_eq_map : ∀ fields : List (Str × Json),
    sortKeysFields fields = fields.map fun kv => (kv.1, sortKeys kv.2)
  | [] => rfl
  | (_, _) :: rest => congrArg _ (sortKeysFields_eq_map rest)

/-- Sorting inside the values keeps the keys. -/
theorem keys_sortKeysFields (fields : List (Str × Json)) : (sortKeysFields fields).map Prod.fst = fields.map Prod.fst := by
  rw [sortKeysFields_eq_map, List.map_map]
  rfl

theorem wfFields_of_forall {fields : List (Str × Json)} (h : ∀ kv ∈ fields, kv.2.WF) : Json.WFFields fields := by
  induction fields with
  | nil => trivial
  | cons kv fields ih =>
    obtain ⟨hhead, hrest⟩ := List.forall_mem_cons.mp h
    exact ⟨hhead, ih hrest⟩

mutual

/-- After `sort_keys` every object has its keys in order. -/
theorem sortKeys_wf : ∀ value : Json, (sortKeys value).WF
  | .null | .bool _ | .int _ | .float _ | .str _ => trivial
  | .arr items => sortKeysItems_wf items
  | .obj fields =>
    ⟨sorted_dictOf _, wfFields_of_forall fun _ hkv => sortKeysFields_wf fields _ (mem_of_mem_dictOf hkv)⟩

theorem sortKeysItems_wf : ∀ items : List Json, Json.WFItems (sortKeysItems items)
  | [] => trivial
  | x :: xs => ⟨sortKeys_wf x, sortKeysItems_wf xs⟩

theorem sortKeysFields_wf : ∀ (fields : List (Str × Json)), ∀ kv ∈ sortKeysFields fields, kv.2.WF
  | [], _, h => nomatch h
  | (k, v) :: rest, kv, h => by
    obtain rfl | h := List.mem_cons.mp h
    · exact sortKeys_wf v
    · exact sortKeysFields_wf rest kv h

end

end pylib
