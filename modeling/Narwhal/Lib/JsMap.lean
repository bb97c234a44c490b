import Mathlib.Data.List.Dedup
import Mathlib.Data.List.Perm.Subperm

namespace jslib

/-! A JavaScript `Map`: entries in insertion order. -/

/-- The entries of a map in insertion order, one for each key. -/
structure JsMap (κ α : Type) where
  entries : List (κ × α)
  nodup : (entries.map Prod.fst).Nodup

/-- `set` on the entries: a key that is there keeps its place, a new one goes last. -/
def setEntry {κ α : Type} [DecidableEq κ] (key : κ) (value : α) : List (κ × α) → List (κ × α)
  | [] => [(key, value)]
  | (k, v) :: rest => if k = key then (key, value) :: rest else (k, v) :: setEntry key value rest

section

variable {κ α : Type} [DecidableEq κ] {key : κ} {value : α}

theorem map_fst_setEntry_of_mem {entries : List (κ × α)} (h : key ∈ entries.map Prod.fst) :
    (setEntry key value entries).map Prod.fst = entries.map Prod.fst := by
  induction entries with
  | nil => cases h
  | cons entry rest ih =>
    obtain ⟨k, v⟩ := entry
    by_cases hk : k = key
    · simp [setEntry, hk]
    · have hrest : key ∈ rest.map Prod.fst := by simpa [Ne.symm hk] using h
      simp [setEntry, hk, ih hrest]

theorem setEntry_of_not_mem {entries : List (κ × α)} (h : key ∉ entries.map Prod.fst) :
    setEntry key value entries = entries ++ [(key, value)] := by
  induction entries with
  | nil => rfl
  | cons entry rest ih =>
    obtain ⟨k, v⟩ := entry
    simp only [List.map_cons, List.mem_cons, not_or] at h
    simp [setEntry, Ne.symm h.1, ih h.2]

theorem nodup_setEntry {entries : List (κ × α)} (h : (entries.map Prod.fst).Nodup) :
    ((setEntry key value entries).map Prod.fst).Nodup := by
  by_cases hmem : key ∈ entries.map Prod.fst
  · rwa [map_fst_setEntry_of_mem hmem]
  · rw [setEntry_of_not_mem hmem, List.map_append]
    exact List.nodup_append.mpr ⟨h, by simp, fun k hk k' hk' heq => by simp_all⟩

theorem lookup_setEntry (entries : List (κ × α)) (k : κ) :
    (setEntry key value entries).lookup k = if k = key then some value else entries.lookup k := by
  induction entries with
  | nil =>
    by_cases hk : k = key
    · simp [setEntry, hk]
    · simp [setEntry, List.lookup_cons, beq_false_of_ne hk, hk]
  | cons entry rest ih =>
    obtain ⟨k', v⟩ := entry
    by_cases hk' : k' = key
    · subst hk'
      by_cases hk : k = k'
      · simp [setEntry, hk]
      · simp [setEntry, List.lookup_cons, beq_false_of_ne hk, hk]
    · by_cases hk : k = k'
      · subst hk
        simp [setEntry, hk']
      · simp [setEntry, hk', List.lookup_cons, beq_false_of_ne hk, ih]

end

namespace JsMap

variable {κ α : Type}

def empty : JsMap κ α := ⟨[], .nil⟩

def size (m : JsMap κ α) : Nat := m.entries.length

/-- `m.keys().next().value`. -/
def firstKey (m : JsMap κ α) : Option κ := m.entries.head?.map Prod.fst

/-- The map without the entries that fail the test. -/
def filter (m : JsMap κ α) (p : κ × α → Bool) : JsMap κ α :=
  ⟨m.entries.filter p, m.nodup.sublist (List.filter_sublist.map _)⟩

theorem filter_eq_self {m : JsMap κ α} {p : κ × α → Bool} (h : ∀ entry ∈ m.entries, p entry = true) :
    m.filter p = m := by
  obtain ⟨entries, nodup⟩ := m
  simpa [filter] using List.filter_eq_self.mpr h

variable [DecidableEq κ]

def get (m : JsMap κ α) (key : κ) : Option α := m.entries.lookup key

def has (m : JsMap κ α) (key : κ) : Bool := (m.get key).isSome

def set (m : JsMap κ α) (key : κ) (value : α) : JsMap κ α :=
  ⟨setEntry key value m.entries, nodup_setEntry m.nodup⟩

def delete (m : JsMap κ α) (key : κ) : JsMap κ α := m.filter fun entry => entry.1 ≠ key

variable {m : JsMap κ α}

@[simp] theorem get_empty (key : κ) : (empty : JsMap κ α).get key = none := rfl

theorem get_set (m : JsMap κ α) (key k : κ) (value : α) :
    (m.set key value).get k = if k = key then some value else m.get k :=
  lookup_setEntry m.entries k

theorem get_cons (entry : κ × α) (entries : List (κ × α)) (nodup : ((entry :: entries).map Prod.fst).Nodup) (key : κ) :
    (JsMap.mk (entry :: entries) nodup).get key = if key = entry.1 then some entry.2 else (JsMap.mk entries nodup.of_cons).get key := by
  unfold get
  rw [List.lookup_cons]
  by_cases hkey : key = entry.1
  · rw [if_pos hkey, hkey, beq_self_eq_true]
  · rw [if_neg hkey, beq_false_of_ne hkey]

/-- An entry of the map is what its key is bound to. -/
theorem get_of_mem {key : κ} {value : α} (h : (key, value) ∈ m.entries) : m.get key = some value := by
  obtain ⟨entries, nodup⟩ := m
  simp only [get] at h ⊢
  induction entries with
  | nil => cases h
  | cons entry rest ih =>
    obtain ⟨k, v⟩ := entry
    simp only [List.map_cons, List.nodup_cons] at nodup
    rcases List.mem_cons.mp h with heq | hrest
    · cases heq
      simp
    · have hne : key ≠ k := fun hk => nodup.1 (hk ▸ List.mem_map_of_mem (f := Prod.fst) hrest)
      rw [List.lookup_cons, beq_false_of_ne hne]
      exact ih nodup.2 hrest

theorem mem_of_get {key : κ} {value : α} (h : m.get key = some value) : (key, value) ∈ m.entries := by
  obtain ⟨l, r, hlr, _⟩ := List.lookup_eq_some_iff.mp h
  rw [hlr]
  simp

/-- What is bound after a filter was bound before. -/
theorem get_of_get_filter {p : κ × α → Bool} {key : κ} {value : α} (h : (m.filter p).get key = some value) :
    m.get key = some value :=
  get_of_mem (List.mem_of_mem_filter (mem_of_get h))

/-- What passes a filter stays bound. -/
theorem get_filter_of_get {p : κ × α → Bool} {key : κ} {value : α} (h : m.get key = some value)
    (hp : p (key, value) = true) : (m.filter p).get key = some value := by
  apply get_of_mem
  exact List.mem_filter.mpr ⟨mem_of_get h, hp⟩

/-- Setting all entries of another map: they take the place of what was bound before. -/
theorem get_foldl_set (m other : JsMap κ α) (key : κ) :
    (other.entries.foldl (fun m entry => m.set entry.1 entry.2) m).get key = (other.get key).or (m.get key) := by
  obtain ⟨entries, nodup⟩ := other
  induction entries generalizing m with
  | nil => rfl
  | cons entry entries ih =>
    have hnodup : entry.1 ∉ entries.map Prod.fst ∧ (entries.map Prod.fst).Nodup := List.nodup_cons.mp nodup
    rw [List.foldl_cons, ih _ hnodup.2, get_set, get_cons]
    by_cases hkey : key = entry.1
    · have hnone : (JsMap.mk entries hnodup.2).get key = none := by
        cases hfound : (JsMap.mk entries hnodup.2).get key with
        | none => rfl
        | some value => exact absurd (hkey ▸ List.mem_map_of_mem (mem_of_get hfound)) hnodup.1
      rw [hnone, if_pos hkey, if_pos hkey]
      rfl
    · rw [if_neg hkey, if_neg hkey]

/-- A map with its keys among these has no more entries than they are. -/
theorem size_le_of_keys {keys : List κ} (h : ∀ key value, m.get key = some value → key ∈ keys) :
    m.size ≤ keys.dedup.length := by
  have hsub : m.entries.map Prod.fst ⊆ keys.dedup := by
    intro key hkey
    obtain ⟨⟨k, value⟩, hmem, rfl⟩ := List.mem_map.mp hkey
    exact List.mem_dedup.mpr (h k value (get_of_mem hmem))
  have hle := (List.subperm_of_subset m.nodup hsub).length_le
  simpa [size] using hle

end JsMap

end jslib
