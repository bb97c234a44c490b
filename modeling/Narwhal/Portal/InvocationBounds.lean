import Narwhal.Portal.DigestBinding
import Narwhal.Portal.InvocationDigest

open jslib
open pylib (bind_ok_iff mapM_eq_some_iff exists_mapM)

namespace narwhal.portal.agent_invocation

open agent_execution_security (JsonValue JsonNumber SameValue canonicalText canonicalText_ok_iff
  canonicalizeValue_eq_stringify sameValue_of_canonicalText)

/-! ### JSON values in the heap -/

mutual

/-- The value is this JSON value, made of local plain objects and arrays of which none contains itself or is one of
    the active ones. A zero is written without its sign. -/
def Represents (heap : Heap) : List Nat → JsonValue → Value → Prop
  | _, .null, v => v = .null
  | _, .bool b, v => v = .bool b
  | _, .str s, v => v = .str s
  | _, .num (.finite n), v => v = .num n
  | _, .num .negativeZero, v => v = .num agent_execution_security.zero
  | _, .num .nonFinite, v => v = .nonFinite
  | active, .arr items, v => ∃ address o values, v = .ref address ∧ heap.object v = some o ∧ address ∉ active ∧
      o.kind = .array values.length ∧ o.prototype = .array ∧
      o.properties = values.mapIdx (fun i value => (.str (natText i), data value)) ∧
      RepresentsItems heap (address :: active) items values
  | active, .obj fields, v => ∃ address o entries, v = .ref address ∧ heap.object v = some o ∧ address ∉ active ∧
      o.kind = .ordinary ∧ (o.prototype = .object ∨ o.prototype = .null) ∧
      o.properties = entries.map (fun entry => (.str entry.1, data entry.2)) ∧
      RepresentsFields heap (address :: active) fields entries

def RepresentsItems (heap : Heap) : List Nat → List JsonValue → List Value → Prop
  | _, [], values => values = []
  | active, item :: items, values => ∃ value rest, values = value :: rest ∧ Represents heap active item value ∧
      RepresentsItems heap active items rest

def RepresentsFields (heap : Heap) : List Nat → List (Text × JsonValue) → List (Text × Value) → Prop
  | _, [], entries => entries = []
  | active, (key, item) :: fields, entries => ∃ value rest, entries = (key, value) :: rest ∧
      Represents heap active item value ∧ RepresentsFields heap active fields rest

end

mutual

/-- How far below the root a value goes. -/
def depthOf : JsonValue → Nat
  | .arr items => depthItems items
  | .obj fields => depthFields fields
  | .null | .bool _ | .num _ | .str _ => 0

def depthItems : List JsonValue → Nat
  | [] => 0
  | item :: items => max (depthOf item + 1) (depthItems items)

def depthFields : List (Text × JsonValue) → Nat
  | [] => 0
  | (_, value) :: fields => max (depthOf value + 1) (depthFields fields)

end

mutual

/-- A value counts itself and all it contains. -/
def nodesOf : JsonValue → Nat
  | .arr items => 1 + nodesOfItems items
  | .obj fields => 1 + nodesOfFields fields
  | .null | .bool _ | .num _ | .str _ => 1

def nodesOfItems : List JsonValue → Nat
  | [] => 0
  | item :: items => nodesOf item + nodesOfItems items

def nodesOfFields : List (Text × JsonValue) → Nat
  | [] => 0
  | (_, value) :: fields => nodesOf value + nodesOfFields fields

end

mutual

/-- No object in the value has the key `__proto__`. -/
def NoProto : JsonValue → Prop
  | .arr items => NoProtoItems items
  | .obj fields => NoProtoFields fields
  | .null | .bool _ | .num _ | .str _ => True

def NoProtoItems : List JsonValue → Prop
  | [] => True
  | item :: items => NoProto item ∧ NoProtoItems items

def NoProtoFields : List (Text × JsonValue) → Prop
  | [] => True
  | (key, value) :: fields => key ≠ PROTO ∧ NoProto value ∧ NoProtoFields fields

end

mutual

/-- No object in the value has a key twice. -/
def DistinctKeys : JsonValue → Prop
  | .arr items => DistinctKeysItems items
  | .obj fields => (fields.map Prod.fst).Nodup ∧ DistinctKeysFields fields
  | .null | .bool _ | .num _ | .str _ => True

def DistinctKeysItems : List JsonValue → Prop
  | [] => True
  | item :: items => DistinctKeys item ∧ DistinctKeysItems items

def DistinctKeysFields : List (Text × JsonValue) → Prop
  | [] => True
  | (_, value) :: fields => DistinctKeys value ∧ DistinctKeysFields fields

end

/-! ### Every JSON value is in some heap -/

mutual

theorem Represents.extends {heap later : Heap} (hextends : Extends heap later) {active : List Nat} (j : JsonValue)
    {v : Value} (h : Represents heap active j v) : Represents later active j v := by
  match j with
  | .null | .bool _ | .str _ | .num (.finite _) | .num .negativeZero | .num .nonFinite => exact h
  | .arr items =>
    obtain ⟨address, o, values, hv, ho, hactive, hkind, hproto, hproperties, hitems⟩ := h
    have ho' := (hextends.2 v (Heap.below_of_object ho)).trans ho
    exact ⟨address, o, values, hv, ho', hactive, hkind, hproto, hproperties, RepresentsItems.extends hextends items hitems⟩
  | .obj fields =>
    obtain ⟨address, o, entries, hv, ho, hactive, hkind, hproto, hproperties, hfields⟩ := h
    have ho' := (hextends.2 v (Heap.below_of_object ho)).trans ho
    exact ⟨address, o, entries, hv, ho', hactive, hkind, hproto, hproperties,
      RepresentsFields.extends hextends fields hfields⟩

theorem RepresentsItems.extends {heap later : Heap} (hextends : Extends heap later) {active : List Nat}
    (items : List JsonValue) {values : List Value} (h : RepresentsItems heap active items values) :
    RepresentsItems later active items values := by
  match items with
  | [] => exact h
  | item :: items =>
    obtain ⟨value, rest, heq, hvalue, hrest⟩ := h
    exact ⟨value, rest, heq, Represents.extends hextends item hvalue, RepresentsItems.extends hextends items hrest⟩

theorem RepresentsFields.extends {heap later : Heap} (hextends : Extends heap later) {active : List Nat}
    (fields : List (Text × JsonValue)) {entries : List (Text × Value)} (h : RepresentsFields heap active fields entries) :
    RepresentsFields later active fields entries := by
  match fields with
  | [] => exact h
  | (key, item) :: fields =>
    obtain ⟨value, rest, heq, hvalue, hrest⟩ := h
    exact ⟨value, rest, heq, Represents.extends hextends item hvalue, RepresentsFields.extends hextends fields hrest⟩

end

/-- None of the active objects was allocated between the two heaps. -/
def Apart (heap later : Heap) (active : List Nat) : Prop := ∀ address ∈ active, address < heap.size ∨ later.size ≤ address

theorem extends_refl (heap : Heap) : Extends heap heap := ⟨Nat.le_refl _, fun _ _ => rfl⟩

/-- A new object with these properties holds values that exist. -/
theorem exists_alloc (heap : Heap) {o : Object} (hkind : o.kind = .ordinary ∨ ∃ n, o.kind = .array n)
    {entries : List (Text × Value)} (hproperties : o.properties = entries.map fun entry => (.str entry.1, data entry.2))
    (hbelow : ∀ entry ∈ entries, entry.2.Below heap.size) :
    ∃ later, Extends heap later ∧ later.size = heap.size + 1 ∧ later.object (.ref heap.size) = some o := by
  have hheld : o.values = o.properties.filterMap (·.2.value) := by
    unfold Object.values
    rcases hkind with hkind | ⟨n, hkind⟩
    · rw [hkind]
      exact List.append_nil _
    · rw [hkind]
      exact List.append_nil _
  have hvalues : ∀ v ∈ o.values, v.Below (heap.size + 1) := by
    intro v hv
    rw [hheld, hproperties] at hv
    obtain ⟨property, hproperty, hvalue⟩ := List.mem_filterMap.mp hv
    obtain ⟨entry, hentry, rfl⟩ := List.mem_map.mp hproperty
    rw [← Option.some.inj hvalue]
    exact (hbelow entry hentry).mono (Nat.le_succ _)
  exact ⟨heap.alloc o hvalues, extends_alloc hvalues, Heap.size_alloc, Heap.object_alloc_new⟩

theorem Apart.inner {heap later last : Heap} {active : List Nat} (hextends : Extends heap later)
    (hsize : last.size = later.size + 1) (h : Apart heap last active) :
    later.size ∉ active ∧ Apart heap later (later.size :: active) := by
  constructor
  · intro hmem
    have hle := hextends.1
    rcases h _ hmem with hlt | hge
    · omega
    · omega
  · intro address haddress
    rcases List.mem_cons.mp haddress with rfl | hmem
    · exact .inr (Nat.le_refl _)
    · refine (h address hmem).imp_right fun hge => ?_
      omega

/-- The properties of an array with these values. -/
theorem properties_mapIdx (values : List Value) :
    ((values.mapIdx fun i value => (natText i, value)).map fun entry => (PropertyKey.str entry.1, data entry.2)) =
      values.mapIdx fun i value => (.str (natText i), data value) := by
  apply List.ext_getElem
  · simp
  · intro i hleft hright
    simp

theorem nodup_mapIdx (values : List Value) :
    (((values.mapIdx fun i value => (natText i, value)).map fun entry =>
      (PropertyKey.str entry.1, data entry.2)).map Prod.fst).Nodup := by
  rw [List.nodup_iff_injective_getElem]
  intro i j hij
  simp only [List.getElem_map, List.getElem_mapIdx, PropertyKey.str.injEq] at hij
  exact Fin.ext (natText_inj hij)

mutual

/-- A JSON value can be built next to what a heap holds. -/
theorem exists_represents (heap : Heap) (j : JsonValue) (hkeys : DistinctKeys j) :
    ∃ later v, Extends heap later ∧ v.Below later.size ∧
      ∀ active, Apart heap later active → Represents later active j v := by
  match j with
  | .null => exact ⟨heap, .null, extends_refl heap, trivial, fun _ _ => rfl⟩
  | .bool b => exact ⟨heap, .bool b, extends_refl heap, trivial, fun _ _ => rfl⟩
  | .str s => exact ⟨heap, .str s, extends_refl heap, trivial, fun _ _ => rfl⟩
  | .num (.finite n) => exact ⟨heap, .num n, extends_refl heap, trivial, fun _ _ => rfl⟩
  | .num .negativeZero => exact ⟨heap, .num _, extends_refl heap, trivial, fun _ _ => rfl⟩
  | .num .nonFinite => exact ⟨heap, .nonFinite, extends_refl heap, trivial, fun _ _ => rfl⟩
  | .arr items =>
    obtain ⟨later, values, hextends, hbelow, hitems⟩ := exists_representsItems heap items hkeys
    let entries := values.mapIdx fun i value => (natText i, value)
    let o : Object := ⟨.array values.length, .array, entries.map fun entry => (.str entry.1, data entry.2),
      nodup_mapIdx values⟩
    obtain ⟨last, hextends', hsize, ho⟩ := exists_alloc later (o := o) (.inr ⟨_, rfl⟩) rfl fun entry hentry => by
      obtain ⟨i, hi, rfl⟩ := List.mem_mapIdx.mp hentry
      exact hbelow _ (List.getElem_mem hi)
    refine ⟨last, .ref later.size, hextends.trans hextends', hsize ▸ Nat.lt_succ_self _, fun active hactive => ?_⟩
    obtain ⟨hfresh, hapart⟩ := hactive.inner hextends hsize
    exact ⟨later.size, o, values, rfl, ho, hfresh, rfl, rfl, properties_mapIdx values, (hitems _ hapart).extends hextends' items⟩
  | .obj fields =>
    obtain ⟨later, entries, hextends, hbelow, hnames, hfields⟩ := exists_representsFields heap fields hkeys.2
    have hnodup : ((entries.map fun entry => (PropertyKey.str entry.1, data entry.2)).map Prod.fst).Nodup := by
      have hkeys' : (entries.map Prod.fst).Nodup := hnames ▸ hkeys.1
      have hinj : Function.Injective PropertyKey.str := fun a b hab => PropertyKey.str.inj hab
      rw [List.map_map]
      have hmap := hkeys'.map hinj
      rwa [List.map_map] at hmap
    let o : Object := ⟨.ordinary, .object, entries.map fun entry => (.str entry.1, data entry.2), hnodup⟩
    obtain ⟨last, hextends', hsize, ho⟩ := exists_alloc later (o := o) (.inl rfl) rfl hbelow
    refine ⟨last, .ref later.size, hextends.trans hextends', hsize ▸ Nat.lt_succ_self _, fun active hactive => ?_⟩
    obtain ⟨hfresh, hapart⟩ := hactive.inner hextends hsize
    exact ⟨later.size, o, entries, rfl, ho, hfresh, rfl, .inl rfl, rfl, (hfields _ hapart).extends hextends' fields⟩

theorem exists_representsItems (heap : Heap) (items : List JsonValue) (hkeys : DistinctKeysItems items) :
    ∃ later values, Extends heap later ∧ (∀ value ∈ values, value.Below later.size) ∧
      ∀ active, Apart heap later active → RepresentsItems later active items values := by
  match items with
  | [] => exact ⟨heap, [], extends_refl heap, by simp, fun _ _ => rfl⟩
  | item :: items =>
    obtain ⟨middle, v, hextends, hbelow, hvalue⟩ := exists_represents heap item hkeys.1
    obtain ⟨later, values, hextends', hbelow', hitems⟩ := exists_representsItems middle items hkeys.2
    refine ⟨later, v :: values, hextends.trans hextends', ?_, fun active hactive => ?_⟩
    · exact List.forall_mem_cons.mpr ⟨hbelow.mono hextends'.1, hbelow'⟩
    · refine ⟨v, values, rfl, Represents.extends hextends' item (hvalue active ?_), hitems active ?_⟩
      · exact fun address haddress => (hactive address haddress).imp_right hextends'.1.trans
      · exact fun address haddress => (hactive address haddress).imp_left fun hlt => Nat.lt_of_lt_of_le hlt hextends.1

theorem exists_representsFields (heap : Heap) (fields : List (Text × JsonValue)) (hkeys : DistinctKeysFields fields) :
    ∃ later entries, Extends heap later ∧ (∀ entry ∈ entries, entry.2.Below later.size) ∧
      entries.map Prod.fst = fields.map Prod.fst ∧
      ∀ active, Apart heap later active → RepresentsFields later active fields entries := by
  match fields with
  | [] => exact ⟨heap, [], extends_refl heap, by simp, rfl, fun _ _ => rfl⟩
  | (key, item) :: fields =>
    obtain ⟨middle, v, hextends, hbelow, hvalue⟩ := exists_represents heap item hkeys.1
    obtain ⟨later, entries, hextends', hbelow', hnames, hfields⟩ := exists_representsFields middle fields hkeys.2
    refine ⟨later, (key, v) :: entries, hextends.trans hextends', ?_, ?_, fun active hactive => ?_⟩
    · exact List.forall_mem_cons.mpr ⟨hbelow.mono hextends'.1, hbelow'⟩
    · rw [List.map_cons, List.map_cons, hnames]
    · refine ⟨v, entries, rfl, Represents.extends hextends' item (hvalue active ?_), hfields active ?_⟩
      · exact fun address haddress => (hactive address haddress).imp_right hextends'.1.trans
      · exact fun address haddress => (hactive address haddress).imp_left fun hlt => Nat.lt_of_lt_of_le hlt hextends.1

end

theorem exists_heap_represents (j : JsonValue) (hkeys : DistinctKeys j) : ∃ heap v, Represents heap [] j v := by
  obtain ⟨heap, v, -, -, hrepresents⟩ := exists_represents ⟨[], by simp⟩ j hkeys
  exact ⟨heap, v, hrepresents [] (by simp [Apart])⟩

/-! ### Entries in the order of their keys -/

section

variable {α β : Type}

/-- Reading entries in the order of their keys is reading them and ordering what was read. -/
theorem mapM_sortByKey_of_mapM {read : α → Option β} {entries : List (Text × α)} {inOrder : List (Text × β)}
    (h : entries.mapM (fun entry => (read entry.2).map (entry.1, ·)) = some inOrder) :
    (sortByKey entries).mapM (fun entry => (read entry.2).map (entry.1, ·)) = some (sortByKey inOrder) := by
  let key : Option (Text × β) → Text := fun field => (field.map Prod.fst).getD []
  have hmap := mapM_eq_some_iff.mp h
  have hkey : ∀ entry ∈ entries, key ((read entry.2).map (entry.1, ·)) = entry.1 := by
    intro entry hentry
    obtain ⟨field, -, hfield⟩ := mem_of_mem_mapM h hentry
    obtain ⟨value, hvalue, -⟩ := Option.map_eq_some_iff.mp hfield
    rw [hvalue]
    rfl
  -- Both sides are sorted by the key that an entry, or what was read of it, shows.
  have hentries := List.map_insertionSort (fun f g : Text × α => utf16 f.1 ≤ utf16 g.1)
    (fun f g => utf16 (key f) ≤ utf16 (key g)) (fun entry : Text × α => (read entry.2).map (entry.1, ·)) entries
    (fun a ha b hb => by rw [hkey a ha, hkey b hb])
  have hfields := List.map_insertionSort (fun f g : Text × β => utf16 f.1 ≤ utf16 g.1)
    (fun f g => utf16 (key f) ≤ utf16 (key g)) some inOrder (fun a _ b _ => Iff.rfl)
  rw [mapM_eq_some_iff, sortByKey, hentries, hmap, ← hfields]
  rfl

theorem mapM_sortByKey {read : α → Option β} {entries : List (Text × α)} {fields : List (Text × β)} :
    (sortByKey entries).mapM (fun entry => (read entry.2).map (entry.1, ·)) = some fields ↔
      ∃ inOrder, entries.mapM (fun entry => (read entry.2).map (entry.1, ·)) = some inOrder ∧
        fields = sortByKey inOrder := by
  constructor
  · intro h
    obtain ⟨inOrder, hinOrder⟩ := exists_mapM (l := entries) fun entry hentry => by
      obtain ⟨field, -, hfield⟩ := mem_of_mem_mapM h (mem_sortByKey.mpr hentry)
      exact ⟨field, hfield⟩
    refine ⟨inOrder, hinOrder, ?_⟩
    rw [mapM_sortByKey_of_mapM hinOrder] at h
    exact (Option.some.inj h).symm
  · rintro ⟨inOrder, hinOrder, rfl⟩
    exact mapM_sortByKey_of_mapM hinOrder

end

/-! ### The properties of a represented object -/

section

variable {o : Object} {entries properties : List (Text × Value)}

theorem dataProperties_some_iff (h : o.properties = entries.map fun entry => (.str entry.1, data entry.2)) :
    dataProperties o = some properties ↔ (∀ entry ∈ entries, entry.1 ≠ PROTO) ∧ properties = entries := by
  rw [dataProperties, mapM_eq_some_iff, h, List.map_map]
  clear h
  induction entries generalizing properties with
  | nil => cases properties <;> simp
  | cons entry entries ih =>
    rw [List.map_cons, List.forall_mem_cons]
    by_cases hproto : entry.1 = PROTO
    · refine iff_of_false (fun h => ?_) fun h => h.1.1 hproto
      cases properties with
      | nil => cases h
      | cons property properties =>
        have hhead := (List.cons.inj h).1
        simp only [Function.comp_apply, data, if_pos hproto] at hhead
        cases hhead
    · cases properties with
      | nil => simp
      | cons property properties =>
        rw [List.map_cons, List.cons.injEq, ih]
        simp only [Function.comp_apply, data, if_neg hproto, Option.some.injEq, List.cons.injEq]
        constructor
        · rintro ⟨rfl, hkeys, rfl⟩
          exact ⟨⟨hproto, hkeys⟩, rfl, rfl⟩
        · rintro ⟨⟨-, hkeys⟩, hproperty, rfl⟩
          exact ⟨hproperty.symm, hkeys, rfl⟩

theorem natText_ne_proto (i : Nat) : natText i ≠ PROTO := by
  intro h
  have hmem : '_' ∈ natText i := by
    rw [h]
    exact List.mem_cons_self
  have hdigit := isDigit_of_mem_natText hmem
  revert hdigit
  decide

theorem lookup_natText {values : List Value} {start i : Nat} :
    (values.mapIdx fun j value => (natText (start + j), value)).lookup (natText (start + i)) = values[i]? := by
  induction values generalizing start i with
  | nil => rfl
  | cons value values ih =>
    rw [List.mapIdx_cons, List.lookup_cons]
    cases i with
    | zero => simp
    | succ i =>
      have hne : (natText (start + (i + 1)) == natText (start + 0)) = false := by
        rw [beq_eq_false_iff_ne]
        intro heq
        have hindex := natText_inj heq
        omega
      rw [hne]
      have hshift := @ih (start + 1) i
      simp only [Nat.add_assoc, Nat.add_comm 1] at hshift ⊢
      exact hshift

/-- The elements of an array are the values at its indices. -/
theorem elements_mapIdx (values : List Value) :
    elements (values.mapIdx fun i value => (natText i, value)) values.length = values.map some := by
  apply List.ext_getElem
  · simp [elements]
  · intro i hleft hright
    have hlookup := @lookup_natText values 0 i
    simp only [Nat.zero_add] at hlookup
    simp only [elements, List.getElem_map, List.getElem_range, hlookup]
    exact List.getElem?_eq_getElem _

theorem dataProperties_mapIdx {values : List Value}
    (h : o.properties = values.mapIdx fun i value => (.str (natText i), data value)) :
    dataProperties o = some (values.mapIdx fun i value => (natText i, value)) := by
  have hproperties := h.trans (properties_mapIdx values).symm
  refine (dataProperties_some_iff hproperties).mpr ⟨?_, rfl⟩
  intro entry hentry
  obtain ⟨i, -, rfl⟩ := List.mem_mapIdx.mp hentry
  exact natText_ne_proto i

end

/-! ### Reading a represented value -/

theorem map_ok_iff {ε α β : Type} {f : α → β} {e : Except ε α} {b : β} :
    e.map f = .ok b ↔ ∃ a, e = .ok a ∧ f a = b := by
  cases e <;> simp [Except.map]

mutual

/-- A represented value is read where it is not too deep, has no forbidden key and only finite numbers, and what is
    read is the value with its keys in order. -/
theorem toJson_some_iff {heap : Heap} {active : List Nat} {depth : Nat} (j : JsonValue) {v : Value} {t : Json}
    (h : Represents heap active j v) :
    toJson heap depth active v = some t ↔
      depthOf j < depth ∧ NoProto j ∧ ∃ x, agent_execution_security.toJson j = .ok x ∧ t = sortKeys x := by
  cases depth with
  | zero => simp [toJson]
  | succ depth =>
    match j with
    | .null | .bool _ | .str _ | .num (.finite _) | .num .negativeZero =>
      simp only [Represents] at h
      subst h
      simp [toJson, depthOf, NoProto, agent_execution_security.toJson, sortKeys, eq_comm]
    | .num .nonFinite =>
      simp only [Represents] at h
      subst h
      simp [toJson, agent_execution_security.toJson]
    | .arr items =>
      obtain ⟨address, o, values, rfl, ho, hactive, hkind, hproto, hproperties, hitems⟩ := h
      have hlength : o.arrayLength = some values.length := by rw [Object.arrayLength, hkind]
      have hcount : o.keyCount = values.length + 1 := by
        rw [Object.keyCount, hlength, hproperties, List.length_mapIdx]
      have hread := fun ts => @itemsToJson_some_iff heap (address :: active) depth items values ts hitems
      simp only [toJson, ho, if_neg hactive, hlength, hproto, hcount, dataProperties_mapIdx hproperties,
        elements_mapIdx, ne_eq, not_true, or_self, if_false, Option.bind_eq_bind, Option.bind_some,
        Option.bind_eq_some_iff, Option.some.injEq]
      simp only [List.mapM_map, Function.comp_def, Option.bind_some, hread]
      simp only [depthOf, NoProto, Nat.lt_succ_iff, agent_execution_security.toJson, map_ok_iff]
      constructor
      · rintro ⟨ts, ⟨hdepth, hkeys, xs, hxs, rfl⟩, rfl⟩
        exact ⟨hdepth, hkeys, _, ⟨xs, hxs, rfl⟩, rfl⟩
      · rintro ⟨hdepth, hkeys, x, ⟨xs, hxs, rfl⟩, rfl⟩
        exact ⟨_, ⟨hdepth, hkeys, xs, hxs, rfl⟩, rfl⟩
    | .obj fields =>
      obtain ⟨address, o, entries, rfl, ho, hactive, hkind, hproto, hproperties, hfields⟩ := h
      have hlength : o.arrayLength = none := by rw [Object.arrayLength, hkind]
      have hplain : plain heap (.ref address) = true := by simpa [plain, ho] using hproto
      have hread := fun ts => @fieldsToJson_some_iff heap (address :: active) depth fields entries ts hfields
      simp only [toJson, ho, if_neg hactive, hlength, hplain, not_true, if_false, Option.bind_eq_bind,
        Option.bind_eq_some_iff, dataProperties_some_iff hproperties, Option.some.injEq, mapM_sortByKey]
      simp only [depthOf, NoProto, Nat.lt_succ_iff, agent_execution_security.toJson, map_ok_iff]
      constructor
      · rintro ⟨_, ⟨hkeys, rfl⟩, _, ⟨inOrder, hmap, rfl⟩, rfl⟩
        obtain ⟨hdepth, hproto, xs, hxs, rfl⟩ := (hread inOrder).mp ⟨hmap, hkeys⟩
        exact ⟨hdepth, hproto, _, ⟨xs, hxs, rfl⟩, rfl⟩
      · rintro ⟨hdepth, hproto, x, ⟨xs, hxs, rfl⟩, rfl⟩
        obtain ⟨hmap, hkeys⟩ := (hread _).mpr ⟨hdepth, hproto, xs, hxs, rfl⟩
        exact ⟨_, ⟨hkeys, rfl⟩, _, ⟨_, hmap, rfl⟩, rfl⟩

theorem itemsToJson_some_iff {heap : Heap} {active : List Nat} {depth : Nat} (items : List JsonValue)
    {values : List Value} {ts : List Json} (h : RepresentsItems heap active items values) :
    values.mapM (toJson heap depth active) = some ts ↔
      depthItems items ≤ depth ∧ NoProtoItems items ∧
        ∃ xs, agent_execution_security.toJsonItems items = .ok xs ∧ ts = sortKeysItems xs := by
  match items with
  | [] =>
    simp only [RepresentsItems] at h
    subst h
    simp [depthItems, NoProtoItems, agent_execution_security.toJsonItems, sortKeysItems, eq_comm]
  | item :: items =>
    obtain ⟨value, rest, rfl, hvalue, hrest⟩ := h
    have hitem := fun t => @toJson_some_iff heap active depth item value t hvalue
    have hitems := fun ts => @itemsToJson_some_iff heap active depth items rest ts hrest
    simp only [List.mapM_cons, Option.bind_eq_bind, Option.bind_eq_some_iff, Option.pure_def, Option.some.injEq, hitem, hitems]
    simp only [depthItems, NoProtoItems, agent_execution_security.toJsonItems, max_le_iff, Nat.succ_le_iff, bind_ok_iff,
      pure, Except.pure, Except.ok.injEq]
    constructor
    · rintro ⟨t, ⟨hdepth, hproto, x, hx, rfl⟩, ts, ⟨hdepths, hprotos, xs, hxs, rfl⟩, rfl⟩
      exact ⟨⟨hdepth, hdepths⟩, ⟨hproto, hprotos⟩, _, ⟨x, hx, xs, hxs, rfl⟩, rfl⟩
    · rintro ⟨⟨hdepth, hdepths⟩, ⟨hproto, hprotos⟩, _, ⟨x, hx, xs, hxs, rfl⟩, rfl⟩
      exact ⟨_, ⟨hdepth, hproto, x, hx, rfl⟩, _, ⟨hdepths, hprotos, xs, hxs, rfl⟩, rfl⟩

theorem fieldsToJson_some_iff {heap : Heap} {active : List Nat} {depth : Nat} (fields : List (Text × JsonValue))
    {entries : List (Text × Value)} {ts : List (Text × Json)} (h : RepresentsFields heap active fields entries) :
    (entries.mapM (fun entry => (toJson heap depth active entry.2).map (entry.1, ·)) = some ts ∧
        ∀ entry ∈ entries, entry.1 ≠ PROTO) ↔
      depthFields fields ≤ depth ∧ NoProtoFields fields ∧
        ∃ xs, agent_execution_security.toJsonFields fields = .ok xs ∧ ts = sortKeysFields xs := by
  match fields with
  | [] =>
    simp only [RepresentsFields] at h
    subst h
    simp [depthFields, NoProtoFields, agent_execution_security.toJsonFields, sortKeysFields, eq_comm]
  | (key, item) :: fields =>
    obtain ⟨value, rest, rfl, hvalue, hrest⟩ := h
    have hitem := fun t => @toJson_some_iff heap active depth item value t hvalue
    have hfields := fun ts => @fieldsToJson_some_iff heap active depth fields rest ts hrest
    simp only [List.mapM_cons, Option.bind_eq_bind, Option.bind_eq_some_iff, Option.map_eq_some_iff, Option.pure_def,
      Option.some.injEq, hitem]
    simp only [depthFields, NoProtoFields, agent_execution_security.toJsonFields, max_le_iff, Nat.succ_le_iff,
      bind_ok_iff, pure, Except.pure, Except.ok.injEq, List.forall_mem_cons]
    constructor
    · rintro ⟨⟨_, ⟨t, ⟨hdepth, hproto, x, hx, rfl⟩, rfl⟩, ts, hmap, rfl⟩, hkey, hkeys⟩
      obtain ⟨hdepths, hprotos, xs, hxs, rfl⟩ := (hfields ts).mp ⟨hmap, hkeys⟩
      exact ⟨⟨hdepth, hdepths⟩, ⟨hkey, hproto, hprotos⟩, _, ⟨x, hx, xs, hxs, rfl⟩, rfl⟩
    · rintro ⟨⟨hdepth, hdepths⟩, ⟨hkey, hproto, hprotos⟩, _, ⟨x, hx, xs, hxs, rfl⟩, rfl⟩
      obtain ⟨hmap, hkeys⟩ := (hfields _).mpr ⟨hdepths, hprotos, xs, hxs, rfl⟩
      exact ⟨⟨_, ⟨_, ⟨hdepth, hproto, x, hx, rfl⟩, rfl⟩, _, hmap, rfl⟩, hkey, hkeys⟩

end

/-! ### The nodes of what is read -/

theorem nodesFields_eq_sum (fields : List (Text × Json)) :
    nodesFields fields = (fields.map fun field => nodes field.2).sum := by
  induction fields with
  | nil => rfl
  | cons field fields ih => simp [nodesFields, ih]

theorem nodesFields_sortByKey (fields : List (Text × Json)) : nodesFields (sortByKey fields) = nodesFields fields := by
  rw [nodesFields_eq_sum, nodesFields_eq_sum]
  exact ((List.perm_insertionSort _ fields).map _).sum_eq

mutual

theorem nodes_sortKeys (j : JsonValue) {x : Json} (h : agent_execution_security.toJson j = .ok x) :
    nodes (sortKeys x) = nodesOf j := by
  match j with
  | .null | .bool _ | .str _ | .num (.finite _) | .num .negativeZero =>
    cases h
    rfl
  | .num .nonFinite => cases h
  | .arr items =>
    obtain ⟨xs, hxs, rfl⟩ := map_ok_iff.mp h
    rw [sortKeys, nodes, nodesItems_sortKeysItems items hxs, nodesOf]
  | .obj fields =>
    obtain ⟨xs, hxs, rfl⟩ := map_ok_iff.mp h
    rw [sortKeys, nodes, nodesFields_sortByKey, nodesFields_sortKeysFields fields hxs, nodesOf]

theorem nodesItems_sortKeysItems (items : List JsonValue) {xs : List Json}
    (h : agent_execution_security.toJsonItems items = .ok xs) : nodesItems (sortKeysItems xs) = nodesOfItems items := by
  match items with
  | [] =>
    cases h
    rfl
  | item :: items =>
    simp only [agent_execution_security.toJsonItems, bind_ok_iff, pure, Except.pure, Except.ok.injEq] at h
    obtain ⟨x, hx, rest, hrest, rfl⟩ := h
    rw [sortKeysItems, nodesItems, nodes_sortKeys item hx, nodesItems_sortKeysItems items hrest, nodesOfItems]

theorem nodesFields_sortKeysFields (fields : List (Text × JsonValue)) {xs : List (Text × Json)}
    (h : agent_execution_security.toJsonFields fields = .ok xs) :
    nodesFields (sortKeysFields xs) = nodesOfFields fields := by
  match fields with
  | [] =>
    cases h
    rfl
  | (key, item) :: fields =>
    simp only [agent_execution_security.toJsonFields, bind_ok_iff, pure, Except.pure, Except.ok.injEq] at h
    obtain ⟨x, hx, rest, hrest, rfl⟩ := h
    rw [sortKeysFields, nodesFields, nodes_sortKeys item hx, nodesFields_sortKeysFields fields hrest, nodesOfFields]

end

/-! ### The canonical text of a represented value -/

/-- The value is within the limits, and this is its canonical text. -/
structure Accepted (j : JsonValue) (text : Text) : Prop where
  depth : depthOf j ≤ 16
  nodes : nodesOf j ≤ 10000
  noProto : NoProto j
  canonical : canonicalText j = .ok text
  length : utf16Length text ≤ 1000000

theorem canonicalizeJson_of_represents {heap : Heap} {v : Value} {j : JsonValue} (h : Represents heap [] j v)
    {text : Text} : canonicalizeJson heap v = some text ↔ Accepted j text := by
  rw [canonicalizeJson_some_iff]
  have hread := fun t => @toJson_some_iff heap [] 17 j v t h
  simp only [hread]
  constructor
  · rintro ⟨_, ⟨hdepth, hproto, x, hx, rfl⟩, hwithin, rfl⟩
    have htext : canonicalText j = .ok (stringify (sortKeys x)) :=
      canonicalText_ok_iff.mpr ⟨x, hx, canonicalizeValue_eq_stringify x⟩
    exact ⟨Nat.lt_succ_iff.mp hdepth, (nodes_sortKeys j hx) ▸ hwithin.nodes, hproto, htext, hwithin.length⟩
  · intro haccepted
    obtain ⟨x, hx, htext⟩ := canonicalText_ok_iff.mp haccepted.canonical
    rw [canonicalizeValue_eq_stringify] at htext
    refine ⟨sortKeys x, ⟨Nat.lt_succ_iff.mpr haccepted.depth, haccepted.noProto, x, hx, rfl⟩, ⟨?_, ?_⟩, htext.symm⟩
    · rw [nodes_sortKeys j hx]
      exact haccepted.nodes
    · rw [htext]
      exact haccepted.length

/-- The length that is counted while a value is visited is that of the text that is returned. -/
theorem length_of_visit {heap : Heap} {v : Value} {text : Text} {b : Budget}
    (h : visit heap 17 [] v ⟨0, 0⟩ = some (text, b)) : b.length = utf16Length text := by
  obtain ⟨t, -, heq, -⟩ := (charges_visit heap 17 [] v ⟨0, 0⟩ ⟨Nat.zero_le _, Nat.zero_le _⟩ (text, b)).mp h
  obtain ⟨rfl, rfl⟩ := Prod.mk.inj heq
  exact Nat.zero_add _

/-- The bounded canonicaliser returns a text exactly for the values within its limits: the text of the other
    canonicaliser, as long as was counted, and the same for two values only if they are equal but for the order
    of keys and the sign of zero. -/
theorem bounded_canonicalizer :
    (∀ heap j v, Represents heap [] j v → ∀ text, canonicalizeJson heap v = some text ↔ Accepted j text) ∧
      (∀ heap v text b, visit heap 17 [] v ⟨0, 0⟩ = some (text, b) → b.length = utf16Length text) ∧
      ∀ heap j v heap' j' v' text, Represents heap [] j v → Represents heap' [] j' v' →
        canonicalizeJson heap v = some text → canonicalizeJson heap' v' = some text → SameValue j j' := by
  refine ⟨?_, ?_, ?_⟩
  · intro heap j v h text
    exact canonicalizeJson_of_represents h
  · intro heap v text b h
    exact length_of_visit h
  · intro heap j v heap' j' v' text h h' htext htext'
    exact sameValue_of_canonicalText ((canonicalizeJson_of_represents h).mp htext).canonical
      ((canonicalizeJson_of_represents h').mp htext').canonical

def nodesObject : Object :=
  ⟨.array 2, .array, [(.str ['0'], data (.str "n1".toList)), (.str ['1'], data .null)], by decide⟩

/-- Two objects with a zero and the same array, their keys in different orders. -/
def sampleHeap : Heap :=
  ⟨[.object ⟨.ordinary, .object, [(.str "replicas".toList, data (.num agent_execution_security.zero)),
      (.str "nodes".toList, data (.ref 1))], by decide⟩, .object nodesObject,
    .object ⟨.ordinary, .null, [(.str "nodes".toList, data (.ref 1)),
      (.str "replicas".toList, data (.num agent_execution_security.zero))], by decide⟩],
    by simp [Cell.values, Object.values, nodesObject, data, Value.Below]⟩

def nodesValue : JsonValue := .arr [.str "n1".toList, .null]

/-- The zero of the first object is negative. -/
def sampleValue : JsonValue := .obj [("replicas".toList, .num .negativeZero), ("nodes".toList, nodesValue)]

def reorderedValue : JsonValue :=
  .obj [("nodes".toList, nodesValue), ("replicas".toList, .num (.finite agent_execution_security.zero))]

def sampleText : Text := "\x7b\"nodes\":[\"n1\",null],\"replicas\":0\x7d".toList

theorem represents_nodesValue {address : Nat} (h : address ≠ 1) :
    Represents sampleHeap [address] nodesValue (.ref 1) := by
  refine ⟨1, nodesObject, [.str "n1".toList, .null], rfl, rfl, ?_, rfl, rfl, rfl, ?_⟩
  · simpa using h.symm
  · exact ⟨_, _, rfl, rfl, _, _, rfl, rfl, rfl⟩

theorem represents_sampleValue : Represents sampleHeap [] sampleValue (.ref 0) := by
  refine ⟨0, _, [("replicas".toList, .num agent_execution_security.zero), ("nodes".toList, .ref 1)], rfl, rfl,
    List.not_mem_nil, rfl, .inl rfl, rfl, ?_⟩
  exact ⟨_, _, rfl, rfl, _, _, rfl, represents_nodesValue (by decide), rfl⟩

theorem represents_reorderedValue : Represents sampleHeap [] reorderedValue (.ref 2) := by
  refine ⟨2, _, [("nodes".toList, .ref 1), ("replicas".toList, .num agent_execution_security.zero)], rfl, rfl,
    List.not_mem_nil, rfl, .inr rfl, rfl, ?_⟩
  exact ⟨_, _, rfl, represents_nodesValue (by decide), _, _, rfl, rfl, rfl⟩

/-- Both are accepted with one text, and are equal but for the order of keys and the sign of the zero. -/
theorem bounded_canonicalizer_sample : Accepted sampleValue sampleText ∧ Accepted reorderedValue sampleText ∧
    SameValue sampleValue reorderedValue := by
  obtain ⟨hiff, -, hsame⟩ := bounded_canonicalizer
  have htext : canonicalizeJson sampleHeap (.ref 0) = some sampleText := by decide +kernel
  have htext' : canonicalizeJson sampleHeap (.ref 2) = some sampleText := by decide +kernel
  exact ⟨(hiff _ _ _ represents_sampleValue _).mp htext, (hiff _ _ _ represents_reorderedValue _).mp htext',
    hsame _ _ _ _ _ _ _ represents_sampleValue represents_reorderedValue htext htext'⟩

end narwhal.portal.agent_invocation
