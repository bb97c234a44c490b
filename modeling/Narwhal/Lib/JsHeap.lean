import Narwhal.Lib.JsJson

namespace jslib

/-! JavaScript values with the objects they refer to. -/

/-! ### Values and objects -/

/-- A value. A number that JSON can write is known by its text; functions, symbols and big
    integers are all `other`. -/
inductive Value where
  | undefined
  | null
  | bool (b : Bool)
  | num (n : Number)
  | nonFinite
  | str (s : Text)
  | other
  | ref (address : Nat)
deriving DecidableEq

inductive PropertyKey where
  | str (key : Text)
  | symbol (id : Nat)
deriving DecidableEq

/-- An own property; an accessor has no value. -/
structure Property where
  value : Option Value
  enumerable : Bool
deriving DecidableEq

/-- The prototypes that are told apart. -/
inductive Prototype where
  | object
  | array
  | null
  | other
deriving DecidableEq

/-- The internal data of an object. The length of an array is kept here, not with its other own
    properties; a date holds its time, if it has one. -/
inductive Kind where
  | ordinary
  | array (length : Nat)
  | map (entries : List (Value × Value))
  | set (elements : List Value)
  | date (time : Option Int)
deriving DecidableEq

/-- An object that is no proxy, with its own properties in order. -/
structure Object where
  kind : Kind
  prototype : Prototype
  properties : List (PropertyKey × Property)
  nodup : (properties.map Prod.fst).Nodup

/-- A proxy shows whether its target is an array until it is revoked. -/
inductive Cell where
  | object (o : Object)
  | proxy (isArray : Bool)
  | revoked

namespace Value

/-- The value refers to no object from this address on. -/
def Below (n : Nat) : Value → Prop
  | .ref address => address < n
  | _ => True

theorem Below.mono {n m : Nat} (h : n ≤ m) {v : Value} (hv : v.Below n) : v.Below m := by
  cases v with
  | ref address => exact Nat.lt_of_lt_of_le hv h
  | undefined | null | bool | num | nonFinite | str | other => trivial

end Value

/-- The values an object holds. -/
def Object.values (o : Object) : List Value :=
  o.properties.filterMap (·.2.value) ++
    match o.kind with
    | .map entries => entries.flatMap fun entry => [entry.1, entry.2]
    | .set elements => elements
    | _ => []

def Cell.values : Cell → List Value
  | .object o => o.values
  | _ => []

/-- The objects that exist, by address. -/
structure Heap where
  cells : List Cell
  closed : ∀ cell ∈ cells, ∀ v ∈ cell.values, v.Below cells.length

namespace Heap

def size (heap : Heap) : Nat := heap.cells.length

/-- The object a value refers to, unless it is a proxy. -/
def object (heap : Heap) : Value → Option Object
  | .ref address =>
    match heap.cells[address]? with
    | some (.object o) => some o
    | _ => none
  | _ => none

/-- A new object, at the next address. -/
def alloc (heap : Heap) (o : Object) (h : ∀ v ∈ o.values, v.Below (heap.size + 1)) : Heap where
  cells := heap.cells ++ [.object o]
  closed := by
    intro cell hcell v hv
    rw [List.length_append, List.length_singleton]
    obtain hold | hnew := List.mem_append.mp hcell
    · exact (heap.closed cell hold v hv).mono (Nat.le_succ _)
    · obtain rfl := List.mem_singleton.mp hnew
      exact h v hv

end Heap

/-! ### Properties -/

def natNumber (n : Nat) : Number where
  text := natText n
  ne_nil := natText_ne_nil n
  chars c hc := by simp [isNumberChar, isDigit_of_mem_natText hc]

namespace Object

/-- The length of an array. -/
def arrayLength (o : Object) : Option Nat :=
  match o.kind with
  | .array length => some length
  | _ => none

/-- `Object.getOwnPropertyDescriptor(o, key)`. -/
def property (o : Object) (key : Text) : Option Property :=
  match o.arrayLength with
  | some length =>
    if key = "length".toList then some ⟨some (.num (natNumber length)), false⟩ else o.properties.lookup (.str key)
  | none => o.properties.lookup (.str key)

/-- `Object.getOwnPropertyNames(o)`. -/
def names (o : Object) : List Text :=
  (o.properties.filterMap fun entry =>
    match entry.1 with
    | .str key => some key
    | .symbol _ => none) ++
    match o.arrayLength with
    | some _ => ["length".toList]
    | none => []

/-- `Reflect.ownKeys(o).length`. -/
def keyCount (o : Object) : Nat :=
  match o.arrayLength with
  | some _ => o.properties.length + 1
  | none => o.properties.length

end Object

namespace Heap

variable {heap : Heap} {v : Value} {o : Object}

theorem cell_of_object (ho : heap.object v = some o) :
    ∃ address, v = .ref address ∧ heap.cells[address]? = some (.object o) := by
  cases v with
  | ref address =>
    refine ⟨address, rfl, ?_⟩
    simp only [object] at ho
    split at ho
    · next o' hcell =>
      obtain rfl := Option.some.inj ho
      exact hcell
    · cases ho
  | undefined | null | bool | num | nonFinite | str | other => cases ho

theorem mem_cells_of_object (ho : heap.object v = some o) : .object o ∈ heap.cells := by
  obtain ⟨address, -, hcell⟩ := cell_of_object ho
  exact List.mem_of_getElem? hcell

/-- Only what exists is an object. -/
theorem below_of_object (ho : heap.object v = some o) : v.Below heap.size := by
  obtain ⟨address, rfl, hcell⟩ := cell_of_object ho
  exact (List.getElem?_eq_some_iff.mp hcell).1

theorem below_of_mem_values (ho : heap.object v = some o) {value : Value} (h : value ∈ o.values) :
    value.Below heap.size :=
  heap.closed _ (mem_cells_of_object ho) value h

/-- An own data property refers to an object that exists. -/
theorem below_of_property (ho : heap.object v = some o) {key : Text} {value : Value} {enumerable : Bool}
    (h : o.property key = some ⟨some value, enumerable⟩) : value.Below heap.size := by
  have hmem : ∀ value, o.properties.lookup (.str key) = some ⟨some value, enumerable⟩ → value ∈ o.values := by
    intro value hlookup
    obtain ⟨before, after, heq, -⟩ := List.lookup_eq_some_iff.mp hlookup
    apply List.mem_append_left
    apply List.mem_filterMap.mpr
    exact ⟨(.str key, ⟨some value, enumerable⟩), by rw [heq]; simp, rfl⟩
  unfold Object.property at h
  split at h
  · split at h
    · cases h
      trivial
    · exact below_of_mem_values ho (hmem value h)
  · exact below_of_mem_values ho (hmem value h)

end Heap

/-! ### Operations of the language -/

namespace Heap

/-- `typeof v === "object" && v !== null`. -/
def isObject : Value → Bool
  | .ref _ => true
  | _ => false

/-- `types.isProxy(v)`. -/
def isProxy (heap : Heap) : Value → Bool
  | .ref address =>
    match heap.cells[address]? with
    | some (.proxy _) | some .revoked => true
    | _ => false
  | _ => false

/-- `Array.isArray(v)`, which throws on a revoked proxy. -/
def isArray (heap : Heap) : Value → Option Bool
  | .ref address =>
    match heap.cells[address]? with
    | some (.object o) => some o.arrayLength.isSome
    | some (.proxy isArray) => some isArray
    | some .revoked => none
    | none => some false
  | _ => some false

/-- `Map.prototype.get.call(v, key)`, which throws on everything but a map. -/
def mapGet (heap : Heap) (v : Value) (key : Text) : Option Value :=
  match heap.object v with
  | some ⟨.map entries, _, _, _⟩ => some ((entries.lookup (.str key)).getD .undefined)
  | _ => none

/-- `Set.prototype.has.call(v, key)`, which throws on everything but a set. -/
def setHas (heap : Heap) (v : Value) (key : Text) : Option Bool :=
  match heap.object v with
  | some ⟨.set elements, _, _, _⟩ => some (elements.contains (.str key))
  | _ => none

/-- `Date.prototype.getTime.call(v)`, which throws on everything but a date; an invalid date has no
    time. -/
def getTime (heap : Heap) (v : Value) : Option (Option Int) :=
  match heap.object v with
  | some ⟨.date time, _, _, _⟩ => some time
  | _ => none

theorem isProxy_eq_false_of_object {heap : Heap} {v : Value} {o : Object} (h : heap.object v = some o) :
    heap.isProxy v = false := by
  obtain ⟨address, rfl, hcell⟩ := cell_of_object h
  simp only [isProxy, hcell]

theorem isArray_of_object {heap : Heap} {v : Value} {o : Object} (h : heap.object v = some o) :
    heap.isArray v = some o.arrayLength.isSome := by
  obtain ⟨address, rfl, hcell⟩ := cell_of_object h
  simp only [isArray, hcell]

end Heap

/-! ### Allocation -/

namespace Heap

variable {heap : Heap} {o : Object} {h : ∀ v ∈ o.values, v.Below (heap.size + 1)}

@[simp] theorem size_alloc : (heap.alloc o h).size = heap.size + 1 := by
  simp [alloc, size]

/-- An object that exists stays as it is. -/
theorem object_alloc {v : Value} (hv : v.Below heap.size) : (heap.alloc o h).object v = heap.object v := by
  cases v with
  | ref address =>
    unfold object alloc
    simp only
    rw [List.getElem?_append_left hv]
  | undefined | null | bool | num | nonFinite | str | other => rfl

@[simp] theorem object_alloc_new : (heap.alloc o h).object (.ref heap.size) = some o := by
  simp [object, alloc, size]

end Heap

end jslib
