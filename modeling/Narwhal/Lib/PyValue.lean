import Narwhal.Lib.JsDouble
import Narwhal.Lib.Split

namespace pylib

/-! Operators of Python on the values that `json.load` makes. -/

/-- What an operation has raised is `none`. -/
abbrev Raises (α : Type) := Option α

/-! ### Equality -/

/-- The value of a number; booleans are numbers. -/
def Json.number : Json → Option jslib.Double
  | .bool b => some (.finite (if b then 1 else 0))
  | .int n => some (.finite n)
  | .float lexeme => some (jslib.parseFloat (lexeme.map Char.ofNat))
  | _ => none

/-- Two numbers are equal, or, where this is asked, one object: the decoder has one NaN. -/
def eqNumber (same : Bool) (x y : jslib.Double) : Bool := (x.ge y && y.ge x) || (same && x.isNaN && y.isNaN)

mutual

/-- `x == y`, or `x is y or x == y`, which is what containers compare their items with. -/
def Json.eq (same : Bool) : Json → Json → Bool
  | .null, .null => true
  | .str s, .str t => s = t
  | .arr xs, .arr ys => Json.eqItems xs ys
  | .obj xs, .obj ys => Json.eqFields xs ys
  | x, y =>
    match x.number, y.number with
    | some a, some b => eqNumber same a b
    | _, _ => false

def Json.eqItems : List Json → List Json → Bool
  | [], [] => true
  | x :: xs, y :: ys => Json.eq true x y && Json.eqItems xs ys
  | _, _ => false

def Json.eqFields : List (Str × Json) → List (Str × Json) → Bool
  | [], [] => true
  | (k, x) :: xs, (l, y) :: ys => k = l && Json.eq true x y && Json.eqFields xs ys
  | _, _ => false

end

theorem eq_str_iff {same : Bool} {s : Str} {y : Json} : Json.eq same (.str s) y = true ↔ y = .str s := by
  cases y <;> simp [Json.eq, Json.number, eq_comm]

theorem eq_str_right_iff {same : Bool} {s : Str} {x : Json} : Json.eq same x (.str s) = true ↔ x = .str s := by
  cases x <;> simp [Json.eq, Json.number]

/-! ### Containers -/

def Json.hashable : Json → Bool
  | .arr _ | .obj _ => false
  | _ => true

/-- `bool(x)` -/
def Json.truthy : Json → Bool
  | .null => false
  | .str s => s ≠ []
  | .arr items => ¬ items.isEmpty
  | .obj fields => ¬ fields.isEmpty
  | x => x.number.any fun n => ¬ n.isZero

/-- `for x in value` -/
def iterate : Json → Raises (List Json)
  | .arr items => some items
  | .str s => some (s.map fun c => .str [c])
  | .obj fields => some (fields.map fun kv => .str kv.1)
  | _ => none

/-- `s in value` -/
def strIn (s : Str) : Json → Raises Bool
  | .arr items => some (items.any (Json.eq true (.str s)))
  | .str t => some (isInfix s t)
  | .obj fields => some ((lookupField s fields).isSome)
  | _ => none

/-- `value.get(key, default)` -/
def getOr (default : Json) (key : String) : Json → Raises Json
  | .obj fields => some ((lookupField (lit key) fields).getD default)
  | _ => none

section

variable {V : Type}

/-- `d[key]` of a dictionary in the order of its insertions. -/
def dictGet (key : Json) : List (Json × V) → Option V
  | [] => none
  | (k, v) :: rest => if Json.eq true k key then some v else dictGet key rest

/-- `d[key] = value` -/
def dictSet (key : Json) (value : V) : List (Json × V) → List (Json × V)
  | [] => [(key, value)]
  | (k, v) :: rest => if Json.eq true k key then (k, value) :: rest else (k, v) :: dictSet key value rest

theorem dictSet_of_new {key : Json} {value : V} {d : List (Json × V)} (h : ∀ kv ∈ d, Json.eq true kv.1 key = false) :
    dictSet key value d = d ++ [(key, value)] := by
  induction d with
  | nil => rfl
  | cons kv d ih =>
    obtain ⟨hk, hrest⟩ := List.forall_mem_cons.mp h
    rw [dictSet, hk, if_neg Bool.false_ne_true, ih hrest, List.cons_append]

end

end pylib
