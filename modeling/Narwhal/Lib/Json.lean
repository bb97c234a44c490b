import Mathlib.Data.Nat.Digits.Defs
import Mathlib.Data.Nat.Digits.Lemmas
import Narwhal.Lib.Hex

namespace pylib

/-- A JSON value as Python's `json` module holds it. A `dict` is the list of its
    items in increasing key order, so that equality of the lists is equality of
    the dictionaries. A `float` keeps the text it was read from. -/
inductive Json where
  | null
  | bool (b : Bool)
  | int (n : Int)
  | float (lexeme : Str)
  | str (s : Str)
  | arr (items : List Json)
  | obj (fields : List (Str × Json))
deriving Repr

mutual

def Json.beq : Json → Json → Bool
  | .null, .null => true
  | .bool a, .bool b => a == b
  | .int a, .int b => a == b
  | .float a, .float b => a == b
  | .str a, .str b => a == b
  | .arr a, .arr b => Json.beqItems a b
  | .obj a, .obj b => Json.beqFields a b
  | _, _ => false

def Json.beqItems : List Json → List Json → Bool
  | [], [] => true
  | a :: as, b :: bs => a.beq b && Json.beqItems as bs
  | _, _ => false

def Json.beqFields : List (Str × Json) → List (Str × Json) → Bool
  | [], [] => true
  | (k, a) :: as, (l, b) :: bs => k == l && a.beq b && Json.beqFields as bs
  | _, _ => false

end

mutual

theorem Json.beq_iff : ∀ a b : Json, a.beq b = true ↔ a = b
  | .null, b => by cases b <;> simp [Json.beq]
  | .bool _, b => by cases b <;> simp [Json.beq]
  | .int _, b => by cases b <;> simp [Json.beq]
  | .float _, b => by cases b <;> simp [Json.beq]
  | .str _, b => by cases b <;> simp [Json.beq]
  | .arr xs, b => by cases b <;> simp [Json.beq, Json.beqItems_iff xs]
  | .obj xs, b => by cases b <;> simp [Json.beq, Json.beqFields_iff xs]

theorem Json.beqItems_iff : ∀ a b : List Json, Json.beqItems a b = true ↔ a = b
  | [], b => by cases b <;> simp [Json.beqItems]
  | x :: xs, b => by cases b <;> simp [Json.beqItems, Json.beq_iff x, Json.beqItems_iff xs]

theorem Json.beqFields_iff : ∀ a b : List (Str × Json), Json.beqFields a b = true ↔ a = b
  | [], b => by cases b <;> simp [Json.beqFields]
  | (k, x) :: xs, b => by
    cases b with
    | nil => simp [Json.beqFields]
    | cons y ys =>
      obtain ⟨l, y⟩ := y
      simp [Json.beqFields, Json.beq_iff x, Json.beqFields_iff xs, and_assoc]

end

instance : DecidableEq Json := fun a b => decidable_of_iff _ (Json.beq_iff a b)

/-- `d.get(key)` on the items of a dictionary. -/
def lookupField (key : Str) : List (Str × Json) → Option Json
  | [] => none
  | (k, v) :: rest => if k = key then some v else lookupField key rest

theorem mem_of_lookupField {key : Str} {value : Json} {fields : List (Str × Json)}
    (h : lookupField key fields = some value) : (key, value) ∈ fields := by
  induction fields with
  | nil => cases h
  | cons field fields ih =>
    rw [lookupField] at h
    split_ifs at h with hkey
    · rw [← Option.some.inj h, ← hkey]
      exact List.mem_cons_self
    · exact List.mem_cons_of_mem _ (ih h)

theorem exists_lookupField_iff {key : Str} {fields : List (Str × Json)} :
    (∃ value, lookupField key fields = some value) ↔ key ∈ fields.map Prod.fst := by
  induction fields with
  | nil => simp [lookupField]
  | cons field fields ih =>
    rw [lookupField, List.map_cons, List.mem_cons]
    split_ifs with hkey
    · simp [hkey]
    · rw [ih, or_iff_right (Ne.symm hkey)]

theorem lookupField_filter {p : Str × Json → Bool} {key : Str} {fields : List (Str × Json)}
    (h : ∀ value, p (key, value) = true) : lookupField key (fields.filter p) = lookupField key fields := by
  induction fields with
  | nil => rfl
  | cons kv rest ih =>
    obtain ⟨k, v⟩ := kv
    by_cases hk : k = key
    · subst hk
      simp [h, lookupField]
    · by_cases hp : p (k, v) = true
      · simp [hp, lookupField, hk, ih]
      · simp [hp, lookupField, hk, ih]

/-- `d[key] = v` on the items of a dictionary. -/
def setField (key : Str) (value : Json) : List (Str × Json) → List (Str × Json)
  | [] => [(key, value)]
  | (k, v) :: rest =>
    if key = k then (key, value) :: rest
    else if key < k then (key, value) :: (k, v) :: rest
    else (k, v) :: setField key value rest

/-- A `dict` display: the pairs are stored one after the other. -/
def dictOf (pairs : List (Str × Json)) : List (Str × Json) :=
  pairs.foldl (fun d kv => setField kv.1 kv.2 d) []

mutual

/-- Every dictionary in the value lists distinct keys in increasing order. -/
def Json.WF : Json → Prop
  | .arr items => Json.WFItems items
  | .obj fields => (fields.map Prod.fst).Pairwise (· < ·) ∧ Json.WFFields fields
  | _ => True

def Json.WFItems : List Json → Prop
  | [] => True
  | x :: xs => x.WF ∧ Json.WFItems xs

def Json.WFFields : List (Str × Json) → Prop
  | [] => True
  | (_, v) :: rest => v.WF ∧ Json.WFFields rest

end

mutual

/-- No `float` occurs in the value. -/
def Json.noFloat : Json → Bool
  | .float _ => false
  | .arr items => Json.noFloatItems items
  | .obj fields => Json.noFloatFields fields
  | _ => true

def Json.noFloatItems : List Json → Bool
  | [] => true
  | x :: xs => x.noFloat && Json.noFloatItems xs

def Json.noFloatFields : List (Str × Json) → Bool
  | [] => true
  | (_, v) :: rest => v.noFloat && Json.noFloatFields rest

end

/-- The JSON spelling of one character of a string, with `ensure_ascii=False`. -/
def escapeChar (c : Nat) : Str :=
  if c = 34 then [92, 34]
  else if c = 92 then [92, 92]
  else if c = 8 then [92, 98]
  else if c = 12 then [92, 102]
  else if c = 10 then [92, 110]
  else if c = 13 then [92, 114]
  else if c = 9 then [92, 116]
  else if c < 32 then [92, 117, 48, 48, hexDigit (c / 16), hexDigit (c % 16)]
  else [c]

def quote (s : Str) : Str := 34 :: (s.flatMap escapeChar ++ [34])

def natRepr (n : Nat) : Str :=
  if n = 0 then [48] else (Nat.digits 10 n).reverse.map (48 + ·)

/-- `int.__repr__`. -/
def intRepr : Int → Str
  | .ofNat n => natRepr n
  | .negSucc n => 45 :: natRepr (n + 1)

mutual

/-- `json.dumps(obj, sort_keys=True, separators=(",", ":"), ensure_ascii=False)`.
    The items of a dictionary are already listed in key order. -/
def dumps : Json → Str
  | .null => lit "null"
  | .bool true => lit "true"
  | .bool false => lit "false"
  | .int n => intRepr n
  | .float lexeme => lexeme
  | .str s => quote s
  | .arr [] => [91, 93]
  | .arr (x :: xs) => 91 :: (dumps x ++ dumpsItems xs)
  | .obj [] => [123, 125]
  | .obj ((k, v) :: rest) => 123 :: (quote k ++ 58 :: (dumps v ++ dumpsFields rest))

/-- What follows an item of an array: the remaining items, then the bracket. -/
def dumpsItems : List Json → Str
  | [] => [93]
  | x :: xs => 44 :: (dumps x ++ dumpsItems xs)

/-- What follows an item of a dictionary: the remaining items, then the brace. -/
def dumpsFields : List (Str × Json) → Str
  | [] => [125]
  | (k, v) :: rest => 44 :: (quote k ++ 58 :: (dumps v ++ dumpsFields rest))

end

end pylib
