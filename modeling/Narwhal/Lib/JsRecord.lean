import Narwhal.Lib.JsJson

namespace jslib

/-! Reading a value of unknown shape. -/

namespace Json

/-- A property of a value; `none` is `undefined`. -/
def get (v : Json) (key : Text) : Option Json :=
  match v with
  | .obj fields => fields.lookup key
  | _ => none

def string : Json → Option Text
  | .str s => some s
  | _ => none

def boolean : Json → Option Bool
  | .bool b => some b
  | _ => none

def array : Json → Option (List Json)
  | .arr items => some items
  | _ => none

/-- An object that is no array. -/
def isRecord : Json → Bool
  | .obj _ => true
  | _ => false

/-- The text of a property that is a string. -/
def getString (v : Json) (key : Text) : Option Text := (v.get key).bind string

def getBoolean (v : Json) (key : Text) : Option Bool := (v.get key).bind boolean

theorem string_eq_some {v : Json} {s : Text} (h : v.string = some s) : v = .str s := by
  cases v with
  | str t => rw [Option.some.inj h]
  | _ => cases h

theorem array_eq_some {v : Json} {items : List Json} (h : v.array = some items) : v = .arr items := by
  cases v with
  | arr others => rw [Option.some.inj h]
  | _ => cases h

end Json

/-- A test of strings holds of nothing but strings. -/
theorem string_any_eq_true_iff {value : Option Json} {p : Text → Bool} :
    (value.bind Json.string).any p = true ↔ ∃ s, value = some (.str s) ∧ p s = true := by
  constructor
  · intro h
    cases value with
    | none => cases h
    | some v =>
      cases v with
      | str s => exact ⟨s, rfl, h⟩
      | _ => cases h
  · rintro ⟨s, rfl, h⟩
    exact h

/-! ### `String(value)` -/

mutual

/-- `String(value)`; `none` is the exception of an object whose own `toString` is no function. -/
def Json.toText : Json → Option Text
  | .null => some "null".toList
  | .bool true => some "true".toList
  | .bool false => some "false".toList
  | .num n => some n.text
  | .str s => some s
  | .arr items => joinTexts items
  | .obj fields => if (fields.lookup "toString".toList).isSome then none else some "[object Object]".toList

/-- `items.join(",")`, where `null` is empty. -/
def joinTexts : List Json → Option Text
  | [] => some []
  | [.null] => some []
  | [item] => item.toText
  | .null :: rest => (joinTexts rest).map fun more => ',' :: more
  | item :: rest => (item.toText).bind fun first => (joinTexts rest).map fun more => first ++ ',' :: more

end

/-- `String(value)`, where `none` is `undefined`. -/
def textOf : Option Json → Option Text
  | some v => v.toText
  | none => some "undefined".toList

/-- Words that no value but a string or an array is converted to. -/
def plainWords (words : List Text) : Bool :=
  words.all fun word =>
    word.any (fun c => !isNumberChar c) && !List.contains ["null", "true", "false", "undefined", "[object Object]"] (String.ofList word)

/-- A value that is converted to such a word is the word, or an array. -/
theorem eq_or_array_of_textOf {words : List Text} (hwords : plainWords words = true) {v : Option Json} {word : Text}
    (hword : word ∈ words) (h : textOf v = some word) : v = some (.str word) ∨ ∃ items, v = some (.arr items) := by
  have hplain := List.all_eq_true.mp hwords word hword
  rw [Bool.and_eq_true] at hplain
  obtain ⟨hletter, hother⟩ := hplain
  have hne : ∀ other ∈ ["null", "true", "false", "undefined", "[object Object]"], some other.toList ≠ some word := by
    intro other hmem heq
    obtain rfl := Option.some.inj heq
    rw [String.ofList_toList] at hother
    simp [hmem] at hother
  cases v with
  | none => exact absurd h (hne "undefined" (by simp))
  | some v =>
    cases v with
    | null => exact absurd h (hne "null" (by simp))
    | bool b =>
      cases b with
      | true => exact absurd h (hne "true" (by simp))
      | false => exact absurd h (hne "false" (by simp))
    | num n =>
      obtain rfl := Option.some.inj h
      obtain ⟨c, hc, hnot⟩ := List.any_eq_true.mp hletter
      rw [n.chars c hc] at hnot
      cases hnot
    | str s =>
      obtain rfl := Option.some.inj h
      exact .inl rfl
    | arr items => exact .inr ⟨items, rfl⟩
    | obj fields =>
      rw [textOf, Json.toText] at h
      split_ifs at h
      exact absurd h (hne "[object Object]" (by simp))

/-- `value.trim().length > 0` -/
def nonBlank (s : Text) : Bool := trimText s ≠ []

end jslib
