import Narwhal.Lib.JsonDict
import Narwhal.Lib.PyValue
import Narwhal.Lib.RegexSearch

open pylib

/-! Keywords of JSON Schema as checks of a value, and patterns over code points. -/

/-! ### Patterns -/

/-- The code points of some ranges, or all others. -/
structure CodeClass where
  negated : Bool
  ranges : List (Nat × Nat)
deriving DecidableEq

namespace CodeClass

def has (k : CodeClass) (c : Nat) : Bool := k.negated != k.ranges.any fun range => range.1 ≤ c && c ≤ range.2

def only (c : Nat) : CodeClass := ⟨false, [(c, c)]⟩

def digits : List (Nat × Nat) := [(48, 57)]

def lower : List (Nat × Nat) := [(97, 122)]

def upper : List (Nat × Nat) := [(65, 90)]

/-- What `\s` matches. -/
def spaces : List (Nat × Nat) :=
  [(9, 13), (28, 32), (133, 133), (160, 160), (5760, 5760), (8192, 8202), (8232, 8233), (8239, 8239), (8287, 8287),
    (12288, 12288)]

/-- Each character of a literal as a range. -/
def chars (s : String) : List (Nat × Nat) := (lit s).map fun c => (c, c)

end CodeClass

/-- One of some code points. -/
def anyOf (ranges : List (Nat × Nat)) : Regex CodeClass := .sym ⟨false, ranges⟩

/-- None of some code points. -/
def noneOf (ranges : List (Nat × Nat)) : Regex CodeClass := .sym ⟨true, ranges⟩

/-- A literal. -/
def literal (s : String) : Regex CodeClass := Regex.chain ((lit s).map fun c => .sym (.only c))

/-- `re.fullmatch(r, s)` -/
def fullmatch (r : Regex CodeClass) (s : Str) : Bool := r.fits CodeClass.has s

/-- `re.search("^" + r + "$", s)`: the end is that of the text, or a line feed at its end. -/
def matchesLine (r : Regex CodeClass) (s : Str) : Bool :=
  fullmatch r s || (s.getLast? = some 10 && fullmatch r s.dropLast)

/-- The letter that stands for one under `(?i)`: of the letters outside ASCII four fold to one of it. -/
def foldCase (c : Nat) : Nat :=
  if 65 ≤ c ∧ c ≤ 90 then c + 32
  else if c = 0x130 ∨ c = 0x131 then 105
  else if c = 0x17F then 115
  else if c = 0x212A then 107
  else c

/-- Whether a class of a pattern under `(?i)`, written in small letters, has a code point. -/
def hasFolded (k : CodeClass) (c : Nat) : Bool := k.has (foldCase c)

/-- `re.search(r, s)` for an `r` under `(?i)`. -/
def searchFolded (r : Regex CodeClass) (s : Str) : Bool := r.finds hasFolded s

theorem mem_lang_literal {s : String} {w : Str} : w ∈ (literal s).lang CodeClass.has ↔ w = lit s := by
  rw [literal, Regex.chain]
  induction lit s generalizing w with
  | nil => exact Iff.rfl
  | cons c cs ih =>
    rw [List.map_cons, List.foldr_cons, Regex.lang, Language.mem_mul]
    constructor
    · rintro ⟨u, ⟨d, rfl, hd⟩, v, hv, rfl⟩
      simp only [CodeClass.has, CodeClass.only, List.any_cons, List.any_nil, Bool.or_false, Bool.false_bne,
        Bool.and_eq_true, decide_eq_true_eq] at hd
      rw [ih.mp hv, Nat.le_antisymm hd.2 hd.1]
      rfl
    · rintro rfl
      exact ⟨[c], ⟨c, rfl, by simp [CodeClass.has, CodeClass.only]⟩, cs, ih.mpr rfl, rfl⟩

theorem fullmatch_times_iff {ranges : List (Nat × Nat)} {n : Nat} {s : Str} :
    fullmatch (.times n (anyOf ranges)) s = true ↔ s.length = n ∧ ∀ c ∈ s, (CodeClass.mk false ranges).has c = true := by
  rw [fullmatch, Regex.fits_iff, anyOf, Regex.mem_lang_times_sym]

namespace jsonschema

/-! ### Keywords -/

inductive TypeName where
  | null
  | boolean
  | object
  | array
  | number
  | integer
  | string
deriving DecidableEq

/-- A number without a fraction, however it is written. -/
def isWhole (x : jslib.Double) : Bool := x.isFinite && x.rat.den = 1

def TypeName.admits : TypeName → Json → Bool
  | .null, .null => true
  | .boolean, .bool _ => true
  | .object, .obj _ => true
  | .array, .arr _ => true
  | .number, .int _ => true
  | .number, .float _ => true
  | .integer, .int _ => true
  | .integer, .float lexeme => (Json.float lexeme).number.any isWhole
  | .string, .str _ => true
  | _, _ => false

/-- A schema, as the check it makes of a value. -/
abbrev Schema := Json → Bool

/-- A value has to pass every keyword. -/
def schema (keywords : List Schema) : Schema := fun value => keywords.all fun keyword => keyword value

/-- The schema `false` -/
def never : Schema := fun _ => false

def type (names : List TypeName) : Schema := fun value => names.any fun name => name.admits value

/-- `const`, for a string. -/
def const (expected : String) : Schema := fun value => value = .str (lit expected)

/-- `enum`, for strings. -/
def enum (values : List String) : Schema := fun value => values.any fun expected => value = .str (lit expected)

/-- Keywords about strings pass every other value. -/
def onString (check : Str → Bool) : Schema
  | .str s => check s
  | _ => true

/-- A pattern of the form `^r$`. -/
def pattern (r : Regex CodeClass) : Schema := onString (matchesLine r)

def minLength (n : Nat) : Schema := onString fun s => n ≤ s.length

def maxLength (n : Nat) : Schema := onString fun s => s.length ≤ n

/-- A format that is checked on all values. -/
def format (check : Json → Bool) : Schema := check

def minimum (n : Int) : Schema
  | .int m => n ≤ m
  | .float lexeme => (Json.float lexeme).number.any fun x => x.ge (.finite n)
  | _ => true

/-- Keywords about objects pass every other value. -/
def onObject (check : List (Str × Json) → Bool) : Schema
  | .obj fields => check fields
  | _ => true

def required (names : List String) : Schema :=
  onObject fun fields => names.all fun name => (fields.map Prod.fst).contains (lit name)

/-- `properties`, and `additionalProperties` for the names that it does not list. -/
def properties (known : List (String × Schema)) (additional : Schema) : Schema :=
  onObject fun fields => fields.all fun field =>
    match known.find? fun property => lit property.1 = field.1 with
    | some property => property.2 field.2
    | none => additional field.2

theorem properties_iff {known : List (String × Schema)} {additional : Schema} {fields : List (Str × Json)}
    (hknown : (known.map Prod.fst).Nodup) (hfields : (fields.map Prod.fst).Nodup)
    (hkeys : ∀ key ∈ fields.map Prod.fst, key ∈ known.map fun property => lit property.1) :
    properties known additional (.obj fields) = true ↔
      ∀ property ∈ known, ∀ value, lookupField (lit property.1) fields = some value → property.2 value = true := by
  have hfind : ∀ property ∈ known, known.find? (fun other => lit other.1 = lit property.1) = some property := by
    intro property hproperty
    obtain ⟨other, hother⟩ := Option.isSome_iff_exists.mp
      (List.find?_isSome (p := fun other : String × Schema => lit other.1 = lit property.1)|>.mpr ⟨property, hproperty, by simp⟩)
    have hname := List.find?_some hother
    rw [hother, List.inj_on_of_nodup_map hknown (List.mem_of_find?_eq_some hother) hproperty
      (lit_inj.mp (of_decide_eq_true hname))]
  rw [properties, onObject, List.all_eq_true]
  constructor
  · intro h property hproperty value hvalue
    have hvalue' := h _ (mem_of_lookupField hvalue)
    rw [hfind property hproperty] at hvalue'
    exact hvalue'
  · intro h field hfield
    obtain ⟨property, hproperty, hname⟩ := List.mem_map.mp (hkeys _ (List.mem_map_of_mem hfield))
    rw [← hname, hfind property hproperty]
    exact h property hproperty field.2 (hname ▸ lookupField_of_mem hfields hfield)

def propertyNames (names : Schema) : Schema := onObject fun fields => fields.all fun field => names (.str field.1)

def maxProperties (n : Nat) : Schema := onObject fun fields => fields.length ≤ n

end jsonschema
