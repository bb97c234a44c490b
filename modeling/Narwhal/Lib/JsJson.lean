import Narwhal.Lib.JsText

namespace jslib

/-! ### `JSON.stringify` of a string -/

/-- A control character that has no escape of its own is written by its code. -/
def jsonChar (c : Char) : Text :=
  if c = '"' then ['\\', '"']
  else if c = '\\' then ['\\', '\\']
  else if c = '\x08' then ['\\', 'b']
  else if c = '\t' then ['\\', 't']
  else if c = '\n' then ['\\', 'n']
  else if c = '\x0c' then ['\\', 'f']
  else if c = '\r' then ['\\', 'r']
  else if c.toNat < 32 then ['\\', 'u', '0', '0', Nat.digitChar (c.toNat / 16), Nat.digitChar (c.toNat % 16)]
  else [c]

def jsonString (s : Text) : Text := '"' :: s.flatMap jsonChar ++ ['"']

theorem newline_not_mem_jsonChar (c : Char) : '\n' ∉ jsonChar c := by
  have hdigit : ∀ n < 16, '\n' ≠ Nat.digitChar n := by decide
  unfold jsonChar
  split_ifs with h1 h2 h3 h4 h5 h6 h7 h8
  · decide
  · decide
  · decide
  · decide
  · decide
  · decide
  · decide
  · have hhigh := hdigit (c.toNat / 16) (by omega)
    have hlow := hdigit (c.toNat % 16) (by omega)
    simp [hhigh, hlow]
  · simpa using Ne.symm h5

/-- A string written as JSON is on one line. -/
theorem newline_not_mem_jsonString (s : Text) : '\n' ∉ jsonString s := by
  have hchars : '\n' ∉ s.flatMap jsonChar := by
    intro h
    obtain ⟨c, -, hc⟩ := List.mem_flatMap.mp h
    exact newline_not_mem_jsonChar c hc
  simp [jsonString, hchars]

/-- The value of a hexadecimal digit. -/
def hexValue (c : Char) : Nat := if c.toNat < 58 then c.toNat - 48 else c.toNat - 87

/-- Read back one character of a string; `none` at its closing quote. -/
def readChar : Text → Option (Char × Text)
  | '\\' :: 'u' :: _ :: _ :: high :: low :: rest => some (Char.ofNat (16 * hexValue high + hexValue low), rest)
  | '\\' :: 'b' :: rest => some ('\x08', rest)
  | '\\' :: 't' :: rest => some ('\t', rest)
  | '\\' :: 'n' :: rest => some ('\n', rest)
  | '\\' :: 'f' :: rest => some ('\x0c', rest)
  | '\\' :: 'r' :: rest => some ('\r', rest)
  | '\\' :: c :: rest => some (c, rest)
  | '"' :: _ => none
  | c :: rest => some (c, rest)
  | [] => none

/-- An escaped character is read back. -/
theorem readChar_jsonChar (c : Char) (rest : Text) : readChar (jsonChar c ++ rest) = some (c, rest) := by
  have hdigit : ∀ n < 16, hexValue (Nat.digitChar n) = n := by decide
  unfold jsonChar
  split_ifs with h1 h2 h3 h4 h5 h6 h7 h8
  · rw [h1]
    rfl
  · rw [h2]
    rfl
  · rw [h3]
    rfl
  · rw [h4]
    rfl
  · rw [h5]
    rfl
  · rw [h6]
    rfl
  · rw [h7]
    rfl
  · have hcode : 16 * (c.toNat / 16) + c.toNat % 16 = c.toNat := Nat.div_add_mod c.toNat 16
    simp only [List.cons_append, List.nil_append, readChar, hdigit (c.toNat / 16) (by omega),
      hdigit (c.toNat % 16) (by omega), hcode, Char.ofNat_toNat]
  · simp [readChar, h2]

/-- A string ends where its closing quote stands. -/
theorem jsonString_append_inj {s t x y : Text} (h : jsonString s ++ x = jsonString t ++ y) : s = t ∧ x = y := by
  have hbody : s.flatMap jsonChar ++ '"' :: x = t.flatMap jsonChar ++ '"' :: y := by
    simpa [jsonString] using h
  clear h
  induction s generalizing t with
  | nil =>
    cases t with
    | nil => exact ⟨rfl, (List.cons.inj hbody).2⟩
    | cons d t =>
      have hread := congrArg readChar hbody
      rw [List.flatMap_cons, List.append_assoc, readChar_jsonChar] at hread
      cases hread
  | cons c s ih =>
    cases t with
    | nil =>
      have hread := congrArg readChar hbody
      rw [List.flatMap_cons, List.append_assoc, readChar_jsonChar] at hread
      cases hread
    | cons d t =>
      have hread := congrArg readChar hbody
      rw [List.flatMap_cons, List.flatMap_cons, List.append_assoc, List.append_assoc, readChar_jsonChar,
        readChar_jsonChar] at hread
      obtain ⟨rfl, hrest⟩ := Prod.mk.inj (Option.some.inj hread)
      obtain ⟨rfl, hxy⟩ := ih hrest
      exact ⟨rfl, hxy⟩

/-! ### JSON values -/

def isNumberChar (c : Char) : Bool := isDigit c || c == '-' || c == '+' || c == '.' || c == 'e'

/-- A finite number, known by its text: no two numbers have the same but the zeros. -/
structure Number where
  text : Text
  ne_nil : text ≠ []
  chars : ∀ c ∈ text, isNumberChar c = true
deriving DecidableEq

/-- A value `JSON.parse` can return. An object has its keys in the order of the text. -/
inductive Json where
  | null
  | bool (b : Bool)
  | num (n : Number)
  | str (s : Text)
  | arr (items : List Json)
  | obj (fields : List (Text × Json))

mutual

/-- `JSON.stringify`. -/
def stringify : Json → Text
  | .null => ['n', 'u', 'l', 'l']
  | .bool true => ['t', 'r', 'u', 'e']
  | .bool false => ['f', 'a', 'l', 's', 'e']
  | .num n => n.text
  | .str s => jsonString s
  | .arr [] => ['[', ']']
  | .arr (item :: items) => '[' :: stringify item ++ stringifyItems items
  | .obj [] => ['\x7b', '\x7d']
  | .obj ((key, value) :: fields) => '\x7b' :: jsonString key ++ ':' :: stringify value ++ stringifyFields fields

def stringifyItems : List Json → Text
  | [] => [']']
  | item :: items => ',' :: stringify item ++ stringifyItems items

def stringifyFields : List (Text × Json) → Text
  | [] => ['\x7d']
  | (key, value) :: fields => ',' :: jsonString key ++ ':' :: stringify value ++ stringifyFields fields

end

/-! ### Unique readability -/

def Json.tag : Json → Nat
  | .null => 0
  | .bool true => 1
  | .bool false => 2
  | .num _ => 3
  | .str _ => 4
  | .arr _ => 5
  | .obj _ => 6

/-- The kind of value that begins with a character. -/
def tagOf (c : Char) : Nat :=
  if c = 'n' then 0 else if c = 't' then 1 else if c = 'f' then 2 else if isNumberChar c then 3 else
    if c = '"' then 4 else if c = '[' then 5 else if c = '\x7b' then 6 else 7

theorem tagOf_isNumberChar {c : Char} (h : isNumberChar c = true) : tagOf c = 3 := by
  have hne : ∀ d, isNumberChar d = false → c ≠ d := by
    rintro d hd rfl
    rw [hd] at h
    cases h
  simp [tagOf, h, hne 'n' rfl, hne 't' rfl, hne 'f' rfl]

theorem head_stringify (a : Json) (x : Text) : (stringify a ++ x).head?.map tagOf = some a.tag := by
  cases a with
  | null => rfl
  | bool b => cases b <;> rfl
  | num n =>
    obtain ⟨text, hne, hchars⟩ := n
    cases text with
    | nil => exact absurd rfl hne
    | cons c text => simpa [stringify, Json.tag] using tagOf_isNumberChar (hchars c List.mem_cons_self)
  | str s => rfl
  | arr items => cases items <;> rfl
  | obj fields => rcases fields with _ | ⟨⟨key, value⟩, fields⟩ <;> rfl

theorem stringify_ne_close (a : Json) (x y : Text) : ']' :: y ≠ stringify a ++ x := by
  intro h
  have htag := head_stringify a x
  rw [← h] at htag
  cases a with
  | bool b => cases b <;> cases htag
  | _ => cases htag

/-- A number ends before this text. -/
def Ends (x : Text) : Prop := ∀ c, x.head? = some c → isNumberChar c = false

theorem ends_nil : Ends [] := by
  intro c h
  cases h

theorem ends_cons {c : Char} {x : Text} (h : isNumberChar c = false) : Ends (c :: x) := by
  intro d hd
  rw [← Option.some.inj hd]
  exact h

theorem ends_stringifyItems (items : List Json) (x : Text) : Ends (stringifyItems items ++ x) := by
  cases items with
  | nil => exact ends_cons rfl
  | cons item items => exact ends_cons rfl

theorem ends_stringifyFields (fields : List (Text × Json)) (x : Text) : Ends (stringifyFields fields ++ x) := by
  cases fields with
  | nil => exact ends_cons rfl
  | cons field fields => exact ends_cons rfl

/-- A number ends where no more of its characters follow. -/
theorem number_append_inj {n m : Number} {x y : Text} (h : n.text ++ x = m.text ++ y) (hx : Ends x) (hy : Ends y) :
    n = m ∧ x = y := by
  have hspan : ∀ (n : Number) {x : Text}, Ends x → (n.text ++ x).takeWhile isNumberChar = n.text := by
    intro n x hx
    rw [List.takeWhile_append_of_pos n.chars]
    cases x with
    | nil => simp
    | cons c x => simp [hx c rfl]
  have htext : n.text = m.text := by rw [← hspan n hx, h, hspan m hy]
  refine ⟨?_, List.append_cancel_left (htext ▸ h)⟩
  cases n
  cases m
  congr

mutual

/-- A value ends where its text does: no text is that of two values. -/
theorem stringify_append_inj (a b : Json) {x y : Text} (h : stringify a ++ x = stringify b ++ y) (hx : Ends x)
    (hy : Ends y) : a = b ∧ x = y := by
  have htag : a.tag = b.tag := by
    apply Option.some.inj
    rw [← head_stringify a x, h, head_stringify b y]
  cases a with
  | null =>
    cases b with
    | null => exact ⟨rfl, List.append_cancel_left h⟩
    | bool b => cases b <;> cases htag
    | _ => cases htag
  | bool v =>
    cases b with
    | bool w =>
      cases v <;> cases w
      · exact ⟨rfl, List.append_cancel_left h⟩
      · cases htag
      · cases htag
      · exact ⟨rfl, List.append_cancel_left h⟩
    | _ => cases v <;> cases htag
  | num n =>
    cases b with
    | num m =>
      obtain ⟨rfl, hxy⟩ := number_append_inj h hx hy
      exact ⟨rfl, hxy⟩
    | bool b => cases b <;> cases htag
    | _ => cases htag
  | str s =>
    cases b with
    | str t =>
      obtain ⟨rfl, hxy⟩ := jsonString_append_inj h
      exact ⟨rfl, hxy⟩
    | bool b => cases b <;> cases htag
    | _ => cases htag
  | arr items =>
    cases b with
    | arr others =>
      cases items with
      | nil =>
        cases others with
        | nil => exact ⟨rfl, List.append_cancel_left h⟩
        | cons b bs =>
          have hclose : ']' :: x = stringify b ++ (stringifyItems bs ++ y) := by simpa [stringify] using h
          exact absurd hclose (stringify_ne_close b _ _)
      | cons a as =>
        cases others with
        | nil =>
          have hclose : ']' :: y = stringify a ++ (stringifyItems as ++ x) := by simpa [stringify] using h.symm
          exact absurd hclose (stringify_ne_close a _ _)
        | cons b bs =>
          have hrest : stringify a ++ (stringifyItems as ++ x) = stringify b ++ (stringifyItems bs ++ y) := by
            simpa [stringify] using h
          obtain ⟨rfl, hmore⟩ := stringify_append_inj a b hrest (ends_stringifyItems as x) (ends_stringifyItems bs y)
          obtain ⟨rfl, hxy⟩ := stringifyItems_append_inj as bs hmore
          exact ⟨rfl, hxy⟩
    | bool b => cases b <;> cases htag
    | _ => cases htag
  | obj fields =>
    cases b with
    | obj others =>
      match fields, others with
      | [], [] => exact ⟨rfl, List.append_cancel_left h⟩
      | [], (key, value) :: _ => cases (List.cons.inj (List.cons.inj h).2).1
      | (key, value) :: _, [] => cases (List.cons.inj (List.cons.inj h).2).1
      | (key, value) :: fields, (key', value') :: others =>
        have hrest : jsonString key ++ ':' :: (stringify value ++ (stringifyFields fields ++ x)) =
            jsonString key' ++ ':' :: (stringify value' ++ (stringifyFields others ++ y)) := by
          simpa [stringify] using h
        obtain ⟨rfl, hvalues⟩ := jsonString_append_inj hrest
        obtain ⟨rfl, hmore⟩ := stringify_append_inj value value' (List.cons.inj hvalues).2
          (ends_stringifyFields fields x) (ends_stringifyFields others y)
        obtain ⟨rfl, hxy⟩ := stringifyFields_append_inj fields others hmore
        exact ⟨rfl, hxy⟩
    | bool b => cases b <;> cases htag
    | _ => cases htag

theorem stringifyItems_append_inj (as bs : List Json) {x y : Text}
    (h : stringifyItems as ++ x = stringifyItems bs ++ y) : as = bs ∧ x = y := by
  cases as with
  | nil =>
    cases bs with
    | nil => exact ⟨rfl, List.append_cancel_left h⟩
    | cons b bs => cases (List.cons.inj h).1
  | cons a as =>
    cases bs with
    | nil => cases (List.cons.inj h).1
    | cons b bs =>
      have hrest : stringify a ++ (stringifyItems as ++ x) = stringify b ++ (stringifyItems bs ++ y) := by
        simpa [stringifyItems] using h
      obtain ⟨rfl, hmore⟩ := stringify_append_inj a b hrest (ends_stringifyItems as x) (ends_stringifyItems bs y)
      obtain ⟨rfl, hxy⟩ := stringifyItems_append_inj as bs hmore
      exact ⟨rfl, hxy⟩

theorem stringifyFields_append_inj (as bs : List (Text × Json)) {x y : Text}
    (h : stringifyFields as ++ x = stringifyFields bs ++ y) : as = bs ∧ x = y := by
  match as, bs with
  | [], [] => exact ⟨rfl, List.append_cancel_left h⟩
  | [], (key, value) :: _ => cases (List.cons.inj h).1
  | (key, value) :: _, [] => cases (List.cons.inj h).1
  | (key, value) :: as, (key', value') :: bs =>
    have hrest : jsonString key ++ ':' :: (stringify value ++ (stringifyFields as ++ x)) =
        jsonString key' ++ ':' :: (stringify value' ++ (stringifyFields bs ++ y)) := by
      simpa [stringifyFields] using h
    obtain ⟨rfl, hvalues⟩ := jsonString_append_inj hrest
    obtain ⟨rfl, hmore⟩ := stringify_append_inj value value' (List.cons.inj hvalues).2
      (ends_stringifyFields as x) (ends_stringifyFields bs y)
    obtain ⟨rfl, hxy⟩ := stringifyFields_append_inj as bs hmore
    exact ⟨rfl, hxy⟩

end

/-- Different values have different texts. -/
theorem stringify_inj {a b : Json} (h : stringify a = stringify b) : a = b := by
  have happend : stringify a ++ [] = stringify b ++ [] := by rw [h]
  exact (stringify_append_inj a b happend ends_nil ends_nil).1

/-! ### Key order -/

/-- Entries in the order of their keys. -/
def sortByKey {α : Type} (fields : List (Text × α)) : List (Text × α) :=
  fields.insertionSort fun f g => utf16 f.1 ≤ utf16 g.1

theorem mem_sortByKey {α : Type} {field : Text × α} {fields : List (Text × α)} :
    field ∈ sortByKey fields ↔ field ∈ fields :=
  List.mem_insertionSort _

theorem sortByKey_map {α β : Type} (f : α → β) (fields : List (Text × α)) :
    sortByKey (fields.map fun field => (field.1, f field.2)) =
      (sortByKey fields).map fun field => (field.1, f field.2) := by
  refine (List.map_insertionSort _ _ _ _ ?_).symm
  intro a _ b _
  exact Iff.rfl

mutual

/-- The value with the keys of its objects in order: values that differ in that order alone have
    the same. -/
def sortKeys : Json → Json
  | .arr items => .arr (sortKeysItems items)
  | .obj fields => .obj (sortByKey (sortKeysFields fields))
  | .null => .null
  | .bool b => .bool b
  | .num n => .num n
  | .str s => .str s

def sortKeysItems : List Json → List Json
  | [] => []
  | item :: items => sortKeys item :: sortKeysItems items

def sortKeysFields : List (Text × Json) → List (Text × Json)
  | [] => []
  | (key, value) :: fields => (key, sortKeys value) :: sortKeysFields fields

end

/-- `sortKeys` goes into the items, -/
theorem sortKeysItems_eq_map (items : List Json) : sortKeysItems items = items.map sortKeys := by
  induction items with
  | nil => rfl
  | cons item items ih => rw [sortKeysItems, ih, List.map_cons]

/-- and into the fields. -/
theorem sortKeysFields_eq_map (fields : List (Text × Json)) :
    sortKeysFields fields = fields.map fun field => (field.1, sortKeys field.2) := by
  induction fields with
  | nil => rfl
  | cons field fields ih => rw [sortKeysFields, ih, List.map_cons]

/-- Objects that are the same up to order have the same values under each key. -/
theorem exists_field_of_sortKeys_eq {fields others : List (Text × Json)}
    (h : sortKeys (.obj fields) = sortKeys (.obj others)) {key : Text} {value : Json} (hmem : (key, value) ∈ fields) :
    ∃ other, (key, other) ∈ others ∧ sortKeys value = sortKeys other := by
  simp only [sortKeys, Json.obj.injEq] at h
  have hsorted : (key, sortKeys value) ∈ sortByKey (sortKeysFields others) := by
    rw [← h, mem_sortByKey, sortKeysFields_eq_map]
    exact List.mem_map_of_mem hmem
  rw [mem_sortByKey, sortKeysFields_eq_map] at hsorted
  obtain ⟨⟨key', other⟩, hother, heq⟩ := List.mem_map.mp hsorted
  obtain ⟨rfl, hvalue⟩ := Prod.mk.inj heq
  exact ⟨other, hother, hvalue.symm⟩

theorem intercalate_cons_flatMap (c : Char) (part : Text) (parts : List Text) :
    [c].intercalate (part :: parts) = part ++ parts.flatMap (c :: ·) := by
  induction parts generalizing part with
  | nil => simp
  | cons next parts ih => rw [List.intercalate_cons_cons, ih, List.flatMap_cons]; simp

theorem stringify_arr (items : List Json) :
    stringify (.arr items) = '[' :: [','].intercalate (items.map stringify) ++ [']'] := by
  have hitems : ∀ items, stringifyItems items = (items.map stringify).flatMap (',' :: ·) ++ [']'] := by
    intro items
    induction items with
    | nil => rfl
    | cons item items ih => simp [stringifyItems, ih]
  cases items with
  | nil => rfl
  | cons item items => simp [stringify, hitems, intercalate_cons_flatMap]

theorem stringify_obj (fields : List (Text × Json)) :
    stringify (.obj fields) =
      '\x7b' :: [','].intercalate (fields.map fun field => jsonString field.1 ++ ':' :: stringify field.2) ++
        ['\x7d'] := by
  have hfields : ∀ fields, stringifyFields fields =
      (fields.map fun field => jsonString field.1 ++ ':' :: stringify field.2).flatMap (',' :: ·) ++ ['\x7d'] := by
    intro fields
    induction fields with
    | nil => rfl
    | cons field fields ih => simp [stringifyFields, ih]
  cases fields with
  | nil => rfl
  | cons field fields => simp [stringify, hfields, intercalate_cons_flatMap]

end jslib
