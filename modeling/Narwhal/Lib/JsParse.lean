import Narwhal.Lib.JsJson
import Narwhal.Lib.JsMap

namespace jslib

/-! `JSON.parse`. -/

def isJsonSpace (c : Char) : Bool := c == ' ' || c == '\t' || c == '\n' || c == '\r'

def skipJsonSpace (s : Text) : Text := s.dropWhile isJsonSpace

/-! ### Strings -/

def hexOf (c : Char) : Option Nat :=
  if isDigit c then some (c.toNat - 48)
  else if 'a' ≤ c ∧ c ≤ 'f' then some (c.toNat - 87)
  else if 'A' ≤ c ∧ c ≤ 'F' then some (c.toNat - 55)
  else none

/-- The code unit of four hexadecimal digits. -/
def unitOf (a b c d : Char) : Option Nat :=
  match hexOf a, hexOf b, hexOf c, hexOf d with
  | some a, some b, some c, some d => some (4096 * a + 256 * b + 16 * c + d)
  | _, _, _, _ => none

/-- The character of an escape of two characters. -/
def escapedChar (c : Char) : Option Char :=
  if c = '"' ∨ c = '\\' ∨ c = '/' then some c
  else if c = 'b' then some '\x08'
  else if c = 'f' then some '\x0c'
  else if c = 'n' then some '\n'
  else if c = 'r' then some '\r'
  else if c = 't' then some '\t'
  else none

/-- Half of a pair that stays alone becomes the replacement character. -/
def loneHalf (pending : Option Nat) : Text := if pending.isSome then [Char.ofNat 0xFFFD] else []

/-- One more code unit, where the first half of a pair may be pending. -/
def addUnit (pending : Option Nat) (unit : Nat) : Text × Option Nat :=
  if 0xD800 ≤ unit ∧ unit < 0xDC00 then (loneHalf pending, some unit)
  else if 0xDC00 ≤ unit ∧ unit < 0xE000 then
    match pending with
    | some high => ([Char.ofNat (0x10000 + 0x400 * (high - 0xD800) + (unit - 0xDC00))], none)
    | none => ([Char.ofNat 0xFFFD], none)
  else (loneHalf pending ++ [Char.ofNat unit], none)

/-- The rest of a string, and what follows its closing quote. -/
def readString : Option Nat → Text → Option (Text × Text)
  | pending, '"' :: rest => some (loneHalf pending, rest)
  | pending, '\\' :: 'u' :: a :: b :: c :: d :: rest =>
    match unitOf a b c d with
    | none => none
    | some unit =>
      (readString (addUnit pending unit).2 rest).map fun (s, r) => ((addUnit pending unit).1 ++ s, r)
  | pending, '\\' :: e :: rest =>
    match escapedChar e with
    | none => none
    | some c => (readString none rest).map fun (s, r) => (loneHalf pending ++ c :: s, r)
  | pending, c :: rest =>
    if c = '\\' ∨ c.toNat < 32 then none
    else (readString none rest).map fun (s, r) => (loneHalf pending ++ c :: s, r)
  | _, [] => none

/-! ### Values -/

def isNumeralChar (c : Char) : Bool := isNumberChar c || c == 'E'

/-- The entries of an object, in the order of the text; of a key that is given twice, the last value
    counts. -/
def objectOf (fields : List (Text × Json)) : List (Text × Json) :=
  fields.foldl (fun entries field => setEntry field.1 field.2 entries) []

section

-- `numeral` reads a number, if the characters are one
variable (numeral : Text → Option Number)

def readWord (s : Text) : Option (Json × Text) :=
  if ['n', 'u', 'l', 'l'].isPrefixOf s then some (.null, s.drop 4)
  else if ['t', 'r', 'u', 'e'].isPrefixOf s then some (.bool true, s.drop 4)
  else if ['f', 'a', 'l', 's', 'e'].isPrefixOf s then some (.bool false, s.drop 5)
  else if s.takeWhile isNumeralChar = [] then none
  else (numeral (s.takeWhile isNumeralChar)).map fun n => (.num n, s.dropWhile isNumeralChar)

mutual

/-- A value at the start of a text, and what follows it. -/
def readValue : Nat → Text → Option (Json × Text)
  | 0, _ => none
  | _ + 1, [] => none
  | fuel + 1, c :: rest =>
    if c = '"' then (readString none rest).map fun (s, r) => (.str s, r)
    else if c = '[' then
      match skipJsonSpace rest with
      | ']' :: r => some (.arr [], r)
      | s => (readItems fuel s).map fun (items, r) => (.arr items, r)
    else if c = '\x7b' then
      match skipJsonSpace rest with
      | '\x7d' :: r => some (.obj [], r)
      | s => (readFields fuel s).map fun (fields, r) => (.obj (objectOf fields), r)
    else readWord numeral (c :: rest)

def readItems : Nat → Text → Option (List Json × Text)
  | 0, _ => none
  | fuel + 1, s =>
    match readValue fuel s with
    | none => none
    | some (item, rest) =>
      match skipJsonSpace rest with
      | ']' :: r => some ([item], r)
      | ',' :: r => (readItems fuel (skipJsonSpace r)).map fun (items, r) => (item :: items, r)
      | _ => none

def readFields : Nat → Text → Option (List (Text × Json) × Text)
  | fuel + 1, '"' :: s =>
    match readString none s with
    | none => none
    | some (key, rest) =>
      match skipJsonSpace rest with
      | ':' :: r =>
        match readValue fuel (skipJsonSpace r) with
        | none => none
        | some (value, rest) =>
          match skipJsonSpace rest with
          | '\x7d' :: r => some ([(key, value)], r)
          | ',' :: r => (readFields fuel (skipJsonSpace r)).map fun (fields, r) => ((key, value) :: fields, r)
          | _ => none
      | _ => none
  | _, _ => none

end

/-- `JSON.parse(s)`; `none` is a `SyntaxError`. -/
def parseJson (s : Text) : Option Json :=
  match readValue numeral (2 * s.length + 1) (skipJsonSpace s) with
  | some (v, rest) => if skipJsonSpace rest = [] then some v else none
  | none => none

end

/-! ### Reading back -/

theorem readString_jsonChar (c : Char) (rest : Text) :
    readString none (jsonChar c ++ rest) = (readString none rest).map fun (s, r) => (c :: s, r) := by
  have hunit : ∀ n < 32, unitOf '0' '0' (Nat.digitChar (n / 16)) (Nat.digitChar (n % 16)) = some n := by decide
  unfold jsonChar
  split_ifs with h1 h2 h3 h4 h5 h6 h7 h8
  · rw [h1]
    rfl
  · rw [h2]
    rfl
  · rw [h3]
    rfl
  · rw [h4]
    rfl
  · rw [h5]
    rfl
  · rw [h6]
    rfl
  · rw [h7]
    rfl
  · have hlow : ¬ (0xD800 ≤ c.toNat ∧ c.toNat < 0xDC00) := by omega
    have hhigh : ¬ (0xDC00 ≤ c.toNat ∧ c.toNat < 0xE000) := by omega
    simp only [List.cons_append, List.nil_append, readString, hunit c.toNat h8, addUnit, if_neg hlow, if_neg hhigh,
      loneHalf, Option.isSome_none, Char.ofNat_toNat]
    rfl
  · rw [List.singleton_append, readString, if_neg]
    · rfl
    · simp [h2, h8]
    all_goals simp_all

theorem readString_jsonString (s rest : Text) : readString none (s.flatMap jsonChar ++ '"' :: rest) = some (s, rest) := by
  induction s with
  | nil => rfl
  | cons c s ih =>
    rw [List.flatMap_cons, List.append_assoc, readString_jsonChar, ih]
    rfl

/-- A numeral ends before this text. -/
def EndsNumeral (x : Text) : Prop := ∀ c, x.head? = some c → isNumeralChar c = false

theorem endsNumeral_nil : EndsNumeral [] := by
  intro c h
  cases h

theorem endsNumeral_cons {c : Char} {x : Text} (h : isNumeralChar c = false) : EndsNumeral (c :: x) := by
  intro d hd
  rw [← Option.some.inj hd]
  exact h

theorem skipJsonSpace_stringify (v : Json) (x : Text) : skipJsonSpace (stringify v ++ x) = stringify v ++ x := by
  have hhead := head_stringify v x
  cases htext : stringify v ++ x with
  | nil => rfl
  | cons c rest =>
    rw [htext] at hhead
    have hspace : isJsonSpace c = false := by
      by_contra hspace
      have htag : tagOf c = 7 := by
        simp only [isJsonSpace, Bool.not_eq_false, Bool.or_eq_true, beq_iff_eq] at hspace
        rcases hspace with ((rfl | rfl) | rfl) | rfl
        all_goals rfl
      have hvalue : some 7 = some v.tag := by
        rw [← hhead, List.head?_cons, Option.map_some, htag]
      cases v with
      | bool b => cases b <;> cases hvalue
      | _ => cases hvalue
    rw [skipJsonSpace, List.dropWhile_cons_of_neg (by simp [hspace])]

theorem skipJsonSpace_cons {c : Char} (h : isJsonSpace c = false) (s : Text) : skipJsonSpace (c :: s) = c :: s := by
  rw [skipJsonSpace, List.dropWhile_cons_of_neg (by simp [h])]

theorem objectOf_of_nodup {fields : List (Text × Json)} (h : (fields.map Prod.fst).Nodup) : objectOf fields = fields := by
  have hfold : ∀ (fields entries : List (Text × Json)), ((entries ++ fields).map Prod.fst).Nodup →
      fields.foldl (fun entries field => setEntry field.1 field.2 entries) entries = entries ++ fields := by
    intro fields
    induction fields with
    | nil => simp
    | cons field fields ih =>
      intro entries hnodup
      have hnew : field.1 ∉ entries.map Prod.fst := by
        rw [List.map_append, List.map_cons] at hnodup
        exact fun hmem => (List.nodup_append.mp hnodup).2.2 _ hmem _ List.mem_cons_self rfl
      rw [List.foldl_cons, setEntry_of_not_mem hnew, ih]
      · simp
      · simpa using hnodup
  exact hfold fields [] h

section

variable {numeral : Text → Option Number}

mutual

/-- A value of JavaScript: its numbers are read from their texts, and no object has a key twice. -/
def Json.Proper (numeral : Text → Option Number) : Json → Prop
  | .num n => numeral n.text = some n
  | .arr items => ProperItems numeral items
  | .obj fields => (fields.map Prod.fst).Nodup ∧ ProperFields numeral fields
  | _ => True

def ProperItems (numeral : Text → Option Number) : List Json → Prop
  | [] => True
  | item :: items => item.Proper numeral ∧ ProperItems numeral items

def ProperFields (numeral : Text → Option Number) : List (Text × Json) → Prop
  | [] => True
  | (_, value) :: fields => value.Proper numeral ∧ ProperFields numeral fields

end

theorem readWord_number {n : Number} (h : numeral n.text = some n) {x : Text} (hx : EndsNumeral x) :
    readWord numeral (n.text ++ x) = some (.num n, x) := by
  have hall : ∀ c ∈ n.text, isNumeralChar c = true := fun c hc => by simp [isNumeralChar, n.chars c hc]
  have htake : (n.text ++ x).takeWhile isNumeralChar = n.text := by
    rw [List.takeWhile_append_of_pos hall]
    cases x with
    | nil => simp
    | cons c x => simp [hx c rfl]
  have hdrop : (n.text ++ x).dropWhile isNumeralChar = x := by
    rw [List.dropWhile_append_of_pos hall]
    cases x with
    | nil => rfl
    | cons c x => rw [List.dropWhile_cons_of_neg (by simp [hx c rfl])]
  have hword : ∀ c word, isNumberChar c = false → (c :: word).isPrefixOf (n.text ++ x) = false := by
    intro c word hc
    obtain ⟨text, hne, hchars⟩ := n
    cases text with
    | nil => exact absurd rfl hne
    | cons d text =>
      have hcd : c ≠ d := by
        rintro rfl
        rw [hchars c List.mem_cons_self] at hc
        cases hc
      simp [List.isPrefixOf, hcd]
  simp only [readWord, hword 'n' _ rfl, hword 't' _ rfl, hword 'f' _ rfl, htake, hdrop, h, if_neg n.ne_nil,
    Bool.false_eq_true, if_false, Option.map_some]

mutual

/-- What is written is read back. -/
theorem readValue_stringify (v : Json) (hv : v.Proper numeral) {x : Text} (hx : EndsNumeral x) {k : Nat}
    (hfuel : (stringify v).length < k) : readValue numeral k (stringify v ++ x) = some (v, x) := by
  obtain ⟨fuel, rfl⟩ := Nat.exists_eq_add_one_of_ne_zero (Nat.ne_zero_of_lt hfuel)
  cases v with
  | null => rfl
  | bool b => cases b <;> rfl
  | num n =>
    obtain ⟨c, text, htext⟩ := List.exists_cons_of_ne_nil n.ne_nil
    have hc : isNumberChar c = true := n.chars c (htext ▸ List.mem_cons_self)
    have hquote : c ≠ '"' := by
      rintro rfl
      cases hc
    have hbracket : c ≠ '[' := by
      rintro rfl
      cases hc
    have hbrace : c ≠ '\x7b' := by
      rintro rfl
      cases hc
    have hword := readWord_number hv hx
    rw [htext, List.cons_append] at hword
    rw [stringify, htext, List.cons_append, readValue, if_neg hquote, if_neg hbracket, if_neg hbrace, hword]
  | str s =>
    have hread := readString_jsonString s x
    simp [stringify, jsonString, readValue, hread]
  | arr items =>
    cases items with
    | nil => rfl
    | cons item items =>
      have hshort : (stringify item ++ stringifyItems items).length < fuel := by simpa [stringify] using hfuel
      have htext : stringify (.arr (item :: items)) ++ x = '[' :: (stringify item ++ (stringifyItems items ++ x)) := by
        simp [stringify]
      rw [htext, readValue, if_neg (by decide), if_pos rfl, skipJsonSpace_stringify]
      split
      · next r hclose => exact absurd hclose.symm (stringify_ne_close item _ _)
      · rw [readItems_stringify (item :: items) hv hshort]
        rfl
  | obj fields =>
    match fields, hv with
    | [], _ => rfl
    | (key, value) :: fields, hv =>
      have hshort : (jsonString key ++ ':' :: (stringify value ++ stringifyFields fields)).length < fuel := by
        simpa [stringify] using hfuel
      have htext : stringify (.obj ((key, value) :: fields)) ++ x =
          '\x7b' :: (jsonString key ++ ':' :: (stringify value ++ (stringifyFields fields ++ x))) := by
        simp [stringify]
      have hread := readFields_stringify ((key, value) :: fields) hv.2 (x := x) hshort
      rw [htext, readValue, if_neg (by decide), if_neg (by decide), if_pos rfl]
      change (readFields numeral fuel (jsonString key ++ ':' :: (stringify value ++ (stringifyFields fields ++ x)))).map _ = _
      rw [hread]
      dsimp only [Option.map_some]
      rw [objectOf_of_nodup hv.1]

theorem readItems_stringify (items : List Json) (hitems : ProperItems numeral items) {x : Text} {k : Nat} :
    match items with
    | [] => True
    | item :: items => (stringify item ++ stringifyItems items).length < k →
      readItems numeral k (stringify item ++ (stringifyItems items ++ x)) = some (item :: items, x) := by
  cases items with
  | nil => trivial
  | cons item items =>
    intro hfuel
    obtain ⟨fuel, rfl⟩ := Nat.exists_eq_add_one_of_ne_zero (Nat.ne_zero_of_lt hfuel)
    rw [List.length_append] at hfuel
    cases items with
    | nil =>
      have hclose : EndsNumeral (stringifyItems [] ++ x) := endsNumeral_cons rfl
      have hitem := readValue_stringify item hitems.1 hclose (k := fuel) (by simp [stringifyItems] at hfuel; omega)
      rw [readItems, hitem]
      rfl
    | cons next items =>
      have hcomma : EndsNumeral (stringifyItems (next :: items) ++ x) := endsNumeral_cons rfl
      have hlength : (stringify item).length + (1 + (stringify next ++ stringifyItems items).length) < fuel + 1 := by
        simpa [stringifyItems, Nat.add_comm, Nat.add_assoc, Nat.add_left_comm] using hfuel
      have hitem := readValue_stringify item hitems.1 hcomma (k := fuel) (by omega)
      have hmore := readItems_stringify (next :: items) hitems.2 (x := x) (k := fuel) (by omega)
      have htext : stringifyItems (next :: items) ++ x = ',' :: (stringify next ++ (stringifyItems items ++ x)) := by
        simp [stringifyItems]
      rw [readItems, hitem]
      dsimp only
      rw [htext, skipJsonSpace_cons rfl]
      change (readItems numeral fuel (skipJsonSpace (stringify next ++ (stringifyItems items ++ x)))).map _ = _
      rw [skipJsonSpace_stringify, hmore]
      rfl

theorem readFields_stringify (fields : List (Text × Json)) (hfields : ProperFields numeral fields) {x : Text} {k : Nat} :
    match fields with
    | [] => True
    | (key, value) :: fields => (jsonString key ++ ':' :: (stringify value ++ stringifyFields fields)).length < k →
      readFields numeral k (jsonString key ++ ':' :: (stringify value ++ (stringifyFields fields ++ x))) =
        some ((key, value) :: fields, x) := by
  match fields, hfields with
  | [], _ => trivial
  | (key, value) :: fields, hfields =>
    intro hfuel
    obtain ⟨fuel, rfl⟩ := Nat.exists_eq_add_one_of_ne_zero (Nat.ne_zero_of_lt hfuel)
    have hkey : readString none (key.flatMap jsonChar ++ '"' :: ':' :: (stringify value ++ (stringifyFields fields ++ x))) =
        some (key, ':' :: (stringify value ++ (stringifyFields fields ++ x))) := readString_jsonString key _
    have htext : jsonString key ++ ':' :: (stringify value ++ (stringifyFields fields ++ x)) =
        '"' :: (key.flatMap jsonChar ++ '"' :: ':' :: (stringify value ++ (stringifyFields fields ++ x))) := by
      simp [jsonString]
    have hlength : (stringify value).length + (stringifyFields fields).length < fuel := by
      simp [jsonString] at hfuel
      omega
    rw [htext, readFields, hkey]
    change (match readValue numeral fuel (skipJsonSpace (stringify value ++ (stringifyFields fields ++ x))) with
      | none => none
      | some (value, rest) => _) = _
    rw [skipJsonSpace_stringify]
    match fields, hfields with
    | [], hfields =>
      have hclose : EndsNumeral (stringifyFields [] ++ x) := endsNumeral_cons rfl
      rw [readValue_stringify value hfields.1 hclose (k := fuel) (by omega)]
      rfl
    | (key', value') :: fields, hfields =>
      have hcomma : EndsNumeral (stringifyFields ((key', value') :: fields) ++ x) := endsNumeral_cons rfl
      have hmore := readFields_stringify ((key', value') :: fields) hfields.2 (x := x) (k := fuel)
        (by simp [stringifyFields] at hlength ⊢; omega)
      have hrest : stringifyFields ((key', value') :: fields) ++ x =
          ',' :: (jsonString key' ++ ':' :: (stringify value' ++ (stringifyFields fields ++ x))) := by
        simp [stringifyFields]
      rw [readValue_stringify value hfields.1 hcomma (k := fuel) (by omega), hrest]
      change (readFields numeral fuel (jsonString key' ++ ':' :: (stringify value' ++ (stringifyFields fields ++ x)))).map _ = _
      rw [hmore]
      rfl

end

/-- `JSON.parse` inverts `JSON.stringify`. -/
theorem parseJson_stringify {v : Json} (hv : v.Proper numeral) : parseJson numeral (stringify v) = some v := by
  have hskip : skipJsonSpace (stringify v) = stringify v := by simpa using skipJsonSpace_stringify v []
  have hread := readValue_stringify v hv endsNumeral_nil (k := 2 * (stringify v).length + 1) (by omega)
  rw [List.append_nil] at hread
  rw [parseJson, hskip, hread]
  rfl

/-! ### No string is written as itself -/

theorem loneHalf_length (pending : Option Nat) : (loneHalf pending).length = pending.toList.length := by
  cases pending <;> rfl

theorem addUnit_length (pending : Option Nat) (unit : Nat) :
    (addUnit pending unit).1.length + (addUnit pending unit).2.toList.length ≤ pending.toList.length + 1 := by
  unfold addUnit
  split_ifs
  · simp [loneHalf_length]
  · cases pending <;> simp
  · simp [loneHalf_length]

/-- A string is shorter than what it is read from. -/
theorem readString_length {pending : Option Nat} {s t r : Text} (h : readString pending s = some (t, r)) :
    t.length + r.length + 1 ≤ s.length + pending.toList.length := by
  fun_induction readString pending s generalizing t r with
  | case1 pending rest =>
    cases h
    simp [loneHalf_length]
    omega
  | case2 => cases h
  | case3 pending a b c d rest unit hunit ih =>
    obtain ⟨⟨t', r'⟩, hrest, hpair⟩ := Option.map_eq_some_iff.mp h
    cases hpair
    have hadd := addUnit_length pending unit
    have hshort := ih hrest
    simp only [List.length_append, List.length_cons] at hshort ⊢
    omega
  | case4 => cases h
  | case5 pending e rest _ c hc ih =>
    obtain ⟨⟨t', r'⟩, hrest, hpair⟩ := Option.map_eq_some_iff.mp h
    cases hpair
    have hshort := ih hrest
    simp only [List.length_append, List.length_cons, loneHalf_length, Option.toList_none, List.length_nil] at hshort ⊢
    omega
  | case6 => cases h
  | case7 pending c rest _ _ _ _ ih =>
    obtain ⟨⟨t', r'⟩, hrest, hpair⟩ := Option.map_eq_some_iff.mp h
    cases hpair
    have hshort := ih hrest
    simp only [List.length_append, List.length_cons, loneHalf_length, Option.toList_none, List.length_nil] at hshort ⊢
    omega
  | case8 => cases h

theorem readWord_ne_str {s t r : Text} : readWord numeral s ≠ some (.str t, r) := by
  unfold readWord
  split_ifs
  · simp
  · simp
  · simp
  · simp
  · simp

theorem readValue_str {fuel : Nat} {s t r : Text} (h : readValue numeral fuel s = some (.str t, r)) :
    t.length < s.length := by
  cases fuel with
  | zero => cases h
  | succ fuel =>
    cases s with
    | nil => cases h
    | cons c rest =>
      rw [readValue] at h
      split_ifs at h
      · obtain ⟨⟨t', r'⟩, hrest, hpair⟩ := Option.map_eq_some_iff.mp h
        cases hpair
        have hlength := readString_length hrest
        simp only [Option.toList_none, List.length_nil, List.length_cons] at hlength ⊢
        omega
      · split at h
        · cases h
        · obtain ⟨_, -, hpair⟩ := Option.map_eq_some_iff.mp h
          cases hpair
      · split at h
        · cases h
        · obtain ⟨_, -, hpair⟩ := Option.map_eq_some_iff.mp h
          cases hpair
      · exact absurd h readWord_ne_str

theorem skipJsonSpace_length (s : Text) : (skipJsonSpace s).length ≤ s.length := (List.dropWhile_sublist _).length_le

theorem readWord_rest {s : Text} {v : Json} {r : Text} (h : readWord numeral s = some (v, r)) : r.length < s.length := by
  have hword : ∀ (word : Text) (w : Json), word ≠ [] → word.isPrefixOf s = true →
      some (w, s.drop word.length) = some (v, r) → r.length < s.length := by
    intro word w hne hpre heq
    cases heq
    have hle := (List.isPrefixOf_iff_prefix.mp hpre).length_le
    have hpos := List.length_pos_of_ne_nil hne
    rw [List.length_drop]
    omega
  unfold readWord at h
  split_ifs at h with h1 h2 h3 h4
  · exact hword _ _ (List.cons_ne_nil _ _) h1 h
  · exact hword _ _ (List.cons_ne_nil _ _) h2 h
  · exact hword _ _ (List.cons_ne_nil _ _) h3 h
  · obtain ⟨n, -, hpair⟩ := Option.map_eq_some_iff.mp h
    cases hpair
    have hsplit := congrArg List.length (List.takeWhile_append_dropWhile (p := isNumeralChar) (l := s))
    have hpos := List.length_pos_of_ne_nil h4
    rw [List.length_append] at hsplit
    omega

mutual

/-- Every reader takes at least a character. -/
theorem readValue_rest {k : Nat} {s : Text} {v : Json} {r : Text} (h : readValue numeral k s = some (v, r)) :
    r.length < s.length := by
  cases k with
  | zero => cases h
  | succ k =>
    cases s with
    | nil => cases h
    | cons c rest =>
      have hskip := skipJsonSpace_length rest
      rw [readValue] at h
      split_ifs at h
      · obtain ⟨⟨t, r'⟩, hrest, hpair⟩ := Option.map_eq_some_iff.mp h
        cases hpair
        have hlength := readString_length hrest
        simp only [Option.toList_none, List.length_nil, List.length_cons] at hlength ⊢
        omega
      · split at h
        · next r' hclose =>
          cases h
          rw [hclose, List.length_cons] at hskip
          rw [List.length_cons]
          omega
        · obtain ⟨⟨items, r'⟩, hitems, hpair⟩ := Option.map_eq_some_iff.mp h
          cases hpair
          have hshort := readItems_rest hitems
          rw [List.length_cons]
          omega
      · split at h
        · next r' hclose =>
          cases h
          rw [hclose, List.length_cons] at hskip
          rw [List.length_cons]
          omega
        · obtain ⟨⟨fields, r'⟩, hfields, hpair⟩ := Option.map_eq_some_iff.mp h
          cases hpair
          have hshort := readFields_rest hfields
          rw [List.length_cons]
          omega
      · exact readWord_rest h

theorem readItems_rest {k : Nat} {s : Text} {items : List Json} {r : Text}
    (h : readItems numeral k s = some (items, r)) : r.length < s.length := by
  cases k with
  | zero => cases h
  | succ k =>
    rw [readItems] at h
    split at h
    · cases h
    · next item rest hitem =>
      have hshort := readValue_rest hitem
      have hskip := skipJsonSpace_length rest
      split at h
      · next r' hclose =>
        cases h
        rw [hclose, List.length_cons] at hskip
        omega
      · next r' hcomma =>
        obtain ⟨⟨items, r''⟩, hitems, hpair⟩ := Option.map_eq_some_iff.mp h
        cases hpair
        have hmore := readItems_rest hitems
        have hskip' := skipJsonSpace_length r'
        rw [hcomma, List.length_cons] at hskip
        omega
      · cases h

theorem readFields_rest {k : Nat} {s : Text} {fields : List (Text × Json)} {r : Text}
    (h : readFields numeral k s = some (fields, r)) : r.length < s.length := by
  unfold readFields at h
  split at h
  · next fuel s =>
    split at h
    · cases h
    · next key rest hkey =>
      have hlength := readString_length hkey
      have hskip := skipJsonSpace_length rest
      simp only [Option.toList_none, List.length_nil] at hlength
      rw [List.length_cons]
      split at h
      · next r1 hcolon =>
        have hskip1 := skipJsonSpace_length r1
        rw [hcolon, List.length_cons] at hskip
        split at h
        · cases h
        · next value rest2 hvalue =>
          have hshort := readValue_rest hvalue
          have hskip2 := skipJsonSpace_length rest2
          split at h
          · next r2 hclose =>
            cases h
            rw [hclose, List.length_cons] at hskip2
            omega
          · next r2 hcomma =>
            obtain ⟨⟨fields, r''⟩, hfields, hpair⟩ := Option.map_eq_some_iff.mp h
            cases hpair
            have hmore := readFields_rest hfields
            have hskip3 := skipJsonSpace_length r2
            rw [hcomma, List.length_cons] at hskip2
            omega
          · cases h
      · cases h
  · cases h

end

mutual

/-- Once the bound exceeds twice the length of the text, it no longer matters. -/
theorem readValue_succ {k : Nat} {s : Text} (h : 2 * s.length < k) :
    readValue numeral (k + 1) s = readValue numeral k s := by
  obtain ⟨fuel, rfl⟩ := Nat.exists_eq_add_one_of_ne_zero (Nat.ne_zero_of_lt h)
  cases s with
  | nil => rfl
  | cons c rest =>
    have hskip := skipJsonSpace_length rest
    rw [List.length_cons] at h
    have hitems := readItems_succ (k := fuel) (s := skipJsonSpace rest) (by omega)
    have hfields := readFields_succ (k := fuel) (s := skipJsonSpace rest) (by omega)
    rw [readValue, readValue]
    split_ifs
    · rfl
    · split
      · rfl
      · rw [hitems]
    · split
      · rfl
      · rw [hfields]
    · rfl

theorem readItems_succ {k : Nat} {s : Text} (h : 2 * s.length + 1 < k) :
    readItems numeral (k + 1) s = readItems numeral k s := by
  obtain ⟨fuel, rfl⟩ := Nat.exists_eq_add_one_of_ne_zero (Nat.ne_zero_of_lt h)
  rw [readItems, readItems, readValue_succ (by omega)]
  split
  · rfl
  · next item rest hitem =>
    have hshort := readValue_rest hitem
    have hskip := skipJsonSpace_length rest
    split
    · rfl
    · next r hcomma =>
      have hskip' := skipJsonSpace_length r
      rw [hcomma, List.length_cons] at hskip
      rw [readItems_succ (by omega)]
    · rfl

theorem readFields_succ {k : Nat} {s : Text} (h : 2 * s.length + 1 < k) :
    readFields numeral (k + 1) s = readFields numeral k s := by
  obtain ⟨fuel, rfl⟩ := Nat.exists_eq_add_one_of_ne_zero (Nat.ne_zero_of_lt h)
  unfold readFields
  split
  · next n s heq =>
    cases heq
    rw [List.length_cons] at h
    dsimp only
    split
    · rfl
    · next key rest hkey =>
      have hlength := readString_length hkey
      have hskip := skipJsonSpace_length rest
      simp only [Option.toList_none, List.length_nil] at hlength
      split
      · next r hcolon =>
        have hskip' := skipJsonSpace_length r
        rw [hcolon, List.length_cons] at hskip
        rw [readValue_succ (by omega)]
        split
        · rfl
        · next value rest' hvalue =>
          have hshort := readValue_rest hvalue
          have hskip'' := skipJsonSpace_length rest'
          split
          · rfl
          · next r' hcomma =>
            have hskip3 := skipJsonSpace_length r'
            rw [hcomma, List.length_cons] at hskip''
            rw [readFields_succ (by omega)]
          · rfl
      · rfl
  · next hnone =>
    split
    · next n s heq => exact (hnone (fuel + 1) s rfl rfl).elim
    · rfl

end

/-- The bound of `parseJson` is never reached. -/
theorem parseJson_eq {s : Text} {k : Nat} (h : 2 * s.length < k) :
    parseJson numeral s =
      match readValue numeral k (skipJsonSpace s) with
      | some (v, rest) => if skipJsonSpace rest = [] then some v else none
      | none => none := by
  have hskip := skipJsonSpace_length s
  have hread : readValue numeral k (skipJsonSpace s) = readValue numeral (2 * s.length + 1) (skipJsonSpace s) := by
    induction k, Nat.succ_le_of_lt h using Nat.le_induction with
    | base => rfl
    | succ k hk ih =>
      have hlarge : 2 * s.length < k := hk
      rw [readValue_succ (by omega), ih hlarge]
  rw [parseJson, hread]

/-- No text is the JSON of itself. -/
theorem parseJson_ne_self (s : Text) : parseJson numeral s ≠ some (.str s) := by
  intro h
  rw [parseJson] at h
  split at h
  · next v rest hread =>
    split_ifs at h
    cases h
    have hskip : (skipJsonSpace s).length ≤ s.length := (List.dropWhile_sublist _).length_le
    have hshort := readValue_str hread
    omega
  · cases h

end

end jslib
