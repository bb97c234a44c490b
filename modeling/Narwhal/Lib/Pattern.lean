import Mathlib.Data.Finset.Max
import Narwhal.Lib.JsText
import Narwhal.Lib.Regex

open jslib

namespace pattern

/-! Patterns of the regular expressions of Go, as far as they have no anchors, flags, counts and named
    classes. -/

/-! ### Classes of characters -/

/-- The code points of some ranges, or all others. -/
structure ClassItem where
  negated : Bool
  ranges : List (Nat × Nat)
deriving DecidableEq

structure CharClass where
  negated : Bool
  items : List ClassItem
deriving DecidableEq

def ClassItem.has (item : ClassItem) (n : Nat) : Bool := item.negated != item.ranges.any fun range => range.1 ≤ n && n ≤ range.2

def CharClass.has (k : CharClass) (c : Char) : Bool := k.negated != k.items.any fun item => item.has c.toNat

def CharClass.ranges (k : CharClass) : List (Nat × Nat) := k.items.flatMap ClassItem.ranges

/-- The first character from a code point on. -/
def charFrom (n : Nat) : Option Char :=
  if n < 0xD800 then some (Char.ofNat n)
  else if n < 0xE000 then some (Char.ofNat 0xE000)
  else if n < 0x110000 then some (Char.ofNat n)
  else none

/-- Where a range begins, and where it has ended. -/
def bounds (r : Regex CharClass) : List Nat :=
  (r.classes.flatMap CharClass.ranges).flatMap fun range => [range.1, range.2 + 1]

/-- A character for each stretch of characters that the classes of an expression do not tell apart. -/
def letters (r : Regex CharClass) : List Char := Char.ofNat 0 :: (bounds r).filterMap charFrom

theorem toNat_ofNat {n : Nat} (h : n.isValidChar) : (Char.ofNat n).toNat = n := by
  rw [Char.ofNat, dif_pos h]
  rfl

theorem charFrom_of_le {n : Nat} {c : Char} (h : n ≤ c.toNat) :
    ∃ d, charFrom n = some d ∧ n ≤ d.toNat ∧ d.toNat ≤ c.toNat := by
  have hvalid : c.toNat < 0xD800 ∨ 0xDFFF < c.toNat ∧ c.toNat < 0x110000 := c.valid
  unfold charFrom
  split_ifs with h1 h2 h3
  · refine ⟨_, rfl, ?_⟩
    rw [toNat_ofNat (.inl h1)]
    exact ⟨Nat.le_refl n, h⟩
  · refine ⟨_, rfl, ?_⟩
    rw [toNat_ofNat (by decide)]
    omega
  · refine ⟨_, rfl, ?_⟩
    rw [toNat_ofNat (.inr ⟨by omega, h3⟩)]
    exact ⟨Nat.le_refl n, h⟩
  · omega

theorem ClassItem.has_congr {item : ClassItem} {m n : Nat}
    (h : ∀ range ∈ item.ranges, (range.1 ≤ m ↔ range.1 ≤ n) ∧ (range.2 + 1 ≤ m ↔ range.2 + 1 ≤ n)) :
    item.has m = item.has n := by
  have hany : (item.ranges.any fun range => range.1 ≤ m && m ≤ range.2) =
      item.ranges.any fun range => range.1 ≤ n && n ≤ range.2 := by
    rw [Bool.eq_iff_iff, List.any_eq_true, List.any_eq_true]
    refine exists_congr fun range => and_congr_right fun hrange => ?_
    obtain ⟨hlow, hhigh⟩ := h range hrange
    simp only [Bool.and_eq_true, decide_eq_true_eq]
    omega
  rw [ClassItem.has, ClassItem.has, hany]

theorem CharClass.has_congr {k : CharClass} {c d : Char}
    (h : ∀ range ∈ k.ranges, (range.1 ≤ c.toNat ↔ range.1 ≤ d.toNat) ∧ (range.2 + 1 ≤ c.toNat ↔ range.2 + 1 ≤ d.toNat)) :
    k.has c = k.has d := by
  have hany : (k.items.any fun item => item.has c.toNat) = k.items.any fun item => item.has d.toNat := by
    rw [Bool.eq_iff_iff, List.any_eq_true, List.any_eq_true]
    refine exists_congr fun item => and_congr_right fun hitem => ?_
    rw [ClassItem.has_congr fun range hrange => h range (List.mem_flatMap.mpr ⟨item, hitem, hrange⟩)]
  rw [CharClass.has, CharClass.has, hany]

/-- For every character there is a letter that the classes do not tell from it. -/
theorem letters_stand (r : Regex CharClass) (c : Char) : ∃ b ∈ letters r, ∀ k ∈ r.classes, k.has c = k.has b := by
  have hzero : (Char.ofNat 0) ∈ (letters r).toFinset.filter fun b => b.toNat ≤ c.toNat := by
    simp [letters]
  -- the last letter up to the character
  obtain ⟨b, hb, hmax⟩ := Finset.exists_max_image _ Char.toNat ⟨_, hzero⟩
  obtain ⟨hmem, hle⟩ := Finset.mem_filter.mp hb
  have hbound : ∀ n ∈ bounds r, n ≤ c.toNat ↔ n ≤ b.toNat := by
    intro n hn
    constructor
    · intro h
      obtain ⟨d, hd, hnd, hdc⟩ := charFrom_of_le h
      have hletter : d ∈ letters r := List.mem_cons_of_mem _ (List.mem_filterMap.mpr ⟨n, hn, hd⟩)
      exact hnd.trans (hmax d (Finset.mem_filter.mpr ⟨List.mem_toFinset.mpr hletter, hdc⟩))
    · exact fun h => h.trans hle
  refine ⟨b, List.mem_toFinset.mp hmem, fun k hk => CharClass.has_congr fun range hrange => ?_⟩
  have hranges : range ∈ r.classes.flatMap CharClass.ranges := List.mem_flatMap.mpr ⟨k, hk, hrange⟩
  exact ⟨hbound _ (List.mem_flatMap.mpr ⟨range, hranges, List.mem_cons_self⟩),
    hbound _ (List.mem_flatMap.mpr ⟨range, hranges, List.mem_cons_of_mem _ List.mem_cons_self⟩)⟩

/-- Whether an expression matches every text. -/
def coversAll (r : Regex CharClass) : Bool := r.matchesAll CharClass.has (letters r)

theorem coversAll_iff {r : Regex CharClass} : coversAll r = true ↔ ∀ s, s ∈ r.lang CharClass.has :=
  Regex.matchesAll_iff (letters_stand r)

/-! ### Reading a pattern -/

def charItem (c : Char) : ClassItem := ⟨false, [(c.toNat, c.toNat)]⟩

def charClass (c : Char) : CharClass := ⟨false, [charItem c]⟩

/-- What `.` stands for: any character but a newline. -/
def dotClass : CharClass := ⟨true, [charItem '\n']⟩

def digitRanges : List (Nat × Nat) := [(48, 57)]

def spaceRanges : List (Nat × Nat) := [(9, 10), (12, 13), (32, 32)]

def wordRanges : List (Nat × Nat) := [(48, 57), (65, 90), (95, 95), (97, 122)]

/-- A class or a character that is written with a backslash. -/
def escaped (e : Char) : Option (ClassItem ⊕ Char) :=
  if e = 'd' then some (.inl ⟨false, digitRanges⟩)
  else if e = 'D' then some (.inl ⟨true, digitRanges⟩)
  else if e = 's' then some (.inl ⟨false, spaceRanges⟩)
  else if e = 'S' then some (.inl ⟨true, spaceRanges⟩)
  else if e = 'w' then some (.inl ⟨false, wordRanges⟩)
  else if e = 'W' then some (.inl ⟨true, wordRanges⟩)
  else if e = 'n' then some (.inr '\n')
  else if e = 't' then some (.inr '\t')
  else if e = 'r' then some (.inr '\r')
  else if e.toNat < 128 ∧ e.isAlphanum = false then some (.inr e)
  else none

def readMember : Text → Option ((ClassItem ⊕ Char) × Text)
  | '\\' :: e :: rest => (escaped e).map fun member => (member, rest)
  | ['\\'] => none
  | c :: rest => some (.inr c, rest)
  | [] => none

/-- The members of a class up to its bracket; a bracket that comes first is a member. -/
def readMembers : Nat → Bool → Text → Option (List ClassItem × Text)
  | _ + 1, false, ']' :: rest => some ([], rest)
  | _ + 1, _, '[' :: ':' :: _ => none
  | fuel + 1, _, s =>
    match readMember s with
    | none => none
    | some (.inl item, rest) => (readMembers fuel false rest).map fun (items, r) => (item :: items, r)
    | some (.inr low, '-' :: rest) =>
      if rest.head? = some ']' then (readMembers fuel false ('-' :: rest)).map fun (items, r) => (charItem low :: items, r)
      else
        match readMember rest with
        | some (.inr high, rest) =>
          if low.toNat ≤ high.toNat then
            (readMembers fuel false rest).map fun (items, r) => (⟨false, [(low.toNat, high.toNat)]⟩ :: items, r)
          else none
        | _ => none
    | some (.inr c, rest) => (readMembers fuel false rest).map fun (items, r) => (charItem c :: items, r)
  | 0, _, _ => none

def readClass : Text → Option (CharClass × Text)
  | '^' :: rest => (readMembers (rest.length + 1) true rest).map fun (items, r) => (⟨true, items⟩, r)
  | rest => (readMembers (rest.length + 1) true rest).map fun (items, r) => (⟨false, items⟩, r)

def isRepetition (c : Char) : Bool := c == '*' || c == '+' || c == '?' || c == '\x7b'

/-- After a repetition: whether it takes few or many does not change what is matched, and there is no
    second one. -/
def endRepetition (r : Regex CharClass) (rest : Text) : Option (Regex CharClass × Text) :=
  let rest := if rest.head? = some '?' then rest.tail else rest
  if rest.head?.any isRepetition then none else some (r, rest)

def readRepetition (r : Regex CharClass) : Text → Option (Regex CharClass × Text)
  | '*' :: rest => endRepetition (.star r) rest
  | '+' :: rest => endRepetition (.seq r (.star r)) rest
  | '?' :: rest => endRepetition (.alt r .blank) rest
  | '\x7b' :: _ => none
  | rest => some (r, rest)

def isSpecial (c : Char) : Bool := ['*', '+', '?', '\x7b', '\x7d', '^', '$', ']', ')', '|'].contains c

mutual

def readChoice : Nat → Text → Option (Regex CharClass × Text)
  | 0, _ => none
  | fuel + 1, s =>
    match readSequence fuel s with
    | some (r, '|' :: rest) => (readChoice fuel rest).map fun (r', rest) => (.alt r r', rest)
    | read => read

def readSequence : Nat → Text → Option (Regex CharClass × Text)
  | 0, _ => none
  | _ + 1, [] => some (.blank, [])
  | fuel + 1, c :: rest =>
    if c = '|' ∨ c = ')' then some (.blank, c :: rest)
    else
      match readAtom fuel (c :: rest) with
      | none => none
      | some (r, rest) =>
        match readRepetition r rest with
        | none => none
        | some (r, rest) => (readSequence fuel rest).map fun (r', rest) => (.seq r r', rest)

def readAtom : Nat → Text → Option (Regex CharClass × Text)
  | 0, _ => none
  | _ + 1, [] => none
  | fuel + 1, c :: rest =>
    if c = '(' then
      match (if rest.take 2 = ['?', ':'] then readChoice fuel (rest.drop 2)
        else if rest.head? = some '?' then none else readChoice fuel rest) with
      | some (r, ')' :: rest) => some (r, rest)
      | _ => none
    else if c = '[' then (readClass rest).map fun (k, rest) => (.sym k, rest)
    else if c = '.' then some (.sym dotClass, rest)
    else if c = '\\' then
      match rest with
      | e :: rest =>
        (escaped e).map fun member =>
          match member with
          | .inl item => (.sym ⟨false, [item]⟩, rest)
          | .inr c => (.sym (charClass c), rest)
      | [] => none
    else if isSpecial c then none
    else some (.sym (charClass c), rest)

end

/-- The expression of a pattern, if the pattern is one of those that are read here. -/
def readPattern (s : Text) : Option (Regex CharClass) :=
  match readChoice (3 * s.length + 3) s with
  | some (r, []) => some r
  | _ => none

end pattern
