import Narwhal.Lib.DecodeLines
import Narwhal.Lib.JsonDict
import Narwhal.Lib.JsonScan

namespace pylib

/-! `json.loads` of octets, whose encoding is read off their beginning. Lone surrogates are passed on. -/

/-- The numbers that some octets at a time stand for; `none` where octets are left over. -/
def codeUnits (big : Bool) (width : Nat) (bytes : Bytes) : Option (List Nat) :=
  if width ∣ bytes.length then
    some ((bytes.toChunks width).map fun unit => Nat.ofDigits 256 ((if big then unit.reverse else unit).map UInt8.toNat))
  else none

/-- A high surrogate and the low one after it are one code point. -/
def joinSurrogates : List Nat → Str
  | high :: low :: rest =>
    if 0xD800 ≤ high ∧ high < 0xDC00 ∧ 0xDC00 ≤ low ∧ low < 0xE000 then
      (0x10000 + (high - 0xD800) * 1024 + (low - 0xDC00)) :: joinSurrogates rest
    else high :: joinSurrogates (low :: rest)
  | units => units

def utf16Decode (big : Bool) (bytes : Bytes) : Option Str := (codeUnits big 2 bytes).map joinSurrogates

def utf32Decode (big : Bool) (bytes : Bytes) : Option Str :=
  (codeUnits big 4 bytes).filter fun units => units.all (· < 0x110000)

/-- The first code point of a UTF-8 octet sequence, which may be a surrogate, and the octets after it. -/
def utf8PassPoint (bytes : Bytes) : Option (Nat × Bytes) :=
  match utf8DecodePoint bytes, bytes with
  | some decoded, _ => some decoded
  | none, a :: b :: c :: rest =>
    if a = 0xED ∧ 0xA0 ≤ b ∧ isTail b ∧ isTail c then
      some (0xD000 + (b.toNat - 0x80) * 64 + (c.toNat - 0x80), rest)
    else none
  | none, _ => none

def utf8PassFuel : Nat → Bytes → Option Str
  | _, [] => some []
  | 0, _ => none
  | fuel + 1, bytes =>
    match utf8PassPoint bytes with
    | none => none
    | some (n, rest) => (utf8PassFuel fuel rest).map (n :: ·)

def utf8Pass (bytes : Bytes) : Option Str := utf8PassFuel bytes.length bytes

/-- `b.decode(detect_encoding(b), "surrogatepass")` -/
def decodeDetected (b : Bytes) : Option Str :=
  if [0x00, 0x00, 0xFE, 0xFF].isPrefixOf b then utf32Decode true (b.drop 4)
  else if [0xFF, 0xFE, 0x00, 0x00].isPrefixOf b then utf32Decode false (b.drop 4)
  else if [0xFE, 0xFF].isPrefixOf b then utf16Decode true (b.drop 2)
  else if [0xFF, 0xFE].isPrefixOf b then utf16Decode false (b.drop 2)
  else if [0xEF, 0xBB, 0xBF].isPrefixOf b then utf8Pass (b.drop 3)
  else
    match b with
    | [b0, b1] => if b0 = 0 then utf16Decode true b else if b1 = 0 then utf16Decode false b else utf8Pass b
    | b0 :: b1 :: b2 :: b3 :: _ =>
      if b0 = 0 then if b1 = 0 then utf32Decode true b else utf16Decode true b
      else if b1 = 0 then if b2 = 0 ∧ b3 = 0 then utf32Decode false b else utf16Decode false b
      else utf8Pass b
    | _ => utf8Pass b

/-- How `json.loads` makes a dictionary of its own: the last value of a key stays. -/
def lastValues (pairs : List (Str × Json)) : Option (List (Str × Json)) := some (dictOf pairs)

/-- `json.loads(b)`; `none` is an exception. -/
def loadsBytes (b : Bytes) : Option Json := (decodeDetected b).bind (loads lastValues)

/-! ### ASCII -/

section

variable {text : Str}

theorem toNat_ascii {c : Nat} (h : c < 128) : (UInt8.ofNat c).toNat = c := by
  rw [UInt8.toNat_ofNat']
  exact Nat.mod_eq_of_lt (by omega)

theorem utf8Pass_ascii (h : ∀ c ∈ text, c < 128) : utf8Pass (asciiBytes text) = some text := by
  have hfuel : ∀ fuel, text.length ≤ fuel → utf8PassFuel fuel (asciiBytes text) = some text := by
    induction text with
    | nil => intro fuel _; cases fuel <;> rfl
    | cons c text ih =>
      intro fuel hfuel
      obtain ⟨hc, htext⟩ := List.forall_mem_cons.mp h
      obtain ⟨fuel, rfl⟩ := Nat.exists_eq_add_of_le' (Nat.lt_of_lt_of_le (Nat.succ_pos _) hfuel)
      have hpoint : utf8PassPoint (asciiBytes (c :: text)) = some (c, asciiBytes text) := by
        have hdecode : utf8DecodePoint (asciiBytes (c :: text)) = some (c, asciiBytes text) := by
          simp [asciiBytes, utf8DecodePoint, toNat_ascii hc, hc]
        unfold utf8PassPoint
        rw [hdecode]
      rw [utf8PassFuel, hpoint]
      · dsimp only
        rw [ih htext fuel (Nat.le_of_succ_le_succ hfuel)]
        rfl
      · exact fun hnil => List.cons_ne_nil _ _ hnil
  exact hfuel _ (by rw [asciiBytes, List.length_map])

theorem decodeDetected_ascii (h : ∀ c ∈ text, 0 < c ∧ c < 128) : decodeDetected (asciiBytes text) = some text := by
  have hpass := utf8Pass_ascii fun c hc => (h c hc).2
  have hoctet : ∀ b ∈ asciiBytes text, b ≠ 0 ∧ b < 128 := by
    intro b hb
    obtain ⟨c, hc, rfl⟩ := List.mem_map.mp hb
    obtain ⟨hpos, hlt⟩ := h c hc
    constructor
    · intro hzero
      have := congrArg UInt8.toNat hzero
      rw [toNat_ascii hlt] at this
      exact hpos.ne' this
    · rw [UInt8.lt_iff_toNat_lt, toNat_ascii hlt]
      exact hlt
  generalize asciiBytes text = bytes at hpass hoctet
  have hmark : ∀ {a : UInt8} {rest : Bytes}, a = 0 ∨ 128 ≤ a → (a :: rest).isPrefixOf bytes = false := by
    intro a rest ha
    rw [Bool.eq_false_iff]
    intro hprefix
    obtain ⟨suffix, rfl⟩ := List.isPrefixOf_iff_prefix.mp hprefix
    obtain ⟨hne, hlt⟩ := hoctet a List.mem_cons_self
    exact ha.elim hne fun hle => absurd hlt (UInt8.not_lt.mpr hle)
  unfold decodeDetected
  rw [hmark (.inl rfl), hmark (.inr (by decide)), hmark (.inr (by decide)), hmark (.inr (by decide)),
    hmark (.inr (by decide))]
  simp only [Bool.false_eq_true, if_false]
  split
  · simp only [List.forall_mem_cons] at hoctet
    rw [if_neg hoctet.1.1, if_neg hoctet.2.1.1, hpass]
  · simp only [List.forall_mem_cons] at hoctet
    rw [if_neg hoctet.1.1, if_neg hoctet.2.1.1, hpass]
  · exact hpass

theorem loadsBytes_ascii (h : ∀ c ∈ text, 0 < c ∧ c < 128) : loadsBytes (asciiBytes text) = loads lastValues text := by
  rw [loadsBytes, decodeDetected_ascii h, Option.bind_some]

end

end pylib
