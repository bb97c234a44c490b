import Narwhal.Lib.Text

namespace pylib

/-- The lowercase hexadecimal digit of a value below 16. -/
def hexDigit (n : Nat) : Nat := if n < 10 then 48 + n else 87 + n

/-- The value of a hexadecimal digit of either case. -/
def hexVal (c : Nat) : Option Nat :=
  if 48 ≤ c ∧ c < 58 then some (c - 48)
  else if 97 ≤ c ∧ c < 103 then some (c - 87)
  else if 65 ≤ c ∧ c < 71 then some (c - 55)
  else none

/-- A character of `"0123456789abcdef"`. -/
def isLowerHex (c : Nat) : Bool := (48 ≤ c && c < 58) || (97 ≤ c && c < 103)

/-- `bytes.hex()`. -/
def toHex : Bytes → Str
  | [] => []
  | b :: rest => hexDigit (b.toNat / 16) :: hexDigit (b.toNat % 16) :: toHex rest

/-- The ASCII whitespace that `bytes.fromhex` skips between octets. -/
def isAsciiSpace (c : Nat) : Bool := c == 32 || (9 ≤ c && c < 14)

/-- `bytes.fromhex`; `none` is `ValueError`. -/
def fromHex : Str → Option Bytes
  | [] => some []
  | a :: rest =>
    if isAsciiSpace a then fromHex rest
    else match rest with
      | [] => none
      | b :: rest =>
        match hexVal a, hexVal b, fromHex rest with
        | some high, some low, some bytes => some (UInt8.ofNat (high * 16 + low) :: bytes)
        | _, _, _ => none

theorem hexVal_hexDigit {n : Nat} (h : n < 16) : hexVal (hexDigit n) = some n := by
  revert n
  decide

theorem isLowerHex_hexDigit {n : Nat} (h : n < 16) : isLowerHex (hexDigit n) = true := by
  revert n
  decide

theorem isAsciiSpace_hexDigit {n : Nat} (h : n < 16) : isAsciiSpace (hexDigit n) = false := by
  revert n
  decide

theorem length_toHex (bytes : Bytes) : (toHex bytes).length = 2 * bytes.length := by
  induction bytes with
  | nil => rfl
  | cons b rest ih =>
    simp only [toHex, List.length_cons, ih]
    omega

theorem isLowerHex_of_mem_toHex {bytes : Bytes} {c : Nat} (h : c ∈ toHex bytes) : isLowerHex c = true := by
  induction bytes with
  | nil => cases h
  | cons b rest ih =>
    have hb := b.toNat_lt
    simp only [toHex, List.mem_cons] at h
    rcases h with rfl | rfl | h
    · exact isLowerHex_hexDigit (by omega)
    · exact isLowerHex_hexDigit (by omega)
    · exact ih h

/-- `bytes.fromhex(b.hex()) == b`. -/
theorem fromHex_toHex (bytes : Bytes) : fromHex (toHex bytes) = some bytes := by
  induction bytes with
  | nil => rfl
  | cons b rest ih =>
    have hb := b.toNat_lt
    have hhigh : b.toNat / 16 < 16 := by omega
    have hlow : b.toNat % 16 < 16 := by omega
    have hval : b.toNat / 16 * 16 + b.toNat % 16 = b.toNat := by omega
    simp [toHex, fromHex, isAsciiSpace_hexDigit hhigh, hexVal_hexDigit hhigh, hexVal_hexDigit hlow, ih, hval]

end pylib
