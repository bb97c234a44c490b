import Mathlib.Data.List.Basic
import Mathlib.Data.List.Lex
import Mathlib.Order.Lattice
import Mathlib.Tactic.Common

namespace pylib

/-- A Python `str`: its code points in order. As in Python a lone surrogate is
    a code point like any other; only encoding refuses it. -/
abbrev Str := List Nat

instance : LawfulBEq Str := List.instLawfulBEq

abbrev Bytes := List UInt8

/-- The `str` value of a literal. -/
def lit (s : String) : Str := s.toList.map Char.toNat

/-- The `bytes` value of an ASCII literal. -/
def blit (s : String) : Bytes := s.toList.map (fun c => UInt8.ofNat c.toNat)

private theorem map_toNat_inj : ∀ {xs ys : List Char}, xs.map Char.toNat = ys.map Char.toNat → xs = ys
  | [], [], _ => rfl
  | x :: xs, y :: ys, h => by
    simp only [List.map_cons, List.cons.injEq] at h
    have hx : x = y := by
      rw [← Char.ofNat_toNat x, ← Char.ofNat_toNat y, h.1]
    rw [hx, map_toNat_inj h.2]

@[simp] theorem lit_inj {a b : String} : lit a = lit b ↔ a = b := by
  constructor
  · intro h
    exact String.toList_inj.mp (map_toNat_inj h)
  · rintro rfl
    rfl

/-- The UTF-8 octets of one code point; surrogates and values past U+10FFFF have none. -/
def utf8EncodePoint (n : Nat) : Option Bytes :=
  if n < 0x80 then some [UInt8.ofNat n]
  else if n < 0x800 then some [UInt8.ofNat (0xC0 + n / 64), UInt8.ofNat (0x80 + n % 64)]
  else if n < 0xD800 ∨ (0xE000 ≤ n ∧ n < 0x10000) then
    some [UInt8.ofNat (0xE0 + n / 4096), UInt8.ofNat (0x80 + n / 64 % 64), UInt8.ofNat (0x80 + n % 64)]
  else if 0x10000 ≤ n ∧ n < 0x110000 then
    some [UInt8.ofNat (0xF0 + n / 262144), UInt8.ofNat (0x80 + n / 4096 % 64),
      UInt8.ofNat (0x80 + n / 64 % 64), UInt8.ofNat (0x80 + n % 64)]
  else none

/-- `str.encode("utf-8")`; `none` is `UnicodeEncodeError`. -/
def utf8Encode : Str → Option Bytes
  | [] => some []
  | n :: rest =>
    match utf8EncodePoint n, utf8Encode rest with
    | some here, some there => some (here ++ there)
    | _, _ => none

/-- A continuation octet. -/
def isTail (b : UInt8) : Bool := 0x80 ≤ b.toNat && b.toNat < 0xC0

/-- The first code point of a UTF-8 octet sequence and the octets after it.
    Overlong forms, encoded surrogates and values past U+10FFFF are refused. -/
def utf8DecodePoint : Bytes → Option (Nat × Bytes)
  | [] => none
  | a :: rest =>
    if a.toNat < 0x80 then some (a.toNat, rest)
    else match rest with
      | [] => none
      | b :: rest =>
        if !isTail b then none
        else if 0xC2 ≤ a.toNat ∧ a.toNat < 0xE0 then
          some ((a.toNat - 0xC0) * 64 + (b.toNat - 0x80), rest)
        else match rest with
          | [] => none
          | c :: rest =>
            if !isTail c then none
            else if 0xE0 ≤ a.toNat ∧ a.toNat < 0xF0 then
              let n := (a.toNat - 0xE0) * 4096 + (b.toNat - 0x80) * 64 + (c.toNat - 0x80)
              if 0x800 ≤ n ∧ (n < 0xD800 ∨ 0xE000 ≤ n) then some (n, rest) else none
            else match rest with
              | [] => none
              | d :: rest =>
                let n := (a.toNat - 0xF0) * 262144 + (b.toNat - 0x80) * 4096 + (c.toNat - 0x80) * 64 +
                  (d.toNat - 0x80)
                if isTail d ∧ 0xF0 ≤ a.toNat ∧ 0x10000 ≤ n ∧ n < 0x110000 then some (n, rest) else none

def utf8DecodeFuel : Nat → Bytes → Option Str
  | _, [] => some []
  | 0, _ => none
  | fuel + 1, bytes =>
    match utf8DecodePoint bytes with
    | none => none
    | some (n, rest) => (utf8DecodeFuel fuel rest).map (n :: ·)

/-- `bytes.decode("utf-8")`; `none` is `UnicodeDecodeError`. -/
def utf8Decode (bytes : Bytes) : Option Str := utf8DecodeFuel bytes.length bytes

private theorem toNat_octet {m : Nat} (h : m < 256) : (UInt8.ofNat m).toNat = m := by
  simpa using h

private theorem isTail_octet {m : Nat} (h : m < 64) : isTail (UInt8.ofNat (0x80 + m)) = true := by
  have hm : (0x80 + m) % 256 = 0x80 + m := by omega
  simp [isTail, hm]
  omega

theorem utf8DecodePoint_encode {n : Nat} {bytes : Bytes} (h : utf8EncodePoint n = some bytes)
    (rest : Bytes) : utf8DecodePoint (bytes ++ rest) = some (n, rest) := by
  unfold utf8EncodePoint at h
  split at h
  · obtain rfl := Option.some.inj h
    simp only [List.cons_append, List.nil_append, utf8DecodePoint, toNat_octet (show n < 256 by omega)]
    rw [if_pos (by omega)]
  split at h
  · obtain rfl := Option.some.inj h
    have hb : n % 64 < 64 := Nat.mod_lt _ (by decide)
    have hn : (0xC0 + n / 64 - 0xC0) * 64 + (0x80 + n % 64 - 0x80) = n := by omega
    simp only [List.cons_append, List.nil_append, utf8DecodePoint, isTail_octet hb,
      toNat_octet (show 0xC0 + n / 64 < 256 by omega), toNat_octet (show 0x80 + n % 64 < 256 by omega), hn]
    rw [if_neg (by omega), if_neg (by decide), if_pos (by omega)]
  split at h
  · obtain rfl := Option.some.inj h
    have hb : n / 64 % 64 < 64 := Nat.mod_lt _ (by decide)
    have hc : n % 64 < 64 := Nat.mod_lt _ (by decide)
    have hn : (0xE0 + n / 4096 - 0xE0) * 4096 + (0x80 + n / 64 % 64 - 0x80) * 64 + (0x80 + n % 64 - 0x80) = n := by
      omega
    simp only [List.cons_append, List.nil_append, utf8DecodePoint, isTail_octet hb, isTail_octet hc,
      toNat_octet (show 0xE0 + n / 4096 < 256 by omega), toNat_octet (show 0x80 + n / 64 % 64 < 256 by omega),
      toNat_octet (show 0x80 + n % 64 < 256 by omega), hn]
    rw [if_neg (by omega), if_neg (by decide), if_neg (by omega), if_neg (by decide), if_pos (by omega),
      if_pos (by omega)]
  split at h
  · obtain rfl := Option.some.inj h
    have hb : n / 4096 % 64 < 64 := Nat.mod_lt _ (by decide)
    have hc : n / 64 % 64 < 64 := Nat.mod_lt _ (by decide)
    have hd : n % 64 < 64 := Nat.mod_lt _ (by decide)
    have hn : (0xF0 + n / 262144 - 0xF0) * 262144 + (0x80 + n / 4096 % 64 - 0x80) * 4096 +
        (0x80 + n / 64 % 64 - 0x80) * 64 + (0x80 + n % 64 - 0x80) = n := by
      omega
    simp only [List.cons_append, List.nil_append, utf8DecodePoint, isTail_octet hb, isTail_octet hc,
      isTail_octet hd, toNat_octet (show 0xF0 + n / 262144 < 256 by omega),
      toNat_octet (show 0x80 + n / 4096 % 64 < 256 by omega),
      toNat_octet (show 0x80 + n / 64 % 64 < 256 by omega), toNat_octet (show 0x80 + n % 64 < 256 by omega), hn]
    rw [if_neg (by omega), if_neg (by decide), if_neg (by omega), if_neg (by decide), if_neg (by omega),
      if_pos (by simp; omega)]
  · cases h

/-- Every encoded code point takes at least one octet. -/
theorem utf8EncodePoint_ne_nil {n : Nat} {bytes : Bytes} (h : utf8EncodePoint n = some bytes) :
    bytes ≠ [] := by
  rintro rfl
  have := utf8DecodePoint_encode h []
  cases this

theorem utf8Encode_cons_eq_some {n : Nat} {rest : Str} {bytes : Bytes}
    (h : utf8Encode (n :: rest) = some bytes) :
    ∃ here there, utf8EncodePoint n = some here ∧ utf8Encode rest = some there ∧ bytes = here ++ there := by
  simp only [utf8Encode] at h
  split at h
  · next here there hhere hthere => exact ⟨here, there, hhere, hthere, (Option.some.inj h).symm⟩
  · cases h

private theorem utf8DecodeFuel_encode (text : Str) :
    ∀ {bytes : Bytes} {fuel : Nat}, utf8Encode text = some bytes → bytes.length ≤ fuel →
      utf8DecodeFuel fuel bytes = some text := by
  induction text with
  | nil =>
    intro bytes fuel h _
    obtain rfl := Option.some.inj h
    cases fuel <;> rfl
  | cons n rest ih =>
    intro bytes fuel h hfuel
    obtain ⟨here, there, hhere, hthere, rfl⟩ := utf8Encode_cons_eq_some h
    have hne := utf8EncodePoint_ne_nil hhere
    obtain ⟨b, tail, rfl⟩ := List.exists_cons_of_ne_nil hne
    cases fuel with
    | zero => simp at hfuel
    | succ fuel =>
      have hpoint := utf8DecodePoint_encode hhere there
      simp only [List.cons_append] at hpoint hfuel ⊢
      simp only [utf8DecodeFuel, hpoint]
      rw [ih hthere (by simp only [List.length_cons, List.length_append] at hfuel; omega)]
      rfl

/-- Decoding an encoded string gives it back. -/
theorem utf8Decode_encode {text : Str} {bytes : Bytes} (h : utf8Encode text = some bytes) :
    utf8Decode bytes = some text :=
  utf8DecodeFuel_encode text h le_rfl

private theorem eq_of_mem_utf8EncodePoint {n : Nat} {bytes : Bytes} (h : utf8EncodePoint n = some bytes)
    {b : UInt8} (hb : b ∈ bytes) (hascii : b.toNat < 0x80) : b.toNat = n := by
  unfold utf8EncodePoint at h
  split at h
  · obtain rfl := Option.some.inj h
    rw [List.mem_singleton.mp hb, toNat_octet (by omega)]
  -- Every octet of a longer form is at least 0x80.
  split at h
  · obtain rfl := Option.some.inj h
    simp only [List.mem_cons, List.not_mem_nil, or_false] at hb
    rcases hb with rfl | rfl <;> rw [toNat_octet (by omega)] at hascii <;> omega
  split at h
  · obtain rfl := Option.some.inj h
    simp only [List.mem_cons, List.not_mem_nil, or_false] at hb
    rcases hb with rfl | rfl | rfl <;> rw [toNat_octet (by omega)] at hascii <;> omega
  split at h
  · obtain rfl := Option.some.inj h
    simp only [List.mem_cons, List.not_mem_nil, or_false] at hb
    rcases hb with rfl | rfl | rfl | rfl <;> rw [toNat_octet (by omega)] at hascii <;> omega
  · cases h

/-- An ASCII octet occurs in an encoded string only as the code point of that value. -/
theorem mem_of_mem_utf8Encode {text : Str} {bytes : Bytes} (h : utf8Encode text = some bytes)
    {b : UInt8} (hb : b ∈ bytes) (hascii : b.toNat < 0x80) : b.toNat ∈ text := by
  induction text generalizing bytes with
  | nil =>
    obtain rfl := Option.some.inj h
    cases hb
  | cons n rest ih =>
    obtain ⟨here, there, hhere, hthere, rfl⟩ := utf8Encode_cons_eq_some h
    rcases List.mem_append.mp hb with hb | hb
    · simp [eq_of_mem_utf8EncodePoint hhere hb hascii]
    · exact List.mem_cons_of_mem n (ih hthere hb)

/-- A decoded code point is no surrogate. -/
theorem utf8DecodePoint_scalar {bytes rest : Bytes} {n : Nat} (h : utf8DecodePoint bytes = some (n, rest)) :
    n < 0x110000 ∧ ¬ (0xD800 ≤ n ∧ n < 0xE000) := by
  have htail : ∀ b : UInt8, (!isTail b) = false → 0x80 ≤ b.toNat ∧ b.toNat < 0xC0 := by
    intro b hb
    simpa [isTail] using hb
  unfold utf8DecodePoint at h
  split at h
  · cases h
  split at h
  · next hascii =>
    have hn := (Prod.mk.inj (Option.some.inj h)).1
    omega
  split at h
  · cases h
  split at h
  · cases h
  next hb =>
  have hb := htail _ (Bool.eq_false_iff.mpr hb)
  split at h
  · have hn := (Prod.mk.inj (Option.some.inj h)).1
    omega
  split at h
  · cases h
  split at h
  · cases h
  next hc =>
  have hc := htail _ (Bool.eq_false_iff.mpr hc)
  split at h
  · dsimp only at h
    split at h
    · have hn := (Prod.mk.inj (Option.some.inj h)).1
      omega
    · cases h
  split at h
  · cases h
  dsimp only at h
  split at h
  · have hn := (Prod.mk.inj (Option.some.inj h)).1
    omega
  · cases h

theorem scalar_of_mem_utf8Decode {bytes : Bytes} {text : Str} (h : utf8Decode bytes = some text) {c : Nat}
    (hc : c ∈ text) : c < 0x110000 ∧ ¬ (0xD800 ≤ c ∧ c < 0xE000) := by
  have hfuel : ∀ fuel (bytes : Bytes) (text : Str), utf8DecodeFuel fuel bytes = some text → c ∈ text →
      c < 0x110000 ∧ ¬ (0xD800 ≤ c ∧ c < 0xE000) := by
    intro fuel
    induction fuel with
    | zero =>
      intro bytes text h hc
      cases bytes with
      | nil =>
        cases h
        cases hc
      | cons b bytes => cases h
    | succ fuel ih =>
      intro bytes text h hc
      cases bytes with
      | nil =>
        cases h
        cases hc
      | cons b bytes =>
        rw [utf8DecodeFuel] at h
        · split at h
          · cases h
          · next n rest hpoint =>
            obtain ⟨tail, htail, rfl⟩ := Option.map_eq_some_iff.mp h
            cases List.mem_cons.mp hc with
            | inl hhead => exact hhead ▸ utf8DecodePoint_scalar hpoint
            | inr hmem => exact ih rest tail htail hmem
        · simp
  exact hfuel _ _ _ h hc

/-- ASCII text has as many octets as characters. -/
theorem utf8Encode_of_ascii {text : Str} (h : ∀ c ∈ text, c < 0x80) : utf8Encode text = some (text.map UInt8.ofNat) := by
  induction text with
  | nil => rfl
  | cons c text ih =>
    have hc : utf8EncodePoint c = some [UInt8.ofNat c] := if_pos (h c List.mem_cons_self)
    rw [utf8Encode, hc, ih fun d hd => h d (List.mem_cons_of_mem c hd)]
    rfl

end pylib
