import Narwhal.Lib.JsonIndent

namespace pylib

/-- A `\uXXXX` escape. -/
def unicodeEscape (n : Nat) : Str :=
  [92, 117, hexDigit (n / 4096), hexDigit (n / 256 % 16), hexDigit (n / 16 % 16), hexDigit (n % 16)]

/-- The JSON spelling of one character of a string, with `ensure_ascii=True`. -/
def escapeAscii (c : Nat) : Str :=
  if c = 34 then [92, 34]
  else if c = 92 then [92, 92]
  else if c = 8 then [92, 98]
  else if c = 12 then [92, 102]
  else if c = 10 then [92, 110]
  else if c = 13 then [92, 114]
  else if c = 9 then [92, 116]
  else if 32 ≤ c ∧ c < 127 then [c]
  else if c < 0x10000 then unicodeEscape c
  else unicodeEscape (0xD800 + (c - 0x10000) / 1024) ++ unicodeEscape (0xDC00 + (c - 0x10000) % 1024)

def quoteAscii (s : Str) : Str := 34 :: (s.flatMap escapeAscii ++ [34])

/-- A code point that is not a high surrogate: an escaped high surrogate would join the escape after it. -/
def Escapable (c : Nat) : Prop := c < 0x110000 ∧ ¬ (0xD800 ≤ c ∧ c ≤ 0xDBFF)

instance (c : Nat) : Decidable (Escapable c) := inferInstanceAs (Decidable (_ ∧ _))

theorem escapable_of_ascii {c : Nat} (h : c < 128) : Escapable c := by
  unfold Escapable
  omega

/-- Four digits are read back. -/
theorem hex4_hexDigit {n : Nat} (h : n < 0x10000) :
    hex4 (hexDigit (n / 4096)) (hexDigit (n / 256 % 16)) (hexDigit (n / 16 % 16)) (hexDigit (n % 16)) = some n := by
  simp only [hex4, hexVal_hexDigit (by omega : n / 4096 < 16), hexVal_hexDigit (by omega : n / 256 % 16 < 16),
    hexVal_hexDigit (by omega : n / 16 % 16 < 16), hexVal_hexDigit (by omega : n % 16 < 16)]
  apply congrArg some
  omega

/-- An escape is scanned as the unit it stands for, joined to a pending surrogate. -/
theorem scanStringFrom_unicodeEscape {n : Nat} (h : n < 0x10000) (pending : Option Nat) (rest : Str) :
    scanStringFrom pending (unicodeEscape n ++ rest) =
      (scanStringFrom (joinEscape pending n).2 rest).map fun (s, r) => ((joinEscape pending n).1 ++ s, r) := by
  simp only [unicodeEscape, List.cons_append, List.nil_append]
  rw [scanStringFrom.eq_def]
  simp [hex4_hexDigit h]

private theorem scan_letter {e c : Nat} (he : e ≠ 117) (h : unescape e = some c) (rest : Str) :
    scanString ([92, e] ++ rest) = (scanString rest).map fun (s, r) => (c :: s, r) := by
  simp only [scanString, List.cons_append, List.nil_append]
  rw [scanStringFrom.eq_def]
  simp [he, h]

private theorem scan_unit {c : Nat} (h : Escapable c) (hc : c < 0x10000) (rest : Str) :
    scanString (unicodeEscape c ++ rest) = (scanString rest).map fun (s, r) => (c :: s, r) := by
  have hjoin : joinEscape none c = ([c], none) := if_neg h.2
  rw [scanString, scanStringFrom_unicodeEscape hc, hjoin]
  rfl

/-- The two units of a code point outside the basic plane are read as that code point. -/
private theorem scan_pair {c : Nat} (h : c < 0x110000) (hc : ¬ c < 0x10000) (rest : Str) :
    scanString (unicodeEscape (0xD800 + (c - 0x10000) / 1024) ++ unicodeEscape (0xDC00 + (c - 0x10000) % 1024) ++ rest) =
      (scanString rest).map fun (s, r) => (c :: s, r) := by
  have hhigh : joinEscape none (0xD800 + (c - 0x10000) / 1024) = ([], some (0xD800 + (c - 0x10000) / 1024)) := by
    apply if_pos
    omega
  have hlow : joinEscape (some (0xD800 + (c - 0x10000) / 1024)) (0xDC00 + (c - 0x10000) % 1024) = ([c], none) := by
    have hrange : 0xDC00 ≤ 0xDC00 + (c - 0x10000) % 1024 ∧ 0xDC00 + (c - 0x10000) % 1024 ≤ 0xDFFF := by omega
    have hvalue : 0x10000 + (0xD800 + (c - 0x10000) / 1024 - 0xD800) * 1024 +
        (0xDC00 + (c - 0x10000) % 1024 - 0xDC00) = c := by omega
    simp only [joinEscape, if_pos hrange, hvalue]
  rw [scanString, List.append_assoc, scanStringFrom_unicodeEscape (by omega), hhigh,
    scanStringFrom_unicodeEscape (by omega), hlow]
  rw [Option.map_map]
  rfl

/-- An escaped character is scanned as itself, -/
theorem scanString_escapeAscii {c : Nat} (h : Escapable c) (rest : Str) :
    scanString (escapeAscii c ++ rest) = (scanString rest).map fun (s, r) => (c :: s, r) := by
  unfold escapeAscii
  split
  · next h => subst h; exact scan_letter (by decide) (by decide) rest
  split
  · next h => subst h; exact scan_letter (by decide) (by decide) rest
  split
  · next h => subst h; exact scan_letter (by decide) (by decide) rest
  split
  · next h => subst h; exact scan_letter (by decide) (by decide) rest
  split
  · next h => subst h; exact scan_letter (by decide) (by decide) rest
  split
  · next h => subst h; exact scan_letter (by decide) (by decide) rest
  split
  · next h => subst h; exact scan_letter (by decide) (by decide) rest
  split
  · have hplain : ¬ c = 34 ∧ ¬ c = 92 ∧ ¬ c < 32 := by omega
    rw [scanString, List.singleton_append, scanStringFrom.eq_def]
    simp [hplain, scanString]
  split
  · next hc => exact scan_unit h hc rest
  · next hc => exact scan_pair h.1 hc rest

/-- and so is a quoted string. -/
theorem scanString_quoteAscii {s : Str} (h : ∀ c ∈ s, Escapable c) (rest : Str) :
    scanString (s.flatMap escapeAscii ++ [34] ++ rest) = some (s, rest) := by
  rw [List.append_assoc]
  induction s with
  | nil =>
    rw [scanString, List.flatMap_nil, List.nil_append, List.singleton_append, scanStringFrom.eq_def]
    simp
  | cons c s ih =>
    rw [List.flatMap_cons, List.append_assoc, scanString_escapeAscii (h c List.mem_cons_self),
      ih fun d hd => h d (List.mem_cons_of_mem c hd)]
    rfl

/-- The layout of `json.dumps(obj, indent=2)` with `ensure_ascii`. -/
theorem indentAscii_sound : (indent2 quoteAscii).Sound fun s => ∀ c ∈ s, Escapable c :=
  indent2_sound fun s hs => ⟨s.flatMap escapeAscii ++ [34], rfl, scanString_quoteAscii hs⟩

/-! ### The printed text is ASCII -/

/-- A printable ASCII character. -/
def Printable (c : Nat) : Prop := 32 ≤ c ∧ c < 127

instance (c : Nat) : Decidable (Printable c) := inferInstanceAs (Decidable (_ ∧ _))

private theorem printable_unicodeEscape {n c : Nat} (hn : n < 0x10000) (h : c ∈ unicodeEscape n) : Printable c := by
  have hhex : ∀ m, m < 16 → Printable (hexDigit m) := by decide
  simp only [unicodeEscape, List.mem_cons, List.not_mem_nil, or_false] at h
  rcases h with rfl | rfl | rfl | rfl | rfl | rfl
  · decide
  · decide
  all_goals exact hhex _ (by omega)

private theorem printable_letter {e d : Nat} (he : Printable e) (h : d ∈ [92, e]) : Printable d := by
  rcases List.mem_cons.mp h with rfl | h
  · decide
  · exact List.mem_singleton.mp h ▸ he

private theorem printable_escapeAscii {c d : Nat} (hc : Escapable c) (h : d ∈ escapeAscii c) : Printable d := by
  unfold escapeAscii at h
  unfold Escapable at hc
  split at h
  · exact printable_letter (by decide) h
  split at h
  · exact printable_letter (by decide) h
  split at h
  · exact printable_letter (by decide) h
  split at h
  · exact printable_letter (by decide) h
  split at h
  · exact printable_letter (by decide) h
  split at h
  · exact printable_letter (by decide) h
  split at h
  · exact printable_letter (by decide) h
  split at h
  · next hplain => exact List.mem_singleton.mp h ▸ hplain
  split at h
  · next hunit => exact printable_unicodeEscape hunit h
  · cases List.mem_append.mp h with
    | inl hhigh => exact printable_unicodeEscape (by omega) hhigh
    | inr hlow => exact printable_unicodeEscape (by omega) hlow

/-- A quoted string is printable. -/
theorem printable_quoteAscii {s : Str} (hs : ∀ c ∈ s, Escapable c) {d : Nat} (h : d ∈ quoteAscii s) : Printable d := by
  simp only [quoteAscii, List.mem_cons, List.mem_append, List.mem_flatMap, List.not_mem_nil, or_false] at h
  rcases h with rfl | ⟨c, hc, hd⟩ | rfl
  · decide
  · exact printable_escapeAscii (hs c hc) hd
  · decide

private theorem printable_intRepr {n : Int} {c : Nat} (h : c ∈ intRepr n) : Printable c := by
  have hdigit : ∀ m, c ∈ natRepr m → Printable c := by
    intro m hm
    have := isDigit_of_mem_natRepr hm
    simp only [isDigit, Bool.and_eq_true, decide_eq_true_eq] at this
    unfold Printable
    omega
  cases n with
  | ofNat m => exact hdigit m h
  | negSucc m =>
    rcases List.mem_cons.mp h with rfl | h
    · decide
    · exact hdigit _ h

/-- The characters a layout prints the strings with `p` and its line breaks with. -/
structure Layout.Within (l : Layout) (p : Str → Prop) (allowed : Nat → Prop) : Prop where
  newline : ∀ depth, ∀ c ∈ l.newline depth, allowed c
  gap : ∀ c ∈ l.gap, allowed c
  quoted : ∀ s, p s → ∀ c ∈ l.quoted s, allowed c
  printable : ∀ c, Printable c → allowed c

section Within

variable {l : Layout} {hook : List (Str × Json) → Option (List (Str × Json))} {p : Str → Prop} {allowed : Nat → Prop}

mutual

theorem Layout.Within.printed (hl : l.Within p allowed) : ∀ {j : Json}, j.Readable hook p →
    ∀ {depth c : Nat}, c ∈ printed l depth j → allowed c
  | .null, _, _, c, h => hl.printable c ((show ∀ c ∈ lit "null", Printable c by decide) c h)
  | .bool true, _, _, c, h => hl.printable c ((show ∀ c ∈ lit "true", Printable c by decide) c h)
  | .bool false, _, _, c, h => hl.printable c ((show ∀ c ∈ lit "false", Printable c by decide) c h)
  | .int _, _, _, c, h => hl.printable c (printable_intRepr h)
  | .float _, hr, _, _, _ => hr.elim
  | .str s, hr, _, c, h => hl.quoted s hr c h
  | .arr [], _, _, c, h => hl.printable c ((show ∀ c ∈ [91, 93], Printable c by decide) c h)
  | .arr (x :: xs), hr, depth, c, h => by
    simp only [pylib.printed, List.mem_cons, List.mem_append] at h
    rcases h with rfl | h | h | h
    · exact hl.printable _ (by decide)
    · exact hl.newline _ c h
    · exact Layout.Within.printed hl hr.1 h
    · exact Layout.Within.printedItems hl hr.2 h
  | .obj [], _, _, c, h => hl.printable c ((show ∀ c ∈ [123, 125], Printable c by decide) c h)
  | .obj ((k, v) :: rest), hr, depth, c, h => by
    simp only [pylib.printed, List.mem_cons, List.mem_append] at h
    rcases h with rfl | h | h | rfl | h | h | h
    · exact hl.printable _ (by decide)
    · exact hl.newline _ c h
    · exact hl.quoted k hr.2.1 c h
    · exact hl.printable _ (by decide)
    · exact hl.gap c h
    · exact Layout.Within.printed hl hr.2.2.1 h
    · exact Layout.Within.printedFields hl hr.2.2.2 h

theorem Layout.Within.printedItems (hl : l.Within p allowed) : ∀ {xs : List Json}, Json.ReadableItems hook p xs →
    ∀ {depth c : Nat}, c ∈ printedItems l depth xs → allowed c
  | [], _, depth, c, h => by
    simp only [pylib.printedItems, List.mem_append, List.mem_singleton] at h
    rcases h with h | rfl
    · exact hl.newline _ c h
    · exact hl.printable _ (by decide)
  | x :: xs, hr, depth, c, h => by
    simp only [pylib.printedItems, List.mem_cons, List.mem_append] at h
    rcases h with rfl | h | h | h
    · exact hl.printable _ (by decide)
    · exact hl.newline _ c h
    · exact Layout.Within.printed hl hr.1 h
    · exact Layout.Within.printedItems hl hr.2 h

theorem Layout.Within.printedFields (hl : l.Within p allowed) : ∀ {kvs : List (Str × Json)},
    Json.ReadableFields hook p kvs → ∀ {depth c : Nat}, c ∈ printedFields l depth kvs → allowed c
  | [], _, depth, c, h => by
    simp only [pylib.printedFields, List.mem_append, List.mem_singleton] at h
    rcases h with h | rfl
    · exact hl.newline _ c h
    · exact hl.printable _ (by decide)
  | (k, v) :: rest, hr, depth, c, h => by
    simp only [pylib.printedFields, List.mem_cons, List.mem_append] at h
    rcases h with rfl | h | h | rfl | h | h | h
    · exact hl.printable _ (by decide)
    · exact hl.newline _ c h
    · exact hl.quoted k hr.1 c h
    · exact hl.printable _ (by decide)
    · exact hl.gap c h
    · exact Layout.Within.printed hl hr.2.1 h
    · exact Layout.Within.printedFields hl hr.2.2 h

end

end Within

theorem indentAscii_within :
    (indent2 quoteAscii).Within (fun s => ∀ c ∈ s, Escapable c) fun c => c = 10 ∨ Printable c where
  newline depth c hc := by
    rcases List.mem_cons.mp hc with rfl | hc
    · exact .inl rfl
    · rw [List.eq_of_mem_replicate hc]
      exact .inr (by decide)
  gap c hc := by
    rw [List.mem_singleton.mp hc]
    exact .inr (by decide)
  quoted _ hs _ hc := .inr (printable_quoteAscii hs hc)
  printable _ hc := .inr hc

end pylib
