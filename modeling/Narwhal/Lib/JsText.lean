import Mathlib.Algebra.Order.Ring.Nat
import Mathlib.Data.List.Sort
import Mathlib.Tactic.Common
import Narwhal.Lib.Sha256

namespace jslib

/-! Character classes and string methods of JavaScript. -/

/-- `\s`, which is also what `trim` strips: white space and line terminators. -/
def isSpace (c : Char) : Bool :=
  let n := c.toNat
  (9 ≤ n && n < 14) || n == 0x20 || n == 0xA0 || n == 0x1680 || (0x2000 ≤ n && n < 0x200B) || n == 0x2028 ||
    n == 0x2029 || n == 0x202F || n == 0x205F || n == 0x3000 || n == 0xFEFF

/-- `\d`. -/
def isDigit (c : Char) : Bool := '0' ≤ c && c ≤ '9'

/-- `[a-z]`. -/
def isLower (c : Char) : Bool := 'a' ≤ c && c ≤ 'z'

/-- `[A-Z]`. -/
def isUpper (c : Char) : Bool := 'A' ≤ c && c ≤ 'Z'

/-- A string as the list of its characters. -/
abbrev Text := List Char

instance : LawfulBEq Text := List.instLawfulBEq

def trimText (s : Text) : Text := ((s.dropWhile isSpace).reverse.dropWhile isSpace).reverse

/-- `s.trim()`. -/
def trim (s : String) : String := String.ofList (trimText s.toList)

/-- `s.includes(part)`. -/
def includes (s part : String) : Bool := s.toList.tails.any part.toList.isPrefixOf

/-- `s.length`, in UTF-16 code units. -/
def utf16Length (s : Text) : Nat := (s.map fun c => if c.toNat < 0x10000 then 1 else 2).sum

/-- `Buffer.byteLength(s, "utf8")`. -/
def utf8Length (s : Text) : Nat := (s.map Char.utf8Size).sum

/-- `parseInt(s, 10)`; `none` is `NaN`. -/
def parseInt (s : Text) : Option Int :=
  let s := s.dropWhile isSpace
  let digits := (if s.head? = some '-' ∨ s.head? = some '+' then s.drop 1 else s).takeWhile isDigit
  if digits = [] then none
  else
    let n : Nat := Nat.ofDigitChars 10 digits 0
    some (if s.head? = some '-' then -n else n)

/-- `s.split(",").map((s) => s.trim()).filter((s) => s.length > 0)` -/
def commaList (s : Text) : List Text := ((s.splitOn ',').map trimText).filter (· ≠ [])

/-- `/^[a-z0-9]([-a-z0-9]{0,61}[a-z0-9])?$/`, an RFC 1123 label. -/
def isLabel (s : String) : Bool :=
  let cs := s.toList
  let edge := fun c => isLower c || isDigit c
  0 < cs.length && cs.length ≤ 63 && cs.all (fun c => edge c || c == '-') && cs.head?.all edge && cs.getLast?.all edge

/-- Texts without a separator can be read back from what stands before it. -/
theorem append_cons_inj {c : Char} {x y s t : Text} (hx : c ∉ x) (hy : c ∉ y) (h : x ++ c :: s = y ++ c :: t) :
    x = y ∧ s = t := by
  induction x generalizing y with
  | nil =>
    cases y with
    | nil => simpa using h
    | cons d y =>
      simp only [List.nil_append, List.cons_append, List.cons.injEq] at h
      exact absurd (h.1 ▸ List.mem_cons_self) hy
  | cons d x ih =>
    cases y with
    | nil =>
      simp only [List.nil_append, List.cons_append, List.cons.injEq] at h
      exact absurd (h.1 ▸ List.mem_cons_self) hx
    | cons e y =>
      simp only [List.cons_append, List.cons.injEq] at h
      obtain ⟨rfl, h⟩ := h
      obtain ⟨rfl, rfl⟩ := ih (fun hmem => hx (List.mem_cons_of_mem d hmem)) (fun hmem => hy (List.mem_cons_of_mem d hmem)) h
      exact ⟨rfl, rfl⟩

/-! ### Decimal numbers -/

/-- A natural number in a template literal. -/
def natText (n : Nat) : Text := (toString n).toList

/-- An integer in a template literal. -/
def intText : Int → Text
  | .ofNat n => natText n
  | .negSucc n => '-' :: natText (n + 1)

theorem natText_eq_toDigits (n : Nat) : natText n = Nat.toDigits 10 n := by
  simp [natText]

theorem natText_ne_nil (n : Nat) : natText n ≠ [] := by
  rw [natText_eq_toDigits]
  exact Nat.toDigits_ne_nil

theorem isDigit_of_mem_natText {n : Nat} {c : Char} (h : c ∈ natText n) : isDigit c = true := by
  rw [natText_eq_toDigits] at h
  have hdigit := Nat.isDigit_of_mem_toDigits (by decide) (by decide) h
  simpa [Char.isDigit, isDigit, Char.le_def] using hdigit

/-- A number can be read back from its text. -/
theorem natText_inj {m n : Nat} (h : natText m = natText n) : m = n := by
  rw [natText_eq_toDigits, natText_eq_toDigits] at h
  have hread := congrArg (Nat.ofDigitChars 10 · 0) h
  simpa only [Nat.ofDigitChars_ten_toDigits] using hread

/-! ### Lines -/

/-- The complete lines of a text, and what follows the last line feed. -/
def splitLines : Text → List Text × Text
  | [] => ([], [])
  | c :: cs =>
    let (lines, rest) := splitLines cs
    if c = '\n' then ([] :: lines, rest)
    else
      match lines with
      | [] => ([], c :: rest)
      | line :: lines => ((c :: line) :: lines, rest)

theorem splitLines_of_not_mem {s : Text} (h : '\n' ∉ s) : splitLines s = ([], s) := by
  induction s with
  | nil => rfl
  | cons c cs ih =>
    simp only [List.mem_cons, not_or] at h
    simp [splitLines, ih h.2, Ne.symm h.1]

theorem splitLines_line {line : Text} (h : '\n' ∉ line) (rest : Text) :
    splitLines (line ++ '\n' :: rest) = (line :: (splitLines rest).1, (splitLines rest).2) := by
  induction line with
  | nil => simp [splitLines]
  | cons c cs ih =>
    simp only [List.mem_cons, not_or] at h
    simp [splitLines, ih h.2, Ne.symm h.1]

/-- Text that arrives later continues the unfinished line. -/
theorem splitLines_append (a b : Text) :
    splitLines (a ++ b) =
      ((splitLines a).1 ++ (splitLines ((splitLines a).2 ++ b)).1, (splitLines ((splitLines a).2 ++ b)).2) := by
  induction a with
  | nil => rfl
  | cons c cs ih =>
    by_cases hc : c = '\n'
    · simp [splitLines, hc, ih]
    · cases hlines : (splitLines cs).1 with
      | nil => simp [splitLines, hc, ih, hlines]
      | cons line lines => simp [splitLines, hc, ih, hlines]

theorem not_mem_splitLines_snd (s : Text) : '\n' ∉ (splitLines s).2 := by
  induction s with
  | nil => simp [splitLines]
  | cons c cs ih =>
    by_cases hc : c = '\n'
    · simpa [splitLines, hc] using ih
    · cases hlines : (splitLines cs).1 with
      | nil => simpa [splitLines, hc, hlines, Ne.symm hc] using ih
      | cons line lines => simpa [splitLines, hc, hlines] using ih

/-! ### Sorting and hashing -/

/-- The UTF-16 code units of a text. -/
def utf16 (s : Text) : List Nat :=
  s.flatMap fun c =>
    let n := c.toNat
    if n < 0x10000 then [n] else [0xD800 + (n - 0x10000) / 0x400, 0xDC00 + (n - 0x10000) % 0x400]

/-- The code units of a text can be read one character at a time. -/
theorem utf16_cons_inj {c d : Char} {s t : Text} (h : utf16 (c :: s) = utf16 (d :: t)) : c = d ∧ utf16 s = utf16 t := by
  have hvalid : ∀ c : Char, c.toNat < 0xD800 ∨ 0xDFFF < c.toNat ∧ c.toNat < 0x110000 := fun c => c.valid
  have hc := hvalid c
  have hd := hvalid d
  have hinj : c.toNat = d.toNat → c = d := Char.toNat_inj.mp
  simp only [utf16, List.flatMap_cons] at h
  by_cases hcs : c.toNat < 0x10000
  · by_cases hds : d.toNat < 0x10000
    · rw [if_pos hcs, if_pos hds, List.singleton_append, List.singleton_append, List.cons.injEq] at h
      exact ⟨hinj h.1, h.2⟩
    · rw [if_pos hcs, if_neg hds, List.singleton_append, List.cons_append, List.cons.injEq] at h
      omega
  · by_cases hds : d.toNat < 0x10000
    · rw [if_neg hcs, if_pos hds, List.singleton_append, List.cons_append, List.cons.injEq] at h
      omega
    · rw [if_neg hcs, if_neg hds] at h
      simp only [List.cons_append, List.nil_append, List.cons.injEq] at h
      exact ⟨hinj (by omega), h.2.2⟩

theorem utf16_injective : Function.Injective utf16 := by
  intro s
  induction s with
  | nil =>
    intro t h
    cases t with
    | nil => rfl
    | cons d t =>
      simp only [utf16, List.flatMap_nil, List.flatMap_cons] at h
      split at h <;> simp at h
  | cons c s ih =>
    intro t h
    cases t with
    | nil =>
      simp only [utf16, List.flatMap_nil, List.flatMap_cons] at h
      split at h <;> simp at h
    | cons d t =>
      obtain ⟨rfl, hst⟩ := utf16_cons_inj h
      rw [ih hst]

/-- `[...texts].sort()`: by UTF-16 code units. -/
def sortTexts (texts : List Text) : List Text := texts.insertionSort fun s t => utf16 s ≤ utf16 t

theorem mem_sortTexts {s : Text} {texts : List Text} : s ∈ sortTexts texts ↔ s ∈ texts :=
  List.mem_insertionSort _

/-- Lists that are equal when sorted have the same elements. -/
theorem mem_iff_of_sortTexts_eq {a b : List Text} (h : sortTexts a = sortTexts b) (s : Text) : s ∈ a ↔ s ∈ b := by
  rw [← mem_sortTexts, h, mem_sortTexts]

/-- A set has one sorted list. -/
theorem sortTexts_eq_iff {a b : List Text} (ha : a.Nodup) (hb : b.Nodup) : sortTexts a = sortTexts b ↔ ∀ s, s ∈ a ↔ s ∈ b := by
  refine ⟨mem_iff_of_sortTexts_eq, fun h => ?_⟩
  have hperm : (sortTexts a).Perm (sortTexts b) :=
    (List.perm_insertionSort _ _).trans (((List.perm_ext_iff_of_nodup ha hb).mpr h).trans (List.perm_insertionSort _ _).symm)
  have hsorted : ∀ texts : List Text, (sortTexts texts).Pairwise fun s t => utf16 s ≤ utf16 t := by
    intro texts
    have : Std.Total fun s t : Text => utf16 s ≤ utf16 t := ⟨fun s t => le_total _ _⟩
    have : IsTrans Text fun s t => utf16 s ≤ utf16 t := ⟨fun s t u => le_trans⟩
    exact List.pairwise_insertionSort _ _
  exact hperm.eq_of_pairwise (fun s t _ _ hst hts => utf16_injective (le_antisymm hst hts)) (hsorted a) (hsorted b)
/-- `createHash("sha256").update(text).digest("hex")`. -/
def sha256Hex (text : Text) : Text :=
  (pylib.sha256_hexdigest ((pylib.utf8Encode (text.map Char.toNat)).getD [])).map Char.ofNat

/-! ### Sets -/

/-- The elements of `new Set(xs)` in insertion order. -/
def setOf {α : Type} [DecidableEq α] (xs : List α) : List α :=
  xs.foldl (fun s x => if x ∈ s then s else s ++ [x]) []

theorem mem_setOf {α : Type} [DecidableEq α] {x : α} {xs : List α} : x ∈ setOf xs ↔ x ∈ xs := by
  have hfold : ∀ s : List α, x ∈ xs.foldl (fun s x => if x ∈ s then s else s ++ [x]) s ↔ x ∈ s ∨ x ∈ xs := by
    induction xs with
    | nil => simp
    | cons y xs ih =>
      intro s
      rw [List.foldl_cons, ih, List.mem_cons]
      by_cases hy : y ∈ s
      · rw [if_pos hy]
        constructor
        · exact Or.imp_right .inr
        · rintro (h | rfl | h)
          · exact .inl h
          · exact .inl hy
          · exact .inr h
      · rw [if_neg hy, List.mem_append, List.mem_singleton, or_assoc]
  unfold setOf
  rw [hfold, List.mem_nil_iff, false_or]

theorem nodup_setOf {α : Type} [DecidableEq α] (xs : List α) : (setOf xs).Nodup := by
  have hfold : ∀ s : List α, s.Nodup → (xs.foldl (fun s x => if x ∈ s then s else s ++ [x]) s).Nodup := by
    induction xs with
    | nil => exact fun s hs => hs
    | cons y xs ih =>
      intro s hs
      rw [List.foldl_cons]
      by_cases hy : y ∈ s
      · rw [if_pos hy]
        exact ih s hs
      · rw [if_neg hy]
        apply ih
        rw [List.nodup_append]
        refine ⟨hs, List.nodup_singleton y, fun a ha b hb => ?_⟩
        rw [List.mem_singleton.mp hb]
        exact fun heq => hy (heq ▸ ha)
  exact hfold [] List.nodup_nil

end jslib
