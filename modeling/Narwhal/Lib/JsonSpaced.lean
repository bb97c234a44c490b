import Narwhal.Lib.JsonAscii
import Narwhal.Lib.JsonDict
import Narwhal.Lib.RegexSearch

namespace pylib

/-! The text of `json.dumps`, and what a search finds in it. -/

mutual

/-- `json.dumps(obj)` with the separators that it has of its own; `quoted` prints the strings. -/
def spaced (quoted : Str → Str) : Json → Str
  | .null => lit "null"
  | .bool true => lit "true"
  | .bool false => lit "false"
  | .int n => intRepr n
  | .float lexeme => lexeme
  | .str s => quoted s
  | .arr [] => [91, 93]
  | .arr (x :: xs) => 91 :: (spaced quoted x ++ spacedItems quoted xs)
  | .obj [] => [123, 125]
  | .obj ((k, v) :: rest) => 123 :: (quoted k ++ [58, 32] ++ (spaced quoted v ++ spacedFields quoted rest))

/-- What follows an item of an array: the remaining items, then the bracket. -/
def spacedItems (quoted : Str → Str) : List Json → Str
  | [] => [93]
  | x :: xs => [44, 32] ++ (spaced quoted x ++ spacedItems quoted xs)

/-- What follows an item of a dictionary: the remaining items, then the brace. -/
def spacedFields (quoted : Str → Str) : List (Str × Json) → Str
  | [] => [125]
  | (k, v) :: rest => [44, 32] ++ (quoted k ++ [58, 32] ++ (spaced quoted v ++ spacedFields quoted rest))

end

/-! ### Values of some strings -/

mutual

/-- A value without a `float`, whose strings and the keys of whose dictionaries are of some kinds. -/
def Json.Made (key str : Str → Prop) : Json → Prop
  | .float _ => False
  | .str s => str s
  | .arr items => Json.MadeItems key str items
  | .obj fields => Json.MadeFields key str fields
  | _ => True

def Json.MadeItems (key str : Str → Prop) : List Json → Prop
  | [] => True
  | x :: xs => x.Made key str ∧ Json.MadeItems key str xs

def Json.MadeFields (key str : Str → Prop) : List (Str × Json) → Prop
  | [] => True
  | (k, v) :: rest => key k ∧ v.Made key str ∧ Json.MadeFields key str rest

end

section Made

variable {key str : Str → Prop}

theorem madeFields_iff {fields : List (Str × Json)} :
    Json.MadeFields key str fields ↔ ∀ kv ∈ fields, key kv.1 ∧ kv.2.Made key str := by
  induction fields with
  | nil => simp [Json.MadeFields]
  | cons kv fields ih => rw [Json.MadeFields, ih, List.forall_mem_cons, and_assoc]

mutual

theorem Json.Made.sortKeys : ∀ {value : Json}, value.Made key str → (pylib.sortKeys value).Made key str
  | .null, _ | .bool _, _ | .int _, _ => trivial
  | .str _, h => h
  | .arr _, h => Json.MadeItems.sortKeys h
  | .obj _, h => madeFields_iff.mpr fun _ hkv => Json.MadeFields.sortKeys h _ (mem_of_mem_dictOf hkv)

theorem Json.MadeItems.sortKeys : ∀ {items : List Json}, Json.MadeItems key str items →
    Json.MadeItems key str (sortKeysItems items)
  | [], _ => trivial
  | _ :: _, h => ⟨Json.Made.sortKeys h.1, Json.MadeItems.sortKeys h.2⟩

theorem Json.MadeFields.sortKeys : ∀ {fields : List (Str × Json)}, Json.MadeFields key str fields →
    ∀ kv ∈ sortKeysFields fields, key kv.1 ∧ kv.2.Made key str
  | [], _, _, hkv => nomatch hkv
  | (_, _) :: _, h, kv, hkv => by
    obtain rfl | hkv := List.mem_cons.mp hkv
    · exact ⟨h.1, Json.Made.sortKeys h.2.1⟩
    · exact Json.MadeFields.sortKeys h.2.2 kv hkv

end

variable {hook : List (Str × Json) → Option (List (Str × Json))} {p : Str → Prop}

mutual

/-- A value in the order of its keys is read back where its strings are. -/
theorem Json.Made.readable (hkey : ∀ k, key k → p k) (hstr : ∀ s, str s → p s) :
    ∀ {value : Json}, value.Made key str → value.Fixed hook → value.Readable hook p
  | .null, _, _ | .bool _, _, _ | .int _, _, _ => trivial
  | .str s, h, _ => hstr s h
  | .arr _, h, hfix => Json.MadeItems.readable hkey hstr h hfix
  | .obj _, h, hfix => ⟨hfix.1, Json.MadeFields.readable hkey hstr h hfix.2⟩

theorem Json.MadeItems.readable (hkey : ∀ k, key k → p k) (hstr : ∀ s, str s → p s) :
    ∀ {items : List Json}, Json.MadeItems key str items → Json.FixedItems hook items →
      Json.ReadableItems hook p items
  | [], _, _ => trivial
  | _ :: _, h, hfix => ⟨Json.Made.readable hkey hstr h.1 hfix.1, Json.MadeItems.readable hkey hstr h.2 hfix.2⟩

theorem Json.MadeFields.readable (hkey : ∀ k, key k → p k) (hstr : ∀ s, str s → p s) :
    ∀ {fields : List (Str × Json)}, Json.MadeFields key str fields → Json.FixedFields hook fields →
      Json.ReadableFields hook p fields
  | [], _, _ => trivial
  | (k, _) :: _, h, hfix =>
    ⟨hkey k h.1, Json.Made.readable hkey hstr h.2.1 hfix.1, Json.MadeFields.readable hkey hstr h.2.2 hfix.2⟩

end

end Made

/-! ### Searching -/

section Search

variable {κ : Type} [DecidableEq κ] {mem : κ → Nat → Bool} {r : Regex κ} {out done : List (Regex κ)}

/-- What a search has begun to match stays in `out` up to a value, and in `done` after it. -/
structure Passes (mem : κ → Nat → Bool) (r : Regex κ) (out done : List (Regex κ)) : Prop where
  out_subset : out ⊆ done
  opening : ∀ c ∈ [91, 123], r.quiet mem out [c] out = true
  comma : r.quiet mem done [44, 32] out = true
  closing : ∀ c ∈ [93, 125], r.quiet mem done [c] done = true
  constant : ∀ s ∈ ["null", "true", "false"], r.quiet mem out (lit s) done = true
  number : ∀ c ∈ lit "-0123456789", r.quiet mem done [c] done = true
  ends : (r :: done).any Regex.nullable = false

theorem Passes.quiet_intRepr (hp : Passes mem r out done) (n : Int) : r.quiet mem out (intRepr n) done = true := by
  have hnat : ∀ n c, c ∈ natRepr n → c ∈ lit "-0123456789" := by
    intro n c hc
    have hdigit := isDigit_of_mem_natRepr hc
    rw [isDigit, Bool.and_eq_true, decide_eq_true_eq, decide_eq_true_eq] at hdigit
    obtain ⟨hlow, hhigh⟩ := hdigit
    interval_cases c <;> decide
  refine Regex.quiet_mono (Regex.quiet_run fun c hc => hp.number c ?_) hp.out_subset (List.Subset.refl done)
  cases n with
  | ofNat n => exact hnat n c hc
  | negSucc n =>
    obtain rfl | hc := List.mem_cons.mp hc
    · decide
    · exact hnat _ c hc

variable {key str : Str → Prop} {quoted : Str → Str}

mutual

theorem Passes.quiet_spaced (hp : Passes mem r out done)
    (hkey : ∀ k, key k → r.quiet mem out (quoted k ++ [58, 32]) out = true)
    (hstr : ∀ s, str s → r.quiet mem out (quoted s) done = true) :
    ∀ {value : Json}, value.Made key str → r.quiet mem out (spaced quoted value) done = true
  | .null, _ => hp.constant "null" (by decide)
  | .bool true, _ => hp.constant "true" (by decide)
  | .bool false, _ => hp.constant "false" (by decide)
  | .int n, _ => hp.quiet_intRepr n
  | .str s, h => hstr s h
  | .arr [], _ =>
    Regex.quiet_append (Regex.quiet_mono (hp.opening 91 (by decide)) (List.Subset.refl out) hp.out_subset)
      (hp.closing 93 (by decide))
  | .arr (_ :: _), h =>
    Regex.quiet_append (hp.opening 91 (by decide)) (Regex.quiet_append (Passes.quiet_spaced hp hkey hstr h.1)
      (Passes.quiet_spacedItems hp hkey hstr h.2))
  | .obj [], _ =>
    Regex.quiet_append (Regex.quiet_mono (hp.opening 123 (by decide)) (List.Subset.refl out) hp.out_subset)
      (hp.closing 125 (by decide))
  | .obj ((k, _) :: _), h =>
    Regex.quiet_append (hp.opening 123 (by decide)) (Regex.quiet_append (hkey k h.1)
      (Regex.quiet_append (Passes.quiet_spaced hp hkey hstr h.2.1) (Passes.quiet_spacedFields hp hkey hstr h.2.2)))

theorem Passes.quiet_spacedItems (hp : Passes mem r out done)
    (hkey : ∀ k, key k → r.quiet mem out (quoted k ++ [58, 32]) out = true)
    (hstr : ∀ s, str s → r.quiet mem out (quoted s) done = true) :
    ∀ {items : List Json}, Json.MadeItems key str items → r.quiet mem done (spacedItems quoted items) done = true
  | [], _ => hp.closing 93 (by decide)
  | _ :: _, h =>
    Regex.quiet_append hp.comma (Regex.quiet_append (Passes.quiet_spaced hp hkey hstr h.1)
      (Passes.quiet_spacedItems hp hkey hstr h.2))

theorem Passes.quiet_spacedFields (hp : Passes mem r out done)
    (hkey : ∀ k, key k → r.quiet mem out (quoted k ++ [58, 32]) out = true)
    (hstr : ∀ s, str s → r.quiet mem out (quoted s) done = true) :
    ∀ {fields : List (Str × Json)}, Json.MadeFields key str fields →
      r.quiet mem done (spacedFields quoted fields) done = true
  | [], _ => hp.closing 125 (by decide)
  | (k, _) :: _, h =>
    Regex.quiet_append hp.comma (Regex.quiet_append (hkey k h.1)
      (Regex.quiet_append (Passes.quiet_spaced hp hkey hstr h.2.1) (Passes.quiet_spacedFields hp hkey hstr h.2.2)))

end

/-- Nothing is found in a printed value whose keys and strings pass. -/
theorem Passes.finds_spaced_eq_false (hp : Passes mem r out done)
    (hkey : ∀ k, key k → r.quiet mem out (quoted k ++ [58, 32]) out = true)
    (hstr : ∀ s, str s → r.quiet mem out (quoted s) done = true) {value : Json} (h : value.Made key str) :
    r.finds mem (spaced quoted value) = false :=
  Regex.finds_eq_false (Regex.quiet_mono (hp.quiet_spaced hkey hstr h) (List.nil_subset out) (List.Subset.refl done))
    hp.ends

end Search

end pylib
