import Narwhal.Lib.JsonScan

namespace pylib

/-- What may follow a printed value: nothing, or a character no number runs into. -/
def Stops (rest : Str) : Prop := ∀ c ∈ rest.head?, c = 44 ∨ c = 93 ∨ c = 125 ∨ c = 10

theorem stops_cons {c : Nat} {rest : Str} (h : c = 44 ∨ c = 93 ∨ c = 125 ∨ c = 10) : Stops (c :: rest) := by
  intro d hd
  obtain rfl : c = d := by simpa using hd
  exact h

theorem skipWs_cons {c : Nat} (h : isWs c = false) (rest : Str) : skipWs (c :: rest) = c :: rest := by
  simp [skipWs, h]

private theorem scanStringFrom_quote (pending : Option Nat) (rest : Str) :
    scanStringFrom pending (34 :: rest) = some (pending.toList, rest) := by
  rw [scanStringFrom.eq_def]
  simp

private theorem scanStringFrom_plain {c : Nat} (h : ¬ (c = 34 ∨ c = 92 ∨ c < 32)) (rest : Str) :
    scanStringFrom none (c :: rest) = (scanStringFrom none rest).map fun (s, r) => (c :: s, r) := by
  have h1 : ¬ c = 34 := by omega
  have h2 : ¬ c = 92 := by omega
  have h3 : ¬ c < 32 := by omega
  rw [scanStringFrom.eq_def]
  simp [h1, h2, h3]

private theorem scanStringFrom_escape {e c : Nat} (he : e ≠ 117) (h : unescape e = some c) (rest : Str) :
    scanStringFrom none (92 :: e :: rest) = (scanStringFrom none rest).map fun (s, r) => (c :: s, r) := by
  rw [scanStringFrom.eq_def]
  simp [he, h]

private theorem scanStringFrom_unicode {h1 h2 h3 h4 c : Nat} (h : hex4 h1 h2 h3 h4 = some c) (hc : c < 32)
    (rest : Str) : scanStringFrom none (92 :: 117 :: h1 :: h2 :: h3 :: h4 :: rest) =
      (scanStringFrom none rest).map fun (s, r) => (c :: s, r) := by
  have hjoin : joinEscape none c = ([c], none) := by
    have : ¬ (0xD800 ≤ c ∧ c ≤ 0xDBFF) := by omega
    simp [joinEscape, this]
  rw [scanStringFrom.eq_def]
  simp [h, hjoin]

private theorem hex4_low {c : Nat} (h : c < 32) :
    hex4 48 48 (hexDigit (c / 16)) (hexDigit (c % 16)) = some c := by
  revert c
  decide

/-- Scanning past the spelling of one character yields that character. -/
theorem scanString_escapeChar (c : Nat) (rest : Str) :
    scanString (escapeChar c ++ rest) = (scanString rest).map fun (s, r) => (c :: s, r) := by
  unfold scanString escapeChar
  split
  · next h => subst h; exact scanStringFrom_escape (by decide) (by decide) rest
  split
  · next h => subst h; exact scanStringFrom_escape (by decide) (by decide) rest
  split
  · next h => subst h; exact scanStringFrom_escape (by decide) (by decide) rest
  split
  · next h => subst h; exact scanStringFrom_escape (by decide) (by decide) rest
  split
  · next h => subst h; exact scanStringFrom_escape (by decide) (by decide) rest
  split
  · next h => subst h; exact scanStringFrom_escape (by decide) (by decide) rest
  split
  · next h => subst h; exact scanStringFrom_escape (by decide) (by decide) rest
  split
  · next h => exact scanStringFrom_unicode (hex4_low h) h rest
  · exact scanStringFrom_plain (by omega) rest

theorem scanString_quoted (s rest : Str) :
    scanString (s.flatMap escapeChar ++ 34 :: rest) = some (s, rest) := by
  induction s with
  | nil => exact scanStringFrom_quote none rest
  | cons c s ih =>
    rw [List.flatMap_cons, List.append_assoc, scanString_escapeChar, ih]
    rfl

/-! ### Numbers -/

theorem natRepr_ne_nil (n : Nat) : natRepr n ≠ [] := by
  unfold natRepr
  split
  · simp
  · next h => simpa using Nat.digits_ne_nil_iff_ne_zero.mpr h

theorem isDigit_of_mem_natRepr {n c : Nat} (h : c ∈ natRepr n) : isDigit c = true := by
  unfold natRepr at h
  split at h
  · obtain rfl := List.mem_singleton.mp h
    rfl
  · obtain ⟨d, hd, rfl⟩ := List.mem_map.mp h
    have := Nat.digits_lt_base (by decide : 1 < 10) (List.mem_reverse.mp hd)
    simp [isDigit]
    omega

theorem natOfDigits_natRepr (n : Nat) : natOfDigits (natRepr n) = n := by
  unfold natRepr
  split
  · next h => subst h; rfl
  · have hsub : ((fun c => c - 48) ∘ fun d => 48 + d) = (id : Nat → Nat) := by
      funext d
      simp
    simp [natOfDigits, List.map_reverse, List.map_map, hsub, Nat.ofDigits_digits]

/-- The first digit of a positive number is not zero. -/
private theorem natRepr_head_ne {n : Nat} (h : n ≠ 0) {c : Nat} {cs : Str} (hc : natRepr n = c :: cs) :
    c ≠ 48 := by
  have hne : Nat.digits 10 n ≠ [] := Nat.digits_ne_nil_iff_ne_zero.mpr h
  have hlast := Nat.getLast_digit_ne_zero 10 h
  unfold natRepr at hc
  rw [if_neg h] at hc
  have hhead : (Nat.digits 10 n).reverse.head? = some ((Nat.digits 10 n).getLast hne) := by
    rw [List.head?_reverse, List.getLast?_eq_some_getLast hne]
  cases hrev : (Nat.digits 10 n).reverse with
  | nil => simp [hrev] at hc
  | cons d ds =>
    rw [hrev] at hc hhead
    simp only [List.map_cons, List.cons.injEq, List.head?_cons, Option.some.injEq] at hc hhead
    rw [← hhead] at hlast
    omega

private theorem takeWhile_append_stops {ds rest : Str} (hds : ∀ c ∈ ds, isDigit c = true) (hrest : Stops rest) :
    (ds ++ rest).takeWhile isDigit = ds ∧ (ds ++ rest).dropWhile isDigit = rest := by
  have hstop : rest.takeWhile isDigit = [] ∧ rest.dropWhile isDigit = rest := by
    cases rest with
    | nil => exact ⟨rfl, rfl⟩
    | cons c rest =>
      have hc : isDigit c = false := by
        rcases hrest c rfl with rfl | rfl | rfl | rfl <;> rfl
      simp [hc]
  rw [List.takeWhile_append_of_pos hds, List.dropWhile_append_of_pos hds, hstop.1, hstop.2]
  exact ⟨List.append_nil ds, rfl⟩

private theorem scanDigits_natRepr (n : Nat) {rest : Str} (hrest : Stops rest) :
    scanDigits (natRepr n ++ rest) = some (natRepr n, rest) := by
  by_cases hn : n = 0
  · subst hn
    simp [natRepr, scanDigits]
  · obtain ⟨c, cs, hc⟩ := List.exists_cons_of_ne_nil (natRepr_ne_nil n)
    have hdigits : ∀ d ∈ c :: cs, isDigit d = true := fun d hd => isDigit_of_mem_natRepr (hc ▸ hd)
    have hhead := natRepr_head_ne hn hc
    have htail := takeWhile_append_stops (fun d hd => hdigits d (List.mem_cons_of_mem c hd)) hrest
    rw [hc]
    simp [scanDigits, hhead, hdigits c List.mem_cons_self, htail.1, htail.2]

private theorem scanFrac_stops {rest : Str} (h : Stops rest) : scanFrac rest = ([], rest) := by
  unfold scanFrac
  split
  · have := h 46 rfl
    omega
  · rfl

private theorem scanExp_stops {rest : Str} (h : Stops rest) : scanExp rest = ([], rest) := by
  cases rest with
  | nil => rfl
  | cons c rest =>
    have hc := h c rfl
    have hexp : ¬ (c = 101 ∨ c = 69) := by omega
    simp [scanExp, hexp]

private theorem scanUnsigned_natRepr (sign : Str) (negate : Nat → Int) (n : Nat) {rest : Str}
    (hrest : Stops rest) :
    scanUnsigned sign negate (natRepr n ++ rest) = some (.int (negate n), rest) := by
  simp [scanUnsigned, scanDigits_natRepr n hrest, scanFrac_stops hrest, scanExp_stops hrest,
    natOfDigits_natRepr]

theorem scanNumber_intRepr (n : Int) {rest : Str} (hrest : Stops rest) :
    scanNumber (intRepr n ++ rest) = some (.int n, rest) := by
  cases n with
  | ofNat n =>
    obtain ⟨c, cs, hc⟩ := List.exists_cons_of_ne_nil (natRepr_ne_nil n)
    have hdigit : isDigit c = true := isDigit_of_mem_natRepr (by rw [hc]; exact List.mem_cons_self)
    have hsign : c ≠ 45 := by
      rintro rfl
      cases hdigit
    have hscan := scanUnsigned_natRepr [] (fun n => (n : Int)) n hrest
    simp only [intRepr]
    rw [hc] at hscan ⊢
    unfold scanNumber
    split
    · next heq => simp at heq; omega
    · exact hscan
  | negSucc n =>
    have hscan := scanUnsigned_natRepr [45] (fun n => -(n : Int)) (n + 1) hrest
    simpa [intRepr, scanNumber, Int.negSucc_eq] using hscan

/-! ### Values -/

private theorem intRepr_head (n : Int) : ∃ c cs, intRepr n = c :: cs ∧ (c = 45 ∨ isDigit c = true) := by
  cases n with
  | ofNat n =>
    obtain ⟨c, cs, hc⟩ := List.exists_cons_of_ne_nil (natRepr_ne_nil n)
    exact ⟨c, cs, hc, Or.inr (isDigit_of_mem_natRepr (by rw [hc]; exact List.mem_cons_self))⟩
  | negSucc n => exact ⟨45, natRepr (n + 1), rfl, Or.inl rfl⟩

/-- How a printer spells strings, breaks lines and sets a value off from its key. -/
structure Layout where
  quoted : Str → Str
  /-- what stands before an item at this depth, and before the bracket that closes its parent -/
  newline : Nat → Str
  gap : Str

mutual

/-- A value printed at some depth. -/
def printed (l : Layout) : Nat → Json → Str
  | _, .null => lit "null"
  | _, .bool true => lit "true"
  | _, .bool false => lit "false"
  | _, .int n => intRepr n
  | _, .float lexeme => lexeme
  | _, .str s => l.quoted s
  | _, .arr [] => [91, 93]
  | depth, .arr (x :: xs) => 91 :: (l.newline (depth + 1) ++ (printed l (depth + 1) x ++ printedItems l depth xs))
  | _, .obj [] => [123, 125]
  | depth, .obj ((k, v) :: rest) =>
    123 :: (l.newline (depth + 1) ++
      (l.quoted k ++ 58 :: (l.gap ++ (printed l (depth + 1) v ++ printedFields l depth rest))))

/-- What follows an item of an array: the remaining items, then the bracket. -/
def printedItems (l : Layout) : Nat → List Json → Str
  | depth, [] => l.newline depth ++ [93]
  | depth, x :: xs => 44 :: (l.newline (depth + 1) ++ (printed l (depth + 1) x ++ printedItems l depth xs))

/-- What follows an item of a dictionary: the remaining items, then the brace. -/
def printedFields (l : Layout) : Nat → List (Str × Json) → Str
  | depth, [] => l.newline depth ++ [125]
  | depth, (k, v) :: rest =>
    44 :: (l.newline (depth + 1) ++
      (l.quoted k ++ 58 :: (l.gap ++ (printed l (depth + 1) v ++ printedFields l depth rest))))

end

/-- The scanner reads the spelling of every string with `p`, and passes over the rest of the layout. -/
structure Layout.Sound (l : Layout) (p : Str → Prop) : Prop where
  newline : ∀ depth, ∀ c ∈ l.newline depth, isWs c = true
  newline_head : ∀ depth, ∀ c ∈ (l.newline depth).head?, c = 10
  gap : ∀ c ∈ l.gap, isWs c = true
  quoted : ∀ s, p s → ∃ body, l.quoted s = 34 :: body ∧ ∀ rest, scanString (body ++ rest) = some (s, rest)

mutual

/-- A value that is read back from its print: it has no `float`, its strings have `p`, and the hook
    leaves the items of its dictionaries as they are. -/
def Json.Readable (hook : List (Str × Json) → Option (List (Str × Json))) (p : Str → Prop) : Json → Prop
  | .float _ => False
  | .str s => p s
  | .arr items => Json.ReadableItems hook p items
  | .obj fields => hook fields = some fields ∧ Json.ReadableFields hook p fields
  | _ => True

def Json.ReadableItems (hook : List (Str × Json) → Option (List (Str × Json))) (p : Str → Prop) : List Json → Prop
  | [] => True
  | x :: xs => x.Readable hook p ∧ Json.ReadableItems hook p xs

def Json.ReadableFields (hook : List (Str × Json) → Option (List (Str × Json))) (p : Str → Prop) :
    List (Str × Json) → Prop
  | [] => True
  | (k, v) :: rest => p k ∧ v.Readable hook p ∧ Json.ReadableFields hook p rest

end

private theorem skipWs_append {ws : Str} (h : ∀ c ∈ ws, isWs c = true) (rest : Str) : skipWs (ws ++ rest) = skipWs rest := by
  induction ws with
  | nil => rfl
  | cons c ws ih =>
    have hc := h c List.mem_cons_self
    rw [← ih fun d hd => h d (List.mem_cons_of_mem c hd)]
    simp [skipWs, hc]

section Scanner

variable {l : Layout} {hook : List (Str × Json) → Option (List (Str × Json))} {p : Str → Prop}

/-- A printed value starts with a character that is neither whitespace nor a
    closing bracket. -/
theorem Layout.Sound.printed_head (hl : l.Sound p) {j : Json} (hj : j.Readable hook p) (depth : Nat) :
    ∃ c cs, printed l depth j = c :: cs ∧ isWs c = false ∧ c ≠ 93 ∧ c ≠ 125 := by
  cases j with
  | null => exact ⟨_, _, rfl, by decide⟩
  | bool b => cases b <;> exact ⟨_, _, rfl, by decide⟩
  | int n =>
    obtain ⟨c, cs, hc, hkind⟩ := intRepr_head n
    refine ⟨c, cs, hc, ?_⟩
    rcases hkind with rfl | hdigit
    · decide
    · simp only [isDigit, Bool.and_eq_true, decide_eq_true_eq] at hdigit
      simp [isWs]
      omega
  | float lexeme => cases hj
  | str s =>
    obtain ⟨body, hbody, _⟩ := hl.quoted s hj
    exact ⟨34, body, hbody, by decide⟩
  | arr items => cases items <;> exact ⟨_, _, rfl, by decide⟩
  | obj fields => cases fields <;> exact ⟨_, _, rfl, by decide⟩

private theorem Layout.Sound.skipWs_printed (hl : l.Sound p) {j : Json} (hj : j.Readable hook p) (depth : Nat)
    (rest : Str) : skipWs (printed l depth j ++ rest) = printed l depth j ++ rest := by
  obtain ⟨c, cs, hc, hws, _⟩ := hl.printed_head hj depth
  rw [hc, List.cons_append, skipWs_cons hws]

private theorem Layout.Sound.one_le_length_printed (hl : l.Sound p) {j : Json} (hj : j.Readable hook p) (depth : Nat) :
    1 ≤ (printed l depth j).length := by
  obtain ⟨c, cs, hc, _⟩ := hl.printed_head hj depth
  simp [hc]

private theorem Layout.Sound.stops_newline (hl : l.Sound p) (depth : Nat) {c : Nat} (h : c = 93 ∨ c = 125) (rest : Str) :
    Stops (l.newline depth ++ c :: rest) := by
  intro d hd
  cases hline : l.newline depth with
  | nil =>
    obtain rfl : c = d := by simpa [hline] using hd
    exact h.elim (fun h => .inr (.inl h)) fun h => .inr (.inr (.inl h))
  | cons e es =>
    obtain rfl : e = d := by simpa [hline] using hd
    exact .inr (.inr (.inr (hl.newline_head depth e (by simp [hline]))))

private theorem Layout.Sound.stops_printedItems (hl : l.Sound p) (depth : Nat) (xs : List Json) (rest : Str) :
    Stops (printedItems l depth xs ++ rest) := by
  cases xs with
  | nil =>
    rw [printedItems, List.append_assoc]
    exact hl.stops_newline depth (.inl rfl) rest
  | cons x xs => exact stops_cons (by decide)

private theorem Layout.Sound.stops_printedFields (hl : l.Sound p) (depth : Nat) (kvs : List (Str × Json)) (rest : Str) :
    Stops (printedFields l depth kvs ++ rest) := by
  cases kvs with
  | nil =>
    rw [printedFields, List.append_assoc]
    exact hl.stops_newline depth (.inr rfl) rest
  | cons kv kvs =>
    obtain ⟨k, v⟩ := kv
    exact stops_cons (by decide)

private theorem scanValue_other {c : Nat} {rest : Str} (h1 : c ≠ 34) (h2 : c ≠ 123) (h3 : c ≠ 91)
    (fuel : Nat) : scanValue hook (fuel + 1) (c :: rest) =
      (match scanNumber (c :: rest) with
      | some r => some r
      | none => scanConstant (c :: rest)) := by
  cases hnumber : scanNumber (c :: rest) <;> simp [scanValue, h1, h2, h3, hnumber]

private theorem scanValue_quote (fuel : Nat) (rest : Str) :
    scanValue hook (fuel + 1) (34 :: rest) = (scanString rest).map fun (s, r) => (.str s, r) := by
  simp only [scanValue, if_true]

private theorem scanNumber_none {c : Nat} {rest : Str} (h1 : c ≠ 45) (h2 : isDigit c = false) :
    scanNumber (c :: rest) = none := by
  have h48 : c ≠ 48 := by
    rintro rfl
    cases h2
  unfold scanNumber
  split
  · next heq => simp at heq; omega
  · simp [scanUnsigned, scanDigits, h48, h2]

/-- With this much fuel, every printed value, item list and field list that
    fits in it is read back, whatever stops it. -/
private structure ReadsBack (l : Layout) (hook : List (Str × Json) → Option (List (Str × Json))) (p : Str → Prop)
    (fuel : Nat) : Prop where
  value : ∀ (depth : Nat) (j : Json) (rest : Str), j.Readable hook p → Stops rest →
    (printed l depth j).length ≤ fuel → scanValue hook fuel (printed l depth j ++ rest) = some (j, rest)
  items : ∀ (depth : Nat) (x : Json) (xs : List Json) (rest : Str), Json.ReadableItems hook p (x :: xs) →
    (printed l (depth + 1) x ++ printedItems l depth xs).length ≤ fuel →
    scanItems hook fuel (printed l (depth + 1) x ++ (printedItems l depth xs ++ rest)) = some (x :: xs, rest)
  fields : ∀ (depth : Nat) (k : Str) (v : Json) (kvs : List (Str × Json)) (rest : Str),
    Json.ReadableFields hook p ((k, v) :: kvs) →
    (l.quoted k ++ 58 :: (l.gap ++ (printed l (depth + 1) v ++ printedFields l depth kvs))).length ≤ fuel →
    scanFields hook fuel (l.quoted k ++ 58 :: (l.gap ++ (printed l (depth + 1) v ++ (printedFields l depth kvs ++ rest)))) =
      some ((k, v) :: kvs, rest)

variable {fuel : Nat}

private theorem scanValue_int (n : Int) {rest : Str} (hrest : Stops rest) :
    scanValue hook (fuel + 1) (intRepr n ++ rest) = some (.int n, rest) := by
  obtain ⟨c, cs, hc, hkind⟩ := intRepr_head n
  have hscan := scanNumber_intRepr n hrest
  have hne : c ≠ 34 ∧ c ≠ 123 ∧ c ≠ 91 := by
    rcases hkind with rfl | hdigit
    · decide
    · simp only [isDigit, Bool.and_eq_true, decide_eq_true_eq] at hdigit
      omega
  simp only [hc, List.cons_append] at hscan ⊢
  rw [scanValue_other hne.1 hne.2.1 hne.2.2, hscan]

private theorem ReadsBack.value_arr (h : ReadsBack l hook p fuel) (hl : l.Sound p) {depth : Nat} {items : List Json}
    {rest : Str} (hread : Json.ReadableItems hook p items) (hfuel : (printed l depth (.arr items)).length ≤ fuel + 1) :
    scanValue hook (fuel + 1) (printed l depth (.arr items) ++ rest) = some (.arr items, rest) := by
  cases items with
  | nil => rfl
  | cons x xs =>
    have hitems := h.items depth x xs rest hread
      (by simp only [printed, List.length_cons, List.length_append] at hfuel ⊢; omega)
    obtain ⟨c, cs, hc, hws, hbracket, _⟩ := hl.printed_head hread.1 (depth + 1)
    simp only [printed, hc, List.cons_append, List.append_assoc] at hitems ⊢
    simp [scanValue, skipWs_append (hl.newline (depth + 1)), skipWs_cons hws, hbracket, hitems]

private theorem ReadsBack.value_obj (h : ReadsBack l hook p fuel) (hl : l.Sound p) {depth : Nat}
    {fields : List (Str × Json)} {rest : Str} (hread : (Json.obj fields).Readable hook p)
    (hfuel : (printed l depth (.obj fields)).length ≤ fuel + 1) :
    scanValue hook (fuel + 1) (printed l depth (.obj fields) ++ rest) = some (.obj fields, rest) := by
  cases fields with
  | nil =>
    show (hook []).map _ = _
    rw [hread.1]
    rfl
  | cons kv kvs =>
    obtain ⟨k, v⟩ := kv
    have hfields := h.fields depth k v kvs rest hread.2
      (by simp only [printed, List.length_cons, List.length_append] at hfuel ⊢; omega)
    have hpairs := hread.1
    obtain ⟨body, hbody, _⟩ := hl.quoted k hread.2.1
    simp only [printed, hbody, List.cons_append, List.append_assoc] at hfields ⊢
    simp only [scanValue, skipWs_append (hl.newline (depth + 1)), skipWs_cons (c := 34) (by decide), hfields, hpairs]
    rfl

private theorem ReadsBack.value_succ (h : ReadsBack l hook p fuel) (hl : l.Sound p) (depth : Nat) (j : Json) (rest : Str)
    (hread : j.Readable hook p) (hrest : Stops rest) (hfuel : (printed l depth j).length ≤ fuel + 1) :
    scanValue hook (fuel + 1) (printed l depth j ++ rest) = some (j, rest) := by
  cases j with
  | null =>
    show scanValue hook (fuel + 1) (110 :: 117 :: 108 :: 108 :: rest) = _
    rw [scanValue_other (by decide) (by decide) (by decide), scanNumber_none (by decide) (by decide)]
    rfl
  | bool b =>
    cases b with
    | true =>
      show scanValue hook (fuel + 1) (116 :: 114 :: 117 :: 101 :: rest) = _
      rw [scanValue_other (by decide) (by decide) (by decide), scanNumber_none (by decide) (by decide)]
      rfl
    | false =>
      show scanValue hook (fuel + 1) (102 :: 97 :: 108 :: 115 :: 101 :: rest) = _
      rw [scanValue_other (by decide) (by decide) (by decide), scanNumber_none (by decide) (by decide)]
      rfl
  | int n => exact scanValue_int n hrest
  | float lexeme => cases hread
  | str s =>
    obtain ⟨body, hbody, hscan⟩ := hl.quoted s hread
    rw [printed, hbody, List.cons_append, scanValue_quote, hscan rest]
    rfl
  | arr items => exact h.value_arr hl hread hfuel
  | obj fields => exact h.value_obj hl hread hfuel

private theorem ReadsBack.items_succ (h : ReadsBack l hook p fuel) (hl : l.Sound p) (depth : Nat) (x : Json)
    (xs : List Json) (rest : Str) (hread : Json.ReadableItems hook p (x :: xs))
    (hfuel : (printed l (depth + 1) x ++ printedItems l depth xs).length ≤ fuel + 1) :
    scanItems hook (fuel + 1) (printed l (depth + 1) x ++ (printedItems l depth xs ++ rest)) = some (x :: xs, rest) := by
  have hlen := hl.one_le_length_printed hread.1 (depth + 1)
  have hx := h.value (depth + 1) x (printedItems l depth xs ++ rest) hread.1 (hl.stops_printedItems depth xs rest)
  cases xs with
  | nil =>
    simp only [printedItems, List.length_append, List.length_singleton] at hfuel
    rw [scanItems, hx (by omega)]
    simp [printedItems, skipWs_append (hl.newline depth), skipWs_cons (c := 93) (by decide)]
  | cons y ys =>
    simp only [printedItems, List.length_append, List.length_cons] at hfuel
    have hys := h.items depth y ys rest hread.2 (by simp only [List.length_append]; omega)
    rw [scanItems, hx (by omega)]
    simp only [printedItems, List.cons_append, List.append_assoc, skipWs_cons (c := 44) (by decide),
      skipWs_append (hl.newline (depth + 1)), hl.skipWs_printed hread.2.1, hys]
    rfl

private theorem ReadsBack.fields_succ (h : ReadsBack l hook p fuel) (hl : l.Sound p) (depth : Nat) (k : Str) (v : Json)
    (kvs : List (Str × Json)) (rest : Str) (hread : Json.ReadableFields hook p ((k, v) :: kvs))
    (hfuel : (l.quoted k ++ 58 :: (l.gap ++ (printed l (depth + 1) v ++ printedFields l depth kvs))).length ≤ fuel + 1) :
    scanFields hook (fuel + 1)
        (l.quoted k ++ 58 :: (l.gap ++ (printed l (depth + 1) v ++ (printedFields l depth kvs ++ rest)))) =
      some ((k, v) :: kvs, rest) := by
  obtain ⟨hkey, hv, hrest⟩ := hread
  obtain ⟨body, hbody, hscan⟩ := hl.quoted k hkey
  simp only [List.length_append, List.length_cons] at hfuel
  have hvalue := h.value (depth + 1) v (printedFields l depth kvs ++ rest) hv (hl.stops_printedFields depth kvs rest)
    (by omega)
  simp only [hbody, List.cons_append, scanFields, hscan, skipWs_cons (c := 58) (by decide), skipWs_append hl.gap,
    hl.skipWs_printed hv, hvalue]
  cases kvs with
  | nil => simp [printedFields, skipWs_append (hl.newline depth), skipWs_cons (c := 125) (by decide)]
  | cons kv kvs =>
    obtain ⟨k', w⟩ := kv
    simp only [printedFields, List.length_append, List.length_cons] at hfuel
    have htail := h.fields depth k' w kvs rest hrest (by simp only [List.length_append, List.length_cons]; omega)
    obtain ⟨body', hbody', _⟩ := hl.quoted k' hrest.1
    simp only [printedFields, hbody', List.cons_append, List.append_assoc] at htail ⊢
    simp only [skipWs_cons (c := 44) (by decide), skipWs_append (hl.newline (depth + 1)),
      skipWs_cons (c := 34) (by decide), htail]
    rfl

variable (hook) in
private theorem readsBack (hl : l.Sound p) (fuel : Nat) : ReadsBack l hook p fuel := by
  induction fuel with
  | zero =>
    refine ⟨fun depth j rest hread _ hfuel => ?_, fun depth x xs rest hread hfuel => ?_,
      fun depth k v kvs rest _ hfuel => ?_⟩
    · have := hl.one_le_length_printed hread depth
      omega
    · have := hl.one_le_length_printed hread.1 (depth + 1)
      simp only [List.length_append] at hfuel
      omega
    · simp at hfuel
  | succ fuel ih => exact ⟨ih.value_succ hl, ih.items_succ hl, ih.fields_succ hl⟩

/-- `json.loads` of a printed value and a line feed is the value. -/
theorem loads_printed (hl : l.Sound p) {j : Json} (hread : j.Readable hook p) :
    loads hook (printed l 0 j ++ [10]) = some j := by
  have hscan := (readsBack hook hl ((printed l 0 j ++ [10]).length + 1)).value 0 j [10] hread
    (stops_cons (by decide)) (by simp; omega)
  rw [loads, hl.skipWs_printed hread, hscan]
  simp [skipWs, isWs]

/-- A printed value and a line feed are not the beginning of another printed value and its line feed. -/
theorem eq_of_printed_append (hl : l.Sound p) {a b : Json} (ha : a.Readable hook p) (hb : b.Readable hook p)
    {rest : Str} (h : printed l 0 a ++ 10 :: rest = printed l 0 b ++ [10]) : a = b := by
  have hsize : (printed l 0 a).length ≤ (printed l 0 b ++ [10]).length := by
    rw [← h, List.length_append]
    omega
  have hscanA := (readsBack hook hl ((printed l 0 b ++ [10]).length)).value 0 a (10 :: rest) ha
    (stops_cons (by decide)) hsize
  have hscanB := (readsBack hook hl ((printed l 0 b ++ [10]).length)).value 0 b [10] hb
    (stops_cons (by decide)) (by simp)
  rw [h, hscanB] at hscanA
  exact (Prod.mk.inj (Option.some.inj hscanA)).1.symm

end Scanner

/-! ### The canonical form -/

/-- The layout of `json.dumps(obj, sort_keys=True, separators=(",", ":"), ensure_ascii=False)`. -/
def compact : Layout := ⟨quote, fun _ => [], []⟩

theorem compact_sound : compact.Sound fun _ => True where
  newline _ _ hc := by cases hc
  newline_head _ _ hc := by cases hc
  gap _ hc := by cases hc
  quoted s _ := ⟨s.flatMap escapeChar ++ [34], rfl, fun rest => by
    rw [List.append_assoc]
    exact scanString_quoted s rest⟩

mutual

theorem printed_compact : ∀ (depth : Nat) (j : Json), printed compact depth j = dumps j
  | _, .null | _, .bool true | _, .bool false | _, .int _ | _, .float _ | _, .str _ | _, .arr [] | _, .obj [] => rfl
  | depth, .arr (x :: xs) => by
    rw [printed, dumps, printed_compact (depth + 1) x, printedItems_compact depth xs]
    rfl
  | depth, .obj ((k, v) :: rest) => by
    rw [printed, dumps, printed_compact (depth + 1) v, printedFields_compact depth rest]
    rfl

theorem printedItems_compact : ∀ (depth : Nat) (xs : List Json), printedItems compact depth xs = dumpsItems xs
  | _, [] => rfl
  | depth, x :: xs => by
    rw [printedItems, dumpsItems, printed_compact (depth + 1) x, printedItems_compact depth xs]
    rfl

theorem printedFields_compact : ∀ (depth : Nat) (kvs : List (Str × Json)),
    printedFields compact depth kvs = dumpsFields kvs
  | _, [] => rfl
  | depth, (k, v) :: rest => by
    rw [printedFields, dumpsFields, printed_compact (depth + 1) v, printedFields_compact depth rest]
    rfl

end

mutual

/-- The hook leaves the items of every dictionary in the value as they are. -/
def Json.Fixed (hook : List (Str × Json) → Option (List (Str × Json))) : Json → Prop
  | .arr items => Json.FixedItems hook items
  | .obj fields => hook fields = some fields ∧ Json.FixedFields hook fields
  | _ => True

def Json.FixedItems (hook : List (Str × Json) → Option (List (Str × Json))) : List Json → Prop
  | [] => True
  | x :: xs => x.Fixed hook ∧ Json.FixedItems hook xs

def Json.FixedFields (hook : List (Str × Json) → Option (List (Str × Json))) : List (Str × Json) → Prop
  | [] => True
  | (_, v) :: rest => v.Fixed hook ∧ Json.FixedFields hook rest

end

section Fixed

variable {hook : List (Str × Json) → Option (List (Str × Json))}

mutual

theorem Json.Fixed.readable : ∀ {j : Json}, j.Fixed hook → j.noFloat = true → j.Readable hook fun _ => True
  | .null, _, _ | .bool _, _, _ | .int _, _, _ | .str _, _, _ => trivial
  | .float _, _, h => by cases h
  | .arr _, hfix, hfloat => Json.FixedItems.readable hfix hfloat
  | .obj _, hfix, hfloat => ⟨hfix.1, Json.FixedFields.readable hfix.2 hfloat⟩

theorem Json.FixedItems.readable : ∀ {items : List Json}, Json.FixedItems hook items → Json.noFloatItems items = true →
    Json.ReadableItems hook (fun _ => True) items
  | [], _, _ => trivial
  | _ :: _, hfix, hfloat => by
    simp only [Json.noFloatItems, Bool.and_eq_true] at hfloat
    exact ⟨Json.Fixed.readable hfix.1 hfloat.1, Json.FixedItems.readable hfix.2 hfloat.2⟩

theorem Json.FixedFields.readable : ∀ {fields : List (Str × Json)}, Json.FixedFields hook fields →
    Json.noFloatFields fields = true → Json.ReadableFields hook (fun _ => True) fields
  | [], _, _ => trivial
  | (_, _) :: _, hfix, hfloat => by
    simp only [Json.noFloatFields, Bool.and_eq_true] at hfloat
    exact ⟨trivial, Json.Fixed.readable hfix.1 hfloat.1, Json.FixedFields.readable hfix.2 hfloat.2⟩

end

/-- `json.loads(json.dumps(j) + "\n")` is `j` when the hook accepts its dictionaries. -/
theorem loads_dumps {j : Json} (hfix : j.Fixed hook) (hfloat : j.noFloat = true) :
    loads hook (dumps j ++ [10]) = some j := by
  rw [← printed_compact 0 j]
  exact loads_printed compact_sound (hfix.readable hfloat)

mutual

/-- A hook that keeps sorted items keeps every well-formed value. -/
theorem Json.WF.fixed {hook : List (Str × Json) → Option (List (Str × Json))}
    (hhook : ∀ kvs : List (Str × Json), (kvs.map Prod.fst).Pairwise (· < ·) → hook kvs = some kvs) :
    ∀ {j : Json}, j.WF → j.Fixed hook
  | .null, _ | .bool _, _ | .int _, _ | .float _, _ | .str _, _ => trivial
  | .arr _, h => Json.WFItems.fixed hhook h
  | .obj _, h => ⟨hhook _ h.1, Json.WFFields.fixed hhook h.2⟩

theorem Json.WFItems.fixed {hook : List (Str × Json) → Option (List (Str × Json))}
    (hhook : ∀ kvs : List (Str × Json), (kvs.map Prod.fst).Pairwise (· < ·) → hook kvs = some kvs) :
    ∀ {items : List Json}, Json.WFItems items → Json.FixedItems hook items
  | [], _ => trivial
  | _ :: _, h => ⟨Json.WF.fixed hhook h.1, Json.WFItems.fixed hhook h.2⟩

theorem Json.WFFields.fixed {hook : List (Str × Json) → Option (List (Str × Json))}
    (hhook : ∀ kvs : List (Str × Json), (kvs.map Prod.fst).Pairwise (· < ·) → hook kvs = some kvs) :
    ∀ {fields : List (Str × Json)}, Json.WFFields fields → Json.FixedFields hook fields
  | [], _ => trivial
  | (_, _) :: _, h => ⟨Json.WF.fixed hhook h.1, Json.WFFields.fixed hhook h.2⟩

end

mutual

private theorem Json.fixed_some : ∀ j : Json, j.Fixed some
  | .null | .bool _ | .int _ | .float _ | .str _ => trivial
  | .arr items => Json.fixedItems_some items
  | .obj fields => ⟨rfl, Json.fixedFields_some fields⟩

private theorem Json.fixedItems_some : ∀ items : List Json, Json.FixedItems some items
  | [] => trivial
  | x :: xs => ⟨Json.fixed_some x, Json.fixedItems_some xs⟩

private theorem Json.fixedFields_some : ∀ fields : List (Str × Json), Json.FixedFields some fields
  | [] => trivial
  | (_, v) :: rest => ⟨Json.fixed_some v, Json.fixedFields_some rest⟩

end

end Fixed

/-- The printed text determines the value. -/
theorem dumps_injective {a b : Json} (ha : a.noFloat = true) (hb : b.noFloat = true)
    (h : dumps a = dumps b) : a = b := by
  have hread := loads_dumps (Json.fixed_some a) ha
  rw [h, loads_dumps (Json.fixed_some b) hb] at hread
  exact (Option.some.inj hread).symm

/-! ### Printed text is one line -/

private theorem le_of_mem_escapeChar {c d : Nat} (h : d ∈ escapeChar c) : 32 ≤ d := by
  have hhex : ∀ n, 32 ≤ hexDigit n := by
    intro n
    unfold hexDigit
    split <;> omega
  unfold escapeChar at h
  split_ifs at h <;> simp only [List.mem_cons, List.not_mem_nil, or_false] at h
  all_goals first
    | omega
    | (rcases h with rfl | rfl | rfl | rfl | rfl | rfl <;> first | omega | exact hhex _)

private theorem le_of_mem_quote {s : Str} {d : Nat} (h : d ∈ quote s) : 32 ≤ d := by
  simp only [quote, List.mem_cons, List.mem_append, List.mem_flatMap, List.not_mem_nil, or_false] at h
  rcases h with rfl | ⟨c, _, hc⟩ | rfl
  · decide
  · exact le_of_mem_escapeChar hc
  · decide

private theorem le_of_mem_intRepr {n : Int} {d : Nat} (h : d ∈ intRepr n) : 32 ≤ d := by
  have hdigit : ∀ m, d ∈ natRepr m → 32 ≤ d := by
    intro m hm
    have := isDigit_of_mem_natRepr hm
    simp only [isDigit, Bool.and_eq_true, decide_eq_true_eq] at this
    omega
  cases n with
  | ofNat m => exact hdigit m h
  | negSucc m =>
    rcases List.mem_cons.mp h with rfl | h
    · decide
    · exact hdigit _ h

mutual

/-- No control character occurs in printed JSON. -/
theorem le_of_mem_dumps : ∀ {j : Json}, j.noFloat = true → ∀ {d : Nat}, d ∈ dumps j → 32 ≤ d
  | .null, _, d, h => (show ∀ d ∈ lit "null", 32 ≤ d by decide) d h
  | .bool true, _, d, h => (show ∀ d ∈ lit "true", 32 ≤ d by decide) d h
  | .bool false, _, d, h => (show ∀ d ∈ lit "false", 32 ≤ d by decide) d h
  | .int n, _, d, h => le_of_mem_intRepr h
  | .float _, hf, _, _ => by cases hf
  | .str s, _, d, h => le_of_mem_quote h
  | .arr [], _, d, h => (show ∀ d ∈ [91, 93], 32 ≤ d by decide) d h
  | .arr (x :: xs), hf, d, h => by
    simp only [Json.noFloat, Json.noFloatItems, Bool.and_eq_true] at hf
    simp only [dumps, List.mem_cons, List.mem_append] at h
    rcases h with rfl | h | h
    · decide
    · exact le_of_mem_dumps hf.1 h
    · exact le_of_mem_dumpsItems hf.2 h
  | .obj [], _, d, h => (show ∀ d ∈ [123, 125], 32 ≤ d by decide) d h
  | .obj ((k, v) :: rest), hf, d, h => by
    simp only [Json.noFloat, Json.noFloatFields, Bool.and_eq_true] at hf
    simp only [dumps, List.mem_cons, List.mem_append] at h
    rcases h with rfl | h | rfl | h | h
    · decide
    · exact le_of_mem_quote h
    · decide
    · exact le_of_mem_dumps hf.1 h
    · exact le_of_mem_dumpsFields hf.2 h

theorem le_of_mem_dumpsItems : ∀ {xs : List Json}, Json.noFloatItems xs = true →
    ∀ {d : Nat}, d ∈ dumpsItems xs → 32 ≤ d
  | [], _, d, h => (show ∀ d ∈ [93], 32 ≤ d by decide) d h
  | x :: xs, hf, d, h => by
    simp only [Json.noFloatItems, Bool.and_eq_true] at hf
    simp only [dumpsItems, List.mem_cons, List.mem_append] at h
    rcases h with rfl | h | h
    · decide
    · exact le_of_mem_dumps hf.1 h
    · exact le_of_mem_dumpsItems hf.2 h

theorem le_of_mem_dumpsFields : ∀ {kvs : List (Str × Json)}, Json.noFloatFields kvs = true →
    ∀ {d : Nat}, d ∈ dumpsFields kvs → 32 ≤ d
  | [], _, d, h => (show ∀ d ∈ [125], 32 ≤ d by decide) d h
  | (k, v) :: rest, hf, d, h => by
    simp only [Json.noFloatFields, Bool.and_eq_true] at hf
    simp only [dumpsFields, List.mem_cons, List.mem_append] at h
    rcases h with rfl | h | rfl | h | h
    · decide
    · exact le_of_mem_quote h
    · decide
    · exact le_of_mem_dumps hf.1 h
    · exact le_of_mem_dumpsFields hf.2 h

end

end pylib
