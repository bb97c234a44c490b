import Mathlib.Data.List.TakeWhile
import Mathlib.Data.Rat.Cast.Order
import Mathlib.Tactic.FieldSimp
import Mathlib.Tactic.Positivity
import Mathlib.Tactic.Ring
import Narwhal.Lib.JsDate
import Narwhal.Lib.JsRecord

open jslib

namespace narwhal.portal.storage

/-! ### Quantities -/

def MAX_STORAGE_BYTES : Nat := 9223372036854775807

def STORAGE_MULTIPLIERS : List (Text × Nat) := [
  ("".toList, 1),
  ("Ki".toList, 1024), ("Mi".toList, 1024 ^ 2), ("Gi".toList, 1024 ^ 3),
  ("Ti".toList, 1024 ^ 4), ("Pi".toList, 1024 ^ 5), ("Ei".toList, 1024 ^ 6),
  ("k".toList, 1000), ("M".toList, 1000 ^ 2), ("G".toList, 1000 ^ 3),
  ("T".toList, 1000 ^ 4), ("P".toList, 1000 ^ 5), ("E".toList, 1000 ^ 6)]

/-- The whole part, the digits of the fraction, and the multiplier of the suffix. -/
def matchQuantity (s : Text) : Option (Text × Text × Nat) :=
  let whole := s.takeWhile isDigit
  let rest := s.dropWhile isDigit
  if whole = [] ∨ whole ≠ ['0'] ∧ whole.head? = some '0' then none
  else
    match rest with
    | '.' :: rest =>
      if rest.takeWhile isDigit = [] then none
      else (STORAGE_MULTIPLIERS.lookup (rest.dropWhile isDigit)).map fun multiplier =>
        (whole, rest.takeWhile isDigit, multiplier)
    | suffix => (STORAGE_MULTIPLIERS.lookup suffix).map fun multiplier => (whole, [], multiplier)

def parseStorageQuantity (input : Text) : Option Nat :=
  if 64 < utf16Length input then none
  else
    match matchQuantity input with
    | none => none
    | some (whole, fraction, multiplier) =>
      let scale := 10 ^ fraction.length
      let numerator := number (whole ++ fraction) * multiplier
      if numerator % scale ≠ 0 then none
      else if numerator / scale ≤ MAX_STORAGE_BYTES then some (numerator / scale)
      else none

/-- Only strings are quantities. -/
def parseStorage (input : Option Json) : Option Nat := (input.bind Json.string).bind parseStorageQuantity

/-! ### What a quantity says -/

/-- A number without leading zeros, with a fraction or none, and a suffix. -/
structure Quantity where
  whole : Text
  fraction : Option Text
  suffix : Text × Nat
  whole_ne_nil : whole ≠ []
  whole_digits : ∀ c ∈ whole, isDigit c = true
  whole_zero : whole.head? = some '0' → whole = ['0']
  fraction_ne_nil : ∀ f ∈ fraction, f ≠ []
  fraction_digits : ∀ f ∈ fraction, ∀ c ∈ f, isDigit c = true
  known : suffix ∈ STORAGE_MULTIPLIERS

namespace Quantity

def text (q : Quantity) : Text :=
  q.whole ++ (match q.fraction with | some f => '.' :: f | none => []) ++ q.suffix.1

def digits (q : Quantity) : Text := q.fraction.getD []

/-- The exact value. -/
def value (q : Quantity) : ℚ := (number q.whole + number q.digits / 10 ^ q.digits.length) * q.suffix.2

end Quantity

theorem number_append (s t : Text) : number (s ++ t) = number s * 10 ^ t.length + number t := by
  have hfold : ∀ (t : Text) (n : Nat), t.foldl (fun n c => 10 * n + (c.toNat - 48)) n =
      n * 10 ^ t.length + t.foldl (fun n c => 10 * n + (c.toNat - 48)) 0 := by
    intro t
    induction t with
    | nil => simp
    | cons c t ih =>
      intro n
      rw [List.foldl_cons, List.foldl_cons, ih, ih (10 * 0 + _), List.length_cons]
      ring
  rw [number, List.foldl_append, hfold]
  rfl

/-! ### Reading a quantity -/

theorem suffixes : STORAGE_MULTIPLIERS.all (fun suffix =>
    suffix.1.head?.all (fun c => !isDigit c && c != '.') && STORAGE_MULTIPLIERS.lookup suffix.1 = some suffix.2 &&
      0 < suffix.2) = true := by
  decide

theorem suffix_facts {suffix : Text × Nat} (h : suffix ∈ STORAGE_MULTIPLIERS) :
    (∀ c, suffix.1.head? = some c → isDigit c = false ∧ c ≠ '.') ∧
      STORAGE_MULTIPLIERS.lookup suffix.1 = some suffix.2 ∧ 0 < suffix.2 := by
  have hall := List.all_eq_true.mp suffixes suffix h
  simp only [Bool.and_eq_true, decide_eq_true_eq] at hall
  obtain ⟨⟨hhead, hlookup⟩, hpos⟩ := hall
  refine ⟨fun c hc => ?_, hlookup, hpos⟩
  rw [hc] at hhead
  simpa using hhead

theorem takeWhile_digits {digits rest : Text} (hdigits : ∀ c ∈ digits, isDigit c = true)
    (hrest : ∀ c, rest.head? = some c → isDigit c = false) :
    (digits ++ rest).takeWhile isDigit = digits ∧ (digits ++ rest).dropWhile isDigit = rest := by
  rw [List.takeWhile_append_of_pos hdigits, List.dropWhile_append_of_pos hdigits]
  cases rest with
  | nil => simp
  | cons c rest => simp [hrest c rfl]

namespace Quantity

theorem matchQuantity_text (q : Quantity) : matchQuantity q.text = some (q.whole, q.digits, q.suffix.2) := by
  obtain ⟨hhead, hlookup, -⟩ := suffix_facts q.known
  have hfirst : ¬ (q.whole = [] ∨ q.whole ≠ ['0'] ∧ q.whole.head? = some '0') := by
    rintro (hnil | ⟨hne, hzero⟩)
    · exact q.whole_ne_nil hnil
    · exact hne (q.whole_zero hzero)
  cases hfraction : q.fraction with
  | none =>
    have hsplit := takeWhile_digits q.whole_digits fun c hc => (hhead c hc).1
    have htext : q.text = q.whole ++ q.suffix.1 := by simp [text, hfraction]
    rw [matchQuantity, htext, hsplit.1, hsplit.2, if_neg hfirst]
    split
    · next rest hdot => exact absurd rfl (hhead '.' (by rw [hdot]; rfl)).2
    · simp [hlookup, digits, hfraction]
  | some f =>
    have hne := q.fraction_ne_nil f hfraction
    have hdot : ∀ c, ('.' :: f ++ q.suffix.1).head? = some c → isDigit c = false := by
      intro c hc
      rw [← Option.some.inj hc]
      rfl
    have hwhole := takeWhile_digits q.whole_digits hdot
    have hrest := takeWhile_digits (q.fraction_digits f hfraction) fun c hc => (hhead c hc).1
    have htext : q.text = q.whole ++ ('.' :: f ++ q.suffix.1) := by simp [text, hfraction]
    rw [matchQuantity, htext, hwhole.1, hwhole.2, if_neg hfirst]
    simp only [List.cons_append, hrest.1, hrest.2, if_neg hne, hlookup, Option.map_some, digits, hfraction,
      Option.getD_some]

end Quantity

theorem mem_of_lookup {suffix : Text} {multiplier : Nat} (h : STORAGE_MULTIPLIERS.lookup suffix = some multiplier) :
    (suffix, multiplier) ∈ STORAGE_MULTIPLIERS := by
  obtain ⟨l, r, hlr, -⟩ := List.lookup_eq_some_iff.mp h
  rw [hlr]
  simp

/-- What is read is a quantity. -/
theorem exists_quantity {s whole fraction : Text} {multiplier : Nat}
    (h : matchQuantity s = some (whole, fraction, multiplier)) :
    ∃ q : Quantity, q.text = s ∧ q.whole = whole ∧ q.digits = fraction ∧ q.suffix.2 = multiplier := by
  have hs := List.takeWhile_append_dropWhile (p := isDigit) (l := s)
  unfold matchQuantity at h
  dsimp only at h
  split_ifs at h with hfirst
  rw [not_or, not_and_or, not_not] at hfirst
  have hzero : (s.takeWhile isDigit).head? = some '0' → s.takeWhile isDigit = ['0'] :=
    fun hhead => hfirst.2.resolve_right fun hne => hne hhead
  have hdigits : ∀ t : Text, ∀ c ∈ t.takeWhile isDigit, isDigit c = true := fun t c hc => List.mem_takeWhile_imp hc
  split at h
  · next rest hdot =>
    split_ifs at h with hempty
    obtain ⟨multiplier, hlookup, hparts⟩ := Option.map_eq_some_iff.mp h
    obtain ⟨rfl, hmore⟩ := Prod.mk.inj hparts
    obtain ⟨rfl, rfl⟩ := Prod.mk.inj hmore
    refine ⟨⟨s.takeWhile isDigit, some (rest.takeWhile isDigit), (rest.dropWhile isDigit, multiplier), hfirst.1,
      hdigits s, hzero, ?_, ?_, mem_of_lookup hlookup⟩, ?_, rfl, rfl, rfl⟩
    · rintro f ⟨⟩
      exact hempty
    · rintro f ⟨⟩
      exact hdigits rest
    · simp only [Quantity.text, List.append_assoc, List.cons_append, List.takeWhile_append_dropWhile]
      rw [← hdot, hs]
  · next suffix =>
    obtain ⟨multiplier, hlookup, hparts⟩ := Option.map_eq_some_iff.mp h
    obtain ⟨rfl, hmore⟩ := Prod.mk.inj hparts
    obtain ⟨rfl, rfl⟩ := Prod.mk.inj hmore
    refine ⟨⟨s.takeWhile isDigit, none, (s.dropWhile isDigit, multiplier), hfirst.1, hdigits s, hzero, ?_, ?_,
      mem_of_lookup hlookup⟩, ?_, rfl, rfl, rfl⟩
    · rintro f ⟨⟩
    · rintro f ⟨⟩
    · simpa only [Quantity.text, List.append_nil] using hs

/-- The scale divides the numerator exactly where the value is whole. -/
theorem value_eq_iff (q : Quantity) (n : Nat) :
    q.value = n ↔ number (q.whole ++ q.digits) * q.suffix.2 = n * 10 ^ q.digits.length := by
  have hscale : (10 : ℚ) ^ q.digits.length ≠ 0 := by positivity
  have hsum : q.value = (number (q.whole ++ q.digits) * q.suffix.2 : Nat) / 10 ^ q.digits.length := by
    rw [Quantity.value, number_append]
    push_cast
    field_simp
  rw [hsum, div_eq_iff hscale]
  exact_mod_cast Iff.rfl

def isQuantityChar (c : Char) : Bool := isDigit c || c == '.' || "KMGTPEik".toList.contains c

theorem suffix_chars :
    STORAGE_MULTIPLIERS.all (fun suffix => suffix.1.all isQuantityChar) = true := by
  decide

theorem utf16Length_of_isQuantityChar {s : Text} (h : ∀ c ∈ s, isQuantityChar c = true) : utf16Length s = s.length := by
  induction s with
  | nil => rfl
  | cons c s ih =>
    have hc : c.toNat < 0x10000 := by
      have hchar := h c List.mem_cons_self
      simp only [isQuantityChar, isDigit, Bool.or_eq_true, Bool.and_eq_true, decide_eq_true_eq, beq_iff_eq,
        List.contains_iff_mem] at hchar
      obtain ((⟨-, hle⟩ | rfl) | hmem) := hchar
      · have hnine : c.toNat ≤ '9'.toNat := hle
        exact lt_of_le_of_lt hnine (by decide)
      · decide
      · have hall : "KMGTPEik".toList.all (fun c => c.toNat < 0x10000) = true := by decide
        simpa using List.all_eq_true.mp hall c hmem
    have hrest := ih fun d hd => h d (List.mem_cons_of_mem c hd)
    simp only [utf16Length, List.map_cons, List.sum_cons, if_pos hc] at hrest ⊢
    rw [hrest, List.length_cons, Nat.add_comm]

namespace Quantity

theorem chars (q : Quantity) : ∀ c ∈ q.text, isQuantityChar c = true := by
  intro c hc
  have hdigit : isDigit c = true → isQuantityChar c = true := fun h => by simp [isQuantityChar, h]
  rw [text, List.mem_append, List.mem_append] at hc
  rcases hc with (hwhole | hfraction) | hsuffix
  · exact hdigit (q.whole_digits c hwhole)
  · cases hf : q.fraction with
    | none =>
      rw [hf] at hfraction
      cases hfraction
    | some f =>
      rw [hf] at hfraction
      rcases List.mem_cons.mp hfraction with rfl | hmem
      · decide
      · exact hdigit (q.fraction_digits f hf c hmem)
  · exact List.all_eq_true.mp (List.all_eq_true.mp suffix_chars q.suffix q.known) c hsuffix

end Quantity

/-- A string is read as the value of the quantity it writes, if that is a whole number in range. -/
theorem parseStorageQuantity_eq_some_iff {s : Text} {n : Nat} :
    parseStorageQuantity s = some n ↔
      s.length ≤ 64 ∧ (∃ q : Quantity, q.text = s ∧ q.value = n) ∧ n ≤ MAX_STORAGE_BYTES := by
  constructor
  · intro h
    unfold parseStorageQuantity at h
    split_ifs at h with hlong
    cases hmatch : matchQuantity s with
    | none =>
      rw [hmatch] at h
      cases h
    | some parts =>
      obtain ⟨whole, fraction, multiplier⟩ := parts
      obtain ⟨q, rfl, rfl, rfl, rfl⟩ := exists_quantity hmatch
      rw [hmatch] at h
      dsimp only at h
      split_ifs at h with hwhole hrange
      rw [not_not] at hwhole
      obtain rfl := Option.some.inj h
      rw [utf16Length_of_isQuantityChar q.chars] at hlong
      refine ⟨Nat.le_of_not_lt hlong, ⟨q, rfl, ?_⟩, hrange⟩
      rw [value_eq_iff, Nat.div_mul_cancel (Nat.dvd_of_mod_eq_zero hwhole)]
  · rintro ⟨hlength, ⟨q, rfl, hvalue⟩, hrange⟩
    have hscale : 0 < 10 ^ q.digits.length := by positivity
    rw [value_eq_iff] at hvalue
    have hlong : ¬ 64 < utf16Length q.text := by
      rw [utf16Length_of_isQuantityChar q.chars]
      exact Nat.not_lt_of_le hlength
    have hwhole : ¬ number (q.whole ++ q.digits) * q.suffix.2 % 10 ^ q.digits.length ≠ 0 := by
      rw [not_not, hvalue, Nat.mul_mod_left]
    have hdiv : number (q.whole ++ q.digits) * q.suffix.2 / 10 ^ q.digits.length = n := by
      rw [hvalue, Nat.mul_div_cancel n hscale]
    simp only [parseStorageQuantity, if_neg hlong, q.matchQuantity_text, if_neg hwhole, hdiv, if_pos hrange]

/-! ### Expansion of a volume -/

inductive PvcExpansionReason where
  | requestedUnparseable | requestedNotLarger | classExpansionUnsupported | exceedsQuotaHeadroom | resizeInProgress
  | notBound | currentUnknown | classUnknown | quotaEvidenceMissing | phaseUnknown | resizeStateUnknown
deriving DecidableEq, Repr

inductive Verdict where
  | allowed | blocked | needsEvidence
deriving DecidableEq, Repr

/-- The facts of an input, where they are known. -/
structure Facts where
  requested : Option Nat
  current : Option Nat
  headroom : Option Nat
  boundPhase : Option Text
  resizeInProgress : Option Bool
  expansion : Option Bool
deriving DecidableEq

def snapshot (input : Json) : Facts where
  requested := parseStorage (input.get "requestedBytes".toList)
  current := parseStorage (input.get "currentBytes".toList)
  headroom := parseStorage (input.get "quotaHeadroomBytes".toList)
  boundPhase := input.getString "boundPhase".toList
  resizeInProgress := input.getBoolean "resizeInProgress".toList
  expansion := (input.get "storageClass".toList).bind fun storageClass =>
    storageClass.getBoolean "allowVolumeExpansion".toList

/-- A reason, where it applies. -/
def reasonIf (applies : Bool) (reason : PvcExpansionReason) : List PvcExpansionReason := if applies then [reason] else []

namespace Facts

/-- The reasons that block. -/
def blockers (req : Facts) : List PvcExpansionReason :=
  reasonIf req.requested.isNone .requestedUnparseable ++
  reasonIf (∃ requested ∈ req.requested, ∃ current ∈ req.current, requested ≤ current) .requestedNotLarger ++
  reasonIf (req.expansion = some false) .classExpansionUnsupported ++
  reasonIf (∃ requested ∈ req.requested, ∃ current ∈ req.current, ∃ headroom ∈ req.headroom,
    headroom < requested - current) .exceedsQuotaHeadroom ++
  reasonIf (req.resizeInProgress = some true) .resizeInProgress ++
  reasonIf (∃ phase ∈ req.boundPhase, phase ≠ "Bound".toList) .notBound

/-- The facts that are missing. -/
def gaps (req : Facts) : List PvcExpansionReason :=
  reasonIf req.current.isNone .currentUnknown ++
  reasonIf req.expansion.isNone .classUnknown ++
  reasonIf req.headroom.isNone .quotaEvidenceMissing ++
  reasonIf req.boundPhase.isNone .phaseUnknown ++
  reasonIf req.resizeInProgress.isNone .resizeStateUnknown

def verdict (req : Facts) : Verdict :=
  if req.blockers ≠ [] then .blocked else if req.gaps ≠ [] then .needsEvidence else .allowed

end Facts

def evaluatePvcExpansion (input : Json) : Verdict × List PvcExpansionReason :=
  let req := snapshot input
  (req.verdict, req.blockers ++ req.gaps)

theorem reasonIf_eq_nil_iff {applies : Bool} {reason : PvcExpansionReason} :
    reasonIf applies reason = [] ↔ applies = false := by
  cases applies <;> simp [reasonIf]

namespace Facts

theorem blockers_eq_nil_iff {req : Facts} : req.blockers = [] ↔
    req.requested ≠ none ∧
    (∀ requested ∈ req.requested, ∀ current ∈ req.current, current < requested) ∧
    req.expansion ≠ some false ∧
    (∀ requested ∈ req.requested, ∀ current ∈ req.current, ∀ headroom ∈ req.headroom, requested - current ≤ headroom) ∧
    req.resizeInProgress ≠ some true ∧
    ∀ phase ∈ req.boundPhase, phase = "Bound".toList := by
  simp only [blockers, List.append_eq_nil_iff, reasonIf_eq_nil_iff, Option.isNone_eq_false_iff, decide_eq_false_iff_not,
    not_exists, not_and, not_le, not_lt, not_not, Option.isSome_iff_ne_none, and_assoc, ne_eq]

theorem gaps_eq_nil_iff {req : Facts} : req.gaps = [] ↔
    req.current ≠ none ∧ req.expansion ≠ none ∧ req.headroom ≠ none ∧ req.boundPhase ≠ none ∧
      req.resizeInProgress ≠ none := by
  simp only [gaps, List.append_eq_nil_iff, reasonIf_eq_nil_iff, Option.isNone_eq_false_iff, Option.isSome_iff_ne_none,
    and_assoc, ne_eq]

theorem verdict_eq_allowed_iff {req : Facts} : req.verdict = .allowed ↔ req.blockers = [] ∧ req.gaps = [] := by
  unfold verdict
  split_ifs with hblocked hgaps
  · simp [hblocked]
  · simp [hgaps]
  · simpa using ⟨not_not.mp hblocked, not_not.mp hgaps⟩

/-- What makes an expansion allowed. -/
structure Allows (req : Facts) (wanted held room : Nat) : Prop where
  requested : req.requested = some wanted
  current : req.current = some held
  headroom : req.headroom = some room
  larger : held < wanted
  fits : wanted - held ≤ room
  expands : req.expansion = some true
  idle : req.resizeInProgress = some false
  bound : req.boundPhase = some "Bound".toList

theorem verdict_eq_allowed_iff_allows {req : Facts} :
    req.verdict = .allowed ↔ ∃ wanted held room, req.Allows wanted held room := by
  rw [verdict_eq_allowed_iff, blockers_eq_nil_iff, gaps_eq_nil_iff]
  constructor
  · rintro ⟨⟨hrequested, hlarger, hexpansion, hfits, hresize, hphase⟩, hcurrent, hclass, hheadroom, hbound, hstate⟩
    obtain ⟨requested, hrequested⟩ := Option.ne_none_iff_exists'.mp hrequested
    obtain ⟨current, hcurrent⟩ := Option.ne_none_iff_exists'.mp hcurrent
    obtain ⟨headroom, hheadroom⟩ := Option.ne_none_iff_exists'.mp hheadroom
    obtain ⟨phase, hbound⟩ := Option.ne_none_iff_exists'.mp hbound
    obtain ⟨expansion, hclass⟩ := Option.ne_none_iff_exists'.mp hclass
    obtain ⟨resizing, hstate⟩ := Option.ne_none_iff_exists'.mp hstate
    refine ⟨requested, current, headroom, hrequested, hcurrent, hheadroom, hlarger _ hrequested _ hcurrent,
      hfits _ hrequested _ hcurrent _ hheadroom, ?_, ?_, ?_⟩
    · cases expansion
      · exact absurd hclass hexpansion
      · exact hclass
    · cases resizing
      · exact hstate
      · exact absurd hstate hresize
    · rw [hbound, hphase phase hbound]
  · rintro ⟨wanted, held, room, h⟩
    have hlarger := h.larger
    have hfits := h.fits
    simp [h.requested, h.current, h.headroom, h.expands, h.idle, h.bound]
    omega

/-- The known facts stay, and others may take the place of the missing ones; the request is the same. -/
structure Completed (req req' : Facts) : Prop where
  requested : req'.requested = req.requested
  current : ∀ n, req.current = some n → req'.current = some n
  headroom : ∀ n, req.headroom = some n → req'.headroom = some n
  boundPhase : ∀ phase, req.boundPhase = some phase → req'.boundPhase = some phase
  resizeInProgress : ∀ b, req.resizeInProgress = some b → req'.resizeInProgress = some b
  expansion : ∀ b, req.expansion = some b → req'.expansion = some b

theorem Completed.blockers {req req' : Facts} (h : req.Completed req') (hnil : req'.blockers = []) :
    req.blockers = [] := by
  rw [blockers_eq_nil_iff] at hnil ⊢
  obtain ⟨hrequested, hlarger, hexpansion, hfits, hresize, hphase⟩ := hnil
  rw [h.requested] at hrequested hlarger hfits
  refine ⟨hrequested, ?_, ?_, ?_, ?_, ?_⟩
  · exact fun requested hr current hc => hlarger requested hr current (h.current current hc)
  · exact fun hfalse => hexpansion (h.expansion false hfalse)
  · exact fun requested hr current hc headroom hh =>
      hfits requested hr current (h.current current hc) headroom (h.headroom headroom hh)
  · exact fun htrue => hresize (h.resizeInProgress true htrue)
  · exact fun phase hp => hphase phase (h.boundPhase phase hp)

theorem verdict_eq_blocked_iff {req : Facts} : req.verdict = .blocked ↔ req.blockers ≠ [] := by
  unfold verdict
  split_ifs with hblocked hgaps
  · simp [hblocked]
  · simpa using not_not.mp hblocked
  · simpa using not_not.mp hblocked

end Facts

/-- A quantity is its exact value; an expansion is allowed exactly on the facts that allow it, and blocked only where no
    facts in place of the missing ones would allow it. -/
theorem storage_exact :
    (∀ (s : Text) (n : Nat), parseStorageQuantity s = some n ↔
      s.length ≤ 64 ∧ (∃ q : Quantity, q.text = s ∧ q.value = n) ∧ n ≤ 2 ^ 63 - 1) ∧
    (∀ input, (evaluatePvcExpansion input).1 = .allowed ↔
      ∃ wanted held room, (snapshot input).Allows wanted held room) ∧
    ∀ input input', (snapshot input).Completed (snapshot input') → (evaluatePvcExpansion input).1 = .blocked →
      (evaluatePvcExpansion input').1 ≠ .allowed := by
  refine ⟨?_, ?_, ?_⟩
  · exact fun s n => parseStorageQuantity_eq_some_iff
  · exact fun input => Facts.verdict_eq_allowed_iff_allows
  · intro input input' hcompleted hblocked hallowed
    have hnil := (Facts.verdict_eq_allowed_iff.mp hallowed).1
    exact Facts.verdict_eq_blocked_iff.mp hblocked (hcompleted.blockers hnil)

example : parseStorageQuantity "1.5Ki".toList = some 1536 ∧ parseStorageQuantity "0.1".toList = none := by decide

end narwhal.portal.storage
