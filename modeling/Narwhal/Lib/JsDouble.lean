import Mathlib.Data.Int.ConditionallyCompleteOrder
import Mathlib.Data.Int.Log
import Mathlib.Data.Rat.Floor
import Narwhal.Lib.JsDate
import Narwhal.Lib.JsJson

namespace jslib

/-! Numbers in double precision. -/

/-! ### Rounding -/

/-- The nearest integer, the even one of two. -/
def roundHalfEven (q : ℚ) : ℤ :=
  let n := ⌊q⌋
  if q - n < 1 / 2 ∨ q - n = 1 / 2 ∧ 2 ∣ n then n else n + 1

/-- The weight of the last of the 53 digits of a double near this number. -/
def ulp (q : ℚ) : ℚ := 2 ^ (max (Int.log 2 |q|) (-1022) - 52)

/-- The nearest double. -/
def roundDouble (q : ℚ) : ℚ := if q = 0 then 0 else roundHalfEven (q / ulp q) * ulp q

theorem roundHalfEven_intCast (n : ℤ) : roundHalfEven n = n := by
  simp [roundHalfEven]

/-- An integer of at most 53 digits is its own double. -/
theorem roundDouble_intCast {n : ℤ} (h : n.natAbs < 2 ^ 53) : roundDouble n = n := by
  by_cases hn : n = 0
  · simp [roundDouble, hn]
  · have habs : |(n : ℚ)| = (n.natAbs : ℚ) := by
      rw [← Int.cast_abs, Nat.cast_natAbs]
    have hlog : Int.log 2 |(n : ℚ)| = Nat.log 2 n.natAbs := by
      rw [habs, Int.log_natCast]
    have hsmall : Nat.log 2 n.natAbs < 53 := Nat.log_lt_of_lt_pow (Int.natAbs_ne_zero.mpr hn) h
    obtain ⟨k, hk⟩ : ∃ k : ℕ, max (Int.log 2 |(n : ℚ)|) (-1022) - 52 = -(k : ℤ) := by
      refine ⟨52 - Nat.log 2 n.natAbs, ?_⟩
      rw [hlog]
      omega
    have hulp : ulp n = (2 ^ k)⁻¹ := by
      rw [ulp, hk, zpow_neg, zpow_natCast]
    have hpow : (2 : ℚ) ^ k ≠ 0 := by positivity
    have hdiv : (n : ℚ) / ulp n = ((n * 2 ^ k : ℤ) : ℚ) := by
      rw [hulp, div_inv_eq_mul]
      push_cast
      rfl
    have hne : (n : ℚ) ≠ 0 := Int.cast_ne_zero.mpr hn
    rw [roundDouble, if_neg hne, hdiv, roundHalfEven_intCast, hulp]
    push_cast
    field_simp

theorem ulp_pos (q : ℚ) : 0 < ulp q := zpow_pos (by norm_num) _

theorem roundHalfEven_nonneg {q : ℚ} (h : 0 ≤ q) : 0 ≤ roundHalfEven q := by
  have hfloor : 0 ≤ ⌊q⌋ := Int.floor_nonneg.mpr h
  unfold roundHalfEven
  dsimp only
  split_ifs
  · exact hfloor
  · omega

theorem roundDouble_nonneg {q : ℚ} (h : 0 ≤ q) : 0 ≤ roundDouble q := by
  unfold roundDouble
  split_ifs
  · exact le_rfl
  · have hround := roundHalfEven_nonneg (div_nonneg h (ulp_pos q).le)
    exact mul_nonneg (by exact_mod_cast hround) (ulp_pos q).le

/-- Of 54 digits the last one is lost. -/
theorem ulp_natCast_of_54_digits {n : ℕ} (h : 2 ^ 53 ≤ n) (h' : n < 2 ^ 54) : ulp n = 2 := by
  have hlog : Int.log 2 |(n : ℚ)| = 53 := by
    rw [abs_of_nonneg (Nat.cast_nonneg n), Int.log_natCast, Nat.log_eq_of_pow_le_of_lt_pow h h']
    rfl
  rw [ulp, hlog]
  norm_num

theorem roundHalfEven_mono : Monotone roundHalfEven := by
  intro p q hpq
  have hfloor : ⌊p⌋ ≤ ⌊q⌋ := Int.floor_le_floor hpq
  have hp : roundHalfEven p ≤ ⌊p⌋ + 1 := by
    unfold roundHalfEven
    dsimp only
    split_ifs <;> omega
  have hq : ⌊q⌋ ≤ roundHalfEven q := by
    unfold roundHalfEven
    dsimp only
    split_ifs <;> omega
  obtain hlt | heq := hfloor.lt_or_eq
  · omega
  · unfold roundHalfEven
    dsimp only
    rw [heq]
    split_ifs with hdown hup hup
    · exact le_rfl
    · omega
    · refine absurd ?_ hdown
      obtain hup | ⟨hhalf, heven⟩ := hup
      · exact .inl (by linarith)
      · exact (show p - (⌊q⌋ : ℚ) ≤ 1 / 2 by linarith).lt_or_eq.imp_right fun h => ⟨h, heven⟩
    · exact le_rfl

theorem roundDouble_eq (q : ℚ) : roundDouble q = roundHalfEven (q / ulp q) * ulp q := by
  unfold roundDouble
  split_ifs with h
  · simp [h, roundHalfEven]
  · rfl

theorem roundDouble_le {q : ℚ} {k : ℤ} (h : q ≤ k * ulp q) : roundDouble q ≤ k * ulp q := by
  have hround : roundHalfEven (q / ulp q) ≤ k := by
    rw [← roundHalfEven_intCast k]
    exact roundHalfEven_mono ((div_le_iff₀ (ulp_pos q)).mpr h)
  rw [roundDouble_eq]
  exact mul_le_mul_of_nonneg_right (by exact_mod_cast hround) (ulp_pos q).le

theorem le_roundDouble {q : ℚ} {k : ℤ} (h : k * ulp q ≤ q) : k * ulp q ≤ roundDouble q := by
  have hround : k ≤ roundHalfEven (q / ulp q) := by
    rw [← roundHalfEven_intCast k]
    exact roundHalfEven_mono ((le_div_iff₀ (ulp_pos q)).mpr h)
  rw [roundDouble_eq]
  exact mul_le_mul_of_nonneg_right (by exact_mod_cast hround) (ulp_pos q).le

/-- A number is less than 53 binary digits of its weight. -/
theorem abs_lt_ulp (q : ℚ) : |q| < 2 ^ 53 * ulp q := by
  have hlog : |q| < (2 : ℕ) ^ (Int.log 2 |q| + 1) := Int.lt_zpow_succ_log_self one_lt_two |q|
  rw [Nat.cast_ofNat] at hlog
  refine hlog.trans_le ?_
  rw [ulp, ← zpow_natCast, ← zpow_add₀ (by norm_num)]
  exact zpow_le_zpow_right₀ (by norm_num) (by push_cast; omega)

/-- Of two numbers with different weights, the one of the greater weight has all 53 digits, and they are
    twice the other weight at least. -/
theorem ulp_lt {p q : ℚ} (hq : q ≠ 0) (h : ulp p < ulp q) : 2 ^ 52 * ulp q ≤ |q| ∧ 2 ^ 53 * ulp p ≤ 2 ^ 52 * ulp q := by
  have hexp := (zpow_lt_zpow_iff_right₀ (by norm_num : (1 : ℚ) < 2)).mp h
  constructor
  · have hlog : ((2 : ℕ) : ℚ) ^ Int.log 2 |q| ≤ |q| := Int.zpow_log_le_self one_lt_two (abs_pos.mpr hq)
    rw [Nat.cast_ofNat] at hlog
    refine le_trans (le_of_eq ?_) hlog
    rw [ulp, ← zpow_natCast, ← zpow_add₀ (by norm_num)]
    congr 1
    push_cast
    omega
  · rw [ulp, ulp, ← zpow_natCast, ← zpow_natCast, ← zpow_add₀ (by norm_num), ← zpow_add₀ (by norm_num)]
    exact zpow_le_zpow_right₀ (by norm_num) (by push_cast; omega)

theorem roundDouble_mono : Monotone roundDouble := by
  intro p q hpq
  by_cases hp0 : p = 0
  · subst hp0
    exact roundDouble_nonneg hpq
  by_cases hq0 : q = 0
  · subst hq0
    have hle : roundDouble p ≤ (0 : ℤ) * ulp p := roundDouble_le (by simpa using hpq)
    simpa [roundDouble] using hle
  have hp := abs_lt.mp (abs_lt_ulp p)
  have hq := abs_lt.mp (abs_lt_ulp q)
  rcases lt_trichotomy (ulp p) (ulp q) with hulp | hulp | hulp
  · obtain ⟨hdigits, hweight⟩ := ulp_lt hq0 hulp
    have hle : roundDouble p ≤ (2 ^ 53 : ℤ) * ulp p := roundDouble_le (by push_cast; exact hp.2.le)
    have hqpos : 2 ^ 52 * ulp q ≤ q := by
      obtain h | h := le_abs'.mp hdigits
      · linarith [hp.1]
      · exact h
    have hge : (2 ^ 52 : ℤ) * ulp q ≤ roundDouble q := le_roundDouble (by push_cast; exact hqpos)
    push_cast at hle hge
    linarith
  · rw [roundDouble_eq, roundDouble_eq, hulp]
    have hround := roundHalfEven_mono (div_le_div_of_nonneg_right hpq (ulp_pos q).le)
    exact mul_le_mul_of_nonneg_right (by exact_mod_cast hround) (ulp_pos q).le
  · obtain ⟨hdigits, hweight⟩ := ulp_lt hp0 hulp
    have hpneg : p ≤ -(2 ^ 52 * ulp p) := by
      obtain h | h := le_abs'.mp hdigits
      · linarith
      · linarith [hq.2]
    have hle : roundDouble p ≤ (-2 ^ 52 : ℤ) * ulp p := roundDouble_le (by push_cast; linarith)
    have hge : (-2 ^ 53 : ℤ) * ulp q ≤ roundDouble q := le_roundDouble (by push_cast; linarith [hq.1])
    push_cast at hle hge
    linarith

/-- An integer is rounded to an integer. -/
theorem exists_roundDouble_intCast (n : ℤ) : ∃ k : ℤ, roundDouble n = k := by
  by_cases h : n.natAbs < 2 ^ 53
  · exact ⟨n, roundDouble_intCast h⟩
  · have hlog : 53 ≤ Int.log 2 |(n : ℚ)| := by
      rw [← Int.cast_abs, ← Nat.cast_natAbs, Int.log_natCast]
      exact_mod_cast Nat.le_log_of_pow_le one_lt_two (not_lt.mp h)
    obtain ⟨k, hk⟩ : ∃ k : ℕ, max (Int.log 2 |(n : ℚ)|) (-1022) - 52 = k := ⟨(Int.log 2 |(n : ℚ)| - 52).toNat, by omega⟩
    refine ⟨roundHalfEven (n / ulp n) * 2 ^ k, ?_⟩
    rw [roundDouble_eq]
    push_cast
    rw [ulp, hk, zpow_natCast]

theorem one_le_roundDouble {q : ℚ} (h : 1 ≤ q) : 1 ≤ roundDouble q := by
  have hone : roundDouble 1 = 1 := by exact_mod_cast roundDouble_intCast (n := 1) (by norm_num)
  exact hone ▸ roundDouble_mono h

theorem roundDouble_le_neg_one {q : ℚ} (h : q ≤ -1) : roundDouble q ≤ -1 := by
  have hone : roundDouble (-1) = -1 := by exact_mod_cast roundDouble_intCast (n := -1) (by norm_num)
  exact hone ▸ roundDouble_mono h

/-! ### Doubles -/

/-- A number; the rational is one that double precision can hold. -/
inductive Double where
  | nan
  | infinity (negative : Bool)
  | negZero
  | finite (q : ℚ)
deriving DecidableEq

namespace Double

def isNaN : Double → Bool
  | .nan => true
  | _ => false

def isFinite : Double → Bool
  | .nan | .infinity _ => false
  | .negZero | .finite _ => true

def isZero (x : Double) : Bool := x = .negZero ∨ x = .finite 0

def negative : Double → Bool
  | .nan => false
  | .infinity negative => negative
  | .negZero => true
  | .finite q => q < 0

def rat : Double → ℚ
  | .finite q => q
  | _ => 0

/-- The nearest double; a zero has this sign. -/
def ofRat (negative : Bool) (q : ℚ) : Double :=
  let r := roundDouble q
  if r = 0 then if negative then .negZero else .finite 0
  else if 2 ^ 1024 ≤ |r| then .infinity (r < 0)
  else .finite r

def ofNat (n : Nat) : Double := ofRat false n

def neg : Double → Double
  | .nan => .nan
  | .infinity negative => .infinity !negative
  | .negZero => .finite 0
  | .finite q => if q = 0 then .negZero else .finite (-q)

def add : Double → Double → Double
  | .nan, _ | _, .nan => .nan
  | .infinity a, .infinity b => if a = b then .infinity a else .nan
  | .infinity a, _ | _, .infinity a => .infinity a
  | .negZero, .negZero => .negZero
  | x, y => ofRat false (x.rat + y.rat)

def sub (x y : Double) : Double := x.add y.neg

def mul : Double → Double → Double
  | .nan, _ | _, .nan => .nan
  | .infinity a, y => if y.isZero then .nan else .infinity (a != y.negative)
  | x, .infinity b => if x.isZero then .nan else .infinity (x.negative != b)
  | x, y => ofRat (x.negative != y.negative) (x.rat * y.rat)

def div : Double → Double → Double
  | .nan, _ | _, .nan => .nan
  | .infinity _, .infinity _ => .nan
  | .infinity a, y => .infinity (a != y.negative)
  | x, .infinity b => ofRat (x.negative != b) 0
  | x, y =>
    if y.isZero then if x.isZero then .nan else .infinity (x.negative != y.negative)
    else ofRat (x.negative != y.negative) (x.rat / y.rat)

/-- Where a number stands in the order, before its rational is compared. -/
def rank : Double → ℤ
  | .infinity negative => if negative then -1 else 1
  | _ => 0

/-- `x < y`. -/
def lt (x y : Double) : Bool :=
  ¬ x.isNaN ∧ ¬ y.isNaN ∧ (x.rank < y.rank ∨ x.rank = y.rank ∧ x.rat < y.rat)

/-- `x >= y`. -/
def ge (x y : Double) : Bool :=
  ¬ x.isNaN ∧ ¬ y.isNaN ∧ (y.rank < x.rank ∨ y.rank = x.rank ∧ y.rat ≤ x.rat)

/-- `Math.min(x, y)`. -/
def min (x y : Double) : Double :=
  if x.isNaN ∨ y.isNaN then .nan else if y.lt x ∨ (y = .negZero ∧ x.isZero) then y else x

/-- `Math.round(x)`. -/
def round : Double → Double
  | .finite q => if q < 0 ∧ ⌊q + 1 / 2⌋ = 0 then .negZero else .finite ⌊q + 1 / 2⌋
  | x => x

/-- What is printed: a zero has no sign. -/
def printed (x : Double) : Double := if x = .negZero then .finite 0 else x

/-- What `JSON.stringify` and `JSON.parse` make of a number; `none` is `null`. -/
def json : Double → Option Double
  | .finite q => some (.finite q)
  | .negZero => some (.finite 0)
  | .nan | .infinity _ => none

/-- `x || y`. -/
def or (x y : Double) : Double := if x.isNaN ∨ x.isZero then y else x

/-- A number that decimal digits write. -/
def IsWhole (x : Double) : Prop := x = .infinity false ∨ ∃ k : ℤ, x = .finite k

theorem isWhole_ofNat (n : Nat) : (ofNat n).IsWhole := by
  obtain ⟨k, hk⟩ := exists_roundDouble_intCast n
  rw [Int.cast_natCast] at hk
  unfold ofNat ofRat
  dsimp only
  rw [hk]
  split_ifs with hzero hneg hbig
  · exact hneg.elim
  · exact .inr ⟨0, rfl⟩
  · left
    have hpos : 0 ≤ roundDouble n := roundDouble_nonneg (Nat.cast_nonneg n)
    simp [← hk, hpos]
  · exact .inr ⟨k, rfl⟩

/-- Where a number without a sign stands in the order. -/
def size : Double → WithTop ℚ
  | .infinity _ => ⊤
  | x => x.rat

theorem ofRat_pos_iff {q : ℚ} {negative : Bool} : lt (.finite 0) (ofRat negative q) = true ↔ 0 < roundDouble q := by
  unfold ofRat
  dsimp only
  split_ifs with hzero hneg hbig
  · simp [lt, isNaN, rank, rat, hzero]
  · simp [lt, isNaN, rank, rat, hzero]
  · by_cases hlt : roundDouble q < 0
    · simp [lt, isNaN, rank, rat, hlt, hlt.le]
    · simpa [lt, isNaN, rank, rat, hlt] using (not_lt.mp hlt).lt_of_ne' hzero
  · simp [lt, isNaN, rank, rat]

theorem ofRat_or {q : ℚ} {negative : Bool} {y : Double} :
    (ofRat negative q).or y = if roundDouble q = 0 then y else ofRat negative q := by
  unfold ofRat
  dsimp only
  split_ifs with hzero hneg hbig
  · rfl
  · rfl
  · simp [or, isNaN, isZero]
  · simp [or, isNaN, isZero, hzero]

theorem sub_finite (p q : ℚ) : (finite p).sub (.finite q) = ofRat false (p - q) := by
  by_cases hq : q = 0
  · simp [sub, neg, add, rat, hq]
  · simp [sub, neg, add, rat, hq, sub_eq_add_neg]

/-- The first of two differences counts, unless it is of equal numbers. -/
theorem sub_or_pos_iff {x y z : Double} (hx : x.IsWhole) (hy : y.IsWhole) :
    lt (.finite 0) ((x.sub y).or z) = true ↔ y.size < x.size ∨ x.size = y.size ∧ lt (.finite 0) z = true := by
  obtain rfl | ⟨j, rfl⟩ := hx <;> obtain rfl | ⟨k, rfl⟩ := hy
  · simp [sub, neg, add, or, isNaN, size]
  · have hsub : (infinity false).sub (.finite k) = .infinity false := by
      by_cases hk : (k : ℚ) = 0 <;> simp [sub, neg, add, hk]
    simp [hsub, or, isNaN, isZero, lt, rank, size]
  · have hsub : (finite j).sub (.infinity false) = .infinity true := rfl
    simp [hsub, or, isNaN, isZero, lt, rank, size]
  · rw [sub_finite, ofRat_or]
    have hsize : ∀ n : ℤ, size (.finite n) = ((n : ℚ) : WithTop ℚ) := fun _ => rfl
    simp only [hsize, WithTop.coe_lt_coe, WithTop.coe_inj, Int.cast_lt, Int.cast_inj]
    rcases lt_trichotomy j k with h | rfl | h
    · have hneg : roundDouble ((j : ℚ) - k) ≤ -1 :=
        roundDouble_le_neg_one (by exact_mod_cast (show j - k ≤ -1 by omega))
      rw [if_neg (by linarith), ofRat_pos_iff]
      exact ⟨fun hpos => by linarith, fun h' => by omega⟩
    · simp [roundDouble]
    · have hpos : 1 ≤ roundDouble ((j : ℚ) - k) :=
        one_le_roundDouble (by exact_mod_cast (show 1 ≤ j - k by omega))
      rw [if_neg (by linarith), ofRat_pos_iff]
      exact ⟨fun _ => .inl h, fun _ => by linarith⟩

theorem sub_pos_iff {x y : Double} (hx : x.IsWhole) (hy : y.IsWhole) :
    lt (.finite 0) (x.sub y) = true ↔ y.size < x.size := by
  have hor : ∀ d : Double, lt (.finite 0) (d.or (.finite 0)) = lt (.finite 0) d := by
    intro d
    unfold or
    split_ifs with h
    · have hd : d = .nan ∨ d = .negZero ∨ d = .finite 0 := by
        cases d <;> simp [isNaN, isZero] at h ⊢
        exact h
      obtain rfl | rfl | rfl := hd <;> rfl
    · rfl
  rw [← hor, sub_or_pos_iff hx hy]
  simp [lt, isNaN, rank, rat]

theorem json_printed (x : Double) : x.printed.json = some x.printed ↔ x.isFinite = true := by
  cases x <;> simp [printed, json, isFinite]

theorem isFinite_of_json {x y : Double} (h : x.printed.json = some y) : x.isFinite = true := by
  cases x <;> simp [printed, json, isFinite] at h ⊢

theorem ge_trans {x y z : Double} (hxy : x.ge y = true) (hyz : y.ge z = true) : x.ge z = true := by
  simp only [ge, decide_eq_true_eq] at hxy hyz ⊢
  obtain ⟨hx, -, hxy⟩ := hxy
  obtain ⟨-, hz, hyz⟩ := hyz
  refine ⟨hx, hz, ?_⟩
  obtain hxy | ⟨hxy, hxy'⟩ := hxy
  · obtain hyz | ⟨hyz, -⟩ := hyz
    · exact .inl (hyz.trans hxy)
    · exact .inl (hyz ▸ hxy)
  · obtain hyz | ⟨hyz, hyz'⟩ := hyz
    · exact .inl (hxy ▸ hyz)
    · exact .inr ⟨hyz.trans hxy, hyz'.trans hxy'⟩

theorem ge_total {x y : Double} (hx : x.isNaN = false) (hy : y.isNaN = false) : x.ge y = true ∨ y.ge x = true := by
  simp only [ge, decide_eq_true_eq, hx, hy, Bool.false_eq_true, not_false_eq_true, true_and]
  rcases lt_trichotomy x.rank y.rank with h | h | h
  · exact .inr (.inl h)
  · rcases le_total x.rat y.rat with hrat | hrat
    · exact .inr (.inr ⟨h, hrat⟩)
    · exact .inl (.inr ⟨h.symm, hrat⟩)
  · exact .inl (.inl h)

/-- Of two limits one lets through what the other does. -/
theorem ge_nested (m m' : Double) : (∀ x : Double, x.ge m = true → x.ge m' = true) ∨
    (∀ x : Double, x.ge m' = true → x.ge m = true) := by
  by_cases hm : m.isNaN = true
  · exact .inl fun x hx => by simp [ge, hm] at hx
  · by_cases hm' : m'.isNaN = true
    · exact .inr fun x hx => by simp [ge, hm'] at hx
    · obtain h | h := ge_total (Bool.eq_false_iff.mpr hm) (Bool.eq_false_iff.mpr hm')
      · exact .inl fun x hx => ge_trans hx h
      · exact .inr fun x hx => ge_trans hx h

end Double

/-! ### Reading -/

/-- The exponent at the start of a text, if there is one. -/
def readExponent : Text → ℤ
  | e :: rest =>
    if e = 'e' ∨ e = 'E' then
      match rest with
      | '-' :: digits => -(number (digits.takeWhile isDigit) : ℤ)
      | '+' :: digits => number (digits.takeWhile isDigit)
      | digits => number (digits.takeWhile isDigit)
    else 0
  | [] => 0

/-- The decimal number at the start of a text. -/
def readDecimal (negative : Bool) (s : Text) : Double :=
  let whole := s.takeWhile isDigit
  let fraction :=
    match s.dropWhile isDigit with
    | '.' :: rest => rest.takeWhile isDigit
    | _ => []
  let rest :=
    match s.dropWhile isDigit with
    | '.' :: rest => rest.dropWhile isDigit
    | rest => rest
  if whole ++ fraction = [] then .nan
  else
    let q : ℚ := number (whole ++ fraction) * 10 ^ (readExponent rest - fraction.length)
    .ofRat negative (if negative then -q else q)

/-- `parseFloat(s)`. -/
def parseFloat (s : Text) : Double :=
  let read (negative : Bool) (s : Text) : Double :=
    if "Infinity".toList.isPrefixOf s then .infinity negative else readDecimal negative s
  match s.dropWhile isSpace with
  | '-' :: rest => read true rest
  | '+' :: rest => read false rest
  | rest => read false rest

/-- The value of a finite number; `none` is what `Number.isFinite` refuses. -/
def finiteNumber : Option Json → Option ℚ
  | some (.num n) => if (parseFloat n.text).isFinite then some (parseFloat n.text).rat else none
  | _ => none

end jslib
