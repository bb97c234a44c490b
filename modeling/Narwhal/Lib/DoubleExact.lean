import Narwhal.Lib.JsDouble

namespace jslib

/-! Numbers that double precision holds, and operations that keep them exactly. -/

/-- The number is its own double, whatever its size. -/
def IsDouble (q : ℚ) : Prop := roundDouble q = q

instance (q : ℚ) : Decidable (IsDouble q) := inferInstanceAs (Decidable (roundDouble q = q))

theorem isDouble_iff {q : ℚ} : IsDouble q ↔ ∃ k : ℤ, q = k * ulp q := by
  constructor
  · intro h
    exact ⟨roundHalfEven (q / ulp q), by rw [← roundDouble_eq, h]⟩
  · rintro ⟨k, hk⟩
    exact le_antisymm ((roundDouble_le hk.le).trans hk.ge) (hk.le.trans (le_roundDouble hk.ge))

theorem isDouble_intCast {n : ℤ} (h : n.natAbs < 2 ^ 53) : IsDouble n := roundDouble_intCast h

theorem isDouble_one : IsDouble 1 := by exact_mod_cast isDouble_intCast (n := 1) (by norm_num)

theorem isDouble_zero : IsDouble 0 := by exact_mod_cast isDouble_intCast (n := 0) (by norm_num)

/-- The weight of a greater number is a multiple of the weight. -/
theorem exists_ulp_eq {p q : ℚ} (hp : p ≠ 0) (h : |p| ≤ |q|) : ∃ j : ℕ, ulp q = 2 ^ j * ulp p := by
  have hlog : Int.log 2 |p| ≤ Int.log 2 |q| := Int.log_mono_right (abs_pos.mpr hp) h
  refine ⟨(max (Int.log 2 |q|) (-1022) - max (Int.log 2 |p|) (-1022)).toNat, ?_⟩
  rw [ulp, ulp, ← zpow_natCast, ← zpow_add₀ (by norm_num)]
  congr 1
  omega

theorem IsDouble.exists_eq_mul {p q : ℚ} (hq : IsDouble q) (hp : p ≠ 0) (h : |p| ≤ |q|) : ∃ k : ℤ, q = k * ulp p := by
  obtain ⟨k, hk⟩ := isDouble_iff.mp hq
  obtain ⟨j, hj⟩ := exists_ulp_eq hp h
  refine ⟨k * 2 ^ j, ?_⟩
  rw [hk, hj]
  push_cast
  ring

/-- What 53 binary digits write. -/
theorem isDouble_intCast_mul {k e : ℤ} (hk : |k| ≤ 2 ^ 53) (he : -1074 ≤ e) : IsDouble (k * 2 ^ e) := by
  by_cases hzero : k = 0
  · simpa [hzero] using isDouble_zero
  have hpow : (0 : ℚ) < 2 ^ e := zpow_pos (by norm_num) e
  have hle : |(k : ℚ) * 2 ^ e| ≤ 2 ^ (e + 53) := by
    rw [abs_mul, abs_of_pos hpow, zpow_add₀ (by norm_num), mul_comm]
    exact mul_le_mul_of_nonneg_left (by exact_mod_cast hk) hpow.le
  have hne : |(k : ℚ) * 2 ^ e| ≠ 0 := abs_ne_zero.mpr (mul_ne_zero (by exact_mod_cast hzero) hpow.ne')
  have hlog : Int.log 2 |(k : ℚ) * 2 ^ e| ≤ e + 53 := by
    have hmono := Int.log_mono_right (b := 2) (lt_of_le_of_ne (abs_nonneg _) hne.symm) hle
    rwa [show ((2 : ℚ) ^ (e + 53)) = ((2 : ℕ) : ℚ) ^ (e + 53) by norm_num, Int.log_zpow (by norm_num)] at hmono
  rw [isDouble_iff]
  obtain hlt | heq := hlog.lt_or_eq
  · -- the weight divides the power
    obtain ⟨j, hj⟩ : ∃ j : ℕ, e = max (Int.log 2 |(k : ℚ) * 2 ^ e|) (-1022) - 52 + j :=
      ⟨(e - (max (Int.log 2 |(k : ℚ) * 2 ^ e|) (-1022) - 52)).toNat, by omega⟩
    refine ⟨k * 2 ^ j, ?_⟩
    rw [ulp]
    generalize max (Int.log 2 |(k : ℚ) * 2 ^ e|) (-1022) - 52 = u at hj ⊢
    rw [hj, zpow_add₀ (by norm_num)]
    push_cast
    rw [zpow_natCast]
    ring
  · -- only the power of two itself has that weight
    have hge : (2 : ℚ) ^ (e + 53) ≤ |(k : ℚ) * 2 ^ e| := by
      have hself := Int.zpow_log_le_self (b := 2) one_lt_two (lt_of_le_of_ne (abs_nonneg _) hne.symm)
      rwa [heq, Nat.cast_ofNat] at hself
    have habs : |(k : ℚ)| = 2 ^ 53 := by
      have h := le_antisymm hle hge
      rw [abs_mul, abs_of_pos hpow, zpow_add₀ (by norm_num), mul_comm] at h
      exact_mod_cast mul_left_cancel₀ hpow.ne' h
    have hulp : ulp ((k : ℚ) * 2 ^ e) = 2 * 2 ^ e := by
      rw [ulp, heq, max_eq_left (by omega), show e + 53 - 52 = 1 + e by ring, zpow_add₀ (by norm_num), zpow_one]
    rw [hulp]
    obtain h | h := (abs_eq (by norm_num)).mp habs
    · exact ⟨2 ^ 52, by rw [h]; push_cast; ring⟩
    · exact ⟨-2 ^ 52, by rw [h]; push_cast; ring⟩

theorem isDouble_roundDouble (q : ℚ) : IsDouble (roundDouble q) := by
  have hbound : |roundHalfEven (q / ulp q)| ≤ 2 ^ 53 := by
    obtain ⟨hneg, hpos⟩ := abs_lt.mp (abs_lt_ulp q)
    rw [abs_le]
    constructor
    · rw [← roundHalfEven_intCast (-2 ^ 53)]
      refine roundHalfEven_mono ((le_div_iff₀ (ulp_pos q)).mpr ?_)
      push_cast
      linarith
    · rw [← roundHalfEven_intCast (2 ^ 53)]
      refine roundHalfEven_mono ((div_le_iff₀ (ulp_pos q)).mpr ?_)
      push_cast
      linarith
  rw [roundDouble_eq, ulp]
  exact isDouble_intCast_mul hbound (by omega)

theorem IsDouble.roundDouble_le {p q : ℚ} (hq : IsDouble q) (h : p ≤ q) : roundDouble p ≤ q :=
  hq ▸ roundDouble_mono h

theorem IsDouble.le_roundDouble {p q : ℚ} (hp : IsDouble p) (h : p ≤ q) : p ≤ roundDouble q :=
  hp ▸ roundDouble_mono h

/-- From one double to the next. -/
theorem IsDouble.add_ulp_le {p q : ℚ} (hp : IsDouble p) (hq : IsDouble q) (hpos : 0 < p) (h : p < q) : p + ulp p ≤ q := by
  obtain ⟨j, hj⟩ := isDouble_iff.mp hp
  obtain ⟨k, hk⟩ := hq.exists_eq_mul hpos.ne' (abs_le_abs_of_nonneg hpos.le h.le)
  have hulp := ulp_pos p
  have hlt : j < k := by
    have h' : (j : ℚ) * ulp p < k * ulp p := by
      rw [← hj, ← hk]
      exact h
    exact_mod_cast lt_of_mul_lt_mul_right h' hulp.le
  have hle : ((j + 1 : ℤ) : ℚ) * ulp p ≤ k * ulp p :=
    mul_le_mul_of_nonneg_right (by exact_mod_cast hlt) hulp.le
  calc p + ulp p = ((j + 1 : ℤ) : ℚ) * ulp p := by rw [Int.cast_add, Int.cast_one, add_mul, one_mul, ← hj]
    _ ≤ k * ulp p := hle
    _ = q := hk.symm

/-- Of two doubles, one at most twice the other, the difference is a double. -/
theorem IsDouble.sub {p q : ℚ} (hp : IsDouble p) (hq : IsDouble q) (hpos : 0 < p) (h : p ≤ q) (htwice : q ≤ 2 * p) :
    IsDouble (q - p) := by
  obtain ⟨j, hj⟩ := isDouble_iff.mp hp
  obtain ⟨k, hk⟩ := hq.exists_eq_mul hpos.ne' (abs_le_abs_of_nonneg hpos.le h)
  have hulp := ulp_pos p
  have hdiff : q - p = ((k - j : ℤ) : ℚ) * ulp p := by
    rw [Int.cast_sub, sub_mul, ← hj, ← hk]
  have hbound : |k - j| ≤ 2 ^ 53 := by
    have hsmall : |q - p| < 2 ^ 53 * ulp p := by
      refine lt_of_le_of_lt ?_ (abs_lt_ulp p)
      rw [abs_of_nonneg (sub_nonneg.mpr h), abs_of_pos hpos]
      linarith
    rw [hdiff, abs_mul, abs_of_pos hulp] at hsmall
    have hlt := lt_of_mul_lt_mul_right hsmall hulp.le
    exact_mod_cast hlt.le
  rw [hdiff, ulp]
  exact isDouble_intCast_mul hbound (by omega)

theorem ulp_one : ulp 1 = 2 ^ (-52 : ℤ) := by
  rw [ulp, abs_one, Int.log_one_right]
  norm_num

/-- The first double after 1 is taken from the middle on. -/
theorem one_lt_roundDouble {q : ℚ} (h : 1 + 2 ^ (-53 : ℤ) < q) : 1 < roundDouble q := by
  have hone : (1 : ℚ) < q := lt_trans (by norm_num) h
  by_cases htwo : 2 ≤ q
  · have hdouble : IsDouble 2 := by exact_mod_cast isDouble_intCast (n := 2) (by norm_num)
    linarith [hdouble.le_roundDouble htwo]
  · have hlog : Int.log 2 |q| = 0 := by
      rw [abs_of_pos (by linarith)]
      refine le_antisymm (Int.lt_add_one_iff.mp ((Int.lt_zpow_iff_log_lt one_lt_two (by linarith)).mp ?_))
        ((Int.zpow_le_iff_le_log one_lt_two (by linarith)).mp ?_)
      · norm_num
        linarith
      · norm_num
        exact hone.le
    have hulp : ulp q = 2 ^ (-52 : ℤ) := by
      rw [ulp, hlog]
      norm_num
    have hscaled : (2 : ℚ) ^ 52 + 1 / 2 < q / ulp q := by
      rw [hulp, zpow_neg, div_inv_eq_mul]
      norm_num at h ⊢
      linarith
    have hround : (2 : ℤ) ^ 52 + 1 ≤ roundHalfEven (q / ulp q) := by
      have hfloor : (2 : ℤ) ^ 52 ≤ ⌊q / ulp q⌋ := Int.le_floor.mpr (by push_cast; linarith)
      unfold roundHalfEven
      dsimp only
      split_ifs with hdown
      · obtain hlt | heq := hfloor.lt_or_eq
        · omega
        · rw [← heq] at hdown
          push_cast at hdown
          obtain hdown | ⟨hdown, _⟩ := hdown <;> linarith
      · omega
    rw [roundDouble_eq, hulp]
    have hcast : ((2 : ℚ) ^ 52 + 1) * 2 ^ (-52 : ℤ) ≤ roundHalfEven (q / 2 ^ (-52 : ℤ)) * 2 ^ (-52 : ℤ) := by
      rw [hulp] at hround
      exact mul_le_mul_of_nonneg_right (by exact_mod_cast hround) (by positivity)
    refine lt_of_lt_of_le ?_ hcast
    norm_num

/-- A quotient of different doubles is told from 1. -/
theorem IsDouble.one_lt_roundDouble_div {p q : ℚ} (hp : IsDouble p) (hq : IsDouble q) (hpos : 0 < p) (h : p < q) :
    1 < roundDouble (q / p) := by
  apply one_lt_roundDouble
  have hnext := hp.add_ulp_le hq hpos h
  have hweight : p < 2 ^ 53 * ulp p := (le_abs_self p).trans_lt (abs_lt_ulp p)
  rw [lt_div_iff₀ hpos]
  have hhalf : (2 : ℚ) ^ (-53 : ℤ) * p < ulp p := by
    rw [zpow_neg, inv_mul_lt_iff₀ (by positivity)]
    exact_mod_cast hweight
  linarith

/-! ### Doubles -/

namespace Double

/-- A rational is one that double precision can hold. -/
def IsHeld : Double → Prop
  | .finite q => IsDouble q ∧ |q| < 2 ^ 1024
  | _ => True

instance : (x : Double) → Decidable x.IsHeld
  | .finite q => inferInstanceAs (Decidable (IsDouble q ∧ |q| < 2 ^ 1024))
  | .nan | .infinity _ | .negZero => inferInstanceAs (Decidable True)

/-- `x === y`. -/
def equals (x y : Double) : Bool := x.ge y ∧ y.ge x

theorem IsHeld.isDouble {x : Double} (h : x.IsHeld) : IsDouble x.rat := by
  cases x with
  | finite q => exact h.1
  | _ => exact isDouble_zero

theorem lt_iff {x y : Double} (hx : x.isFinite = true) (hy : y.isFinite = true) : x.lt y = true ↔ x.rat < y.rat := by
  cases x <;> cases y <;> simp_all [lt, isFinite, isNaN, rank, rat]

theorem ge_iff {x y : Double} (hx : x.isFinite = true) (hy : y.isFinite = true) : x.ge y = true ↔ y.rat ≤ x.rat := by
  cases x <;> cases y <;> simp_all [ge, isFinite, isNaN, rank, rat]

theorem equals_iff {x y : Double} (hx : x.isFinite = true) (hy : y.isFinite = true) : x.equals y = true ↔ x.rat = y.rat := by
  rw [equals, decide_eq_true_iff, ge_iff hx hy, ge_iff hy hx, and_comm, le_antisymm_iff]

theorem isZero_iff {x : Double} (hx : x.isFinite = true) : x.isZero = true ↔ x.rat = 0 := by
  cases x <;> simp_all [isZero, isFinite, rat]

theorem ofRat_small {q : ℚ} (negative : Bool) (h : |roundDouble q| < 2 ^ 1024) :
    (ofRat negative q).isFinite = true ∧ (ofRat negative q).rat = roundDouble q := by
  unfold ofRat
  dsimp only
  split_ifs with hzero hneg hbig
  · exact ⟨rfl, hzero.symm⟩
  · exact ⟨rfl, hzero.symm⟩
  · exact absurd hbig (not_le.mpr h)
  · exact ⟨rfl, rfl⟩

theorem sub_small {x y : Double} (hx : x.isFinite = true) (hy : y.isFinite = true)
    (h : |roundDouble (x.rat - y.rat)| < 2 ^ 1024) :
    (x.sub y).isFinite = true ∧ (x.sub y).rat = roundDouble (x.rat - y.rat) := by
  have hneg : y.neg.isFinite = true ∧ y.neg.rat = -y.rat := by
    cases y with
    | finite q => by_cases hq : q = 0 <;> simp [neg, isFinite, rat, hq]
    | negZero => simp [neg, isFinite, rat]
    | _ => cases hy
  have hadd : x.sub y = ofRat false (x.rat - y.rat) ∨ x = .negZero ∧ y.neg = .negZero := by
    rw [sub, sub_eq_add_neg, ← hneg.2]
    generalize y.neg = z at hneg
    cases x <;> cases z <;> simp_all [add, isFinite]
  obtain hadd | ⟨rfl, hzero⟩ := hadd
  · rw [hadd]
    exact ofRat_small false h
  · rw [sub, hzero]
    rw [hzero] at hneg
    have hy0 : y.rat = 0 := by linarith [hneg.2, show Double.negZero.rat = 0 from rfl]
    rw [hy0]
    exact ⟨rfl, by simp [add, rat, roundDouble]⟩

theorem div_small {x y : Double} (hx : x.isFinite = true) (hy : y.isFinite = true) (hy0 : y.rat ≠ 0)
    (h : |roundDouble (x.rat / y.rat)| < 2 ^ 1024) :
    (x.div y).isFinite = true ∧ (x.div y).rat = roundDouble (x.rat / y.rat) := by
  have hzero : y.isZero = false := Bool.eq_false_iff.mpr fun hz => hy0 ((isZero_iff hy).mp hz)
  have hdiv : x.div y = ofRat (x.negative != y.negative) (x.rat / y.rat) := by
    cases x <;> cases y <;> simp_all [div, isFinite]
  rw [hdiv]
  exact ofRat_small _ h

end Double

end jslib
