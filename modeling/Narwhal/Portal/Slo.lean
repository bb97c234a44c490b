import Narwhal.Lib.DoubleExact
import Narwhal.Portal.AgentInvocation

open jslib
open narwhal.portal.agent_invocation (timestampText)

namespace narwhal.portal.slo

inductive SloState where
  | healthy | atRisk | breached | noData | stale | invalid
deriving DecidableEq

/-- The value of a property; what is neither a number nor a string passes no check. -/
inductive Property where
  | number (x : Double) (held : x.IsHeld)
  | string (s : Text)
  | other

/-- A value of unknown type; a property that cannot be read throws. -/
inductive Unknown where
  | object (read : Text → Except Unit Property)
  | other

structure SloDefinition where
  objective : Double
  windowSeconds : Double
  freshnessSeconds : Double
  atRiskBudgetRemaining : Double
deriving DecidableEq

/-- An observation whose time is read. -/
structure SloObservation where
  goodEvents : Double
  totalEvents : Double
  observedAt : ℚ
  windowCoveredSeconds : Double
deriving DecidableEq

structure SloResult where
  state : SloState
  attainment : Option Double
  errorBudgetRemaining : Option Double
  burnRate : Option Double
  reasons : List Text
deriving DecidableEq

/-! ### The source -/

def finite : Property → Option Double
  | .number x _ => if x.isFinite then some x else none
  | _ => none

/-- The properties of these names, read one after the other. -/
def snapshot (input : Unknown) (fields : List String) : Except Unit (Text → Property) :=
  match input with
  | .other => .ok fun _ => .other
  | .object read => do
    let values ← fields.mapM fun field => (read field.toList).map fun value => (field.toList, value)
    return fun name => (values.lookup name).getD .other

def strictTimestamp : Property → Option ℚ
  | .string s => timestampText s
  | _ => none

def MAX_SAFE_INTEGER : ℚ := 9007199254740991

def isSafeInteger (x : Double) : Bool := x.isFinite ∧ x.rat.isInt ∧ |x.rat| ≤ MAX_SAFE_INTEGER

def between (low x high : Double) : Bool := low.lt x ∧ x.lt high

def SloDefinition.isValid (d : SloDefinition) : Bool :=
  (Double.finite 0).lt d.objective ∧ d.objective.lt (.finite 1) ∧
  isSafeInteger d.windowSeconds ∧ (Double.finite 0).lt d.windowSeconds ∧ (Double.finite (366 * 86400)).ge d.windowSeconds ∧
  isSafeInteger d.freshnessSeconds ∧ (Double.finite 0).lt d.freshnessSeconds ∧
  d.atRiskBudgetRemaining.ge (.finite 0) ∧ (Double.finite 1).ge d.atRiskBudgetRemaining

/-- The definition and the clock; `none` is "invalid". The clock is no date, or a date that may have no time. -/
def readDefinition (definition : Unknown) (now : Option (Option Int)) : Option (SloDefinition × Int) := do
  let property ← (snapshot definition ["objective", "windowSeconds", "freshnessSeconds", "atRiskBudgetRemaining"]).toOption
  let currentTime ← now
  let d : SloDefinition := ⟨← finite (property "objective".toList), ← finite (property "windowSeconds".toList),
    ← finite (property "freshnessSeconds".toList), ← finite (property "atRiskBudgetRemaining".toList)⟩
  if d.isValid then return (d, ← currentTime) else none

def isUnsafe (count : Property) : Bool := (finite count).any fun x => MAX_SAFE_INTEGER < |x.rat|

/-- Whether the counts are safe, and the time is not in the future by more than a minute. -/
def SloObservation.isValid (o : SloObservation) (currentTime : Int) : Bool :=
  isSafeInteger o.goodEvents ∧ o.goodEvents.ge (.finite 0) ∧
  isSafeInteger o.totalEvents ∧ o.totalEvents.ge (.finite 0) ∧ ¬ o.totalEvents.lt o.goodEvents ∧
  o.windowCoveredSeconds.ge (.finite 0) ∧ ¬ 60000 < roundDouble (o.observedAt - currentTime)

/-- The observation, or the reason why there is none. -/
def readObservation (observation : Unknown) (currentTime : Int) : Except Text SloObservation :=
  match snapshot observation ["goodEvents", "totalEvents", "observedAt", "windowCoveredSeconds"] with
  | .error _ => .error "malformed-observation".toList
  | .ok property =>
    if isUnsafe (property "goodEvents".toList) ∨ isUnsafe (property "totalEvents".toList) then
      .error "unsafe-event-counts".toList
    else
      match finite (property "goodEvents".toList), finite (property "totalEvents".toList),
        strictTimestamp (property "observedAt".toList), finite (property "windowCoveredSeconds".toList) with
      | some goodEvents, some totalEvents, some observedAt, some windowCoveredSeconds =>
        let o : SloObservation := ⟨goodEvents, totalEvents, observedAt, windowCoveredSeconds⟩
        if o.isValid currentTime then .ok o else .error "malformed-observation".toList
      | _, _, _, _ => .error "malformed-observation".toList

def empty (state : SloState) (reason : String) : SloResult := ⟨state, none, none, none, [reason.toList]⟩

def isStale (d : SloDefinition) (o : SloObservation) (currentTime : Int) : Bool :=
  (d.freshnessSeconds.mul (.finite 1000)).lt (.ofRat false (currentTime - o.observedAt))

def attainment (o : SloObservation) : Double := o.goodEvents.div o.totalEvents

def burnRate (d : SloDefinition) (o : SloObservation) : Double :=
  if (attainment o).equals d.objective then .finite 1
  else ((Double.finite 1).sub (attainment o)).div ((Double.finite 1).sub d.objective)

def errorBudgetRemaining (d : SloDefinition) (o : SloObservation) : Double := (Double.finite 1).sub (burnRate d o)

/-- The state of the error budget. -/
def budgetState (d : SloDefinition) (o : SloObservation) : SloState :=
  if (errorBudgetRemaining d o).lt (.finite 0) then .breached
  else if (errorBudgetRemaining d o).lt d.atRiskBudgetRemaining then .atRisk
  else .healthy

/-- What is said of a valid observation. -/
def judge (d : SloDefinition) (o : SloObservation) (currentTime : Int) : SloResult :=
  let stale := isStale d o currentTime
  if o.totalEvents.isZero then if stale then empty .stale "stale-observation" else empty .noData "zero-traffic"
  else
    let metrics (state : SloState) (reasons : List Text) : SloResult :=
      ⟨state, some (attainment o), some (errorBudgetRemaining d o), some (burnRate d o), reasons⟩
    if stale then metrics .stale ["stale-observation".toList]
    else if o.windowCoveredSeconds.lt d.windowSeconds ∧ budgetState d o = .healthy then
      metrics .noData ["partial-window".toList]
    else metrics (budgetState d o) []

def evaluateSlo (definition observation : Unknown) (now : Option (Option Int)) : SloResult :=
  match readDefinition definition now with
  | none => empty .invalid "invalid-definition-or-clock"
  | some (d, currentTime) =>
    match readObservation observation currentTime with
    | .error reason => ⟨.noData, none, none, none, [reason]⟩
    | .ok o => judge d o currentTime

/-! ### The budget in rational numbers -/

/-- How fast the budget is used up where this part of the events was good. -/
def burn (attained objective : ℚ) : ℚ :=
  if attained = objective then 1 else roundDouble (roundDouble (1 - attained) / roundDouble (1 - objective))

section

variable {a a' o : ℚ}

/-- The part that may fail is not rounded away. -/
theorem le_roundDouble_one_sub (ho : IsDouble o) (hlt : o < 1) : 2 ^ (-53 : ℤ) ≤ roundDouble (1 - o) := by
  have hunit : IsDouble (2 ^ (-53 : ℤ)) := by
    have h := isDouble_intCast_mul (k := 1) (e := -53) (by norm_num) (by norm_num)
    rwa [Int.cast_one, one_mul] at h
  refine hunit.le_roundDouble ?_
  by_cases hhalf : o < 1 / 2
  · norm_num at hhalf ⊢
    linarith
  · have hulp : 2 ^ (-53 : ℤ) ≤ ulp o := by
      have hlog : -1 ≤ Int.log 2 |o| := by
        refine (Int.zpow_le_iff_le_log one_lt_two (abs_pos.mpr (by linarith))).mp ?_
        rw [abs_of_pos (by linarith)]
        norm_num at hhalf ⊢
        linarith
      exact zpow_le_zpow_right₀ (by norm_num) (by omega)
    linarith [ho.add_ulp_le isDouble_one (by linarith) hlt]

theorem roundDouble_one_sub_mem (h0 : 0 ≤ a) (h1 : a ≤ 1) : 0 ≤ roundDouble (1 - a) ∧ roundDouble (1 - a) ≤ 1 :=
  ⟨roundDouble_nonneg (by linarith), isDouble_one.roundDouble_le (by linarith)⟩

theorem roundDouble_one_sub_pos (ho : IsDouble o) (hlt : o < 1) : 0 < roundDouble (1 - o) :=
  lt_of_lt_of_le (by norm_num) (le_roundDouble_one_sub ho hlt)

theorem roundDouble_one_sub_anti (h : a ≤ a') : roundDouble (1 - a') ≤ roundDouble (1 - a) :=
  roundDouble_mono (by linarith)

/-- The rate of any part is finite. -/
theorem burn_mem (h0 : 0 ≤ a) (h1 : a ≤ 1) (ho : IsDouble o) (hlt : o < 1) : 0 ≤ burn a o ∧ burn a o ≤ 2 ^ 53 := by
  have hpos := roundDouble_one_sub_pos ho hlt
  obtain ⟨hnonneg, hone⟩ := roundDouble_one_sub_mem h0 h1
  have hbound : IsDouble (2 ^ 53) := by
    have h := isDouble_intCast_mul (k := 1) (e := 53) (by norm_num) (by norm_num)
    rw [Int.cast_one, one_mul] at h
    exact_mod_cast h
  have hquotient : roundDouble (1 - a) / roundDouble (1 - o) ≤ 2 ^ 53 := by
    rw [div_le_iff₀ hpos]
    have hsmall := le_roundDouble_one_sub ho hlt
    norm_num at hsmall ⊢
    linarith
  unfold burn
  split_ifs
  · norm_num
  · exact ⟨roundDouble_nonneg (div_nonneg hnonneg hpos.le), hbound.roundDouble_le hquotient⟩

theorem one_le_burn (ho : IsDouble o) (hlt : o < 1) (h : a ≤ o) : 1 ≤ burn a o := by
  unfold burn
  split_ifs
  · exact le_rfl
  · exact one_le_roundDouble ((one_le_div (roundDouble_one_sub_pos ho hlt)).mpr (roundDouble_one_sub_anti h))

theorem burn_le_one (ho : IsDouble o) (hlt : o < 1) (h : o ≤ a) : burn a o ≤ 1 := by
  unfold burn
  split_ifs
  · exact le_rfl
  · exact isDouble_one.roundDouble_le ((div_le_one (roundDouble_one_sub_pos ho hlt)).mpr (roundDouble_one_sub_anti h))

/-- The more is good, the slower the budget is used up, across the objective too. -/
theorem burn_anti (ho : IsDouble o) (hlt : o < 1) (h : a ≤ a') : burn a' o ≤ burn a o := by
  by_cases ha : a ≤ o
  · by_cases ha' : o ≤ a'
    · exact (burn_le_one ho hlt ha').trans (one_le_burn ho hlt ha)
    · rw [burn, burn, if_neg (by linarith), if_neg (by linarith)]
      exact roundDouble_mono (div_le_div_of_nonneg_right (roundDouble_one_sub_anti h) (roundDouble_one_sub_pos ho hlt).le)
  · rw [burn, burn, if_neg (by linarith), if_neg (by linarith)]
    exact roundDouble_mono (div_le_div_of_nonneg_right (roundDouble_one_sub_anti h) (roundDouble_one_sub_pos ho hlt).le)

/-- Above one half the parts that may fail and that failed are told apart. -/
theorem one_lt_burn (ha : IsDouble a) (ho : IsDouble o) (hlt : o < 1) (hhalf : 1 / 2 < o) (h : a < o) :
    1 < burn a o := by
  have hexact : ∀ {x : ℚ}, IsDouble x → 1 / 2 ≤ x → x ≤ 1 → roundDouble (1 - x) = 1 - x := fun hx hge hle =>
    hx.sub isDouble_one (by linarith) hle (by linarith)
  have hobjective := hexact ho hhalf.le hlt.le
  have hfailed : roundDouble (1 - o) < roundDouble (1 - a) := by
    by_cases hsmall : a < 1 / 2
    · have hdouble : IsDouble (1 / 2) := by
        have hunit := isDouble_intCast_mul (k := 1) (e := -1) (by norm_num) (by norm_num)
        norm_num at hunit ⊢
        exact hunit
      have hge := hdouble.le_roundDouble (p := 1 / 2) (q := 1 - a) (by linarith)
      rw [hobjective]
      linarith
    · rw [hobjective, hexact ha (not_lt.mp hsmall) (by linarith)]
      linarith
  rw [burn, if_neg h.ne]
  exact (isDouble_roundDouble _).one_lt_roundDouble_div (isDouble_roundDouble _) (roundDouble_one_sub_pos ho hlt) hfailed

/-- A budget that is used up by more than itself is below zero. -/
theorem roundDouble_one_sub_neg_iff (ha : IsDouble a) : roundDouble (1 - a) < 0 ↔ 1 < a := by
  constructor
  · intro h
    by_contra hle
    exact absurd (roundDouble_nonneg (q := 1 - a) (by linarith)) (not_le.mpr h)
  · intro h
    have hnext := isDouble_one.add_ulp_le ha one_pos h
    rw [ulp_one] at hnext
    have hunit : IsDouble (-2 ^ (-52 : ℤ)) := by
      have hdouble := isDouble_intCast_mul (k := -1) (e := -52) (by norm_num) (by norm_num)
      rwa [Int.cast_neg, Int.cast_one, neg_one_mul] at hdouble
    exact (hunit.roundDouble_le (p := 1 - a) (by linarith)).trans_lt (by norm_num)

theorem isDouble_burn (a o : ℚ) : IsDouble (burn a o) := by
  unfold burn
  split_ifs
  · exact isDouble_one
  · exact isDouble_roundDouble _

end

/-! ### What is read -/

structure SloDefinition.Sound (d : SloDefinition) : Prop where
  objectiveFinite : d.objective.isFinite = true
  objectiveDouble : IsDouble d.objective.rat
  objective : 0 < d.objective.rat ∧ d.objective.rat < 1
  atRiskFinite : d.atRiskBudgetRemaining.isFinite = true

structure SloObservation.Sound (o : SloObservation) : Prop where
  goodFinite : o.goodEvents.isFinite = true
  totalFinite : o.totalEvents.isFinite = true
  good : 0 ≤ o.goodEvents.rat ∧ o.goodEvents.rat ≤ o.totalEvents.rat

theorem finite_eq_some {property : Property} {x : Double} (h : finite property = some x) :
    x.isFinite = true ∧ IsDouble x.rat := by
  cases property with
  | number y held =>
    unfold finite at h
    dsimp only at h
    split_ifs at h with hfinite
    cases h
    exact ⟨hfinite, held.isDouble⟩
  | _ => cases h

theorem sound_of_readDefinition {definition : Unknown} {now : Option (Option Int)} {d : SloDefinition} {currentTime : Int}
    (h : readDefinition definition now = some (d, currentTime)) : d.Sound := by
  simp only [readDefinition, Option.bind_eq_bind, Option.bind_eq_some_iff] at h
  obtain ⟨property, _, clock, _, objective, hobjective, _, _, _, _, atRisk, hatRisk, h⟩ := h
  split_ifs at h with hvalid
  simp only [Option.bind_eq_some_iff, Option.pure_def, Option.some.injEq, Prod.mk.injEq] at h
  obtain ⟨_, _, rfl, _⟩ := h
  obtain ⟨hfinite, hdouble⟩ := finite_eq_some hobjective
  simp only [SloDefinition.isValid, decide_eq_true_eq] at hvalid
  exact ⟨hfinite, hdouble, ⟨(Double.lt_iff rfl hfinite).mp hvalid.1, (Double.lt_iff hfinite rfl).mp hvalid.2.1⟩,
    (finite_eq_some hatRisk).1⟩

theorem sound_of_readObservation {observation : Unknown} {currentTime : Int} {o : SloObservation}
    (h : readObservation observation currentTime = .ok o) : o.Sound := by
  unfold readObservation at h
  split at h
  · cases h
  · split_ifs at h with hunsafe
    split at h
    · rename_i good total _ _ hgood htotal _ _
      dsimp only at h
      split_ifs at h with hvalid
      cases h
      obtain ⟨hgoodFinite, _⟩ := finite_eq_some hgood
      obtain ⟨htotalFinite, _⟩ := finite_eq_some htotal
      simp only [SloObservation.isValid, decide_eq_true_eq] at hvalid
      obtain ⟨_, hnonneg, _, _, hle, _⟩ := hvalid
      rw [Double.lt_iff htotalFinite hgoodFinite, not_lt] at hle
      exact ⟨hgoodFinite, htotalFinite, (Double.ge_iff hgoodFinite rfl).mp hnonneg, hle⟩
    · cases h

/-! ### The metrics -/

section

variable {d : SloDefinition} {o o' : SloObservation}

def SloObservation.attained (o : SloObservation) : ℚ := roundDouble (o.goodEvents.rat / o.totalEvents.rat)

theorem abs_small {q : ℚ} (h0 : -2 ^ 53 ≤ q) (h1 : q ≤ 2 ^ 53) : |q| < 2 ^ 1024 :=
  (abs_le.mpr ⟨h0, h1⟩).trans_lt (pow_lt_pow_right₀ one_lt_two (by norm_num))

theorem SloObservation.Sound.attained_mem (h : o.Sound) : 0 ≤ o.attained ∧ o.attained ≤ 1 := by
  have hnonneg : 0 ≤ o.totalEvents.rat := h.good.1.trans h.good.2
  exact ⟨roundDouble_nonneg (div_nonneg h.good.1 hnonneg), isDouble_one.roundDouble_le (div_le_one_of_le₀ h.good.2 hnonneg)⟩

theorem attainment_spec (h : o.Sound) (htotal : o.totalEvents.rat ≠ 0) :
    (attainment o).isFinite = true ∧ (attainment o).rat = o.attained := by
  obtain ⟨h0, h1⟩ := h.attained_mem
  exact Double.div_small h.goodFinite h.totalFinite htotal (abs_small (le_trans (by norm_num) h0) (h1.trans (by norm_num)))

theorem burnRate_spec (hd : d.Sound) (h : o.Sound) (htotal : o.totalEvents.rat ≠ 0) :
    (burnRate d o).isFinite = true ∧ (burnRate d o).rat = burn o.attained d.objective.rat := by
  obtain ⟨hfinite, hrat⟩ := attainment_spec h htotal
  obtain ⟨h0, h1⟩ := h.attained_mem
  obtain ⟨hburn0, hburn1⟩ := burn_mem h0 h1 hd.objectiveDouble hd.objective.2
  unfold burnRate
  split_ifs with hequals
  · rw [Double.equals_iff hfinite hd.objectiveFinite, hrat] at hequals
    rw [burn, if_pos hequals]
    exact ⟨rfl, rfl⟩
  · rw [Double.equals_iff hfinite hd.objectiveFinite, hrat] at hequals
    rw [burn, if_neg hequals] at hburn0 hburn1 ⊢
    have hone : (Double.finite 1).rat = 1 := rfl
    have hsub : ∀ {x : Double}, x.isFinite = true → 0 ≤ x.rat → x.rat ≤ 1 →
        ((Double.finite 1).sub x).isFinite = true ∧ ((Double.finite 1).sub x).rat = roundDouble (1 - x.rat) := by
      intro x hx hx0 hx1
      obtain ⟨hmem0, hmem1⟩ := roundDouble_one_sub_mem hx0 hx1
      exact Double.sub_small rfl hx (abs_small (by rw [hone]; linarith) (by rw [hone]; exact hmem1.trans (by norm_num)))
    obtain ⟨hfailedFinite, hfailed⟩ := hsub hfinite (hrat ▸ h0) (hrat ▸ h1)
    obtain ⟨hallowedFinite, hallowed⟩ := hsub hd.objectiveFinite hd.objective.1.le hd.objective.2.le
    rw [hrat] at hfailed
    rw [← hfailed, ← hallowed] at hburn0 hburn1 ⊢
    refine Double.div_small hfailedFinite hallowedFinite ?_ (abs_small (by linarith) hburn1)
    rw [hallowed]
    exact (roundDouble_one_sub_pos hd.objectiveDouble hd.objective.2).ne'

theorem errorBudgetRemaining_spec (hd : d.Sound) (h : o.Sound) (htotal : o.totalEvents.rat ≠ 0) :
    (errorBudgetRemaining d o).isFinite = true ∧
      (errorBudgetRemaining d o).rat = roundDouble (1 - burn o.attained d.objective.rat) := by
  obtain ⟨hfinite, hrat⟩ := burnRate_spec hd h htotal
  obtain ⟨h0, h1⟩ := h.attained_mem
  obtain ⟨hburn0, hburn1⟩ := burn_mem h0 h1 hd.objectiveDouble hd.objective.2
  have hone : (Double.finite 1).rat = 1 := rfl
  have hbound : IsDouble (-2 ^ 53) := by
    have hdouble := isDouble_intCast_mul (k := -1) (e := 53) (by norm_num) (by norm_num)
    rw [Int.cast_neg, Int.cast_one, neg_one_mul] at hdouble
    exact_mod_cast hdouble
  have hspec := Double.sub_small (x := .finite 1) rfl hfinite
  rw [hrat, hone] at hspec
  refine hspec (abs_small (hbound.le_roundDouble ?_) ((isDouble_one.roundDouble_le ?_).trans (by norm_num)))
  · linarith
  · linarith

/-- From the worst to the best; without enough data nothing is worse than well. -/
def SloState.rank : SloState → Nat
  | .breached => 0
  | .atRisk => 1
  | _ => 2

theorem budgetState_breached_iff (hd : d.Sound) (h : o.Sound) (htotal : o.totalEvents.rat ≠ 0) :
    budgetState d o = .breached ↔ 1 < burn o.attained d.objective.rat := by
  obtain ⟨hfinite, hrat⟩ := errorBudgetRemaining_spec hd h htotal
  rw [← roundDouble_one_sub_neg_iff (isDouble_burn _ _), ← hrat]
  have hlt : (errorBudgetRemaining d o).lt (.finite 0) = true ↔ (errorBudgetRemaining d o).rat < 0 := Double.lt_iff hfinite rfl
  rw [← hlt]
  unfold budgetState
  split_ifs <;> simp_all

theorem rank_budgetState_mono (hd : d.Sound) (h : o.Sound) (h' : o'.Sound) (htotal : o.totalEvents.rat ≠ 0)
    (htotal' : o'.totalEvents.rat ≠ 0) (hle : o.attained ≤ o'.attained) :
    (budgetState d o).rank ≤ (budgetState d o').rank := by
  obtain ⟨hfinite, hrat⟩ := errorBudgetRemaining_spec hd h htotal
  obtain ⟨hfinite', hrat'⟩ := errorBudgetRemaining_spec hd h' htotal'
  have hremaining : (errorBudgetRemaining d o).rat ≤ (errorBudgetRemaining d o').rat := by
    rw [hrat, hrat']
    exact roundDouble_mono (by linarith [burn_anti hd.objectiveDouble hd.objective.2 hle])
  have hlt : ∀ {x : Double}, x.isFinite = true → (errorBudgetRemaining d o').lt x = true →
      (errorBudgetRemaining d o).lt x = true := by
    intro x hx hx'
    rw [Double.lt_iff hfinite' hx] at hx'
    rw [Double.lt_iff hfinite hx]
    exact hremaining.trans_lt hx'
  unfold budgetState
  split_ifs with hneg hneg' hrisk' hrisk hneg' hrisk' hneg' hrisk'
  · exact le_rfl
  · exact Nat.zero_le _
  · exact Nat.zero_le _
  · exact absurd (hlt rfl hneg') hneg
  · exact le_rfl
  · exact Nat.le_succ _
  · exact absurd (hlt rfl hneg') hneg
  · exact absurd (hlt hd.atRiskFinite hrisk') hrisk
  · exact le_rfl

theorem judge_of_traffic (h : o.Sound) (htotal : o.totalEvents.rat ≠ 0) (currentTime : Int) :
    ∃ state reasons, judge d o currentTime =
        ⟨state, some (attainment o), some (errorBudgetRemaining d o), some (burnRate d o), reasons⟩ ∧
      (state = .breached ↔ isStale d o currentTime = false ∧ budgetState d o = .breached) ∧
      state.rank = if isStale d o currentTime then 2 else (budgetState d o).rank := by
  have hzero : o.totalEvents.isZero = false := Bool.eq_false_iff.mpr fun hz => htotal ((Double.isZero_iff h.totalFinite).mp hz)
  unfold judge
  simp only [hzero, Bool.false_eq_true, if_false]
  split_ifs with hstale hpart
  · exact ⟨_, _, rfl, by simp [hstale], rfl⟩
  · exact ⟨_, _, rfl, by simp [hpart.2], by simp [hpart.2, SloState.rank]⟩
  · exact ⟨_, _, rfl, by simp [hstale], rfl⟩

theorem judge_of_no_traffic (h : o.Sound) (htotal : o.totalEvents.rat = 0) (currentTime : Int) :
    ∃ state reason, judge d o currentTime = empty state reason ∧ (state = .stale ∨ state = .noData) := by
  have hzero : o.totalEvents.isZero = true := (Double.isZero_iff h.totalFinite).mpr htotal
  unfold judge
  simp only [hzero, if_true]
  split_ifs with hstale
  · exact ⟨_, _, rfl, .inl rfl⟩
  · exact ⟨_, _, rfl, .inr rfl⟩

end

theorem evaluateSlo_eq {definition observation : Unknown} {now : Option (Option Int)} {d : SloDefinition} {currentTime : Int}
    {o : SloObservation} (hd : readDefinition definition now = some (d, currentTime))
    (ho : readObservation observation currentTime = .ok o) : evaluateSlo definition observation now = judge d o currentTime := by
  unfold evaluateSlo
  rw [hd]
  dsimp only
  rw [ho]

/-- Whatever is given, the metrics are there together, and none of them is `NaN` or infinite. -/
theorem metrics_finite (definition observation : Unknown) (now : Option (Option Int)) :
    let result := evaluateSlo definition observation now
    (result.attainment = none ∧ result.burnRate = none ∧ result.errorBudgetRemaining = none ∧
      (result.state = .invalid ∨ result.state = .noData ∨ result.state = .stale)) ∨
    ∃ attainment burnRate errorBudgetRemaining, result.attainment = some attainment ∧ result.burnRate = some burnRate ∧
      result.errorBudgetRemaining = some errorBudgetRemaining ∧
      attainment.isFinite = true ∧ 0 ≤ attainment.rat ∧ attainment.rat ≤ 1 ∧
      burnRate.isFinite = true ∧ 0 ≤ burnRate.rat ∧ burnRate.rat ≤ 2 ^ 53 ∧
      errorBudgetRemaining.isFinite = true ∧ errorBudgetRemaining.rat = roundDouble (1 - burnRate.rat) := by
  dsimp only
  unfold evaluateSlo
  split
  · exact .inl ⟨rfl, rfl, rfl, .inl rfl⟩
  · rename_i d currentTime hd
    split
    · exact .inl ⟨rfl, rfl, rfl, .inr (.inl rfl)⟩
    · rename_i o ho
      have hdefinition := sound_of_readDefinition hd
      have hobservation := sound_of_readObservation ho
      by_cases htotal : o.totalEvents.rat = 0
      · obtain ⟨state, reason, hjudge, hstate⟩ := judge_of_no_traffic (d := d) hobservation htotal currentTime
        rw [hjudge]
        exact .inl ⟨rfl, rfl, rfl, .inr hstate.symm⟩
      · obtain ⟨state, reasons, hjudge, _⟩ := judge_of_traffic hobservation htotal currentTime
        obtain ⟨hattainment, hattained⟩ := attainment_spec hobservation htotal
        obtain ⟨hburn, hburned⟩ := burnRate_spec hdefinition hobservation htotal
        obtain ⟨hremaining, hremains⟩ := errorBudgetRemaining_spec hdefinition hobservation htotal
        obtain ⟨h0, h1⟩ := hobservation.attained_mem
        obtain ⟨hburn0, hburn1⟩ := burn_mem h0 h1 hdefinition.objectiveDouble hdefinition.objective.2
        rw [hjudge]
        refine .inr ⟨_, _, _, rfl, rfl, rfl, hattainment, hattained ▸ h0, hattained ▸ h1, hburn, hburned ▸ hburn0,
          hburned ▸ hburn1, hremaining, ?_⟩
        rw [hremains, hburned]

section

variable {definition observation : Unknown} {now : Option (Option Int)} {d : SloDefinition} {currentTime : Int}
  {o : SloObservation}

/-- A breach is a real one: fewer events were good than the objective asks for. Above one half it is found
    whenever the attainment, as a double, is below the objective. -/
theorem breached_iff (hd : readDefinition definition now = some (d, currentTime))
    (ho : readObservation observation currentTime = .ok o) :
    ((evaluateSlo definition observation now).state = .breached → isStale d o currentTime = false ∧
      o.goodEvents.rat < d.objective.rat * o.totalEvents.rat) ∧
    (1 / 2 < d.objective.rat → ((evaluateSlo definition observation now).state = .breached ↔
      isStale d o currentTime = false ∧ o.totalEvents.rat ≠ 0 ∧ (attainment o).rat < d.objective.rat)) := by
  have hdefinition := sound_of_readDefinition hd
  have hobservation := sound_of_readObservation ho
  rw [evaluateSlo_eq hd ho]
  by_cases htotal : o.totalEvents.rat = 0
  · obtain ⟨state, reason, hjudge, hstate⟩ := judge_of_no_traffic (d := d) hobservation htotal currentTime
    have hne : state ≠ .breached := by
      obtain rfl | rfl := hstate <;> decide
    rw [hjudge]
    exact ⟨fun h => absurd h hne, fun _ => iff_of_false hne fun h => h.2.1 htotal⟩
  · obtain ⟨state, reasons, hjudge, hbreached, _⟩ := judge_of_traffic hobservation htotal currentTime
    have htotalPos : 0 < o.totalEvents.rat := (hobservation.good.1.trans hobservation.good.2).lt_of_ne' htotal
    rw [hjudge]
    dsimp only
    rw [hbreached, budgetState_breached_iff hdefinition hobservation htotal, (attainment_spec hobservation htotal).2]
    have hmissed : 1 < burn o.attained d.objective.rat → o.attained < d.objective.rat := by
      intro hburn
      by_contra hmet
      exact absurd (burn_le_one hdefinition.objectiveDouble hdefinition.objective.2 (not_lt.mp hmet)) (not_le.mpr hburn)
    constructor
    · rintro ⟨hfresh, hburn⟩
      refine ⟨hfresh, ?_⟩
      by_contra hmet
      have hle : d.objective.rat ≤ o.goodEvents.rat / o.totalEvents.rat := (le_div_iff₀ htotalPos).mpr (not_lt.mp hmet)
      exact absurd (hmissed hburn) (not_lt.mpr (hdefinition.objectiveDouble.le_roundDouble hle))
    · intro hhalf
      have hfound : o.attained < d.objective.rat → 1 < burn o.attained d.objective.rat :=
        one_lt_burn (isDouble_roundDouble _) hdefinition.objectiveDouble hdefinition.objective.2 hhalf
      exact ⟨fun h => ⟨h.1, htotal, hmissed h.2⟩, fun h => ⟨h.1, hfound h.2.2⟩⟩

/-- More good events of as many, seen at the same time, never make the state worse. -/
theorem rank_mono {observation' : Unknown} {goodEvents : Double} (hd : readDefinition definition now = some (d, currentTime))
    (ho : readObservation observation currentTime = .ok o)
    (ho' : readObservation observation' currentTime = .ok { o with goodEvents := goodEvents })
    (hmore : o.goodEvents.rat ≤ goodEvents.rat) :
    (evaluateSlo definition observation now).state.rank ≤ (evaluateSlo definition observation' now).state.rank ∧
    (∀ burnRate ∈ (evaluateSlo definition observation now).burnRate,
      ∃ burnRate' ∈ (evaluateSlo definition observation' now).burnRate, burnRate'.rat ≤ burnRate.rat) ∧
    (∀ remaining ∈ (evaluateSlo definition observation now).errorBudgetRemaining,
      ∃ remaining' ∈ (evaluateSlo definition observation' now).errorBudgetRemaining, remaining.rat ≤ remaining'.rat) := by
  have hdefinition := sound_of_readDefinition hd
  have hobservation := sound_of_readObservation ho
  have hobservation' := sound_of_readObservation ho'
  rw [evaluateSlo_eq hd ho, evaluateSlo_eq hd ho']
  by_cases htotal : o.totalEvents.rat = 0
  · obtain ⟨state, reason, hjudge, hstate⟩ := judge_of_no_traffic (d := d) hobservation htotal currentTime
    obtain ⟨state', reason', hjudge', hstate'⟩ := judge_of_no_traffic (d := d) hobservation' htotal currentTime
    rw [hjudge, hjudge']
    refine ⟨?_, ?_, ?_⟩
    · obtain rfl | rfl := hstate <;> obtain rfl | rfl := hstate' <;> exact le_rfl
    · rintro _ ⟨⟩
    · rintro _ ⟨⟩
  · obtain ⟨state, reasons, hjudge, _, hrank⟩ := judge_of_traffic hobservation htotal currentTime
    obtain ⟨state', reasons', hjudge', _, hrank'⟩ := judge_of_traffic hobservation' htotal currentTime
    have hle : o.attained ≤ SloObservation.attained { o with goodEvents := goodEvents } :=
      roundDouble_mono (div_le_div_of_nonneg_right hmore (hobservation.good.1.trans hobservation.good.2))
    have hburn := burn_anti hdefinition.objectiveDouble hdefinition.objective.2 hle
    have hstale : isStale d { o with goodEvents := goodEvents } currentTime = isStale d o currentTime := rfl
    rw [hjudge, hjudge']
    dsimp only
    refine ⟨?_, ?_, ?_⟩
    · rw [hrank, hrank', hstale]
      split_ifs
      · exact le_rfl
      · exact rank_budgetState_mono hdefinition hobservation hobservation' htotal htotal hle
    · rintro burnRate h
      cases h
      refine ⟨_, rfl, ?_⟩
      rw [(burnRate_spec hdefinition hobservation htotal).2, (burnRate_spec hdefinition hobservation' htotal).2]
      exact hburn
    · rintro remaining h
      cases h
      refine ⟨_, rfl, ?_⟩
      rw [(errorBudgetRemaining_spec hdefinition hobservation htotal).2,
        (errorBudgetRemaining_spec hdefinition hobservation' htotal).2]
      exact roundDouble_mono (by linarith)

end

/-- Below one half a miss can be lost: of 9007199254740991 events half are not good, but the parts that failed
    and that may fail are the same double. -/
example : roundDouble (4503599627370495 / 9007199254740991) < 1 / 2 ∧
    burn (roundDouble (4503599627370495 / 9007199254740991)) (1 / 2) = 1 := by decide +kernel

def sampleDefinition : Unknown := .object fun name => .ok <|
  if name = "objective".toList then .number (.finite (3 / 4)) (by decide +kernel)
  else if name = "windowSeconds".toList then .number (.finite 3600) (by decide +kernel)
  else if name = "freshnessSeconds".toList then .number (.finite 60) (by decide +kernel)
  else if name = "atRiskBudgetRemaining".toList then .number (.finite (1 / 4)) (by decide +kernel)
  else .other

def sampleObservation (goodEvents : Double) (held : goodEvents.IsHeld) : Unknown := .object fun name => .ok <|
  if name = "goodEvents".toList then .number goodEvents held
  else if name = "totalEvents".toList then .number (.finite 100) (by decide +kernel)
  else if name = "observedAt".toList then .string "2026-10-07T00:00:00Z".toList
  else if name = "windowCoveredSeconds".toList then .number (.finite 3600) (by decide +kernel)
  else .other

def sampleNow : Option (Option Int) := some (some 1791331200000)

def sampleRead : SloDefinition := ⟨.finite (3 / 4), .finite 3600, .finite 60, .finite (1 / 4)⟩

def sampleSeen : SloObservation := ⟨.finite 49, .finite 100, 1791331200000, .finite 3600⟩

theorem readDefinition_sample : readDefinition sampleDefinition sampleNow = some (sampleRead, 1791331200000) := by
  decide +kernel

theorem readObservation_sample :
    readObservation (sampleObservation (.finite 49) (by decide +kernel)) 1791331200000 = .ok sampleSeen := by
  decide +kernel

theorem readObservation_better_sample :
    readObservation (sampleObservation (.finite 80) (by decide +kernel)) 1791331200000 =
      .ok { sampleSeen with goodEvents := .finite 80 } := by
  decide +kernel

theorem breached_iff_sample :
    (evaluateSlo sampleDefinition (sampleObservation (.finite 49) (by decide +kernel)) sampleNow).state = .breached :=
  ((breached_iff readDefinition_sample readObservation_sample).2 (by decide +kernel)).mpr (by decide +kernel)

theorem rank_mono_sample :
    (evaluateSlo sampleDefinition (sampleObservation (.finite 49) (by decide +kernel)) sampleNow).state.rank ≤
      (evaluateSlo sampleDefinition (sampleObservation (.finite 80) (by decide +kernel)) sampleNow).state.rank :=
  (rank_mono readDefinition_sample readObservation_sample readObservation_better_sample (by decide +kernel)).1

end narwhal.portal.slo
