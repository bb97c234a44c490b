import Narwhal.Lib.JsText

namespace jslib

/-! Dates as milliseconds since 1970, and the text of `toISOString`. -/

/-! ### The calendar -/

structure Civil where
  year : Int
  month : Nat
  day : Nat
deriving DecidableEq, Repr

/-- Days of an era of 400 years before a year of it. Years begin in March here, so that the
    leap day is the last of its year. -/
def daysBeforeYear (yoe : Nat) : Nat := 36524 * (yoe / 100) + 1461 * (yoe % 100 / 4) + 365 * (yoe % 4)

/-- The year of a day of an era. The last day of an era, and of four years, is in the year before. -/
def yearOfEra (doe : Nat) : Nat :=
  let century := min (doe / 36524) 3
  let doc := doe - 36524 * century
  let quad := doc / 1461
  100 * century + 4 * quad + min ((doc - 1461 * quad) / 365) 3

/-- Days of the year before a month, counted from March. -/
def daysBeforeMonth (mp : Nat) : Nat := (153 * mp + 2) / 5

def monthOfYear (doy : Nat) : Nat := (5 * doy + 2) / 153

/-- The calendar date of a day of an era. -/
def civilOfEra (era : Int) (doe : Nat) : Civil :=
  let yoe := yearOfEra doe
  let doy := doe - daysBeforeYear yoe
  let mp := monthOfYear doy
  let month := if mp < 10 then mp + 3 else mp - 9
  ⟨era * 400 + yoe + (if month ≤ 2 then 1 else 0), month, doy - daysBeforeMonth mp + 1⟩

/-- The calendar date of a day counted from 1970. -/
def civilOfDays (days : Int) : Civil :=
  let z := days + 719468
  civilOfEra (z / 146097) (z % 146097).toNat

def daysOfCivil (c : Civil) : Int :=
  let y := if c.month ≤ 2 then c.year - 1 else c.year
  let mp := if 2 < c.month then c.month - 3 else c.month + 9
  y / 400 * 146097 + daysBeforeYear (y % 400).toNat + (daysBeforeMonth mp + (c.day - 1) : Nat) - 719468

theorem daysBeforeYear_parts {century quad year : Nat} (hquad : quad < 25) (hyear : year < 4) :
    daysBeforeYear (100 * century + 4 * quad + year) = 36524 * century + 1461 * quad + 365 * year := by
  have h1 : (100 * century + 4 * quad + year) / 100 = century := by omega
  have h2 : (100 * century + 4 * quad + year) % 100 / 4 = quad := by omega
  have h3 : (100 * century + 4 * quad + year) % 4 = year := by omega
  rw [daysBeforeYear, h1, h2, h3]

/-- A day lies in its year. -/
theorem daysBeforeYear_yearOfEra {doe : Nat} (h : doe < 146097) :
    yearOfEra doe < 400 ∧ daysBeforeYear (yearOfEra doe) ≤ doe ∧ doe < daysBeforeYear (yearOfEra doe) + 366 := by
  simp only [yearOfEra]
  have hcentury : min (doe / 36524) 3 < 4 := by omega
  have hrest : doe - 36524 * min (doe / 36524) 3 < 36525 ∧ 36524 * min (doe / 36524) 3 ≤ doe := by omega
  generalize min (doe / 36524) 3 = century at hcentury hrest ⊢
  generalize hdoc : doe - 36524 * century = doc at hrest ⊢
  have hquad : doc / 1461 < 25 := by omega
  generalize hq : doc / 1461 = quad at hquad ⊢
  have hyear : min ((doc - 1461 * quad) / 365) 3 < 4 := by omega
  rw [daysBeforeYear_parts hquad hyear]
  omega

theorem daysBeforeMonth_monthOfYear {doy : Nat} (h : doy < 366) :
    monthOfYear doy < 12 ∧ daysBeforeMonth (monthOfYear doy) ≤ doy ∧
      doy < daysBeforeMonth (monthOfYear doy) + 31 := by
  unfold daysBeforeMonth monthOfYear
  omega

/-- The month and the year can be read back from the date. -/
theorem daysOfCivil_parts (era : Int) {yoe mp : Nat} (day : Nat) (hyoe : yoe < 400) (hmp : mp < 12) :
    let month := if mp < 10 then mp + 3 else mp - 9
    daysOfCivil ⟨era * 400 + yoe + (if month ≤ 2 then 1 else 0), month, day + 1⟩ =
      era * 146097 + daysBeforeYear yoe + (daysBeforeMonth mp + day : Nat) - 719468 := by
  have hera : ∀ y : Int, y = era * 400 + yoe → y / 400 = era ∧ (y % 400).toNat = yoe := by
    intro y hy
    omega
  dsimp only [daysOfCivil]
  by_cases hlate : mp < 10
  · have hm : ¬ mp + 3 ≤ 2 := by omega
    obtain ⟨h1, h2⟩ := hera (era * 400 + yoe + 0) (by omega)
    simp only [if_pos hlate, if_neg hm, h1, h2, if_pos (Nat.lt_of_not_le hm), Nat.add_sub_cancel]
  · have hm : mp - 9 ≤ 2 := by omega
    have hback : mp - 9 + 9 = mp := by omega
    obtain ⟨h1, h2⟩ := hera (era * 400 + yoe + 1 - 1) (by omega)
    simp only [if_neg hlate, if_pos hm, h1, h2, if_neg (Nat.not_lt_of_le hm), hback, Nat.add_sub_cancel]

theorem daysOfCivil_civilOfEra (era : Int) {doe : Nat} (h : doe < 146097) :
    daysOfCivil (civilOfEra era doe) = era * 146097 + doe - 719468 := by
  have hyear := daysBeforeYear_yearOfEra h
  have hdoy : doe - daysBeforeYear (yearOfEra doe) < 366 := by omega
  have hmonth := daysBeforeMonth_monthOfYear hdoy
  have hparts := daysOfCivil_parts era
    (doe - daysBeforeYear (yearOfEra doe) - daysBeforeMonth (monthOfYear (doe - daysBeforeYear (yearOfEra doe))))
    hyear.1 hmonth.1
  rw [civilOfEra]
  refine hparts.trans ?_
  omega

theorem daysOfCivil_civilOfDays (days : Int) : daysOfCivil (civilOfDays days) = days := by
  have hdoe : ((days + 719468) % 146097).toNat < 146097 := by omega
  have h := daysOfCivil_civilOfEra ((days + 719468) / 146097) hdoe
  simp only [civilOfDays]
  omega

/-- A year has at least 365 days. -/
theorem daysBeforeYear_succ (y : Int) :
    y / 400 * 146097 + daysBeforeYear (y % 400).toNat + 365 ≤
      (y + 1) / 400 * 146097 + daysBeforeYear ((y + 1) % 400).toNat := by
  unfold daysBeforeYear
  omega

theorem daysBeforeYear_lt {y y' : Int} (h : y < y') :
    y / 400 * 146097 + daysBeforeYear (y % 400).toNat + 365 ≤ y' / 400 * 146097 + daysBeforeYear (y' % 400).toNat := by
  have hmono : Monotone fun y : Int => y / 400 * 146097 + (daysBeforeYear (y % 400).toNat : Int) :=
    monotone_int_of_le_succ fun y => by
      have := daysBeforeYear_succ y
      omega
  exact (daysBeforeYear_succ y).trans (hmono (Int.add_one_le_iff.mpr h))

/-- Days less than a year apart differ in the month or in the day of the month. -/
theorem civilOfDays_month_day_inj {a b : Int} (hmonth : (civilOfDays a).month = (civilOfDays b).month)
    (hday : (civilOfDays a).day = (civilOfDays b).day) (hab : a < b + 365) (hba : b < a + 365) : a = b := by
  have ha := daysOfCivil_civilOfDays a
  have hb := daysOfCivil_civilOfDays b
  simp only [daysOfCivil, hmonth, hday] at ha hb
  generalize hy : (if (civilOfDays b).month ≤ 2 then (civilOfDays a).year - 1 else (civilOfDays a).year) = y at ha
  generalize hy' : (if (civilOfDays b).month ≤ 2 then (civilOfDays b).year - 1 else (civilOfDays b).year) = y' at hb
  rcases lt_trichotomy y y' with h | h | h
  · have := daysBeforeYear_lt h
    omega
  · subst h
    omega
  · have := daysBeforeYear_lt h
    omega
/-- A date has a month and a day of two digits, and a year of its era. -/
theorem civilOfEra_bounds (era : Int) {doe : Nat} (h : doe < 146097) :
    (civilOfEra era doe).month < 100 ∧ (civilOfEra era doe).day < 100 ∧
      era * 400 ≤ (civilOfEra era doe).year ∧ (civilOfEra era doe).year ≤ era * 400 + 400 := by
  have hyear := daysBeforeYear_yearOfEra h
  have hdoy : doe - daysBeforeYear (yearOfEra doe) < 366 := by omega
  have hmonth := daysBeforeMonth_monthOfYear hdoy
  simp only [civilOfEra]
  refine ⟨?_, ?_, ?_, ?_⟩
  · split_ifs <;> omega
  · omega
  · split_ifs <;> omega
  · split_ifs <;> omega

/-! ### The text -/

def digits2 (n : Nat) : Text := [Nat.digitChar (n / 10), Nat.digitChar (n % 10)]

def digits3 (n : Nat) : Text := Nat.digitChar (n / 100) :: digits2 (n % 100)

/-- Four digits, or a sign and six. -/
def yearText (year : Int) : Text :=
  let n := year.natAbs
  if 0 ≤ year ∧ year ≤ 9999 then digits2 (n / 100) ++ digits2 (n % 100)
  else (if year < 0 then '-' else '+') :: (digits2 (n / 10000) ++ digits2 (n / 100 % 100) ++ digits2 (n % 100))

def dateText (date : Civil) (ms : Nat) : Text :=
  yearText date.year ++
    ('-' :: digits2 date.month ++ '-' :: digits2 date.day ++ 'T' :: digits2 (ms / 3600000) ++
      ':' :: digits2 (ms / 60000 % 60) ++ ':' :: digits2 (ms / 1000 % 60) ++ '.' :: digits3 (ms % 1000) ++ ['Z'])

/-- The text of a time value, such as `2026-09-08T00:00:00.000Z`. -/
def isoText (t : Int) : Text := dateText (civilOfDays (t / 86400000)) (t % 86400000).toNat

/-- No time value lies further from 1970. -/
def MAX_TIME : Nat := 8640000000000000

/-- `new Date(t).toISOString()` -/
def toISOString (t : Int) : Except Text Text :=
  if t.natAbs ≤ MAX_TIME then .ok (isoText t) else .error "Invalid time value".toList

/-- The days of a month. -/
def daysOfMonth (year month : Nat) : Nat :=
  let leap := year % 4 = 0 ∧ (year % 100 ≠ 0 ∨ year % 400 = 0)
  [31, if leap then 29 else 28, 31, 30, 31, 30, 31, 31, 30, 31, 30, 31].getD (month - 1) 0

/-- The number that digits write. -/
def number (s : Text) : Nat := s.foldl (fun n c => 10 * n + (c.toNat - 48)) 0

/-- The year at the start of a text, and what follows it. -/
def readYear : Text → Int × Text
  | '+' :: s => (number (s.take 6), s.drop 6)
  | '-' :: s => (-number (s.take 6), s.drop 6)
  | s => (number (s.take 4), s.drop 4)

/-- The time value of a text that is laid out as `toISOString` does. -/
def readDate (s : Text) : Int :=
  let (year, rest) := readYear s
  let field := fun i n => number ((rest.drop i).take n)
  daysOfCivil ⟨year, field 1 2, field 4 2⟩ * 86400000 +
    (field 7 2 * 3600000 + field 10 2 * 60000 + field 13 2 * 1000 + field 16 3 : Nat)

/-- `Date.parse`; `none` is `NaN`. What is not the text of a time value is left to the engine. -/
def dateParse (engine : Text → Option Int) (s : Text) : Option Int :=
  let t := readDate s
  if t.natAbs ≤ MAX_TIME ∧ isoText t = s then some t else engine s

/-! ### Reading back -/

theorem digitChar_toNat {n : Nat} (h : n < 10) : (Nat.digitChar n).toNat = n + 48 := by
  have hall : ∀ n < 10, (Nat.digitChar n).toNat = n + 48 := by decide
  exact hall n h

theorem number_digits2_append {n : Nat} (h : n < 100) (init : Nat) :
    (digits2 n).foldl (fun n c => 10 * n + (c.toNat - 48)) init = 100 * init + n := by
  have hhigh : n / 10 < 10 := by omega
  have hlow : n % 10 < 10 := by omega
  simp only [digits2, List.foldl_cons, List.foldl_nil, digitChar_toNat hhigh, digitChar_toNat hlow]
  omega

theorem number_digits2 {n : Nat} (h : n < 100) : number (digits2 n) = n := by
  rw [number, number_digits2_append h]
  omega

theorem number_digits3 {n : Nat} (h : n < 1000) : number (digits3 n) = n := by
  have hhigh : n / 100 < 10 := by omega
  have hlow : n % 100 < 100 := by omega
  simp only [number, digits3, List.foldl_cons, number_digits2_append hlow, digitChar_toNat hhigh]
  omega

/-- No digit is a sign. -/
theorem readYear_digits2 {n : Nat} (h : n < 100) (s : Text) :
    readYear (digits2 n ++ s) = ((number ((digits2 n ++ s).take 4) : Int), (digits2 n ++ s).drop 4) := by
  have hsign : ∀ n < 10, Nat.digitChar n ≠ '+' ∧ Nat.digitChar n ≠ '-' := by decide
  obtain ⟨hplus, hminus⟩ := hsign (n / 10) (by omega)
  generalize hc : Nat.digitChar (n / 10) = c at hplus hminus
  simp only [digits2, hc, List.cons_append, List.nil_append]
  unfold readYear
  split
  · next h => exact absurd (List.cons.inj h).1 hplus
  · next h => exact absurd (List.cons.inj h).1 hminus
  · rfl

theorem readYear_yearText {year : Int} (h : year.natAbs < 1000000) (rest : Text) :
    readYear (yearText year ++ rest) = (year, rest) := by
  unfold yearText
  split_ifs with hshort hneg
  · have hhigh : year.natAbs / 100 < 100 := by omega
    have hlow : year.natAbs % 100 < 100 := by omega
    rw [List.append_assoc, readYear_digits2 hhigh]
    have hnumber : number (digits2 (year.natAbs / 100) ++ digits2 (year.natAbs % 100)) = year.natAbs := by
      simp only [number, List.foldl_append, number_digits2_append hhigh, number_digits2_append hlow]
      omega
    change ((number (digits2 (year.natAbs / 100) ++ digits2 (year.natAbs % 100)) : Int), rest) = (year, rest)
    rw [hnumber]
    congr
    omega
  all_goals
    have hhigh : year.natAbs / 10000 < 100 := by omega
    have hmiddle : year.natAbs / 100 % 100 < 100 := by omega
    have hlow : year.natAbs % 100 < 100 := by omega
    have hnumber : number (digits2 (year.natAbs / 10000) ++ digits2 (year.natAbs / 100 % 100) ++
        digits2 (year.natAbs % 100)) = year.natAbs := by
      simp only [number, List.foldl_append, number_digits2_append hhigh, number_digits2_append hmiddle,
        number_digits2_append hlow]
      omega
  · change (-(number (digits2 (year.natAbs / 10000) ++ digits2 (year.natAbs / 100 % 100) ++
        digits2 (year.natAbs % 100)) : Int), rest) = (year, rest)
    rw [hnumber]
    congr
    omega
  · change ((number (digits2 (year.natAbs / 10000) ++ digits2 (year.natAbs / 100 % 100) ++
        digits2 (year.natAbs % 100)) : Int), rest) = (year, rest)
    rw [hnumber]
    congr
    omega

theorem readDate_dateText {date : Civil} {ms : Nat} (hyear : date.year.natAbs < 1000000) (hmonth : date.month < 100)
    (hday : date.day < 100) (hms : ms < 86400000) :
    readDate (dateText date ms) = daysOfCivil date * 86400000 + ms := by
  obtain ⟨year, month, day⟩ := date
  dsimp only at hyear hmonth hday
  rw [readDate, dateText, readYear_yearText hyear]
  change daysOfCivil ⟨year, number (digits2 month), number (digits2 day)⟩ * 86400000 +
    (number (digits2 (ms / 3600000)) * 3600000 + number (digits2 (ms / 60000 % 60)) * 60000 +
      number (digits2 (ms / 1000 % 60)) * 1000 + number (digits3 (ms % 1000)) : Nat) = _
  rw [number_digits2 hmonth, number_digits2 hday, number_digits2 (by omega), number_digits2 (by omega),
    number_digits2 (by omega), number_digits3 (by omega)]
  omega

theorem readDate_isoText {t : Int} (h : t.natAbs ≤ MAX_TIME) : readDate (isoText t) = t := by
  have hms : (t % 86400000).toNat < 86400000 := by omega
  have hdoe : ((t / 86400000 + 719468) % 146097).toNat < 146097 := by omega
  obtain ⟨hmonth, hday, hlow, hhigh⟩ := civilOfEra_bounds ((t / 86400000 + 719468) / 146097) hdoe
  have hyear : (civilOfDays (t / 86400000)).year.natAbs < 1000000 := by
    rw [civilOfDays]
    unfold MAX_TIME at h
    omega
  rw [isoText, readDate_dateText hyear hmonth hday hms, daysOfCivil_civilOfDays]
  omega

/-- A time value is read back from its text. -/
theorem dateParse_isoText (engine : Text → Option Int) {t : Int} (h : t.natAbs ≤ MAX_TIME) :
    dateParse engine (isoText t) = some t := by
  simp [dateParse, readDate_isoText h, h]

end jslib
