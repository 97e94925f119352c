import Mathlib.Data.Nat.Find
import Mathlib.Order.Monotone.Basic
import Mathlib.Tactic.Common

/-!
# Calendar dates

Dates of the proleptic Gregorian calendar from the epoch on, as functions of the
number of the day, and their text.  A date determines its day, and so does the
text of a date whose year has four digits.
-/

namespace ClaimRush

/-! ## Dates -/

def isLeapYear (y : ℕ) : Bool :=
  decide (y % 4 = 0) && (decide (y % 100 ≠ 0) || decide (y % 400 = 0))

/-- The number of the first day of the year. -/
def dayFromYear (y : ℕ) : ℕ :=
  365 * (y - 1970) + (y - 1969) / 4 + (y - 1601) / 400 - (y - 1901) / 100

/-- The last year that has begun by the day. -/
def yearFromDay (d : ℕ) : ℕ :=
  1970 + Nat.findGreatest (fun k ↦ dayFromYear (1970 + k) ≤ d) (d / 365)

/-- The first day of a month, from the first day of its year; months count from zero. -/
def monthStart (leap : Bool) (m : ℕ) : ℕ :=
  [0, 31, 59, 90, 120, 151, 181, 212, 243, 273, 304, 334].getD m 0 +
    if leap && decide (2 ≤ m) then 1 else 0

/-- The last month that has begun by the day of the year. -/
def monthFromDay (leap : Bool) (dayInYear : ℕ) : ℕ :=
  Nat.findGreatest (fun m ↦ monthStart leap m ≤ dayInYear) 11

structure IsoDate where
  year : ℕ
  month : ℕ
  day : ℕ
  deriving DecidableEq, Repr

/-- The date of a day. -/
def isoDate (d : ℕ) : IsoDate :=
  let y := yearFromDay d
  let dayInYear := d - dayFromYear y
  let m := monthFromDay (isLeapYear y) dayInYear
  ⟨y, m + 1, dayInYear - monthStart (isLeapYear y) m + 1⟩

/-- The day of a date. -/
def IsoDate.toDay (t : IsoDate) : ℕ :=
  dayFromYear t.year + monthStart (isLeapYear t.year) (t.month - 1) + (t.day - 1)

theorem dayFromYear_le (d : ℕ) : dayFromYear (yearFromDay d) ≤ d := by
  refine Nat.findGreatest_spec (P := fun k ↦ dayFromYear (1970 + k) ≤ d) (Nat.zero_le _) ?_
  simp [dayFromYear]

theorem lt_dayFromYear (d : ℕ) : d < dayFromYear (yearFromDay d + 1) := by
  by_contra h
  have hlt : yearFromDay d + 1 - 1970 ≤ d / 365 := by
    unfold dayFromYear at h
    have : 1970 ≤ yearFromDay d := Nat.le_add_right ..
    omega
  have hgreatest := Nat.findGreatest_is_greatest (P := fun k ↦ dayFromYear (1970 + k) ≤ d)
    (n := d / 365) (k := yearFromDay d + 1 - 1970) (by unfold yearFromDay; omega) hlt
  have : 1970 ≤ yearFromDay d := Nat.le_add_right ..
  rw [show 1970 + (yearFromDay d + 1 - 1970) = yearFromDay d + 1 by omega] at hgreatest
  omega

theorem dayFromYear_mono : Monotone dayFromYear := by
  refine monotone_nat_of_le_succ fun y ↦ ?_
  unfold dayFromYear
  omega

/-- The year of a day has four digits when the day comes before the year 10000. -/
theorem yearFromDay_lt {d : ℕ} (h : d < dayFromYear 10000) : yearFromDay d < 10000 := by
  by_contra hge
  have hmono := dayFromYear_mono (Nat.not_lt.mp hge)
  have hle := dayFromYear_le d
  omega

theorem dayInYear_lt (d : ℕ) : d - dayFromYear (yearFromDay d) < 366 := by
  have hlt := lt_dayFromYear d
  have hge : 1970 ≤ yearFromDay d := Nat.le_add_right ..
  have hstep : dayFromYear (yearFromDay d + 1) ≤ dayFromYear (yearFromDay d) + 366 := by
    unfold dayFromYear
    omega
  omega

theorem monthStart_le (leap : Bool) (x : ℕ) : monthStart leap (monthFromDay leap x) ≤ x := by
  refine Nat.findGreatest_spec (P := fun m ↦ monthStart leap m ≤ x) (Nat.zero_le _) ?_
  simp [monthStart]

theorem monthFromDay_le (leap : Bool) (x : ℕ) : monthFromDay leap x ≤ 11 := Nat.findGreatest_le _

/-- A month has at most 32 days counted from its start. -/
theorem dayInMonth_lt (leap : Bool) {x : ℕ} (hx : x < 366) :
    x - monthStart leap (monthFromDay leap x) < 32 := by
  have hnext (hlt : monthFromDay leap x < 11) : x < monthStart leap (monthFromDay leap x + 1) := by
    by_contra h
    exact Nat.findGreatest_is_greatest (P := fun m ↦ monthStart leap m ≤ x) (Nat.lt_succ_self _)
      hlt (Nat.not_lt.mp h)
  have hlength : ∀ m < 11, monthStart leap (m + 1) ≤ monthStart leap m + 32 := by
    cases leap <;> decide
  rcases Nat.lt_or_ge (monthFromDay leap x) 11 with hlt | hge
  · have := hnext hlt
    have := hlength _ hlt
    omega
  · have hlast : monthFromDay leap x = 11 := Nat.le_antisymm (monthFromDay_le leap x) hge
    have hstart : 334 ≤ monthStart leap 11 := by cases leap <;> decide
    rw [hlast]
    omega

/-- A date determines its day. -/
theorem toDay_isoDate (d : ℕ) : (isoDate d).toDay = d := by
  have hyear := dayFromYear_le d
  have hmonth := monthStart_le (isLeapYear (yearFromDay d)) (d - dayFromYear (yearFromDay d))
  simp only [isoDate, IsoDate.toDay, Nat.add_sub_cancel]
  omega

/-! ## Text -/

def digit (n : ℕ) : Char := Nat.digitChar (n % 10)

def pad2 (n : ℕ) : List Char := [digit (n / 10), digit n]

def pad4 (n : ℕ) : List Char := pad2 (n / 100) ++ pad2 n

/-- `YYYY-MM-DD`, and `+YYYYYY-MM-DD` from the year 10000 on. -/
def IsoDate.text (t : IsoDate) : List Char :=
  (if t.year < 10000 then pad4 t.year else '+' :: (pad2 (t.year / 10000) ++ pad4 t.year)) ++
    '-' :: pad2 t.month ++ '-' :: pad2 t.day

theorem digit_inj {a b : ℕ} (h : digit a = digit b) : a % 10 = b % 10 := by
  have hchar : ∀ i < 10, ∀ j < 10, Nat.digitChar i = Nat.digitChar j → i = j := by decide
  exact hchar _ (Nat.mod_lt _ (by decide)) _ (Nat.mod_lt _ (by decide)) h

theorem pad2_inj {a b : ℕ} (ha : a < 100) (hb : b < 100) (h : pad2 a = pad2 b) : a = b := by
  simp only [pad2, List.cons.injEq, and_true] at h
  have := digit_inj h.1
  have := digit_inj h.2
  omega

theorem pad4_inj {a b : ℕ} (ha : a < 10000) (hb : b < 10000) (h : pad4 a = pad4 b) : a = b := by
  simp only [pad4, pad2, List.cons_append, List.nil_append, List.cons.injEq, and_true] at h
  have := digit_inj h.1
  have := digit_inj h.2.1
  have := digit_inj h.2.2.1
  have := digit_inj h.2.2.2
  omega

theorem isoDate_bounds (d : ℕ) : (isoDate d).month < 100 ∧ (isoDate d).day < 100 := by
  have hmonth := monthFromDay_le (isLeapYear (yearFromDay d)) (d - dayFromYear (yearFromDay d))
  have hday := dayInMonth_lt (isLeapYear (yearFromDay d)) (dayInYear_lt d)
  simp only [isoDate]
  omega

/-- Before the year 10000 the first ten characters of the text determine the day. -/
theorem isoDate_text_inj {d d' : ℕ} (hd : d < dayFromYear 10000) (hd' : d' < dayFromYear 10000)
    (h : (isoDate d).text.take 10 = (isoDate d').text.take 10) : d = d' := by
  have hyear : (isoDate d).year < 10000 := yearFromDay_lt hd
  have hyear' : (isoDate d').year < 10000 := yearFromDay_lt hd'
  obtain ⟨hmonth, hday⟩ := isoDate_bounds d
  obtain ⟨hmonth', hday'⟩ := isoDate_bounds d'
  rw [← toDay_isoDate d, ← toDay_isoDate d']
  generalize isoDate d = t at *
  generalize isoDate d' = t' at *
  have hlength (n : ℕ) : (pad4 n).length = 4 := rfl
  simp only [IsoDate.text, hyear, hyear', if_true] at h
  have hparts : pad4 t.year = pad4 t'.year ∧ pad2 t.month = pad2 t'.month ∧
      pad2 t.day = pad2 t'.day := by
    simpa [pad4, pad2, and_assoc] using h
  have hy := pad4_inj hyear hyear' hparts.1
  have hm := pad2_inj hmonth hmonth' hparts.2.1
  have hdd := pad2_inj hday hday' hparts.2.2
  simp only [IsoDate.toDay, hy, hm, hdd]

end ClaimRush
