import Mathlib.Data.List.Basic

/-!
# The civil calendar

Days are counted in eras of 400 years whose years begin in March, so that a leap day is the last day of its year.

* `daysBefore y` days of an era come before its year `y`, and `yearAt doe` is the year of a day (`yearAt_spec`);
* `monthAt doy` is the month of a day of a year, counted from March (`monthAt_spec`);
* `dateOf` gives every day a date, `daysOf` counts the days up to a date, and the dates follow each other as the days do
  (`daysOf_dateOf`, `dateOf_lt_iff`).
-/

namespace Calendar

/-- The days of an era. -/
def eraDays : Nat := 146097

/-- The days of an era before its year `y`. -/
def daysBefore (y : Nat) : Nat := 365 * y + y / 4 - y / 100 + y / 400

/-- The days of an era before a day, without the leap days among them. -/
private def withoutLeapDays (doe : Nat) : Nat := doe - doe / 1460 + doe / 36524 - doe / 146096

/-- The year of a day of an era. -/
def yearAt (doe : Nat) : Nat := (doe - doe / 1460 + doe / 36524 - doe / 146096) / 365

private theorem withoutLeapDays_mono {a b : Nat} (h : a ≤ b) : withoutLeapDays a ≤ withoutLeapDays b := by
  unfold withoutLeapDays
  omega

/-- The first and the last day of each year of an era. -/
private theorem withoutLeapDays_ends : ∀ y < 400, 365 * y ≤ withoutLeapDays (daysBefore y) ∧
    withoutLeapDays (daysBefore (y + 1) - 1) < 365 * (y + 1) := by
  decide +kernel

theorem daysBefore_succ (y : Nat) :
    daysBefore y + 365 ≤ daysBefore (y + 1) ∧ daysBefore (y + 1) ≤ daysBefore y + 366 := by
  unfold daysBefore
  omega

theorem daysBefore_mono {a b : Nat} (h : a ≤ b) : daysBefore a ≤ daysBefore b := by
  induction h with
  | refl => exact Nat.le_refl _
  | step _ ih => exact Nat.le_trans ih (Nat.le_trans (Nat.le_add_right _ _) (daysBefore_succ _).1)

private theorem exists_year {doe n : Nat} (h : doe < daysBefore n) :
    ∃ y < n, daysBefore y ≤ doe ∧ doe < daysBefore (y + 1) := by
  induction n with
  | zero => exact absurd h (Nat.not_lt_zero _)
  | succ n ih =>
    by_cases hn : doe < daysBefore n
    · obtain ⟨y, hy, hdoe⟩ := ih hn
      exact ⟨y, by omega, hdoe⟩
    · exact ⟨n, by omega, by omega, h⟩

/-- A day of an era is one of the days of its year. -/
theorem yearAt_spec {doe : Nat} (h : doe < eraDays) :
    yearAt doe < 400 ∧ daysBefore (yearAt doe) ≤ doe ∧ doe < daysBefore (yearAt doe + 1) := by
  obtain ⟨y, hy, hfirst, hlast⟩ := exists_year (n := 400) h
  obtain ⟨hlow, hhigh⟩ := withoutLeapDays_ends y hy
  have hfrom := withoutLeapDays_mono hfirst
  have hto := withoutLeapDays_mono (show doe ≤ daysBefore (y + 1) - 1 by omega)
  have hyear : yearAt doe = y := by
    show withoutLeapDays doe / 365 = y
    omega
  rw [hyear]
  exact ⟨hy, hfirst, hlast⟩

/-- The month of a day of a year, from 0 for March. -/
def monthAt (doy : Nat) : Nat := (5 * doy + 2) / 153

/-- The days of a year before its month `m`, counted from March. -/
def daysBeforeMonth (m : Nat) : Nat := (153 * m + 2) / 5

theorem daysBeforeMonth_succ (m : Nat) : daysBeforeMonth (m + 1) ≤ daysBeforeMonth m + 31 := by
  unfold daysBeforeMonth
  omega

theorem daysBeforeMonth_mono {a b : Nat} (h : a ≤ b) : daysBeforeMonth a ≤ daysBeforeMonth b := by
  unfold daysBeforeMonth
  omega

/-- A day of a year is one of the days of its month. -/
theorem monthAt_spec (doy : Nat) :
    daysBeforeMonth (monthAt doy) ≤ doy ∧ doy < daysBeforeMonth (monthAt doy + 1) := by
  unfold monthAt daysBeforeMonth
  omega

theorem monthAt_lt {doy : Nat} (h : doy < 366) : monthAt doy < 12 := by
  unfold monthAt
  omega

/-- A date: the year begins in March, and the months and the days of a month count from 0. -/
structure Date where
  year : Int
  month : Nat
  day : Nat

/-- The date of the day that is `n` days after the first day of year 0. -/
def dateOf (n : Int) : Date :=
  let doe := (n % eraDays).toNat
  let doy := doe - daysBefore (yearAt doe)
  { year := n / eraDays * 400 + yearAt doe
    month := monthAt doy
    day := doy - daysBeforeMonth (monthAt doy) }

def daysOf (d : Date) : Int :=
  d.year / 400 * eraDays + daysBefore (d.year % 400).toNat + daysBeforeMonth d.month + d.day

/-- The months from March of year 0 to a date. -/
def Date.months (d : Date) : Int := d.year * 12 + d.month

/-- The day of an era and the day of a year that a date was made from. -/
private theorem dateOf_parts (n : Int) : ∃ doe doy : Nat, n = n / eraDays * eraDays + doe ∧ doe < eraDays ∧
    yearAt doe < 400 ∧ doe = daysBefore (yearAt doe) + doy ∧ doe < daysBefore (yearAt doe + 1) ∧ doy < 366 ∧
      dateOf n = ⟨n / eraDays * 400 + yearAt doe, monthAt doy, doy - daysBeforeMonth (monthAt doy)⟩ := by
  have hera : (0 : Int) < eraDays := by decide
  have hlow := Int.emod_nonneg n (show (eraDays : Int) ≠ 0 by decide)
  have hhigh := Int.emod_lt_of_pos n hera
  have hdiv := Int.mul_ediv_add_emod n eraDays
  have hdoe : (n % eraDays).toNat < eraDays := by omega
  obtain ⟨hy, hfirst, hlast⟩ := yearAt_spec hdoe
  have hsucc := daysBefore_succ (yearAt (n % eraDays).toNat)
  refine ⟨(n % eraDays).toNat, (n % eraDays).toNat - daysBefore (yearAt (n % eraDays).toNat), ?_, hdoe, hy, ?_, hlast,
    ?_, rfl⟩
  · rw [Int.toNat_of_nonneg hlow, Int.mul_comm]
    exact hdiv.symm
  · omega
  · omega

/-- The months and the days of a date are within their ranges. -/
theorem dateOf_range (n : Int) : (dateOf n).month < 12 ∧ (dateOf n).day < 31 := by
  obtain ⟨doe, doy, -, -, -, -, -, hdoy, hdate⟩ := dateOf_parts n
  obtain ⟨hfirst, hlast⟩ := monthAt_spec doy
  have hlength := daysBeforeMonth_succ (monthAt doy)
  rw [hdate]
  refine ⟨monthAt_lt hdoy, ?_⟩
  show doy - daysBeforeMonth (monthAt doy) < 31
  omega

/-- The days up to the date of a day are counted. -/
theorem daysOf_dateOf (n : Int) : daysOf (dateOf n) = n := by
  obtain ⟨doe, doy, hn, -, hy, hdoe, -, -, hdate⟩ := dateOf_parts n
  obtain ⟨hfirst, -⟩ := monthAt_spec doy
  have hera : (n / eraDays * 400 + yearAt doe) / 400 = n / eraDays := by omega
  have hyear : ((n / eraDays * 400 + yearAt doe) % 400).toNat = yearAt doe := by omega
  rw [hdate]
  simp only [daysOf, hera, hyear]
  omega

/-- A later day has a later date. -/
theorem dateOf_lt_iff {m n : Int} : m < n ↔ (dateOf m).months < (dateOf n).months ∨
    (dateOf m).months = (dateOf n).months ∧ (dateOf m).day < (dateOf n).day := by
  have hlater : ∀ m n : Int, m ≤ n → (dateOf m).months < (dateOf n).months ∨
      (dateOf m).months = (dateOf n).months ∧ n - m = (dateOf n).day - (dateOf m).day := by
    intro m n hmn
    obtain ⟨doe, doy, hm, hdoe, hy, hdoy, hlast, hdoyLt, hdate⟩ := dateOf_parts m
    obtain ⟨doe', doy', hn, hdoe', hy', hdoy', hlast', hdoyLt', hdate'⟩ := dateOf_parts n
    obtain ⟨hfirst, hmonth⟩ := monthAt_spec doy
    obtain ⟨hfirst', hmonth'⟩ := monthAt_spec doy'
    have hmonthLt := monthAt_lt hdoyLt
    have hmonthLt' := monthAt_lt hdoyLt'
    have hyears : yearAt doe' + 1 ≤ yearAt doe → daysBefore (yearAt doe' + 1) ≤ daysBefore (yearAt doe) :=
      daysBefore_mono
    have hmonths : monthAt doy' + 1 ≤ monthAt doy →
        daysBeforeMonth (monthAt doy' + 1) ≤ daysBeforeMonth (monthAt doy) := daysBeforeMonth_mono
    have hera : m / eraDays ≤ n / eraDays := Int.ediv_le_ediv (by decide) hmn
    have heq : yearAt doe = yearAt doe' → daysBefore (yearAt doe) = daysBefore (yearAt doe') := congrArg _
    have heq' : monthAt doy = monthAt doy' → daysBeforeMonth (monthAt doy) = daysBeforeMonth (monthAt doy') :=
      congrArg _
    rw [hdate, hdate']
    simp only [Date.months, eraDays] at hm hn hera hdoe hdoe' ⊢
    omega
  constructor
  · intro h
    rcases hlater m n (by omega) with hm | hm
    · exact Or.inl hm
    · exact Or.inr ⟨hm.1, by omega⟩
  · intro h
    by_contra hle
    rcases hlater n m (by omega) with hm | hm
    · omega
    · omega

end Calendar
