/-
**The proleptic Gregorian calendar.**

A year is a leap year when 4 divides it, unless 100 does and 400 does not.  A date is a year, one of
its twelve months, and a day of that month.  Every date is followed by another, and the dates are
compared by year, month and day.

Main definitions:

* `Gregorian.IsLeap`, `Gregorian.daysInMonth` — the rules of the calendar;
* `Gregorian.Date` — a date that exists, with `Date.next` and `Date.after`;
* `Gregorian.marchDate` — a date from the days since the first of March;
* `Gregorian.yearStart` — the days of an era of 400 years before one of its years.

Main results:

* `Gregorian.Date.fields_strictMono` — **later dates are greater**;
* `Gregorian.following_marchDate`, `following_marchDate_last` — a year that starts in March runs
  through its dates in order.
-/

import Mathlib.Data.List.Lex
import Mathlib.Order.Monotone.Basic
import Mathlib.Tactic

set_option relaxedAutoImplicit false
set_option autoImplicit false

namespace Gregorian

/-! ### The rules -/

/-- A leap year: every fourth, but of the hundreds only every fourth again. -/
def IsLeap (year : ℕ) : Prop := year % 4 = 0 ∧ (year % 100 ≠ 0 ∨ year % 400 = 0)

instance : DecidablePred IsLeap := fun _ => inferInstanceAs (Decidable (_ ∧ _))

def daysInMonth (year month : ℕ) : ℕ :=
  if month = 2 then if IsLeap year then 29 else 28
  else if month = 4 ∨ month = 6 ∨ month = 9 ∨ month = 11 then 30
  else 31

theorem daysInMonth_pos (year month : ℕ) : 1 ≤ daysInMonth year month := by
  unfold daysInMonth
  split_ifs <;> omega

theorem daysInMonth_le (year month : ℕ) : daysInMonth year month ≤ 31 := by
  unfold daysInMonth
  split_ifs <;> omega

/-! ### Dates -/

/-- A date that exists. -/
structure Date where
  year : ℕ
  month : ℕ
  day : ℕ
  month_mem : 1 ≤ month ∧ month ≤ 12
  day_mem : 1 ≤ day ∧ day ≤ daysInMonth year month

/-- The first of a month. -/
def Date.first (year month : ℕ) (h : 1 ≤ month ∧ month ≤ 12) : Date where
  year := year
  month := month
  day := 1
  month_mem := h
  day_mem := ⟨le_rfl, daysInMonth_pos year month⟩

/-- The date of the following day. -/
def Date.next (d : Date) : Date :=
  if h : d.day < daysInMonth d.year d.month then
    { d with day := d.day + 1, day_mem := ⟨Nat.le_add_left 1 d.day, h⟩ }
  else if h : d.month < 12 then .first d.year (d.month + 1) ⟨Nat.le_add_left 1 d.month, h⟩
  else .first (d.year + 1) 1 (by omega)

/-- The date so many days later. -/
def Date.after (d : Date) : ℕ → Date
  | 0 => d
  | n + 1 => (d.after n).next

/-- The year, the month and the day. -/
def Date.triple (d : Date) : ℕ × ℕ × ℕ := (d.year, d.month, d.day)

/-- The fields of a date in the order in which dates are compared. -/
def Date.fields (d : Date) : List ℕ := [d.year, d.month, d.day]

/-- What follows a year, month and day. -/
def following (t : ℕ × ℕ × ℕ) : ℕ × ℕ × ℕ :=
  if t.2.2 < daysInMonth t.1 t.2.1 then (t.1, t.2.1, t.2.2 + 1)
  else if t.2.1 < 12 then (t.1, t.2.1 + 1, 1)
  else (t.1 + 1, 1, 1)

theorem Date.triple_next (d : Date) : d.next.triple = following d.triple := by
  unfold Date.next Date.triple following
  dsimp only
  by_cases hday : d.day < daysInMonth d.year d.month
  · rw [dif_pos hday, if_pos hday]
  rw [dif_neg hday, if_neg hday]
  by_cases hmonth : d.month < 12
  · rw [dif_pos hmonth, if_pos hmonth]
    rfl
  · rw [dif_neg hmonth, if_neg hmonth]
    rfl

theorem Date.fields_next (d : Date) : d.fields < d.next.fields := by
  unfold Date.next Date.fields
  by_cases hday : d.day < daysInMonth d.year d.month
  · rw [dif_pos hday]
    exact .cons (.cons (.rel (Nat.lt_succ_self d.day)))
  rw [dif_neg hday]
  by_cases hmonth : d.month < 12
  · rw [dif_pos hmonth]
    exact .cons (.rel (Nat.lt_succ_self d.month))
  · rw [dif_neg hmonth]
    exact .rel (Nat.lt_succ_self d.year)

/-- **Later dates are greater.** -/
theorem Date.fields_strictMono (d : Date) : StrictMono fun n => (d.after n).fields :=
  strictMono_nat_of_lt_succ fun n => (d.after n).fields_next

/-! ### Years that start in March -/

/-- The days of the year that starts on the first of March: the leap day is its last. -/
def marchLength (year : ℕ) : ℕ := if IsLeap (year + 1) then 366 else 365

/-- The days before a month, counted from March on.  The months have 31, 30, 31, 30 and 31 days,
twice and once more, and so five of them have 153 days. -/
def monthStart (mp : ℕ) : ℕ := (153 * mp + 2) / 5

def monthOf (mp : ℕ) : ℕ := if mp < 10 then mp + 3 else mp - 9

/-- January and February are in the next year. -/
def yearOf (year mp : ℕ) : ℕ := if monthOf mp ≤ 2 then year + 1 else year

/-- The date so many days after the first of March. -/
def marchDate (year days : ℕ) : ℕ × ℕ × ℕ :=
  let mp := (5 * days + 2) / 153
  (yearOf year mp, monthOf mp, days - monthStart mp + 1)

variable {year days mp : ℕ}

theorem marchLength_le (year : ℕ) : marchLength year ≤ 366 := by
  unfold marchLength
  split <;> omega

/-- The days up to the next month are in this month. -/
theorem marchDate_eq (year : ℕ) (hstart : monthStart mp ≤ days)
    (hnext : days < monthStart (mp + 1)) :
    marchDate year days = (yearOf year mp, monthOf mp, days - monthStart mp + 1) := by
  have hmp : (5 * days + 2) / 153 = mp := by
    unfold monthStart at hstart hnext
    omega
  rw [marchDate, hmp]

/-- The months before February have the same length in every year. -/
theorem daysInMonth_monthOf (year : ℕ) (h : mp < 11) :
    daysInMonth (yearOf year mp) (monthOf mp) = monthStart (mp + 1) - monthStart mp := by
  interval_cases mp <;> rfl

/-- The year ends with February. -/
theorem daysInMonth_february (year : ℕ) :
    daysInMonth (yearOf year 11) (monthOf 11) = marchLength year - monthStart 11 := by
  have hmonth : monthOf 11 = 2 := rfl
  have hyear : yearOf year 11 = year + 1 := rfl
  rw [hmonth, hyear, daysInMonth, if_pos rfl, marchLength]
  split <;> rfl

/-- Within a month the day is counted on. -/
theorem following_of_lt {t : ℕ × ℕ × ℕ} (h : t.2.2 < daysInMonth t.1 t.2.1) :
    following t = (t.1, t.2.1, t.2.2 + 1) := if_pos h

/-- The last day of a month is followed by the first of the next. -/
theorem following_of_eq {t : ℕ × ℕ × ℕ} (h : t.2.2 = daysInMonth t.1 t.2.1) :
    following t = if t.2.1 < 12 then (t.1, t.2.1 + 1, 1) else (t.1 + 1, 1, 1) :=
  if_neg h.not_lt

theorem exists_month (h : days < 367) :
    ∃ mp < 12, monthStart mp ≤ days ∧ days < monthStart (mp + 1) := by
  unfold monthStart
  exact ⟨(5 * days + 2) / 153, by omega, by omega, by omega⟩

/-- **A year that starts in March runs through its dates.** -/
theorem following_marchDate (h : days + 1 < marchLength year) :
    following (marchDate year days) = marchDate year (days + 1) := by
  have hyear := marchLength_le year
  obtain ⟨mp, hmp, hstart, hnext⟩ := exists_month (show days < 367 by omega)
  by_cases hlast : days + 1 < monthStart (mp + 1)
  · -- the next day is in the same month
    rw [marchDate_eq year hstart hnext, marchDate_eq year (Nat.le_succ_of_le hstart) hlast,
      following_of_lt]
    · rw [Nat.succ_sub hstart]
    · change days - monthStart mp + 1 < daysInMonth (yearOf year mp) (monthOf mp)
      rcases (Nat.lt_succ_iff.1 hmp).lt_or_eq with hmp | rfl
      · rw [daysInMonth_monthOf year hmp]
        omega
      · rw [daysInMonth_february]
        omega
  · -- the next day is the first of the next month, for February would end the year
    have hfirst : days + 1 = monthStart (mp + 1) := by omega
    have hmp : mp < 11 := by
      by_contra hmp
      obtain rfl : mp = 11 := by omega
      have hend : monthStart (11 + 1) = 367 := rfl
      omega
    have hgrow : monthStart (mp + 1) < monthStart (mp + 1 + 1) := by
      unfold monthStart
      omega
    rw [marchDate_eq year hstart hnext, hfirst, marchDate_eq year le_rfl hgrow, following_of_eq]
    · interval_cases mp <;> simp [yearOf, monthOf]
    · change days - monthStart mp + 1 = daysInMonth (yearOf year mp) (monthOf mp)
      rw [daysInMonth_monthOf year hmp]
      omega

/-- **The last day of February is followed by the first of March.** -/
theorem following_marchDate_last (h : days + 1 = marchLength year) :
    following (marchDate year days) = marchDate (year + 1) 0 := by
  have hyear := marchLength_le year
  have hshort : 365 ≤ marchLength year := by
    unfold marchLength
    split <;> omega
  have hfeb : monthStart 11 ≤ days := by
    rw [show monthStart 11 = 337 from rfl]
    omega
  have hmar : days < monthStart (11 + 1) := by
    rw [show monthStart (11 + 1) = 367 from rfl]
    omega
  rw [marchDate_eq year hfeb hmar, following_of_eq]
  · rfl
  · change days - monthStart 11 + 1 = daysInMonth (yearOf year 11) (monthOf 11)
    rw [daysInMonth_february]
    omega

/-! ### Eras of 400 years -/

/-- The days of an era before one of its years. -/
def yearStart (yoe : ℕ) : ℕ := 365 * yoe + yoe / 4 - yoe / 100

/-- The days of an era. -/
def eraLength : ℕ := 146097

/-- The days before a year of an era, by its century, its group of four years and its place in the
group. -/
theorem yearStart_eq {c q r : ℕ} (hq : q < 25) (hr : r < 4) :
    yearStart (100 * c + 4 * q + r) = 36524 * c + 1461 * q + 365 * r := by
  unfold yearStart
  omega

/-- A leap day ends the fourth year of a group, but of the groups that end a century only the last
of the era. -/
theorem marchLength_eq {c q r : ℕ} (hc : c < 4) (hq : q < 25) (hr : r < 4) :
    marchLength (100 * c + 4 * q + r) = if r = 3 ∧ (q = 24 → c = 3) then 366 else 365 := by
  refine if_congr ?_ rfl rfl
  unfold IsLeap
  omega

/-- The leap days of an era before one of its days, by divisions: they are at least those before the
year of the day, and a year more is reached only with a leap day. -/
theorem leapDays_bounds {c q r doy doe : ℕ} (hc : c < 4) (hq : q < 25) (hr : r < 4)
    (hdoy : doy < if r = 3 ∧ (q = 24 → c = 3) then 366 else 365)
    (hdoe : doe = 36524 * c + 1461 * q + 365 * r + doy) :
    doe / 1460 ≤ 25 * c + q + doy ∧ 25 * c + q + doy < doe / 1460 + 365 := by
  constructor
  · rw [← Nat.lt_succ_iff, Nat.div_lt_iff_lt_mul (by omega)]
    omega
  · have hlow : 25 * c + q + doy - 364 ≤ doe / 1460 := by
      rw [Nat.le_div_iff_mul_le (by omega)]
      split at hdoy <;> omega
    omega

/-- **A day of an era determines its year, by divisions**: without the leap days before it the years
have 365 days. -/
theorem yearOfEra {yoe doy doe : ℕ} (hyoe : yoe < 400) (hdoy : doy < marchLength yoe)
    (hdoe : doe = yearStart yoe + doy) :
    (doe - doe / 1460 + doe / 36524 - doe / 146096) / 365 = yoe := by
  obtain ⟨c, q, r, hc, hq, hr, rfl⟩ :
      ∃ c q r, c < 4 ∧ q < 25 ∧ r < 4 ∧ yoe = 100 * c + 4 * q + r :=
    ⟨yoe / 100, yoe % 100 / 4, yoe % 4, by omega, by omega, by omega, by omega⟩
  rw [marchLength_eq hc hq hr] at hdoy
  rw [yearStart_eq hq hr] at hdoe
  obtain ⟨hle, hlt⟩ := leapDays_bounds hc hq hr hdoy hdoe
  by_cases hlast : doe = 146096
  · -- the last day of the era has a fourth century day and the day of the era itself before it
    subst hlast
    split at hdoy <;> omega
  · have hday : doe < 36524 * (c + 1) := by split at hdoy <;> omega
    have hcentury : doe / 36524 = c := by omega
    have hera : doe / 146096 = 0 := by omega
    rw [hcentury, hera]
    omega

/-- The years of an era follow one another. -/
theorem yearStart_succ {yoe : ℕ} (h : yoe < 399) :
    yearStart (yoe + 1) = yearStart yoe + marchLength yoe := by
  unfold yearStart marchLength
  by_cases hleap : IsLeap (yoe + 1)
  · rw [if_pos hleap]
    unfold IsLeap at hleap
    omega
  · rw [if_neg hleap]
    unfold IsLeap at hleap
    omega

/-- The last year ends the era. -/
theorem yearStart_last : yearStart 399 + marchLength 399 = eraLength := by decide

/-- The eras have the same leap years. -/
theorem marchLength_add_era (yoe era : ℕ) : marchLength (yoe + era * 400) = marchLength yoe := by
  refine if_congr ?_ rfl rfl
  unfold IsLeap
  omega

end Gregorian
