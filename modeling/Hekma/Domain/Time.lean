/-
**Timestamps** (`time.rs`).

A timestamp is the text of an instant in UTC: the date and the time of day.  The date of a day is
computed by divisions, over eras of 400 years that start in March.  Here it is shown to be the date
that is reached from the epoch by going on one day at a time.

Main definitions:

* `civilFromDays`, `formatRfc3339` — the date of a day, and the text of an instant;
* `TimeOfDay`, `dateOf` — the time of day and the date of an instant;
* `rfc3339Text` — the text of a date and a time of day.

Main results:

* `civilFromDays_eq` — the divisions give the date;
* `formatRfc3339_exact_and_sorted` — **timestamps are exact, and sort by time**.
-/

import Hekma.Lib.Gregorian
import Hekma.Lib.Positional
import Mathlib.Data.String.Basic

set_option relaxedAutoImplicit false
set_option autoImplicit false

namespace Hekma

open Gregorian (Date marchDate marchLength yearStart eraLength)
open Positional (numeral digits)

/-! ### The code -/

/-- Days since the epoch as a civil date.  The days of a `u64` of seconds are so few that no step
leaves the `u64`. -/
def civilFromDays (daysSinceEpoch : ℕ) : ℕ × ℕ × ℕ :=
  let z := daysSinceEpoch + 719468
  let era := z / 146097
  let doe := z - era * 146097
  let yoe := (doe - doe / 1460 + doe / 36524 - doe / 146096) / 365
  let y := yoe + era * 400
  let doy := doe - (365 * yoe + yoe / 4 - yoe / 100)
  let mp := (5 * doy + 2) / 153
  let day := doy - (153 * mp + 2) / 5 + 1
  let month := if mp < 10 then mp + 3 else mp - 9
  let year := if month ≤ 2 then y + 1 else y
  (year, month, day)

/-- A number in decimal, with zeros before it up to a width. -/
def padded (width n : ℕ) : List Char := (Nat.toDigits 10 n).leftpad width '0'

/-- The text of an instant, in whole seconds since the epoch. -/
def formatRfc3339 (unixSecs : ℕ) : String :=
  let days := unixSecs / 86400
  let secsOfDay := unixSecs % 86400
  let hour := secsOfDay / 3600
  let minute := secsOfDay % 3600 / 60
  let second := secsOfDay % 60
  let (year, month, day) := civilFromDays days
  String.ofList (padded 4 year ++ '-' :: padded 2 month ++ '-' :: padded 2 day ++
    'T' :: padded 2 hour ++ ':' :: padded 2 minute ++ ':' :: padded 2 second ++ ['Z'])

/-! ### The date of a day -/

/-- The first day of the epoch. -/
def epoch : Date where
  year := 1970
  month := 1
  day := 1
  month_mem := by decide
  day_mem := by decide

/-- The divisions find the era, the year and the day of the year. -/
theorem civilFromDays_of_march {days era yoe doy : ℕ} (hyoe : yoe < 400)
    (hdoy : doy < marchLength yoe)
    (h : days + 719468 = era * eraLength + (yearStart yoe + doy)) :
    civilFromDays days = marchDate (yoe + era * 400) doy := by
  have hlength : yearStart yoe + doy < 146097 := by
    have hyear := Gregorian.marchLength_le yoe
    unfold yearStart
    rcases Nat.lt_or_ge yoe 399 with hlt | hge
    · omega
    · obtain rfl : yoe = 399 := by omega
      have hlast : marchLength 399 = 366 := rfl
      omega
  have hera : (days + 719468) / 146097 = era := by
    rw [h, eraLength]
    omega
  have hdoe : days + 719468 - era * 146097 = yearStart yoe + doy := by
    rw [h, eraLength]
    omega
  have hdays : yearStart yoe + doy - (365 * yoe + yoe / 4 - yoe / 100) = doy :=
    Nat.add_sub_cancel_left (yearStart yoe) doy
  unfold civilFromDays
  simp only [hera, hdoe, Gregorian.yearOfEra hyoe hdoy rfl, hdays]
  rfl

/-- A day in its era and its year, with the date that is reached from the epoch. -/
theorem exists_march (days : ℕ) : ∃ era yoe doy, yoe < 400 ∧ doy < marchLength yoe ∧
    days + 719468 = era * eraLength + (yearStart yoe + doy) ∧
    (epoch.after days).triple = marchDate (yoe + era * 400) doy := by
  induction days with
  | zero => exact ⟨4, 369, 306, by decide, by decide, by decide, by decide⟩
  | succ days ih =>
      obtain ⟨era, yoe, doy, hyoe, hdoy, hz, hdate⟩ := ih
      have hnext : (epoch.after (days + 1)).triple =
          Gregorian.following (marchDate (yoe + era * 400) doy) := by
        rw [← hdate]
        exact (epoch.after days).triple_next
      rcases (Nat.succ_le_of_lt hdoy).lt_or_eq with hlt | heq
      · -- the next day of the same year
        refine ⟨era, yoe, doy + 1, hyoe, hlt, by omega, ?_⟩
        rw [hnext, Gregorian.following_marchDate]
        rwa [Gregorian.marchLength_add_era]
      have hfirst : (epoch.after (days + 1)).triple = marchDate (yoe + era * 400 + 1) 0 := by
        rw [hnext, Gregorian.following_marchDate_last]
        rwa [Gregorian.marchLength_add_era]
      have hpos (year : ℕ) : 0 < marchLength year := by
        unfold marchLength
        split <;> omega
      rcases Nat.lt_or_ge yoe 399 with hin | hout
      · -- the first day of the next year of the era
        have hstart := Gregorian.yearStart_succ hin
        refine ⟨era, yoe + 1, 0, by omega, hpos _, by omega, ?_⟩
        rw [hfirst, Nat.add_right_comm]
      · -- the first day of the next era
        obtain rfl : yoe = 399 := by omega
        have hstart := Gregorian.yearStart_last
        have hzero : yearStart 0 = 0 := rfl
        refine ⟨era + 1, 0, 0, by omega, hpos _, ?_, ?_⟩
        · rw [Nat.succ_mul]
          omega
        · rw [hfirst]
          congr 1
          omega

/-- **The date of a day**: the divisions give the date that many days after the epoch. -/
theorem civilFromDays_eq (days : ℕ) : civilFromDays days = (epoch.after days).triple := by
  obtain ⟨era, yoe, doy, hyoe, hdoy, hz, hdate⟩ := exists_march days
  rw [hdate, civilFromDays_of_march hyoe hdoy hz]

/-! ### The time of day -/

structure TimeOfDay where
  hour : ℕ
  minute : ℕ
  second : ℕ
  hour_lt : hour < 24
  minute_lt : minute < 60
  second_lt : second < 60

def TimeOfDay.seconds (t : TimeOfDay) : ℕ := 3600 * t.hour + 60 * t.minute + t.second

/-- The time of day of an instant. -/
def timeOfDay (unixSecs : ℕ) : TimeOfDay where
  hour := unixSecs % 86400 / 3600
  minute := unixSecs % 86400 % 3600 / 60
  second := unixSecs % 86400 % 60
  hour_lt := by omega
  minute_lt := by omega
  second_lt := by omega

theorem seconds_timeOfDay (unixSecs : ℕ) : (timeOfDay unixSecs).seconds = unixSecs % 86400 := by
  unfold TimeOfDay.seconds timeOfDay
  dsimp only
  omega

/-- The fields of a time of day in the order in which times are compared. -/
def TimeOfDay.fields (t : TimeOfDay) : List ℕ := [t.hour, t.minute, t.second]

theorem TimeOfDay.fields_lt_fields {t t' : TimeOfDay} (h : t.seconds < t'.seconds) :
    t.fields < t'.fields := by
  obtain ⟨hour, minute, second, _, hminute, hsecond⟩ := t
  obtain ⟨hour', minute', second', _, hminute', hsecond'⟩ := t'
  unfold TimeOfDay.seconds at h
  simp only [TimeOfDay.fields, List.cons_lt_cons_iff] at h ⊢
  omega

/-! ### The text of an instant -/

/-- The date of an instant. -/
def dateOf (unixSecs : ℕ) : Date := epoch.after (unixSecs / 86400)

/-- The text of a date and a time of day in UTC: `YYYY-MM-DDTHH:MM:SSZ`. -/
def rfc3339Text (d : Date) (t : TimeOfDay) : String :=
  String.ofList (padded 4 d.year ++ '-' :: padded 2 d.month ++ '-' :: padded 2 d.day ++
    'T' :: padded 2 t.hour ++ ':' :: padded 2 t.minute ++ ':' :: padded 2 t.second ++ ['Z'])

/-- The code writes the date and the time of day of the instant. -/
theorem formatRfc3339_eq (unixSecs : ℕ) :
    formatRfc3339 unixSecs = rfc3339Text (dateOf unixSecs) (timeOfDay unixSecs) := by
  unfold formatRfc3339
  simp only [civilFromDays_eq]
  rfl

theorem leftpad_concat (w : ℕ) (l : List Char) (c : Char) :
    (l ++ [c]).leftpad (w + 1) '0' = l.leftpad w '0' ++ [c] := by
  simp [List.leftpad]

theorem leftpad_nil (w : ℕ) : [].leftpad (w + 1) '0' = padded (w + 1) 0 := by
  rw [padded, Nat.toDigits_zero, ← List.nil_append ['0'], leftpad_concat, List.leftpad,
    List.leftpad, List.append_nil, List.append_nil]
  exact List.replicate_succ'

/-- A number that fits is written in just the width, most significant digit first. -/
theorem padded_eq_numeral {w n : ℕ} (h : n < 10 ^ (w + 1)) :
    padded (w + 1) n = numeral Nat.digitChar 10 (w + 1) n := by
  induction w generalizing n with
  | zero =>
      have hn : n < 10 := by simpa using h
      rw [padded, Nat.toDigits_of_lt_base hn, Positional.numeral_succ_last, Nat.mod_eq_of_lt hn]
      rfl
  | succ w ih =>
      rw [Positional.numeral_succ_last, ← ih (Nat.div_lt_of_lt_mul (by rwa [← pow_succ'])), padded]
      rcases Nat.lt_or_ge n 10 with hlt | hge
      · rw [Nat.toDigits_of_lt_base hlt, ← List.nil_append [n.digitChar], leftpad_concat,
          leftpad_nil, Nat.div_eq_of_lt hlt, Nat.mod_eq_of_lt hlt]
      · rw [Nat.toDigits_of_base_le (by omega) hge, leftpad_concat]
        rfl

/-- The numbers of a text, each with its width and the mark behind it. -/
def shape : List (ℕ × List Char) :=
  [(4, ['-']), (2, ['-']), (2, ['T']), (2, [':']), (2, [':']), (2, ['Z'])]

/-- The numbers of an instant. -/
def instant (d : Date) (t : TimeOfDay) : List ℕ := d.fields ++ t.fields

/-- Before the year 10000 every number fits. -/
theorem instant_fits {d : Date} (t : TimeOfDay) (h : d.year < 10000) :
    List.Forall₂ (fun p n => n < 10 ^ p.1) shape (instant d t) := by
  have hday := d.day_mem.2.trans (Gregorian.daysInMonth_le d.year d.month)
  have hmonth := d.month_mem.2
  have hhour := t.hour_lt
  have hminute := t.minute_lt
  have hsecond := t.second_lt
  refine .cons h (.cons ?_ (.cons ?_ (.cons ?_ (.cons ?_ (.cons ?_ .nil)))))
  all_goals
    change _ < 100
    omega

theorem toList_rfc3339Text {d : Date} (t : TimeOfDay) (h : d.year < 10000) :
    (rfc3339Text d t).toList = Positional.fields Nat.digitChar 10 shape (instant d t) := by
  have hday := d.day_mem.2.trans (Gregorian.daysInMonth_le d.year d.month)
  have hmonth := d.month_mem.2
  have hhour := t.hour_lt
  have hminute := t.minute_lt
  have hsecond := t.second_lt
  rw [rfc3339Text, String.toList_ofList, padded_eq_numeral (w := 3) (by exact h),
    padded_eq_numeral (w := 1) (n := d.month) (by omega),
    padded_eq_numeral (w := 1) (n := d.day) (by omega),
    padded_eq_numeral (w := 1) (n := t.hour) (by omega),
    padded_eq_numeral (w := 1) (n := t.minute) (by omega),
    padded_eq_numeral (w := 1) (n := t.second) (by omega)]
  simp [Positional.fields, shape, instant, Date.fields, TimeOfDay.fields]

theorem digitChar_strictMonoOn : StrictMonoOn Nat.digitChar {d | d < 10} := by
  have h : ∀ d < 10, ∀ e < 10, d < e → Nat.digitChar d < Nat.digitChar e := by decide +kernel
  exact fun d hd e he hde => h d hd e he hde

/-! ### The order of instants -/

/-- A later instant has the greater numbers, the first difference first. -/
theorem instant_lt_instant {s s' : ℕ} (h : s < s') :
    instant (dateOf s) (timeOfDay s) < instant (dateOf s') (timeOfDay s') := by
  rw [instant, instant, Positional.append_lt_append_iff (a := (dateOf s).fields)
    (b := (dateOf s').fields) _ _ rfl]
  rcases (Nat.div_le_div_right (c := 86400) h.le).lt_or_eq with hlt | heq
  · exact Or.inl (epoch.fields_strictMono hlt)
  · -- on the same day the time of day decides
    refine Or.inr ⟨by rw [dateOf, dateOf, heq], TimeOfDay.fields_lt_fields ?_⟩
    rw [seconds_timeOfDay, seconds_timeOfDay]
    omega

theorem formatRfc3339_lt {s s' : ℕ} (hs : (dateOf s).year < 10000)
    (hs' : (dateOf s').year < 10000) (h : s < s') : formatRfc3339 s < formatRfc3339 s' := by
  rw [formatRfc3339_eq, formatRfc3339_eq, String.lt_iff_toList_lt, toList_rfc3339Text _ hs,
    toList_rfc3339Text _ hs', Positional.fields_lt_fields (by omega) digitChar_strictMonoOn
      (instant_fits _ hs) (instant_fits _ hs')]
  exact instant_lt_instant h

/-- **Timestamps are exact and sort by time.**  Every instant has the text of its date and of its
time of day, where the date is reached from the epoch day by day; and the texts of instants before
the year 10000 are ordered as the instants are. -/
theorem formatRfc3339_exact_and_sorted :
    (∀ unixSecs, ∃ t : TimeOfDay, t.seconds = unixSecs % 86400 ∧
      formatRfc3339 unixSecs = rfc3339Text (epoch.after (unixSecs / 86400)) t) ∧
    ∀ s s', (dateOf s).year < 10000 → (dateOf s').year < 10000 →
      (formatRfc3339 s < formatRfc3339 s' ↔ s < s') := by
  refine ⟨fun unixSecs => ⟨timeOfDay unixSecs, seconds_timeOfDay unixSecs,
    formatRfc3339_eq unixSecs⟩, fun s s' hs hs' => ⟨fun h => ?_, formatRfc3339_lt hs hs'⟩⟩
  by_contra hle
  rcases (not_lt.1 hle).lt_or_eq with hlt | rfl
  · exact lt_asymm h (formatRfc3339_lt hs' hs hlt)
  · exact lt_irrefl _ h

end Hekma
