import Isomux.Runtime.Text
import Mathlib.Tactic.IntervalCases

set_option autoImplicit false

/-!
# Dates of the runtime

What a `Date` reads from an instant in UTC, and the instant that `Date.UTC` makes of its parts. An
instant is a whole number of milliseconds in the range of `Date`.

## Main results

* `Isomux.yearOfDay_spec`, `Isomux.yearOfDay_eq` — the year of a day is the one it lies in.
* `Isomux.day_eq` — a day from its year, its month and its date.
* `Isomux.getUTCDate_monthEnd` — day 0 of a month is the last day of the month before.
* `Isomux.firstDay_add_le` — a month is over when a later one begins.
-/

namespace Isomux

def msPerDay : ℤ := 86400000

/-! ## The calendar -/

/-- The day number of the first day of a year. -/
def dayFromYear (year : ℤ) : ℤ :=
  365 * (year - 1970) + (year - 1969) / 4 - (year - 1901) / 100 + (year - 1601) / 400

def leapDays (year : ℤ) : ℤ := dayFromYear (year + 1) - dayFromYear year - 365

def yearOfDay (day : ℤ) : ℤ :=
  let year := 1970 + 400 * day / 146097
  if dayFromYear (year + 1) ≤ day then year + 1
  else if day < dayFromYear year then year - 1
  else year

/-- How many days of its year come before a month; months count from 0. -/
def daysBefore (leap : ℤ) : ℕ → ℤ
  | 0 => 0
  | 1 => 31
  | 2 => 59 + leap
  | 3 => 90 + leap
  | 4 => 120 + leap
  | 5 => 151 + leap
  | 6 => 181 + leap
  | 7 => 212 + leap
  | 8 => 243 + leap
  | 9 => 273 + leap
  | 10 => 304 + leap
  | 11 => 334 + leap
  | _ => 365 + leap

/-- The last of the months up to one that began by a day of the year. -/
def monthUpTo (leap dayInYear : ℤ) : ℕ → ℕ
  | 0 => 0
  | month + 1 =>
    if daysBefore leap (month + 1) ≤ dayInYear then month + 1
    else monthUpTo leap dayInYear month

def monthOfDay (leap dayInYear : ℤ) : ℕ := monthUpTo leap dayInYear 11

/-! ## Parts of an instant -/

def dayOf (instant : ℤ) : ℤ := instant / msPerDay

def getUTCFullYear (instant : ℤ) : ℤ := yearOfDay (dayOf instant)

def getUTCMonth (instant : ℤ) : ℕ :=
  let year := getUTCFullYear instant
  monthOfDay (leapDays year) (dayOf instant - dayFromYear year)

def getUTCDate (instant : ℤ) : ℤ :=
  let year := getUTCFullYear instant
  dayOf instant - dayFromYear year - daysBefore (leapDays year) (getUTCMonth instant) + 1

def getUTCHours (instant : ℤ) : ℤ := instant / 3600000 % 24

def getUTCMinutes (instant : ℤ) : ℤ := instant / 60000 % 60

def getUTCSeconds (instant : ℤ) : ℤ := instant / 1000 % 60

def getUTCMilliseconds (instant : ℤ) : ℤ := instant % 1000

/-- The year that `Date.UTC` takes a year for: one of two digits is in the twentieth century. -/
def makeFullYear (year : ℤ) : ℤ := if 0 ≤ year ∧ year ≤ 99 then 1900 + year else year

/-- The day of a date; months and dates may lie outside of their year and month. -/
def makeDay (year : ℤ) (month : ℕ) (date : ℤ) : ℤ :=
  let year := year + (month / 12 : ℕ)
  dayFromYear year + daysBefore (leapDays year) (month % 12) + date - 1

/-- `Date.UTC`. -/
def dateUTC (year : ℤ) (month : ℕ) (date hours minutes seconds ms : ℤ) : ℤ :=
  makeDay (makeFullYear year) month date * msPerDay +
    (hours * 3600000 + minutes * 60000 + seconds * 1000 + ms)

/-- The digits of a number, with zeros in front up to a width. -/
def zeroPadded (width n : ℕ) : JsString :=
  ((Nat.toDigits 10 n).leftpad width '0').map fun c => UInt16.ofNat c.toNat

/-- The year in a text: four digits, or a sign and six. -/
def isoYear (year : ℤ) : JsString :=
  if 0 ≤ year ∧ year ≤ 9999 then zeroPadded 4 year.toNat
  else js (if year < 0 then "-" else "+") ++ zeroPadded 6 year.natAbs

def toISOString (instant : ℤ) : JsString :=
  isoYear (getUTCFullYear instant) ++ js "-" ++ zeroPadded 2 (getUTCMonth instant + 1) ++ js "-" ++
    zeroPadded 2 (getUTCDate instant).toNat ++ js "T" ++
    zeroPadded 2 (getUTCHours instant).toNat ++ js ":" ++
    zeroPadded 2 (getUTCMinutes instant).toNat ++ js ":" ++
    zeroPadded 2 (getUTCSeconds instant).toNat ++ js "." ++
    zeroPadded 3 (getUTCMilliseconds instant).toNat ++ js "Z"

example : toISOString 1782777599999 = js "2026-06-29T23:59:59.999Z" := by decide +kernel

/-! ## Years -/

lemma leapDays_bounds (year : ℤ) : 0 ≤ leapDays year ∧ leapDays year ≤ 1 := by
  unfold leapDays dayFromYear
  omega

lemma dayFromYear_succ (year : ℤ) : dayFromYear (year + 1) = dayFromYear year + 365 + leapDays year := by
  unfold leapDays
  omega

lemma dayFromYear_add_le {year later : ℤ} (h : year ≤ later) :
    dayFromYear year + 365 * (later - year) ≤ dayFromYear later := by
  unfold dayFromYear
  omega

/-- **The year of a day is the one it lies in.** -/
lemma yearOfDay_spec (day : ℤ) :
    dayFromYear (yearOfDay day) ≤ day ∧ day < dayFromYear (yearOfDay day + 1) := by
  unfold yearOfDay
  dsimp only
  split_ifs with hnext hprev
  · refine ⟨hnext, ?_⟩
    unfold dayFromYear
    omega
  · refine ⟨?_, ?_⟩
    · unfold dayFromYear
      omega
    · rw [sub_add_cancel]
      exact hprev
  · exact ⟨not_lt.1 hprev, not_le.1 hnext⟩

lemma yearOfDay_eq {day year : ℤ} (hle : dayFromYear year ≤ day) (hlt : day < dayFromYear (year + 1)) :
    yearOfDay day = year := by
  obtain ⟨hle', hlt'⟩ := yearOfDay_spec day
  rcases lt_trichotomy (yearOfDay day) year with h | h | h
  · have hgap := dayFromYear_add_le (show yearOfDay day + 1 ≤ year by omega)
    omega
  · exact h
  · have hgap := dayFromYear_add_le (show year + 1 ≤ yearOfDay day by omega)
    omega

/-! ## Months -/

def monthLength (leap : ℤ) (month : ℕ) : ℤ := daysBefore leap (month + 1) - daysBefore leap month

variable {leap dayInYear : ℤ} {instant later : ℤ} {month : ℕ}

lemma monthLength_bounds {leap : ℤ} (h : 0 ≤ leap ∧ leap ≤ 1) (hmonth : month < 12) :
    28 ≤ monthLength leap month ∧ monthLength leap month ≤ 31 := by
  unfold monthLength
  interval_cases month <;> simp only [daysBefore] <;> omega

lemma daysBefore_le {leap : ℤ} (h : 0 ≤ leap ∧ leap ≤ 1) {month later : ℕ} (hle : month ≤ later)
    (hlater : later ≤ 12) : daysBefore leap month ≤ daysBefore leap later := by
  induction later, hle using Nat.le_induction with
  | base => exact le_refl _
  | succ later _ ih =>
    have hlen := (monthLength_bounds h (show later < 12 by omega)).1
    unfold monthLength at hlen
    exact (ih (by omega)).trans (by omega)

lemma monthUpTo_spec (hle : 0 ≤ dayInYear) (month : ℕ)
    (hlt : dayInYear < daysBefore leap (month + 1)) :
    monthUpTo leap dayInYear month ≤ month ∧
      daysBefore leap (monthUpTo leap dayInYear month) ≤ dayInYear ∧
      dayInYear < daysBefore leap (monthUpTo leap dayInYear month + 1) := by
  induction month with
  | zero => exact ⟨le_refl _, hle, hlt⟩
  | succ month ih =>
    unfold monthUpTo
    split_ifs with hbegan
    · exact ⟨le_refl _, hbegan, hlt⟩
    · obtain ⟨hmonth, hbounds⟩ := ih (not_le.1 hbegan)
      exact ⟨hmonth.trans (Nat.le_succ _), hbounds⟩

/-- **The month of a day is the one it lies in.** -/
lemma monthOfDay_spec (hle : 0 ≤ dayInYear) (hlt : dayInYear < 365 + leap) :
    monthOfDay leap dayInYear < 12 ∧
      daysBefore leap (monthOfDay leap dayInYear) ≤ dayInYear ∧
      dayInYear < daysBefore leap (monthOfDay leap dayInYear + 1) := by
  obtain ⟨hmonth, hbounds⟩ := monthUpTo_spec hle 11 hlt
  exact ⟨Nat.lt_succ_of_le hmonth, hbounds⟩

lemma monthOfDay_eq (h : 0 ≤ leap ∧ leap ≤ 1)
    (hmonth : month < 12) (hle : daysBefore leap month ≤ dayInYear)
    (hlt : dayInYear < daysBefore leap (month + 1)) : monthOfDay leap dayInYear = month := by
  have hfirst : 0 ≤ dayInYear := (daysBefore_le h (Nat.zero_le month) hmonth.le).trans hle
  have hlast : dayInYear < 365 + leap :=
    lt_of_lt_of_le hlt (daysBefore_le h (show month + 1 ≤ 12 by omega) le_rfl)
  obtain ⟨hmonth', hle', hlt'⟩ := monthOfDay_spec hfirst hlast
  rcases lt_trichotomy (monthOfDay leap dayInYear) month with hcmp | hcmp | hcmp
  · have hgap := daysBefore_le h (show monthOfDay leap dayInYear + 1 ≤ month by omega) hmonth.le
    omega
  · exact hcmp
  · have hgap := daysBefore_le h (show month + 1 ≤ monthOfDay leap dayInYear by omega) hmonth'.le
    omega

/-! ## Days and their parts -/

def firstDay (month : ℤ × ℕ) : ℤ := dayFromYear month.1 + daysBefore (leapDays month.1) month.2

lemma dayInYear_bounds (instant : ℤ) :
    0 ≤ dayOf instant - dayFromYear (getUTCFullYear instant) ∧
      dayOf instant - dayFromYear (getUTCFullYear instant) <
        365 + leapDays (getUTCFullYear instant) := by
  obtain ⟨hle, hlt⟩ := yearOfDay_spec (dayOf instant)
  have hnext := dayFromYear_succ (yearOfDay (dayOf instant))
  unfold getUTCFullYear
  omega

lemma getUTCDate_bounds (instant : ℤ) : getUTCMonth instant < 12 ∧ 1 ≤ getUTCDate instant ∧
    getUTCDate instant ≤
      monthLength (leapDays (getUTCFullYear instant)) (getUTCMonth instant) := by
  obtain ⟨hle, hlt⟩ := dayInYear_bounds instant
  obtain ⟨hmonth, hbegan, hends⟩ := monthOfDay_spec hle hlt
  refine ⟨hmonth, ?_, ?_⟩
  · unfold getUTCDate getUTCMonth
    dsimp only
    omega
  · unfold getUTCDate monthLength getUTCMonth
    dsimp only
    omega

lemma day_eq (instant : ℤ) : dayOf instant = dayFromYear (getUTCFullYear instant) +
    daysBefore (leapDays (getUTCFullYear instant)) (getUTCMonth instant) +
      getUTCDate instant - 1 := by
  unfold getUTCDate
  dsimp only
  omega

lemma parts_eq {instant date : ℤ} {m : ℤ × ℕ} (hmonth : m.2 < 12) (hone : 1 ≤ date)
    (hlast : date ≤ monthLength (leapDays m.1) m.2)
    (hday : dayOf instant = firstDay m + date - 1) :
    getUTCFullYear instant = m.1 ∧ getUTCMonth instant = m.2 ∧ getUTCDate instant = date := by
  obtain ⟨year, number⟩ := m
  unfold firstDay monthLength at *
  dsimp only at *
  have hleap := leapDays_bounds year
  have hbefore : 0 ≤ daysBefore (leapDays year) number :=
    daysBefore_le hleap (Nat.zero_le number) hmonth.le
  have hafter : daysBefore (leapDays year) (number + 1) ≤ 365 + leapDays year :=
    daysBefore_le hleap (show number + 1 ≤ 12 by omega) le_rfl
  have hnext := dayFromYear_succ year
  have hyear : getUTCFullYear instant = year := by
    unfold getUTCFullYear
    rw [hday]
    exact yearOfDay_eq (by omega) (by omega)
  have hnumber : getUTCMonth instant = number := by
    unfold getUTCMonth
    dsimp only
    rw [hyear, hday]
    exact monthOfDay_eq hleap hmonth (by omega) (by omega)
  refine ⟨hyear, hnumber, ?_⟩
  have hback := day_eq instant
  rw [hyear, hnumber] at hback
  omega

lemma time_eq (instant : ℤ) : getUTCHours instant * 3600000 + getUTCMinutes instant * 60000 +
    getUTCSeconds instant * 1000 + getUTCMilliseconds instant = instant % msPerDay := by
  unfold getUTCHours getUTCMinutes getUTCSeconds getUTCMilliseconds msPerDay
  omega

lemma makeDay_succ (year : ℤ) (hmonth : month < 12) (date : ℤ) :
    makeDay year (month + 1) date =
      dayFromYear year + daysBefore (leapDays year) (month + 1) + date - 1 := by
  unfold makeDay
  dsimp only
  by_cases hlast : month = 11
  · subst hlast
    have hnext := dayFromYear_succ year
    simp only [daysBefore]
    norm_num
    omega
  · have hdiv : (month + 1) / 12 = 0 := Nat.div_eq_of_lt (by omega)
    have hmod : (month + 1) % 12 = month + 1 := Nat.mod_eq_of_lt (by omega)
    rw [hdiv, hmod, Nat.cast_zero, add_zero]

/-- **Day 0 of a month is the last day of the month before.** -/
lemma getUTCDate_monthEnd (year : ℤ) (hmonth : month < 12) :
    getUTCDate (dateUTC year (month + 1) 0 0 0 0 0) =
      monthLength (leapDays (makeFullYear year)) month := by
  set full := makeFullYear year
  have hlen := (monthLength_bounds (leapDays_bounds full) hmonth).1
  refine (parts_eq (m := (full, month)) hmonth (hlen.trans' (by decide)) le_rfl ?_).2.2
  have hmake := makeDay_succ full hmonth 0
  unfold dayOf dateUTC msPerDay firstDay monthLength
  rw [hmake]
  dsimp only
  omega

/-! ## Months in order -/

def MonthBefore (month later : ℤ × ℕ) : Prop :=
  month.1 < later.1 ∨ month.1 = later.1 ∧ month.2 < later.2

instance (month later : ℤ × ℕ) : Decidable (MonthBefore month later) :=
  inferInstanceAs (Decidable (_ ∨ _))

lemma firstDay_add_le {month later : ℤ × ℕ} (h : MonthBefore month later) (hmonth : month.2 < 12)
    (hlater : later.2 < 12) :
    firstDay month + monthLength (leapDays month.1) month.2 ≤ firstDay later := by
  obtain ⟨year, number⟩ := month
  obtain ⟨year', number'⟩ := later
  have hleap := leapDays_bounds year
  unfold firstDay monthLength
  rcases h with hyear | ⟨heq, hnumber⟩
  · have hyears := dayFromYear_add_le (show year + 1 ≤ year' from hyear)
    have hends : daysBefore (leapDays year) (number + 1) ≤ 365 + leapDays year :=
      daysBefore_le hleap (show number + 1 ≤ 12 from hmonth) le_rfl
    have hbegins : 0 ≤ daysBefore (leapDays year') number' :=
      daysBefore_le (leapDays_bounds year') (Nat.zero_le number') hlater.le
    have hnext := dayFromYear_succ year
    have hgap : year + 1 ≤ year' := hyear
    dsimp only
    omega
  · obtain rfl : year = year' := heq
    have hbegins := daysBefore_le hleap (show number + 1 ≤ number' from hnumber) hlater.le
    dsimp only
    omega

/-! ## Instants in order -/

lemma getUTCFullYear_mono (h : instant ≤ later) :
    getUTCFullYear instant ≤ getUTCFullYear later := by
  obtain ⟨hbegan, -⟩ := yearOfDay_spec (dayOf instant)
  obtain ⟨-, hends⟩ := yearOfDay_spec (dayOf later)
  have hday : dayOf instant ≤ dayOf later := Int.ediv_le_ediv (by decide) h
  by_contra hlt
  have hyears := dayFromYear_add_le (show getUTCFullYear later + 1 ≤ getUTCFullYear instant by omega)
  unfold getUTCFullYear at hyears hlt
  omega

lemma getUTCMonth_mono (h : instant ≤ later)
    (hyear : getUTCFullYear later = getUTCFullYear instant) :
    getUTCMonth instant ≤ getUTCMonth later := by
  obtain ⟨hmonth, hone, -⟩ := getUTCDate_bounds instant
  obtain ⟨-, -, hlast⟩ := getUTCDate_bounds later
  have hbegan := day_eq instant
  have hends := day_eq later
  have hday : dayOf instant ≤ dayOf later := Int.ediv_le_ediv (by decide) h
  by_contra hlt
  have hover := daysBefore_le (leapDays_bounds (getUTCFullYear instant))
    (show getUTCMonth later + 1 ≤ getUTCMonth instant by omega) hmonth.le
  rw [hyear] at hends hlast
  unfold monthLength at hlast
  omega

lemma getUTCDate_mono (h : instant ≤ later)
    (hyear : getUTCFullYear later = getUTCFullYear instant)
    (hmonth : getUTCMonth later = getUTCMonth instant) :
    getUTCDate instant < getUTCDate later ∨
      getUTCDate instant = getUTCDate later ∧ instant % msPerDay ≤ later % msPerDay := by
  have hbegan := day_eq instant
  have hends := day_eq later
  rw [hyear, hmonth] at hends
  unfold dayOf msPerDay at *
  omega

end Isomux
