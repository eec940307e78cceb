import Isomux.Runtime.Dates

set_option autoImplicit false

/-!
# Dates of the runtime in local time

A `Date` is an instant in a range of whole milliseconds, or invalid. Its local parts are those of
the instant moved by the offset of the zone, which is the same at all times here. A date that is set
beyond the range becomes invalid, and an invalid one stays so.

## Main results

* `Isomux.setDate_add` — days are added as their milliseconds.
* `Isomux.newDate_eq` — the instant of a local date.
* `Isomux.getDate_newDate` — day 0 of a month is the last day of the month before.
-/

namespace Isomux

/-- The last instant of a `Date`; the first one is as far before 1970. -/
def MAX_TIME : ℤ := 8640000000000000

/-- The `Date` of an instant: none, for an invalid one, outside of its range. -/
def timeClip (instant : ℤ) : Option ℤ :=
  if -MAX_TIME ≤ instant ∧ instant ≤ MAX_TIME then some instant else none

section

variable (offset : ℤ)

/-- `getFullYear()`. -/
def getFullYear (instant : ℤ) : ℤ := getUTCFullYear (instant + offset)

/-- `getMonth()`. -/
def getMonth (instant : ℤ) : ℕ := getUTCMonth (instant + offset)

/-- `getDate()`. -/
def getDate (instant : ℤ) : ℤ := getUTCDate (instant + offset)

/-- `getDay()`. -/
def getDay (instant : ℤ) : ℤ := (dayOf (instant + offset) + 4) % 7

/-- `getHours()`. -/
def getHours (instant : ℤ) : ℤ := getUTCHours (instant + offset)

/-- `getMinutes()`. -/
def getMinutes (instant : ℤ) : ℤ := getUTCMinutes (instant + offset)

/-- `setHours(hours, minutes, seconds, ms)`. -/
def setHours (instant hours minutes seconds ms : ℤ) : Option ℤ :=
  timeClip (dayOf (instant + offset) * msPerDay +
    (hours * 3600000 + minutes * 60000 + seconds * 1000 + ms) - offset)

/-- `setSeconds(seconds, ms)`. -/
def setSeconds (instant seconds ms : ℤ) : Option ℤ :=
  setHours offset instant (getHours offset instant) (getMinutes offset instant) seconds ms

/-- `setDate(date)`. -/
def setDate (instant date : ℤ) : Option ℤ :=
  timeClip (makeDay (getFullYear offset instant) (getMonth offset instant) date * msPerDay +
    (instant + offset) % msPerDay - offset)

/-- `new Date(year, month, date, hours, minutes)`. -/
def newDate (year : ℤ) (month : ℕ) (date hours minutes : ℤ) : Option ℤ :=
  timeClip (dateUTC year month date hours minutes 0 0 - offset)

end

lemma eq_of_timeClip {instant t : ℤ} (h : timeClip instant = some t) : t = instant := by
  unfold timeClip at h
  split_ifs at h
  exact (Option.some.inj h).symm

/-- The calendar month of a month's number in a year, where it may lie in a later year. -/
def calendarMonthAt (year : ℤ) (month : ℕ) : ℤ × ℕ := (year + (month / 12 : ℕ), month % 12)

lemma makeDay_eq (year : ℤ) (month : ℕ) (date : ℤ) :
    makeDay year month date = firstDay (calendarMonthAt year month) + date - 1 := rfl

lemma firstDay_succ (year : ℤ) (month : ℕ) :
    firstDay (calendarMonthAt year (month + 1)) = firstDay (calendarMonthAt year month) +
      monthLength (leapDays (calendarMonthAt year month).1) (calendarMonthAt year month).2 := by
  have hmod : month % 12 < 12 := Nat.mod_lt _ (by decide)
  have hnext := makeDay_succ (year + (month / 12 : ℕ)) hmod 0
  have hsame : makeDay (year + (month / 12 : ℕ)) (month % 12 + 1) 0 =
      makeDay year (month + 1) 0 := by
    have hyear : ((month + 1) / 12 : ℕ) = (month / 12 : ℕ) + ((month % 12 + 1) / 12 : ℕ) := by omega
    have hmonth : (month + 1) % 12 = (month % 12 + 1) % 12 := by omega
    unfold makeDay
    dsimp only
    rw [hmonth, hyear, Nat.cast_add, ← add_assoc]
  rw [hsame, makeDay_eq] at hnext
  unfold firstDay monthLength calendarMonthAt at *
  dsimp only at *
  omega

section

variable {offset instant t : ℤ}

/-- **Days are added as their milliseconds.** -/
lemma setDate_add (days : ℤ) :
    setDate offset instant (getDate offset instant + days) =
      timeClip (instant + days * msPerDay) := by
  obtain ⟨hmonth, -⟩ := getUTCDate_bounds (instant + offset)
  have hday := day_eq (instant + offset)
  have hmake : makeDay (getFullYear offset instant) (getMonth offset instant)
      (getDate offset instant + days) = dayOf (instant + offset) + days := by
    unfold makeDay getFullYear getMonth getDate
    rw [Nat.div_eq_of_lt hmonth, Nat.mod_eq_of_lt hmonth, Nat.cast_zero]
    dsimp only
    rw [add_zero]
    omega
  unfold setDate
  rw [hmake]
  congr 1
  unfold dayOf msPerDay
  omega

/-- **The instant of a local date.** A year of two digits is one of the twentieth century. -/
lemma newDate_eq {year : ℤ} (hyear : ¬(0 ≤ year ∧ year ≤ 99)) (month : ℕ) (date hours minutes : ℤ) :
    newDate offset year month date hours minutes =
      timeClip ((firstDay (calendarMonthAt year month) + date - 1) * msPerDay +
        (hours * 3600000 + minutes * 60000) - offset) := by
  unfold newDate dateUTC makeFullYear
  rw [if_neg hyear, makeDay_eq]
  congr 1
  omega

/-- **Day 0 of a month is the last day of the month before.** -/
lemma getDate_newDate {year : ℤ} (hyear : ¬(0 ≤ year ∧ year ≤ 99)) {month : ℕ}
    (h : newDate offset year (month + 1) 0 0 0 = some t) :
    getDate offset t =
      monthLength (leapDays (calendarMonthAt year month).1) (calendarMonthAt year month).2 := by
  have hmonth : (calendarMonthAt year month).2 < 12 := Nat.mod_lt _ (by decide)
  have hlen := (monthLength_bounds (leapDays_bounds (calendarMonthAt year month).1) hmonth).1
  rw [newDate_eq hyear, firstDay_succ] at h
  have ht := eq_of_timeClip h
  refine (parts_eq hmonth (hlen.trans' (by decide)) le_rfl ?_).2.2
  rw [ht]
  unfold dayOf msPerDay
  omega

end

end Isomux
