import Isomux.Runtime.LocalDates

set_option autoImplicit false

/-!
# The next fire of a schedule (`src/shared/schedule-next-fire.ts`)

A schedule of days fires at one time of each of its days: of every day, of a weekday, or of a date
of each month, which is the last one of a shorter month. Its next fire is the first one behind now.
The code finds it from the fire of today, or of this month.

It computes with dates, which have a range, and which take a year of two digits for one of the
twentieth century. So a result may be an invalid date at the ends of the range, and in the first
hundred years the fire of a month is found in the wrong year.

## Main results

* `Isomux.Schedule.isNextFire_atDay` — the first day of a schedule from today on has the next fire.
* `Isomux.Schedule.next_fire` — what is computed is the next fire.
-/

namespace Isomux

def MIN_INTERVAL_MINUTES : ℤ := 5

inductive Schedule where
  | daily (hour minute : ℤ)
  | weekly (weekday hour minute : ℤ)
  | interval (minutes : ℤ)
  | monthly (day hour minute : ℤ)
  | none

/-- `slot(year, month)`. -/
def slot (offset day hour minute year : ℤ) (month : ℕ) : Option ℤ := do
  let last ← newDate offset year (month + 1) 0 0 0
  newDate offset year month (min day (getDate offset last)) hour minute

/-- `nextScheduledFire(schedule, anchor, now)`, in a zone at this offset: `null`, or the time of a
date, which is none where the date is invalid. -/
def nextScheduledFire (offset : ℤ) (schedule : Schedule) (anchor now : ℤ) : Option (Option ℤ) :=
  match schedule with
  | .none => none
  | .interval minutes =>
    let intervalMs := max MIN_INTERVAL_MINUTES minutes * 60000
    if now ≤ anchor then some (some (anchor + intervalMs))
    else
      let elapsed := now - anchor
      let periods := elapsed / intervalMs + 1
      some (some (anchor + periods * intervalMs))
  | .daily hour minute => some do
    let next ← timeClip now
    let next ← setSeconds offset next 0 0
    let next ← setHours offset next hour minute 0 0
    if next ≤ now then setDate offset next (getDate offset next + 1) else some next
  | .weekly weekday hour minute => some do
    let next ← timeClip now
    let next ← setSeconds offset next 0 0
    let next ← setHours offset next hour minute 0 0
    let currentDay := getDay offset next
    let daysAhead := (weekday - currentDay + 7).tmod 7
    let daysAhead := if daysAhead = 0 ∧ next ≤ now then 7 else daysAhead
    setDate offset next (getDate offset next + daysAhead)
  | .monthly day hour minute => some do
    let today ← timeClip now
    let year := getFullYear offset today
    let month := getMonth offset today
    match slot offset day hour minute year month with
    | some thisMonth =>
      if now < thisMonth then some thisMonth else slot offset day hour minute year (month + 1)
    | .none => slot offset day hour minute year (month + 1)

namespace Schedule

/-! ## The instants of a schedule -/

def IsTime (hour minute : ℤ) : Prop := (0 ≤ hour ∧ hour ≤ 23) ∧ 0 ≤ minute ∧ minute ≤ 59

/-- What `scheduleError(schedule)` finds no fault in. -/
def Valid : Schedule → Prop
  | daily hour minute => IsTime hour minute
  | weekly weekday hour minute => (0 ≤ weekday ∧ weekday ≤ 6) ∧ IsTime hour minute
  | interval minutes => MIN_INTERVAL_MINUTES ≤ minutes
  | monthly day hour minute => (1 ≤ day ∧ day ≤ 31) ∧ IsTime hour minute
  | none => True

def AtTime (offset hour minute t : ℤ) : Prop :=
  getHours offset t = hour ∧ getMinutes offset t = minute ∧ getUTCSeconds (t + offset) = 0 ∧
    getUTCMilliseconds (t + offset) = 0

/-- The days of the month of an instant, in local time. -/
def daysInMonthOf (offset t : ℤ) : ℤ :=
  monthLength (leapDays (getFullYear offset t)) (getMonth offset t)

def Matches (offset anchor : ℤ) : Schedule → ℤ → Prop
  | daily hour minute, t => AtTime offset hour minute t
  | weekly weekday hour minute, t => getDay offset t = weekday ∧ AtTime offset hour minute t
  | interval minutes, t => ∃ periods ≥ 1, t = anchor + periods * (minutes * 60000)
  | monthly day hour minute, t =>
    getDate offset t = min day (daysInMonthOf offset t) ∧ AtTime offset hour minute t
  | none, _ => False

/-- This is the first instant of the schedule behind now. -/
structure IsNextFire (offset : ℤ) (schedule : Schedule) (anchor now t : ℤ) : Prop where
  now_lt : now < t
  matches_self : schedule.Matches offset anchor t
  not_matches_between : ∀ u, now < u → u < t → ¬schedule.Matches offset anchor u

/-! ## Schedules of days -/

def atDay (offset hour minute day : ℤ) : ℤ :=
  day * msPerDay + (hour * 3600000 + minute * 60000) - offset

section

variable {offset hour minute now t : ℤ}

lemma dayOf_atDay (h : IsTime hour minute) (day : ℤ) :
    dayOf (atDay offset hour minute day + offset) = day := by
  unfold IsTime at h
  unfold dayOf atDay msPerDay
  omega

lemma atTime_iff (h : IsTime hour minute) :
    AtTime offset hour minute t ↔ t = atDay offset hour minute (dayOf (t + offset)) := by
  unfold IsTime at h
  unfold AtTime getHours getMinutes getUTCHours getUTCMinutes getUTCSeconds getUTCMilliseconds atDay
    dayOf msPerDay
  constructor
  · rintro ⟨hhour, hminute, hsecond, hms⟩
    omega
  · intro ht
    omega

lemma atTime_atDay (h : IsTime hour minute) (day : ℤ) :
    AtTime offset hour minute (atDay offset hour minute day) := by
  rw [atTime_iff h, dayOf_atDay h]

/-- **The first day of a schedule from today on has the next fire,** where the time of today has not
passed, or is not one of the schedule. -/
theorem isNextFire_atDay {P : ℤ → Prop} {day : ℤ} (h : IsTime hour minute) (hP : P day)
    (hday : day = dayOf (now + offset) ∧ now < atDay offset hour minute day ∨
      dayOf (now + offset) < day ∧
        (P (dayOf (now + offset)) → atDay offset hour minute (dayOf (now + offset)) ≤ now))
    (hbetween : ∀ d, dayOf (now + offset) < d → d < day → ¬P d) :
    now < atDay offset hour minute day ∧ ∀ u, now < u → u < atDay offset hour minute day →
      ¬(P (dayOf (u + offset)) ∧ AtTime offset hour minute u) := by
  have hlater : dayOf (now + offset) < day → now < atDay offset hour minute day := by
    unfold IsTime at h
    unfold dayOf atDay msPerDay
    omega
  refine ⟨hday.elim And.right fun h => hlater h.1, ?_⟩
  rintro u hnow hu ⟨hPu, htime⟩
  rw [atTime_iff h] at htime
  have hfrom : dayOf (now + offset) ≤ dayOf (u + offset) := by
    unfold dayOf msPerDay
    omega
  have hto : dayOf (u + offset) < day := by
    by_contra hge
    rw [htime] at hu
    unfold atDay msPerDay at hu
    omega
  rcases hfrom.lt_or_eq with hlt | heq
  · exact hbetween _ hlt hto hPu
  · rcases hday with ⟨rfl, -⟩ | ⟨-, hpast⟩
    · omega
    · rw [heq] at hpast
      have hpassed := hpast hPu
      rw [← htime] at hpassed
      omega

lemma setHours_setSeconds {a b : ℤ} (ha : timeClip now = some a)
    (hb : setSeconds offset a 0 0 = some b) :
    setHours offset b hour minute 0 0 =
      timeClip (atDay offset hour minute (dayOf (now + offset))) := by
  have hnow := eq_of_timeClip ha
  have hminute := eq_of_timeClip hb
  have hsame : dayOf (b + offset) = dayOf (now + offset) := by
    rw [hminute, hnow]
    unfold getHours getMinutes getUTCHours getUTCMinutes dayOf msPerDay
    omega
  unfold setHours atDay
  rw [hsame]
  congr 1
  omega

/-! ## Days and weeks -/

lemma setDate_atDay {c day days : ℤ} (hc : c = atDay offset hour minute day)
    (h : setDate offset c (getDate offset c + days) = some t) :
    t = atDay offset hour minute (day + days) := by
  rw [setDate_add] at h
  rw [eq_of_timeClip h, hc]
  unfold atDay msPerDay
  omega

lemma isNextFire_daily {anchor : ℤ} (h : IsTime hour minute)
    (ht : nextScheduledFire offset (daily hour minute) anchor now = some (some t)) :
    (daily hour minute).IsNextFire offset anchor now t := by
  simp only [nextScheduledFire, Option.bind_eq_bind, Option.some.injEq,
    Option.bind_eq_some_iff] at ht
  obtain ⟨a, ha, b, hb, c, hc, ht⟩ := ht
  rw [setHours_setSeconds ha hb] at hc
  have hc := eq_of_timeClip hc
  set today := dayOf (now + offset)
  obtain ⟨day, rfl, hday, hbetween⟩ : ∃ day, t = atDay offset hour minute day ∧
      (day = today ∧ now < atDay offset hour minute day ∨
        today < day ∧ (True → atDay offset hour minute today ≤ now)) ∧ day ≤ today + 1 := by
    split_ifs at ht with hpast
    · exact ⟨today + 1, setDate_atDay hc ht, Or.inr ⟨by omega, fun _ => hc ▸ hpast⟩, le_rfl⟩
    · obtain rfl := Option.some.inj ht
      exact ⟨today, hc, Or.inl ⟨rfl, hc ▸ not_le.1 hpast⟩, by omega⟩
  obtain ⟨hnow, htight⟩ := isNextFire_atDay (P := fun _ => True) h trivial hday
    fun d hd hlt _ => by omega
  exact ⟨hnow, atTime_atDay h day, fun u hu hlt hat => htight u hu hlt ⟨trivial, hat⟩⟩

lemma isNextFire_weekly {anchor weekday : ℤ} (hweekday : 0 ≤ weekday ∧ weekday ≤ 6)
    (h : IsTime hour minute)
    (ht : nextScheduledFire offset (weekly weekday hour minute) anchor now = some (some t)) :
    (weekly weekday hour minute).IsNextFire offset anchor now t := by
  simp only [nextScheduledFire, Option.bind_eq_bind, Option.some.injEq,
    Option.bind_eq_some_iff] at ht
  obtain ⟨a, ha, b, hb, c, hc, ht⟩ := ht
  rw [setHours_setSeconds ha hb] at hc
  have hc := eq_of_timeClip hc
  set today := dayOf (now + offset)
  have hcur : getDay offset c = (today + 4) % 7 := by
    unfold getDay
    rw [hc, dayOf_atDay h]
  have hmod : (weekday - (today + 4) % 7 + 7).tmod 7 = (weekday - (today + 4) % 7 + 7) % 7 :=
    Int.tmod_eq_emod_of_nonneg (by omega)
  rw [hcur, hmod] at ht
  have hset := setDate_atDay hc ht
  obtain ⟨ahead, hahead, hsame, hless⟩ : ∃ ahead, t = atDay offset hour minute (today + ahead) ∧
      (today + ahead + 4) % 7 = weekday ∧
      (ahead = 0 ∧ now < c ∨ 0 < ahead ∧ (ahead < 7 ∨ ahead = 7 ∧ c ≤ now)) := by
    refine ⟨_, hset, ?_, ?_⟩
    · split_ifs <;> omega
    · split_ifs <;> omega
  have hday : today + ahead = today ∧ now < atDay offset hour minute (today + ahead) ∨
      today < today + ahead ∧
        ((today + 4) % 7 = weekday → atDay offset hour minute today ≤ now) := by
    rcases hless with ⟨rfl, hlt⟩ | ⟨hpos, hmost⟩
    · exact Or.inl ⟨add_zero _, by rwa [add_zero, ← hc]⟩
    · exact Or.inr ⟨by omega, fun hsame => by rw [← hc]; omega⟩
  obtain ⟨hnow, htight⟩ := isNextFire_atDay (P := fun d => (d + 4) % 7 = weekday) h hsame hday
    fun d hd hlt hP => by omega
  rw [← hahead] at hnow htight
  have hmatch : getDay offset t = weekday := by
    unfold getDay
    rw [hahead, dayOf_atDay h, hsame]
  exact ⟨hnow, ⟨hmatch, hahead ▸ atTime_atDay h _⟩, fun u hu hlt hat => htight u hu hlt hat⟩

/-! ## Months -/

/-- The day of a month on which a schedule of a date fires. -/
def dateIn (day : ℤ) (month : ℤ × ℕ) : ℤ :=
  firstDay month + min day (monthLength (leapDays month.1) month.2) - 1

lemma dateIn_bounds {day : ℤ} (hday : 1 ≤ day) {month : ℤ × ℕ} (hmonth : month.2 < 12) :
    firstDay month ≤ dateIn day month ∧
      dateIn day month < firstDay month + monthLength (leapDays month.1) month.2 := by
  have hlen := (monthLength_bounds (leapDays_bounds month.1) hmonth).1
  unfold dateIn
  omega

lemma dateIn_lt {day : ℤ} (hday : 1 ≤ day) {month later : ℤ × ℕ} (hmonth : month.2 < 12)
    (hlater : later.2 < 12) (h : MonthBefore month later) : dateIn day month < firstDay later :=
  (dateIn_bounds hday hmonth).2.trans_le (firstDay_add_le h hmonth hlater)

lemma getDate_eq_iff {day : ℤ} (hday : 1 ≤ day) :
    getDate offset t = min day (daysInMonthOf offset t) ↔
      ∃ month : ℤ × ℕ, month.2 < 12 ∧ dayOf (t + offset) = dateIn day month := by
  obtain ⟨hmonth, hone, hlast⟩ := getUTCDate_bounds (t + offset)
  constructor
  · intro hdate
    refine ⟨(getFullYear offset t, getMonth offset t), hmonth, ?_⟩
    unfold dateIn firstDay
    rw [← daysInMonthOf, ← hdate]
    exact day_eq (t + offset)
  · rintro ⟨month, hmonth, hat⟩
    have hlen := (monthLength_bounds (leapDays_bounds month.1) hmonth).1
    obtain ⟨hyear, hnumber, hdate⟩ := parts_eq hmonth (by omega) (min_le_right _ _) hat
    unfold daysInMonthOf getFullYear getMonth getDate
    rw [hyear, hnumber, hdate]

lemma slot_eq {day year : ℤ} {month : ℕ} (hyear : ¬(0 ≤ year ∧ year ≤ 99))
    (h : slot offset day hour minute year month = some t) :
    t = atDay offset hour minute (dateIn day (calendarMonthAt year month)) := by
  simp only [slot, Option.bind_eq_bind, Option.bind_eq_some_iff] at h
  obtain ⟨last, hlast, h⟩ := h
  rw [getDate_newDate hyear hlast, newDate_eq hyear] at h
  exact eq_of_timeClip h

lemma monthBefore_trichotomy (month later : ℤ × ℕ) :
    MonthBefore month later ∨ month = later ∨ MonthBefore later month := by
  unfold MonthBefore
  rw [Prod.ext_iff]
  omega

lemma monthBefore_of_dateIn_lt {day : ℤ} (hday : 1 ≤ day) {month later : ℤ × ℕ}
    (hmonth : month.2 < 12) (hlater : later.2 < 12) (h : dateIn day month < dateIn day later) :
    MonthBefore month later := by
  rcases monthBefore_trichotomy month later with hlt | rfl | hlt
  · exact hlt
  · exact absurd h (lt_irrefl _)
  · have hbefore := dateIn_lt hday hlater hmonth hlt
    have hfirst := (dateIn_bounds hday hmonth).1
    omega

lemma eq_or_before_of_next {year : ℤ} {number : ℕ} {month : ℤ × ℕ} (hmonth : month.2 < 12)
    (hnumber : number < 12) (h : MonthBefore month (calendarMonthAt year (number + 1))) :
    month = (year, number) ∨ MonthBefore month (year, number) := by
  obtain ⟨year', number'⟩ := month
  unfold MonthBefore calendarMonthAt at *
  rw [Prod.mk.injEq]
  dsimp only at *
  omega

lemma today_bounds (offset now : ℤ) : getMonth offset now < 12 ∧
    firstDay (getFullYear offset now, getMonth offset now) ≤ dayOf (now + offset) ∧
      dayOf (now + offset) < firstDay (calendarMonthAt (getFullYear offset now)
        (getMonth offset now + 1)) := by
  obtain ⟨hmonth, hone, hlast⟩ := getUTCDate_bounds (now + offset)
  have hday := day_eq (now + offset)
  have hthis : calendarMonthAt (getUTCFullYear (now + offset)) (getUTCMonth (now + offset)) =
      (getUTCFullYear (now + offset), getUTCMonth (now + offset)) := by
    unfold calendarMonthAt
    rw [Nat.div_eq_of_lt hmonth, Nat.mod_eq_of_lt hmonth, Nat.cast_zero, add_zero]
  unfold getFullYear getMonth
  rw [firstDay_succ, hthis]
  unfold firstDay
  dsimp only
  exact ⟨hmonth, by omega, by omega⟩

/-- The day of this month has the next fire, or that of the next month where it has passed. -/
lemma isNextFire_month {anchor day : ℤ} (hday : 1 ≤ day) (h : IsTime hour minute)
    {this month : ℤ × ℕ} (hthis : this = (getFullYear offset now, getMonth offset now))
    (hmonth : month = this ∧ now < atDay offset hour minute (dateIn day month) ∨
      month = calendarMonthAt this.1 (this.2 + 1) ∧
        atDay offset hour minute (dateIn day this) ≤ now) :
    (monthly day hour minute).IsNextFire offset anchor now
      (atDay offset hour minute (dateIn day month)) := by
  obtain ⟨hnumber, hbegan, hends⟩ := today_bounds offset now
  rw [← hthis] at hbegan
  set today := dayOf (now + offset) with htoday
  have hlt : month.2 < 12 := by
    rcases hmonth with ⟨rfl, -⟩ | ⟨rfl, -⟩
    · rw [hthis]
      exact hnumber
    · exact Nat.mod_lt _ (by decide)
  have hthislt : this.2 < 12 := by rw [hthis]; exact hnumber
  -- An earlier day of the schedule is that of this month, and has passed, or lies before today.
  have hearlier : ∀ m : ℤ × ℕ, m.2 < 12 → dateIn day m < dateIn day month →
      atDay offset hour minute (dateIn day m) ≤ now ∧ dateIn day m ≤ today := by
    intro m hm hbefore
    have hold : MonthBefore m this → dateIn day m < today := fun hbefore =>
      (dateIn_lt hday hm hthislt hbefore).trans_le hbegan
    have hpassed : dateIn day m < today → atDay offset hour minute (dateIn day m) ≤ now := by
      unfold IsTime at h
      rw [htoday]
      unfold atDay dayOf msPerDay
      omega
    have horder := monthBefore_of_dateIn_lt hday hm hlt hbefore
    rcases hmonth with ⟨rfl, -⟩ | ⟨rfl, hpast⟩
    · exact ⟨hpassed (hold horder), (hold horder).le⟩
    · rcases eq_or_before_of_next hm hthislt horder with heq | hbefore
      · obtain rfl : m = this := heq
        refine ⟨hpast, ?_⟩
        rw [htoday]
        unfold IsTime at h
        unfold atDay msPerDay at hpast
        unfold dayOf msPerDay
        omega
      · exact ⟨hpassed (hold hbefore), (hold hbefore).le⟩
  have hfrom : month = this ∧ now < atDay offset hour minute (dateIn day month) ∨
      today < dateIn day month := by
    refine hmonth.imp id fun hnext => ?_
    rw [hnext.1] at hlt ⊢
    have hfirst := (dateIn_bounds hday hlt).1
    rw [hthis] at hfirst ⊢
    dsimp only at hfirst ⊢
    omega
  have hplace : dateIn day month = today ∧ now < atDay offset hour minute (dateIn day month) ∨
      today < dateIn day month ∧ ((∃ m : ℤ × ℕ, m.2 < 12 ∧ today = dateIn day m) →
        atDay offset hour minute today ≤ now) := by
    have hpast : today < dateIn day month → (∃ m : ℤ × ℕ, m.2 < 12 ∧ today = dateIn day m) →
        atDay offset hour minute today ≤ now := by
      rintro hgt ⟨m, hm, heq⟩
      rw [heq] at hgt ⊢
      exact (hearlier m hm hgt).1
    rcases hfrom with ⟨-, hnow⟩ | hgt
    · have hge : today ≤ dateIn day month := by
        unfold IsTime at h
        unfold atDay msPerDay at hnow
        rw [htoday]
        unfold dayOf msPerDay
        omega
      rcases hge.eq_or_lt with heq | hgt
      · exact Or.inl ⟨heq.symm, hnow⟩
      · exact Or.inr ⟨hgt, hpast hgt⟩
    · exact Or.inr ⟨hgt, hpast hgt⟩
  obtain ⟨hnow, htight⟩ := isNextFire_atDay (P := fun d => ∃ m : ℤ × ℕ, m.2 < 12 ∧ d = dateIn day m)
    h ⟨month, hlt, rfl⟩ hplace (by
      rintro d hd hbefore ⟨m, hm, rfl⟩
      have hle := (hearlier m hm hbefore).2
      omega)
  refine ⟨hnow, ⟨(getDate_eq_iff hday).2 ⟨month, hlt, dayOf_atDay h _⟩, atTime_atDay h _⟩, ?_⟩
  exact fun u hu hlt hat => htight u hu hlt ⟨(getDate_eq_iff hday).1 hat.1, hat.2⟩

lemma isNextFire_monthly {anchor day : ℤ} (hday : 1 ≤ day) (h : IsTime hour minute)
    (hyear : ¬(0 ≤ getFullYear offset now ∧ getFullYear offset now ≤ 99))
    {thisMonth : ℤ} (hslot : slot offset day hour minute (getFullYear offset now)
      (getMonth offset now) = some thisMonth)
    (ht : nextScheduledFire offset (monthly day hour minute) anchor now = some (some t)) :
    (monthly day hour minute).IsNextFire offset anchor now t := by
  simp only [nextScheduledFire, Option.bind_eq_bind, Option.some.injEq,
    Option.bind_eq_some_iff] at ht
  obtain ⟨a, ha, ht⟩ := ht
  obtain rfl : a = now := eq_of_timeClip ha
  rw [hslot] at ht
  dsimp only at ht
  have hmonth := (today_bounds offset a).1
  have hthis := slot_eq hyear hslot
  rw [calendarMonthAt, Nat.div_eq_of_lt hmonth, Nat.mod_eq_of_lt hmonth, Nat.cast_zero,
    add_zero] at hthis
  split_ifs at ht with hlater
  · obtain rfl := Option.some.inj ht
    rw [hthis] at hlater ⊢
    exact isNextFire_month hday h rfl (Or.inl ⟨rfl, hlater⟩)
  · rw [slot_eq hyear ht]
    rw [hthis, not_lt] at hlater
    exact isNextFire_month hday h rfl (Or.inr ⟨rfl, hlater⟩)

/-! ## Inside the range of dates -/

/-- All that lies within two months of now is in the range of a `Date`. -/
def Inside (now : ℤ) : Prop :=
  -MAX_TIME + 62 * msPerDay ≤ now ∧ now ≤ MAX_TIME - 62 * msPerDay

lemma timeClip_of_inside (hnow : Inside now) (hfrom : now - 62 * msPerDay ≤ t)
    (hto : t ≤ now + 62 * msPerDay) : timeClip t = some t := by
  unfold Inside at hnow
  exact if_pos ⟨by omega, by omega⟩

lemma exists_today (offset : ℤ) (hnow : Inside now) (h : IsTime hour minute) :
    ∃ b, timeClip now = some now ∧ setSeconds offset now 0 0 = some b ∧
      setHours offset b hour minute 0 0 =
        some (atDay offset hour minute (dayOf (now + offset))) := by
  have ha : timeClip now = some now :=
    timeClip_of_inside hnow (by unfold msPerDay; omega) (by unfold msPerDay; omega)
  obtain ⟨b, hb⟩ : ∃ b, setSeconds offset now 0 0 = some b := by
    refine ⟨_, timeClip_of_inside hnow ?_ ?_⟩ <;>
      unfold getHours getMinutes getUTCHours getUTCMinutes dayOf msPerDay <;> omega
  refine ⟨b, ha, hb, ?_⟩
  rw [setHours_setSeconds ha hb]
  unfold IsTime at h
  refine timeClip_of_inside hnow ?_ ?_ <;> unfold atDay dayOf msPerDay <;> omega

/-- The slots of this month and of the next are dates. -/
lemma exists_slot {day : ℤ} (hnow : Inside now) (hday : 1 ≤ day) (h : IsTime hour minute)
    (hyear : ¬(0 ≤ getFullYear offset now ∧ getFullYear offset now ≤ 99)) {next : ℕ}
    (hnext : next ≤ 1) : ∃ t, slot offset day hour minute (getFullYear offset now)
      (getMonth offset now + next) = some t := by
  obtain ⟨hnumber, hbegan, hends⟩ := today_bounds offset now
  set year := getFullYear offset now
  set number := getMonth offset now
  set month := calendarMonthAt year (number + next) with hmonth
  have hlt : month.2 < 12 := Nat.mod_lt _ (by decide)
  have hlen := monthLength_bounds (leapDays_bounds month.1) hlt
  have hthis : calendarMonthAt year number = (year, number) := by
    unfold calendarMonthAt
    rw [Nat.div_eq_of_lt hnumber, Nat.mod_eq_of_lt hnumber, Nat.cast_zero, add_zero]
  have hlater := firstDay_succ year number
  have hlen' := monthLength_bounds (leapDays_bounds year) hnumber
  rw [hthis] at hlater
  dsimp only at hlater
  have hfirst : dayOf (now + offset) - 31 < firstDay month ∧
      firstDay month ≤ dayOf (now + offset) + 31 := by
    interval_cases next
    · rw [add_zero, hthis] at hmonth
      rw [hmonth]
      omega
    · rw [hmonth]
      omega
  have hnear : ∀ d ms : ℤ, dayOf (now + offset) - 31 ≤ d → d < dayOf (now + offset) + 62 →
      0 ≤ ms → ms < msPerDay → ∃ t, timeClip (d * msPerDay + ms - offset) = some t := by
    intro d ms hfrom hto hpos hless
    refine ⟨_, timeClip_of_inside hnow ?_ ?_⟩ <;> unfold dayOf msPerDay at * <;> omega
  obtain ⟨last, hlast⟩ : ∃ t, newDate offset year (number + next + 1) 0 0 0 = some t := by
    rw [newDate_eq hyear, firstDay_succ, ← hmonth]
    exact hnear _ _ (by omega) (by omega) (by omega) (by unfold msPerDay; omega)
  unfold IsTime at h
  simp only [slot, Option.bind_eq_bind]
  rw [hlast, Option.bind_some, getDate_newDate hyear hlast, newDate_eq hyear, ← hmonth]
  exact hnear _ _ (by omega) (by omega) (by omega) (by unfold msPerDay; omega)

end

/-! ## The next fire -/

/-- The dates that the code makes of now are in range, and a month is in the year that is meant. -/
def DatesFit (offset now : ℤ) : Schedule → Prop
  | daily _ _ => Inside now
  | weekly _ _ _ => Inside now
  | monthly _ _ _ =>
    Inside now ∧ ¬(0 ≤ getFullYear offset now ∧ getFullYear offset now ≤ 99)
  | interval _ => True
  | none => True

lemma isLeast_period (anchor now : ℤ) {interval : ℤ} (h : 0 < interval) :
    IsLeast {u | now < u ∧ ∃ periods : ℤ, u = anchor + periods * interval}
      (anchor + ((now - anchor) / interval + 1) * interval) := by
  refine ⟨⟨?_, _, rfl⟩, ?_⟩
  · have hless := Int.lt_ediv_add_one_mul_self (now - anchor) h
    omega
  · rintro u ⟨hnow, periods, rfl⟩
    have hmore : (now - anchor) / interval < periods :=
      Int.ediv_lt_of_lt_mul h (by omega)
    have hle := mul_le_mul_of_nonneg_right (Int.add_one_le_of_lt hmore) h.le
    omega

lemma isNextFire_interval (offset anchor now : ℤ) {minutes : ℤ}
    (h : MIN_INTERVAL_MINUTES ≤ minutes) :
    ∃ t, nextScheduledFire offset (interval minutes) anchor now = some (some t) ∧
      (interval minutes).IsNextFire offset anchor now t ∧ (anchor ≤ now →
        IsLeast {u | now < u ∧ ∃ periods : ℤ, u = anchor + periods * (minutes * 60000)} t) := by
  have hpos : 0 < minutes * 60000 := by
    unfold MIN_INTERVAL_MINUTES at h
    omega
  have hleast := isLeast_period anchor now hpos
  unfold nextScheduledFire
  dsimp only
  rw [max_eq_right h]
  by_cases hnow : now ≤ anchor
  · refine ⟨_, if_pos hnow, ⟨by omega, ⟨1, le_rfl, by rw [one_mul]⟩, ?_⟩, fun hanchor => ?_⟩
    · rintro u - hu ⟨periods, hperiods, rfl⟩
      have hle := mul_le_mul_of_nonneg_right hperiods hpos.le
      omega
    · obtain rfl := le_antisymm hnow hanchor
      simpa using hleast
  · have hone : 1 ≤ (now - anchor) / (minutes * 60000) + 1 :=
      Int.le_add_of_nonneg_left (Int.ediv_nonneg (by omega) hpos.le)
    refine ⟨_, if_neg hnow, ⟨hleast.1.1, ⟨_, hone, rfl⟩, ?_⟩, fun _ => hleast⟩
    rintro u hu hlt ⟨periods, -, rfl⟩
    exact absurd (hleast.2 ⟨hu, periods, rfl⟩) (not_le.2 hlt)

/-- **What is computed is the next fire.** -/
theorem next_fire {offset anchor now : ℤ} {schedule : Schedule} (hvalid : schedule.Valid)
    (hclock : schedule ≠ none) (hfit : schedule.DatesFit offset now) :
    ∃ t, nextScheduledFire offset schedule anchor now = some (some t) ∧
      schedule.IsNextFire offset anchor now t ∧
      ∀ minutes, schedule = interval minutes → anchor ≤ now →
        IsLeast {u | now < u ∧ ∃ periods : ℤ, u = anchor + periods * (minutes * 60000)} t := by
  cases schedule with
  | daily hour minute =>
    obtain ⟨b, ha, hb, hc⟩ := exists_today offset hfit hvalid
    obtain ⟨t, ht⟩ : ∃ t, nextScheduledFire offset (daily hour minute) anchor now =
        some (some t) := by
      simp only [nextScheduledFire, Option.bind_eq_bind, ha, hb, hc, Option.bind_some, setDate_add]
      split_ifs with hpast
      · unfold Valid IsTime at hvalid
        refine ⟨_, congrArg some (timeClip_of_inside hfit ?_ ?_)⟩ <;>
          unfold atDay dayOf msPerDay at * <;> omega
      · exact ⟨_, rfl⟩
    exact ⟨t, ht, isNextFire_daily hvalid ht, nofun⟩
  | weekly weekday hour minute =>
    obtain ⟨b, ha, hb, hc⟩ := exists_today offset hfit hvalid.2
    obtain ⟨t, ht⟩ : ∃ t, nextScheduledFire offset (weekly weekday hour minute) anchor now =
        some (some t) := by
      have hweek : ∀ c, 0 ≤ (weekday - getDay offset c + 7).tmod 7 ∧
          (weekday - getDay offset c + 7).tmod 7 ≤ 7 := by
        intro c
        have hday : 0 ≤ getDay offset c ∧ getDay offset c ≤ 6 := by
          unfold getDay
          omega
        rw [Int.tmod_eq_emod_of_nonneg (by have := hvalid.1.1; omega)]
        omega
      simp only [nextScheduledFire, Option.bind_eq_bind, ha, hb, hc, Option.bind_some, setDate_add]
      have htoday := hweek (atDay offset hour minute (dayOf (now + offset)))
      have htime := hvalid.2
      unfold IsTime at htime
      refine ⟨_, congrArg some (timeClip_of_inside hfit ?_ ?_)⟩ <;> split_ifs <;>
        unfold atDay dayOf msPerDay at * <;> omega
    exact ⟨t, ht, isNextFire_weekly hvalid.1 hvalid.2 ht, nofun⟩
  | interval minutes =>
    obtain ⟨t, ht, hnext, hleast⟩ := isNextFire_interval offset anchor now hvalid
    refine ⟨t, ht, hnext, ?_⟩
    intro same heq
    obtain rfl := interval.inj heq
    exact hleast
  | monthly day hour minute =>
    obtain ⟨hnow, hyear⟩ := hfit
    obtain ⟨⟨hday, -⟩, htime⟩ := hvalid
    obtain ⟨thisMonth, hthis⟩ := exists_slot hnow hday htime hyear (Nat.zero_le 1)
    obtain ⟨nextMonth, hnext⟩ := exists_slot hnow hday htime hyear le_rfl
    have ha : timeClip now = some now :=
      timeClip_of_inside hnow (by unfold msPerDay; omega) (by unfold msPerDay; omega)
    obtain ⟨t, ht⟩ : ∃ t, nextScheduledFire offset (monthly day hour minute) anchor now =
        some (some t) := by
      rw [add_zero] at hthis
      simp only [nextScheduledFire, Option.bind_eq_bind, ha, Option.bind_some, hthis, hnext]
      split_ifs <;> exact ⟨_, rfl⟩
    exact ⟨t, ht, isNextFire_monthly hday htime hyear hthis ht, nofun⟩
  | none => exact absurd rfl hclock

theorem next_fire_february : ∃ t : ℤ, nextScheduledFire 7200000 (monthly 31 9 30) 0 1832976000000 =
      some (some t) ∧ (monthly 31 9 30).IsNextFire 7200000 0 1832976000000 t ∧
      ∀ minutes, monthly 31 9 30 = interval minutes → (0 : ℤ) ≤ 1832976000000 →
        IsLeast {u | 1832976000000 < u ∧ ∃ periods : ℤ, u = 0 + periods * (minutes * 60000)} t :=
  next_fire (show (monthly 31 9 30).Valid from ⟨by decide, by decide, by decide⟩) nofun
    (show DatesFit 7200000 1832976000000 (monthly 31 9 30) from
      ⟨⟨by decide, by decide⟩, by decide⟩)

/-- In the year 50 the code goes to 1950, past the next month. In the last month of the range its
result is an invalid date. -/
theorem next_fire_year_50 : (monthly 1 0 0).Valid ∧
    (¬∃ t, nextScheduledFire 0 (monthly 1 0 0) 0 (-60588000000000) = some (some t) ∧
      (monthly 1 0 0).IsNextFire 0 0 (-60588000000000) t) ∧
    nextScheduledFire 0 (monthly 1 0 0) 0 8639999000000000 = some Option.none := by
  refine ⟨⟨by decide, by decide, by decide⟩, ?_, by decide⟩
  rintro ⟨t, ht, hnext⟩
  have hyear : nextScheduledFire 0 (monthly 1 0 0) 0 (-60588000000000) =
      some (some (-631152000000)) := by decide
  rw [hyear] at ht
  obtain rfl := Option.some.inj (Option.some.inj ht)
  exact hnext.not_matches_between (-60586617600000) (by decide) (by decide)
    ⟨by decide, by decide, by decide, by decide, by decide⟩

end Schedule

end Isomux
