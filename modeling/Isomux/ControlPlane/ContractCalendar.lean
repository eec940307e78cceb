import Mathlib.Data.Int.ConditionallyCompleteOrder
import Isomux.ControlPlane.EnterpriseBilling

set_option autoImplicit false

/-!
# The months of a contract are in order

A contract month ends in the calendar month that follows, on the clamped day. The instants at which
the contract months start are in order, and the contract month of an instant is the last one that
has started by then, so that all the windows that are cut out of the contract fit together.

`Date.UTC` reads a year of two digits as one of the twentieth century. The results are about
contracts that start from the year 100 on.

## Main results

* `Isomux.EnterpriseBilling.addContractMonths_strictMono` — later contract months start later.
* `Isomux.EnterpriseBilling.le_contractMonthIndex_iff` — the contract month of an instant.
-/

namespace Isomux.EnterpriseBilling

/-- The calendar month in which a contract month starts: its year and its number in the year. -/
def calendarMonth (start : ℤ) (months : ℕ) : ℤ × ℕ :=
  (getUTCFullYear start + ((getUTCMonth start + months) / 12 : ℕ), (getUTCMonth start + months) % 12)

lemma calendarMonth_lt (start : ℤ) (months : ℕ) : (calendarMonth start months).2 < 12 :=
  Nat.mod_lt _ (by decide)

lemma calendarMonth_before (start : ℤ) {months later : ℕ} (h : months < later) :
    MonthBefore (calendarMonth start months) (calendarMonth start later) := by
  unfold MonthBefore calendarMonth
  dsimp only
  omega

lemma daysInMonth_eq {year : ℤ} (hyear : 100 ≤ year) {month : ℕ} (hmonth : month < 12) :
    daysInMonth year month = monthLength (leapDays year) month := by
  have hfull : makeFullYear year = year := if_neg (by omega)
  have hend := getUTCDate_monthEnd year hmonth
  rw [hfull] at hend
  rw [← hend]
  unfold daysInMonth dateUTC makeDay msPerDay
  dsimp only
  congr 1
  omega

variable {start : ℤ}

lemma addContractMonths_eq (hyear : 100 ≤ getUTCFullYear start) (months : ℕ) :
    addContractMonths start months =
      (firstDay (calendarMonth start months) +
        min (getUTCDate start)
          (monthLength (leapDays (calendarMonth start months).1) (calendarMonth start months).2) -
        1) * msPerDay + start % msPerDay := by
  have hmonth := calendarMonth_lt start months
  have htime := time_eq start
  unfold calendarMonth firstDay at *
  dsimp only at *
  set year := getUTCFullYear start + ((getUTCMonth start + months) / 12 : ℕ) with hset
  have hlate : 100 ≤ year := by omega
  have hfull : makeFullYear year = year := if_neg (by omega)
  unfold addContractMonths dateUTC makeDay
  dsimp only
  rw [← hset, hfull, daysInMonth_eq hlate hmonth, htime, Nat.div_eq_of_lt hmonth,
    Nat.mod_eq_of_lt hmonth, Nat.cast_zero, add_zero]

lemma addContractMonths_zero (hyear : 100 ≤ getUTCFullYear start) :
    addContractMonths start 0 = start := by
  obtain ⟨hmonth, hone, hlast⟩ := getUTCDate_bounds start
  have hday := day_eq start
  have hzero : calendarMonth start 0 = (getUTCFullYear start, getUTCMonth start) := by
    unfold calendarMonth
    rw [add_zero, Nat.div_eq_of_lt hmonth, Nat.mod_eq_of_lt hmonth, Nat.cast_zero, add_zero]
  rw [addContractMonths_eq hyear, hzero, min_eq_left hlast, firstDay]
  unfold dayOf at hday
  unfold msPerDay at *
  dsimp only
  omega

lemma addContractMonths_bounds (hyear : 100 ≤ getUTCFullYear start) (months : ℕ) :
    firstDay (calendarMonth start months) * msPerDay ≤ addContractMonths start months ∧
      addContractMonths start months <
        (firstDay (calendarMonth start months) +
          monthLength (leapDays (calendarMonth start months).1) (calendarMonth start months).2) *
            msPerDay := by
  obtain ⟨-, hone, -⟩ := getUTCDate_bounds start
  have hlen := (monthLength_bounds (leapDays_bounds (calendarMonth start months).1)
    (calendarMonth_lt start months)).1
  rw [addContractMonths_eq hyear]
  unfold msPerDay
  omega

lemma addContractMonths_lt_firstDay (hyear : 100 ≤ getUTCFullYear start) {months : ℕ}
    {later : ℤ × ℕ} (h : MonthBefore (calendarMonth start months) later) (hlater : later.2 < 12) :
    addContractMonths start months < firstDay later * msPerDay := by
  have hover := firstDay_add_le h (calendarMonth_lt start months) hlater
  exact (addContractMonths_bounds hyear months).2.trans_le
    (mul_le_mul_of_nonneg_right hover (by decide))

/-- **Later contract months start later.** -/
lemma addContractMonths_strictMono (hyear : 100 ≤ getUTCFullYear start) :
    StrictMono (addContractMonths start) := by
  intro months later h
  have hbefore := calendarMonth_before start h
  exact (addContractMonths_lt_firstDay hyear hbefore (calendarMonth_lt start later)).trans_le
    (addContractMonths_bounds hyear later).1

lemma start_add_le (hyear : 100 ≤ getUTCFullYear start) (months : ℕ) :
    start + months ≤ addContractMonths start months := by
  induction months with
  | zero => rw [addContractMonths_zero hyear, Nat.cast_zero, add_zero]
  | succ months ih =>
    have hnext := addContractMonths_strictMono hyear (show months < months + 1 by omega)
    push_cast
    omega

/-! ## The contract month of an instant -/

lemma stepDown_spec (start now : ℤ) (k : ℕ) :
    stepDown start now k ≤ k ∧
      (stepDown start now k = 0 ∨ addContractMonths start (stepDown start now k) ≤ now) ∧
      ∀ j, stepDown start now k < j → j ≤ k → now < addContractMonths start j := by
  induction k with
  | zero => exact ⟨le_rfl, .inl rfl, fun j hj hle => absurd hle (not_le.2 hj)⟩
  | succ k ih =>
    unfold stepDown
    split_ifs with hlate
    · obtain ⟨hle, hfound, hlater⟩ := ih
      refine ⟨hle.trans (Nat.le_succ k), hfound, fun j hj hjk => ?_⟩
      rcases Nat.le_succ_iff.1 hjk with hjk | rfl
      · exact hlater j hj hjk
      · exact hlate
    · exact ⟨le_rfl, .inr (not_lt.1 hlate), fun j hj hle => absurd hle (not_le.2 hj)⟩

lemma calendarMonth_monthsBetween {start now : ℤ} (h : start ≤ now) :
    calendarMonth start (monthsBetween start now).toNat =
      (getUTCFullYear now, getUTCMonth now) := by
  have hyears := getUTCFullYear_mono h
  have hmonths := getUTCMonth_mono h
  obtain ⟨hlt, -⟩ := getUTCDate_bounds start
  obtain ⟨hlt', -⟩ := getUTCDate_bounds now
  have hnonneg : 0 ≤ monthsBetween start now := by
    unfold monthsBetween
    rcases hyears.lt_or_eq with hyear | hyear
    · omega
    · have := hmonths hyear.symm
      omega
  have hcast : ((monthsBetween start now).toNat : ℤ) = monthsBetween start now :=
    Int.toNat_of_nonneg hnonneg
  unfold calendarMonth
  unfold monthsBetween at hcast hnonneg ⊢
  refine Prod.ext ?_ ?_
  · dsimp only
    omega
  · dsimp only
    omega

lemma lt_addContractMonths_estimate {start now : ℤ} (hyear : 100 ≤ getUTCFullYear start)
    (h : start ≤ now) :
    now < addContractMonths start ((monthsBetween start now).toNat + 1) := by
  set estimate := (monthsBetween start now).toNat
  have hmonth : calendarMonth start estimate = (getUTCFullYear now, getUTCMonth now) :=
    calendarMonth_monthsBetween h
  have hover := firstDay_add_le (calendarMonth_before start (show estimate < estimate + 1 by omega))
    (calendarMonth_lt start estimate) (calendarMonth_lt start (estimate + 1))
  have hbegins := (addContractMonths_bounds hyear (estimate + 1)).1
  have hday := day_eq now
  obtain ⟨-, -, hlast⟩ := getUTCDate_bounds now
  rw [hmonth] at hover
  unfold firstDay at hover hbegins
  unfold dayOf at hday
  unfold msPerDay at *
  dsimp only at hover
  omega

/-- Behind the first loop the next contract month has not started. -/
lemma lt_addContractMonths_stepDown {start now : ℤ} (hyear : 100 ≤ getUTCFullYear start)
    (h : start ≤ now) :
    now < addContractMonths start (stepDown start now (monthsBetween start now).toNat + 1) := by
  obtain ⟨hle, -, hlater⟩ := stepDown_spec start now (monthsBetween start now).toNat
  rcases hle.lt_or_eq with hlt | heq
  · exact hlater _ (Nat.lt_succ_self _) hlt
  · rw [heq]
    exact lt_addContractMonths_estimate hyear h

/-- **The contract month of an instant is the last one that has started by then.** -/
lemma le_contractMonthIndex_iff (hyear : 100 ≤ getUTCFullYear start) (now : ℤ) (k : ℕ) :
    k ≤ contractMonthIndex start now ↔ k = 0 ∨ addContractMonths start k ≤ now := by
  have hmono := addContractMonths_strictMono hyear
  unfold contractMonthIndex
  split_ifs with hstart
  · rw [Nat.le_zero]
    refine ⟨.inl, fun h => h.elim id fun hle => ?_⟩
    rw [← addContractMonths_zero hyear] at hstart
    exact Nat.le_zero.1 (hmono.le_iff_le.1 (hle.trans hstart))
  · obtain ⟨-, hfound, -⟩ := stepDown_spec start now (monthsBetween start now).toNat
    have hnext := lt_addContractMonths_stepDown hyear (not_le.1 hstart).le
    set k₀ := stepDown start now (monthsBetween start now).toNat
    have hstays : stepUp start now 1 k₀ = k₀ := if_neg (not_le.2 hnext)
    rw [hstays]
    constructor
    · intro hk
      rcases Nat.eq_zero_or_pos k with hzero | hpos
      · exact .inl hzero
      · have hstarted := hfound.resolve_left (by omega)
        exact .inr ((hmono.monotone hk).trans hstarted)
    · rintro (rfl | hk)
      · exact Nat.zero_le _
      · exact Nat.lt_succ_iff.1 (hmono.lt_iff_lt.1 (hk.trans_lt hnext))

lemma addContractMonths_le_iff (hyear : 100 ≤ getUTCFullYear start) {now : ℤ} {k : ℕ}
    (hk : 0 < k) : addContractMonths start k ≤ now ↔ k ≤ contractMonthIndex start now := by
  rw [le_contractMonthIndex_iff hyear]
  exact ⟨.inr, fun h => h.resolve_left hk.ne'⟩

lemma contractMonthIndex_addContractMonths (hyear : 100 ≤ getUTCFullYear start) (k : ℕ) :
    contractMonthIndex start (addContractMonths start k) = k := by
  have hmono := addContractMonths_strictMono hyear
  refine le_antisymm ?_ ((le_contractMonthIndex_iff hyear _ _).2 (.inr le_rfl))
  rcases (le_contractMonthIndex_iff hyear _ _).1 le_rfl with hzero | hle
  · rw [hzero]
    exact Nat.zero_le k
  · exact hmono.le_iff_le.1 hle

lemma contractMonthIndex_mono (hyear : 100 ≤ getUTCFullYear start) :
    Monotone (contractMonthIndex start) := by
  intro now later h
  rw [le_contractMonthIndex_iff hyear]
  exact ((le_contractMonthIndex_iff hyear _ _).1 le_rfl).imp_right fun hle => hle.trans h

end Isomux.EnterpriseBilling
