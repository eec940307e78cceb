import Isomux.ControlPlane.SeatBilling

set_option autoImplicit false

/-!
# The contract calendar cuts up the time

From its start on, every instant of a contract lies in one contract month, which the two loops find
within a turn. The invoices by the month follow each other from month 1 on, and there is always a next
one.

This is so from the year 100 on. A contract month of an earlier year is where `Date.UTC` puts it, behind
later ones.

## Main results

* `Isomux.EnterpriseBilling.nextInvoice_ne_none` — there is a next invoice.
* `Isomux.EnterpriseBilling.partitionsTime_iff` — the contracts whose months cut up the time.
-/

namespace Isomux.EnterpriseBilling

/-- The next invoice and what it bills so far. No answer is an error: there is no period to read. -/
def nextInvoice (plan : EnterprisePlan) (start : ℤ) (history : List SeatChange) (now : ℤ) :
    Option (BillingPeriod × Option ℕ) :=
  let sofar := history.filter fun c => c.at_ ≤ now
  let upcoming := (periodsUntil plan start (addContractMonths (max now start) 13)).filter
    fun p => now < p.issuedAt
  upcoming.head?.map fun first =>
    let same := upcoming.filter fun p => p.issuedAt = first.issuedAt
    (first, same.foldl (fun amountCents p =>
      match periodCharge plan start sofar p with
      | none => amountCents
      | some c => some (amountCents.getD 0 + c.amountCents)) none)

/-- Periods that follow each other from one instant to another, without a gap or an overlap. -/
def Tiles : List BillingPeriod → ℤ → ℤ → Prop
  | [], first, last => first = last
  | p :: periods, first, last => p.start = first ∧ p.start < p.end_ ∧ Tiles periods p.end_ last

/-- The months of a contract cut up the time from its start on. -/
structure PartitionsTime (start : ℤ) : Prop where
  increasing : StrictMono (addContractMonths start)
  unique : ∀ now, start ≤ now → ∀ k,
    addContractMonths start k ≤ now ∧ now < addContractMonths start (k + 1) ↔
      k = contractMonthIndex start now
  /-- The first loop turns once at most, the second one not at all. -/
  loops : ∀ now, start < now →
    let estimate := (monthsBetween start now).toNat
    estimate ≤ stepDown start now estimate + 1 ∧
      ∀ rounds, stepUp start now rounds (stepDown start now estimate) = stepDown start now estimate
  tiles : ∀ now, Tiles (billingPeriodsDue .monthly start now) (addContractMonths start 1)
    (addContractMonths start (max 1 (contractMonthIndex start (now - INVOICE_GRACE_MS))))
  invoiced : ∀ plan history now, ∃ period amountCents,
    nextInvoice plan start history now = some (period, amountCents) ∧ now < period.issuedAt

variable {start now : ℤ}

/-! ## The contract month of an instant -/

lemma eq_contractMonthIndex_iff (hyear : 100 ≤ getUTCFullYear start) (h : start ≤ now) (k : ℕ) :
    addContractMonths start k ≤ now ∧ now < addContractMonths start (k + 1) ↔
      k = contractMonthIndex start now := by
  have hnext := le_contractMonthIndex_iff hyear now (k + 1)
  constructor
  · rintro ⟨hle, hlt⟩
    have hk := (le_contractMonthIndex_iff hyear now k).2 (.inr hle)
    have hover : ¬k + 1 ≤ contractMonthIndex start now := by
      rw [hnext]
      rintro (hzero | hstarted)
      · exact Nat.succ_ne_zero k hzero
      · exact absurd hlt (not_lt.2 hstarted)
    omega
  · rintro rfl
    refine ⟨?_, not_le.1 fun hstarted => absurd (hnext.2 (.inr hstarted)) (Nat.not_succ_le_self _)⟩
    rcases (le_contractMonthIndex_iff hyear now _).1 le_rfl with hzero | hle
    · rw [hzero, addContractMonths_zero hyear]
      exact h
    · exact hle

/-- The calendar is a month ahead at most. -/
lemma estimate_le_stepDown (hyear : 100 ≤ getUTCFullYear start) (h : start ≤ now) :
    (monthsBetween start now).toNat ≤
      stepDown start now (monthsBetween start now).toNat + 1 := by
  obtain ⟨-, -, hlater⟩ := stepDown_spec start now (monthsBetween start now).toNat
  have hmonth := calendarMonth_monthsBetween h
  set estimate := (monthsBetween start now).toNat
  by_contra hfar
  have hlate := hlater (estimate - 1) (by omega) (by omega)
  have hover := addContractMonths_lt_firstDay hyear
    (calendarMonth_before start (show estimate - 1 < estimate by omega))
    (calendarMonth_lt start estimate)
  obtain ⟨-, hone, -⟩ := getUTCDate_bounds now
  have hday := day_eq now
  rw [hmonth] at hover
  unfold firstDay at hover
  unfold dayOf at hday
  unfold msPerDay at *
  dsimp only at hover
  omega

/-! ## Invoices -/

lemma monthlyLoop_tiles (hyear : 100 ≤ getUTCFullYear start) (until_ : ℤ) (rounds k : ℕ)
    (h : contractMonthIndex start until_ ≤ k + rounds) :
    Tiles (monthlyLoop start until_ rounds k) (addContractMonths start k)
      (addContractMonths start (max k (contractMonthIndex start until_))) := by
  induction rounds generalizing k with
  | zero =>
    rw [max_eq_left (show _ ≤ k from h)]
    rfl
  | succ rounds ih =>
    have hnext : addContractMonths start (k + 1) ≤ until_ ↔ k + 1 ≤ contractMonthIndex start until_ :=
      addContractMonths_le_iff hyear (Nat.succ_pos k)
    unfold monthlyLoop
    split_ifs with hended
    · have hlate := hnext.1 hended
      have hrest := ih (k + 1) (by omega)
      rw [max_eq_right hlate] at hrest
      rw [max_eq_right (by omega)]
      exact ⟨rfl, addContractMonths_strictMono hyear (Nat.lt_succ_self k), hrest⟩
    · rw [max_eq_left (by omega)]
      rfl

lemma mem_monthlyLoop (hyear : 100 ≤ getUTCFullYear start) {until_ : ℤ} {j : ℕ}
    (hended : addContractMonths start (j + 1) ≤ until_) (rounds k : ℕ) (hk : k ≤ j)
    (hj : j < k + rounds) : monthPeriod start j ∈ monthlyLoop start until_ rounds k := by
  induction rounds generalizing k with
  | zero => omega
  | succ rounds ih =>
    have hmono := (addContractMonths_strictMono hyear).monotone
    unfold monthlyLoop
    rw [if_pos ((hmono (by omega)).trans hended)]
    rcases hk.eq_or_lt with rfl | hlt
    · exact List.mem_cons_self
    · exact List.mem_cons_of_mem _ (ih (k + 1) hlt (by omega))

/-- The contract months of the coming year start within 13 months, counted from now. -/
lemma addContractMonths_le_thirteen (hyear : 100 ≤ getUTCFullYear start) (h : start ≤ now) {j : ℕ}
    (hj : j ≤ contractMonthIndex start now + 12) :
    addContractMonths start j ≤ addContractMonths now 13 := by
  have hmonth := calendarMonth_monthsBetween h
  have hbehind := lt_addContractMonths_estimate hyear h
  set estimate := (monthsBetween start now).toNat
  have hindex : contractMonthIndex start now ≤ estimate := by
    by_contra hover
    exact absurd hbehind (not_lt.2 ((addContractMonths_le_iff hyear (Nat.succ_pos estimate)).2
      (not_le.1 hover)))
  have hbefore : MonthBefore (calendarMonth start j) (calendarMonth now 13) := by
    obtain ⟨hthis, -⟩ := getUTCDate_bounds now
    unfold calendarMonth at hmonth ⊢
    obtain ⟨hyears, hmonths⟩ := Prod.mk.inj hmonth
    unfold MonthBefore
    dsimp only
    omega
  exact (addContractMonths_lt_firstDay hyear hbefore (calendarMonth_lt now 13)).le.trans
    (addContractMonths_bounds (hyear.trans (getUTCFullYear_mono h)) 13).1

/-- **There is always a next invoice.** -/
lemma nextInvoice_ne_none (hyear : 100 ≤ getUTCFullYear start) (plan : EnterprisePlan)
    (history : List SeatChange) (now : ℤ) : ∃ period amountCents,
      nextInvoice plan start history now = some (period, amountCents) ∧ now < period.issuedAt := by
  obtain ⟨p, hp, hissued⟩ : ∃ p ∈ periodsUntil plan start (addContractMonths (max now start) 13),
      now < p.issuedAt := by
    have hstart := le_max_right now start
    have hmono := (addContractMonths_strictMono hyear).monotone
    have hlt := ((eq_contractMonthIndex_iff hyear hstart _).2 rfl).2
    have hsoon := fun j => addContractMonths_le_thirteen (j := j) hyear hstart
    set k := contractMonthIndex start (max now start)
    have hnow := (le_max_left now start).trans_lt hlt
    cases plan with
    | monthly =>
      have hover := hsoon (max 1 k + 1) (by omega)
      have hlong := (start_add_le hyear (max 1 k + 1)).trans hover
      exact ⟨monthPeriod start (max 1 k), mem_monthlyLoop hyear hover _ 1 (by omega) (by omega),
        hnow.trans_le (hmono (by omega))⟩
    | yearly =>
      have hover := hsoon (12 * (k / 12) + 12) (by omega)
      exact ⟨quarterPeriod start (k / 12) 3, List.mem_of_mem_filter
        ((mem_periodsOfYear hyear hover).2 (.inr ⟨3, by decide, rfl⟩)),
        hnow.trans_le (hmono (by omega))⟩
  unfold nextInvoice
  dsimp only
  have hmem : p ∈ (periodsUntil plan start (addContractMonths (max now start) 13)).filter
      fun p => now < p.issuedAt := List.mem_filter.2 ⟨hp, decide_eq_true hissued⟩
  obtain ⟨first, hfirst⟩ := Option.isSome_iff_exists.1 (List.isSome_head?.2 (List.ne_nil_of_mem hmem))
  rw [hfirst]
  exact ⟨first, _, rfl,
    of_decide_eq_true (List.mem_filter.1 (List.mem_of_mem_head? hfirst)).2⟩

/-! ## The years before 100 -/

lemma addContractMonths_fullYear (start : ℤ) (months : ℕ) :
    addContractMonths start months =
      (firstDay (makeFullYear (calendarMonth start months).1, (calendarMonth start months).2) +
        min (getUTCDate start)
          (daysInMonth (calendarMonth start months).1 (calendarMonth start months).2) - 1) *
        msPerDay + start % msPerDay := by
  have hmonth := calendarMonth_lt start months
  have htime := time_eq start
  unfold calendarMonth firstDay at *
  unfold addContractMonths dateUTC makeDay
  dsimp only at *
  rw [htime, Nat.div_eq_of_lt hmonth, Nat.mod_eq_of_lt hmonth, Nat.cast_zero, add_zero]

/-- December 99 is in 1999, and January 100 is where it was. -/
lemma not_strictMono (hyear : getUTCFullYear start < 100) :
    ¬StrictMono (addContractMonths start) := by
  intro hmono
  obtain ⟨hthis, hone, hlast⟩ := getUTCDate_bounds start
  obtain ⟨-, hshort⟩ := monthLength_bounds (leapDays_bounds (getUTCFullYear start)) hthis
  set k := ((99 - getUTCFullYear start) * 12 + 11 - getUTCMonth start).toNat with hk
  have hdecember : calendarMonth start k = (99, 11) := by
    unfold calendarMonth
    refine Prod.ext ?_ ?_ <;> dsimp only <;> omega
  have hjanuary : calendarMonth start (k + 1) = (100, 0) := by
    unfold calendarMonth
    refine Prod.ext ?_ ?_ <;> dsimp only <;> omega
  have hlater := hmono (Nat.lt_succ_self k)
  rw [Nat.succ_eq_add_one, addContractMonths_fullYear, addContractMonths_fullYear, hdecember,
    hjanuary] at hlater
  have hlong : daysInMonth 99 11 = 31 := by decide +kernel
  have hdays : firstDay (makeFullYear 99, 11) = 10926 := by decide +kernel
  have hdays' : firstDay (makeFullYear 100, 0) = -683003 := by decide +kernel
  dsimp only at hlater
  rw [hlong, hdays, hdays'] at hlater
  unfold msPerDay at hlater
  omega

/-- The months of a contract cut up the time from its start on when it starts in the year 100 or
later. -/
theorem partitionsTime_iff (start : ℤ) : PartitionsTime start ↔ 100 ≤ getUTCFullYear start := by
  constructor
  · intro h
    by_contra hyear
    exact not_strictMono (not_le.1 hyear) h.increasing
  · intro hyear
    refine ⟨addContractMonths_strictMono hyear, fun now => eq_contractMonthIndex_iff hyear,
      fun now hnow => ⟨estimate_le_stepDown hyear hnow.le, fun rounds => ?_⟩, fun now => ?_,
      nextInvoice_ne_none hyear⟩
    · cases rounds with
      | zero => rfl
      | succ rounds => exact if_neg (not_le.2 (lt_addContractMonths_stepDown hyear hnow.le))
    · refine monthlyLoop_tiles hyear _ _ 1 ?_
      rcases (le_contractMonthIndex_iff hyear (now - INVOICE_GRACE_MS) _).1 le_rfl with hzero | hle
      · omega
      · have hlong := (start_add_le hyear _).trans hle
        omega

/-- A contract that starts on 1 January 50. -/
theorem year_fifty_not_partitioned : ¬PartitionsTime (-60589296000000) :=
  fun h => not_strictMono (by decide +kernel) h.increasing

end Isomux.EnterpriseBilling
