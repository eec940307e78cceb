import Isomux.ControlPlane.ContractCalendar
import Isomux.Foundations.Chronicle
import Mathlib.Algebra.BigOperators.Ring.List
import Mathlib.Algebra.Group.Action.Defs
import Mathlib.Data.List.Induction
import Mathlib.Data.List.TakeWhile
import Mathlib.Tactic.Ring

set_option autoImplicit false

/-!
# Every seat is billed once

In a contract that is paid by the year, a seat is paid from the contract month in which it was
added to the end of the contract year, or from the start of the year if it was there already. The
invoice of the year bills the seats that are there when it is issued, and the quarters bill those
that come later. What a seat change adds to them is what its quote has shown.

## Main results

* `Isomux.EnterpriseBilling.sum_chargeCents` — the periods of a year bill what is owed.
* `Isomux.EnterpriseBilling.billedAsQuoted_iff` — the contracts that are billed as quoted.
-/

namespace Isomux.EnterpriseBilling

open Chronicle

/-! ## What is owed -/

/-- A contract that is paid by the year, with its seat changes: each one starts from where the one
before it led, and seats are given up at the start of a contract year only. -/
structure YearlyContract where
  start : ℤ
  history : List SeatChange
  starts : 100 ≤ getUTCFullYear start
  ordered : InOrder SeatChange.at_ history
  linked : Linked SeatChange.from_ SeatChange.to_ 0 history
  lowered : ∀ change ∈ history, change.to_ < change.from_ →
    ∃ y, change.at_ = addContractMonths start (12 * y)

/-- A change adds seats, or it gives up those that were added last. -/
def addSeats (seats : List ℤ) (change : SeatChange) : List ℤ :=
  if change.to_ < change.from_ then seats.take change.to_
  else seats ++ List.replicate (change.to_ - change.from_) change.at_

/-- The seats that are there behind some changes: the instants at which they were added. -/
def seatsAdded (history : List SeatChange) : List ℤ := history.foldl addSeats []

/-- The first contract month that is paid in a contract year: the first one of all is free. -/
def firstPaidMonth (y : ℕ) : ℕ := if y = 0 then 1 else 12 * y

/-- The contract months for which a seat is paid in a contract year. -/
def monthsBilled (start : ℤ) (y : ℕ) (addedAt : ℤ) : ℕ :=
  12 * y + 12 - max (contractMonthIndex start addedAt) (firstPaidMonth y)

/-! ## What is billed -/

def PeriodId.contractYear : PeriodId → Option ℕ
  | .month _ => none
  | .year y => some y
  | .quarter y _ => some y

/-- The periods of a contract year that are issued by an instant. -/
def periodsOfYear (start until_ : ℤ) (y : ℕ) : List BillingPeriod :=
  (periodsUntil .yearly start until_).filter fun period => period.id.contractYear = some y

def chargeCents (start : ℤ) (history : List SeatChange) (period : BillingPeriod) : ℕ :=
  (periodCharge .yearly start history period).elim 0 (·.amountCents)

/-! ## Seats -/

variable {history : List SeatChange} {change : SeatChange} {start : ℤ} {y : ℕ}

lemma latestChange_eq (h : InOrder SeatChange.at_ history) (t : ℤ) :
    latestChange history t = (upTo SeatChange.at_ history t).getLast?.map SeatChange.at_ := by
  induction history using List.reverseRecOn with
  | nil => rfl
  | append_singleton history change ih =>
    obtain ⟨hrest, -, hlast⟩ := List.pairwise_append.1 h
    have hlater : ∀ c ∈ history, c.at_ < change.at_ := fun c hc => hlast c hc change (by simp)
    have hall : (latestChange history t).all (· < change.at_) := by
      rw [ih hrest]
      cases hget : (upTo SeatChange.at_ history t).getLast? with
      | none => rfl
      | some c =>
        have hmem := (List.mem_filter.1 (List.mem_of_getLast? hget)).1
        simpa using hlater c hmem
    unfold latestChange at hall ih ⊢
    unfold upTo at ih ⊢
    rw [List.foldl_append, List.filter_append]
    by_cases ht : change.at_ ≤ t
    · simp [ht, hall]
    · simp [ht, ih hrest]

/-- **The number of seats at an instant is where the last change by then led.** -/
lemma seatsAt_eq (h : InOrder SeatChange.at_ history) (t : ℤ) :
    seatsAt history t = current SeatChange.to_ 0 (upTo SeatChange.at_ history t) := by
  unfold seatsAt current
  rw [latestChange_eq h]
  cases hget : (upTo SeatChange.at_ history t).getLast? with
  | none => simp
  | some change =>
    have hmem := (List.mem_filter.1 (List.mem_of_getLast? hget)).1
    have htied : (history.filter fun c => some c.at_ = some change.at_) = [change] := by
      rw [← h.filter_time_eq hmem]
      exact List.filter_congr fun c _ => by simp
    rw [Option.map_some, htied]
    simp

lemma length_foldl_addSeats (seats : List ℤ)
    (h : Linked SeatChange.from_ SeatChange.to_ seats.length history) :
    (history.foldl addSeats seats).length = current SeatChange.to_ seats.length history := by
  induction history generalizing seats with
  | nil => rfl
  | cons change rest ih =>
    obtain ⟨hfrom, hrest⟩ := h
    have hlength : (addSeats seats change).length = change.to_ := by
      unfold addSeats
      split_ifs with hlower
      · rw [List.length_take]
        omega
      · rw [List.length_append, List.length_replicate]
        omega
    rw [List.foldl_cons, current_cons, ih _ (by rwa [hlength]), hlength]

lemma mem_foldl_addSeats {seats : List ℤ} {t : ℤ}
    (h : t ∈ history.foldl addSeats seats) : t ∈ seats ∨ ∃ change ∈ history, change.at_ = t := by
  induction history generalizing seats with
  | nil => exact .inl h
  | cons change rest ih =>
    rcases ih h with hseats | ⟨later, hlater, hat⟩
    · unfold addSeats at hseats
      split_ifs at hseats with hlower
      · exact .inl (List.mem_of_mem_take hseats)
      · rcases List.mem_append.1 hseats with hold | hnew
        · exact .inl hold
        · exact .inr ⟨change, List.mem_cons_self, (List.eq_of_mem_replicate hnew).symm⟩
    · exact .inr ⟨later, List.mem_cons_of_mem _ hlater, hat⟩

lemma sum_foldl_addSeats {later : List SeatChange}
    (h : ∀ change ∈ later, ¬change.to_ < change.from_) (seats : List ℤ) (worth : ℤ → ℕ) :
    ((later.foldl addSeats seats).map worth).sum =
      (seats.map worth).sum +
        (later.map fun change => (change.to_ - change.from_) * worth change.at_).sum := by
  induction later generalizing seats with
  | nil => simp
  | cons change rest ih =>
    have hraised : ¬change.to_ < change.from_ := h change List.mem_cons_self
    rw [List.foldl_cons, ih (fun c hc => h c (List.mem_cons_of_mem _ hc)), addSeats,
      if_neg hraised, List.map_append, List.sum_append, List.map_replicate, List.sum_replicate,
      smul_eq_mul, List.map_cons, List.sum_cons, add_assoc]

/-! ## The periods of a year -/

lemma yearIssued_eq (start : ℤ) (y : ℕ) :
    yearIssued start y = addContractMonths start (firstPaidMonth y) := by
  unfold yearIssued firstPaidMonth
  split_ifs <;> rfl

lemma firstPaidMonth_bounds (y : ℕ) :
    0 < firstPaidMonth y ∧ 12 * y ≤ firstPaidMonth y ∧ firstPaidMonth y < 12 * y + 3 := by
  unfold firstPaidMonth
  split_ifs <;> omega

lemma contractYear_ne {y first : ℕ} (hne : first ≠ y) {p : BillingPeriod}
    (hp : p ∈ yearPeriod start first :: (List.range 4).map (quarterPeriod start first)) :
    ¬decide (p.id.contractYear = some y) = true := by
  rcases List.mem_cons.1 hp with rfl | hp
  · simpa [yearPeriod, PeriodId.contractYear] using hne
  · obtain ⟨q, -, rfl⟩ := List.mem_map.1 hp
    simpa [quarterPeriod, PeriodId.contractYear] using hne

lemma contractYear_eq {p : BillingPeriod}
    (hp : p ∈ yearPeriod start y :: (List.range 4).map (quarterPeriod start y)) :
    decide (p.id.contractYear = some y) = true := by
  rcases List.mem_cons.1 hp with rfl | hp
  · simp [yearPeriod, PeriodId.contractYear]
  · obtain ⟨q, -, rfl⟩ := List.mem_map.1 hp
    simp [quarterPeriod, PeriodId.contractYear]

/-- The loop lists a year that is over with all of its quarters. -/
lemma filter_yearlyLoop {start until_ : ℤ} (hyear : 100 ≤ getUTCFullYear start)
    (hover : addContractMonths start (12 * y + 12) ≤ until_) (rounds first : ℕ) :
    (yearlyLoop start until_ rounds first).filter (fun period => period.id.contractYear = some y) =
      if first ≤ y ∧ y < first + rounds then
        yearPeriod start y :: (List.range 4).map (quarterPeriod start y)
      else [] := by
  have hmono := (addContractMonths_strictMono hyear).monotone
  induction rounds generalizing first with
  | zero =>
    rw [if_neg (by omega)]
    rfl
  | succ rounds ih =>
    unfold yearlyLoop
    by_cases hlate : until_ < yearIssued start first
    · -- a year up to `y` has been issued
      have hbehind : ¬first ≤ y := by
        intro hle
        have hfirst := firstPaidMonth_bounds first
        rw [yearIssued_eq] at hlate
        exact absurd hlate (not_lt.2 ((hmono (by omega)).trans hover))
      rw [if_pos hlate, if_neg fun h => hbehind h.1]
      rfl
    · rw [if_neg hlate, List.filter_append, ih]
      rcases eq_or_ne first y with rfl | hne
      · have hall : ((List.range 4).map (quarterPeriod start first)).takeWhile
            (fun p => p.end_ ≤ until_) = (List.range 4).map (quarterPeriod start first) := by
          refine List.takeWhile_eq_self_iff.2 fun p hp => decide_eq_true ?_
          obtain ⟨q, hq, rfl⟩ := List.mem_map.1 hp
          have hfour := List.mem_range.1 hq
          exact (hmono (by omega)).trans hover
        rw [hall, List.filter_eq_self.2 fun p => contractYear_eq, if_neg (by omega),
          List.append_nil, if_pos (by omega)]
      · have hnone : ∀ p ∈ yearPeriod start first :: ((List.range 4).map
            (quarterPeriod start first)).takeWhile (fun p => p.end_ ≤ until_),
            ¬decide (p.id.contractYear = some y) = true :=
          fun p hp => contractYear_ne hne
            (((List.takeWhile_sublist _).cons_cons _).subset hp)
        rw [List.filter_eq_nil_iff.2 hnone, List.nil_append]
        refine if_congr ?_ rfl rfl
        omega

/-- **The periods of a contract year are the year and its four quarters.** -/
lemma periodsOfYear_perm {start until_ : ℤ} (hyear : 100 ≤ getUTCFullYear start)
    (hover : addContractMonths start (12 * y + 12) ≤ until_) :
    (periodsOfYear start until_ y).Perm
      (yearPeriod start y :: (List.range 4).map (quarterPeriod start y)) := by
  have hlong := (start_add_le hyear (12 * y + 12)).trans hover
  push_cast at hlong
  refine ((List.mergeSort_perm _ _).filter _).trans ?_
  rw [filter_yearlyLoop hyear hover, if_pos ⟨Nat.zero_le y, by omega⟩]

/-! ## What a year bills -/

lemma billedInQuarter_iff (hyear : 100 ≤ getUTCFullYear start) (y q : ℕ)
    (change : SeatChange) : billedInQuarter start (quarterPeriod start y q) y change = true ↔
      yearIssued start y < change.at_ ∧ change.from_ < change.to_ ∧
        contractMonthIndex start change.at_ / 3 = 4 * y + q := by
  have hmono := addContractMonths_strictMono hyear
  have hpaid := firstPaidMonth_bounds y
  have hends : addContractMonths start (12 * y + 3 * q + 3) ≤ change.at_ ↔
      12 * y + 3 * q + 3 ≤ contractMonthIndex start change.at_ :=
    addContractMonths_le_iff hyear (by omega)
  have hbegins := le_contractMonthIndex_iff hyear change.at_ (12 * y + 3 * q)
  unfold billedInQuarter quarterPeriod
  simp only [Bool.and_eq_true, Bool.not_eq_true', Bool.or_eq_false_iff, decide_eq_false_iff_not,
    decide_eq_true_eq, not_lt, not_le]
  have hfirst : yearIssued start y < change.at_ → addContractMonths start 0 ≤ change.at_ := by
    intro hbehind
    rw [yearIssued_eq] at hbehind
    exact (hmono.monotone (Nat.zero_le _)).trans hbehind.le
  constructor
  · rintro ⟨⟨⟨hbegan, hend⟩, hbehind⟩, hraised⟩
    have hle := hbegins.2 (.inr hbegan)
    have hlt := mt hends.2 (not_le.2 hend)
    exact ⟨hbehind, hraised, by omega⟩
  · rintro ⟨hbehind, hraised, hquarter⟩
    have hend := mt hends.1 (show ¬12 * y + 3 * q + 3 ≤ _ by omega)
    refine ⟨⟨⟨?_, not_le.1 hend⟩, hbehind⟩, hraised⟩
    rcases hbegins.1 (by omega) with hzero | hbegan
    · rw [hzero]
      exact hfirst hbehind
    · exact hbegan

lemma contractMonthIndex_behind (hyear : 100 ≤ getUTCFullYear start)
    (hbehind : yearIssued start y < change.at_) :
    firstPaidMonth y ≤ contractMonthIndex start change.at_ ∧
      (change.at_ < addContractMonths start (12 * y + 12) ↔
        contractMonthIndex start change.at_ < 12 * y + 12) := by
  rw [yearIssued_eq] at hbehind
  have hpaid := firstPaidMonth_bounds y
  have hends : addContractMonths start (12 * y + 12) ≤ change.at_ ↔
      12 * y + 12 ≤ contractMonthIndex start change.at_ :=
    addContractMonths_le_iff hyear (by omega)
  exact ⟨(addContractMonths_le_iff hyear hpaid.1).1 hbehind.le, by rw [← not_le, hends, not_le]⟩

lemma chargeCents_yearPeriod (start : ℤ) (history : List SeatChange) (y : ℕ) :
    chargeCents start history (yearPeriod start y) =
      100 * ADDED_SEAT_MONTH_USD *
        (seatsAt history (yearIssued start y) * (12 * y + 12 - firstPaidMonth y)) := by
  unfold chargeCents periodCharge yearPeriod
  dsimp only
  rcases Nat.eq_zero_or_pos y with rfl | hpos
  · rw [if_pos rfl]
    simp only [Option.elim, ADDED_SEAT_MONTH_USD, firstPaidMonth]
    norm_num
    ring
  · rw [if_neg (by simpa using hpos.ne')]
    simp only [Option.elim, YEARLY_SEAT_USD, ADDED_SEAT_MONTH_USD, firstPaidMonth]
    rw [if_neg hpos.ne', Nat.add_sub_cancel_left]
    ring

lemma chargeCents_quarterPeriod
    (h : InOrder SeatChange.at_ history) (y q : ℕ) :
    chargeCents start history (quarterPeriod start y q) =
      ((history.filter (billedInQuarter start (quarterPeriod start y q) y)).map
        (increaseCents start)).sum := by
  have hsorted : (history.mergeSort fun a b => a.at_ ≤ b.at_) = history :=
    List.mergeSort_of_pairwise (h.imp fun hlt => decide_eq_true hlt.le)
  unfold chargeCents periodCharge
  dsimp only [quarterPeriod]
  rw [hsorted]
  split_ifs with hsome
  · rfl
  · exact (Nat.eq_zero_of_not_pos hsome).symm

lemma increaseCents_eq (hyear : 100 ≤ getUTCFullYear start)
    (hbehind : yearIssued start y < change.at_)
    (hend : contractMonthIndex start change.at_ < 12 * y + 12) :
    increaseCents start change = 100 * ADDED_SEAT_MONTH_USD *
      ((change.to_ - change.from_) * monthsBilled start y change.at_) := by
  obtain ⟨hpaid, -⟩ := contractMonthIndex_behind hyear hbehind
  have hfirst := firstPaidMonth_bounds y
  have hleft : monthsLeftInYear start change.at_ = monthsBilled start y change.at_ := by
    unfold monthsLeftInYear monthsBilled
    rw [max_eq_left hpaid]
    omega
  unfold increaseCents
  rw [hleft]
  ring

lemma sum_map_filter {α : Type} (p : α → Bool) (cents : α → ℕ) (l : List α) :
    ((l.filter p).map cents).sum = (l.map fun a => if p a then cents a else 0).sum := by
  induction l with
  | nil => rfl
  | cons a rest ih => by_cases ha : p a <;> simp [ha, ih]

lemma sum_map_filters {α : Type} (p : ℕ → α → Bool) (cents : α → ℕ) (qs : List ℕ) (l : List α) :
    (qs.map fun q => ((l.filter (p q)).map cents).sum).sum =
      (l.map fun a => (qs.map fun q => if p q a then cents a else 0).sum).sum := by
  induction qs with
  | nil => simp
  | cons q rest ih =>
    rw [List.map_cons, List.sum_cons, ih, sum_map_filter, ← List.sum_map_add]
    simp only [List.map_cons, List.sum_cons]

lemma sum_quarters (n y month : ℕ) (hfirst : 12 * y ≤ month) :
    ((List.range 4).map fun q => if month / 3 = 4 * y + q then n else 0).sum =
      if month < 12 * y + 12 then n else 0 := by
  simp only [List.range_succ, List.range_zero, List.nil_append, List.map_append, List.map_cons,
    List.map_nil, List.sum_append, List.sum_cons, List.sum_nil, add_zero]
  split_ifs <;> omega

lemma sum_chargeCents_quarters (hyear : 100 ≤ getUTCFullYear start)
    (h : InOrder SeatChange.at_ history) (y : ℕ) :
    ((List.range 4).map fun q => chargeCents start history (quarterPeriod start y q)).sum =
      100 * ADDED_SEAT_MONTH_USD *
        (((before SeatChange.at_ history (addContractMonths start (12 * y + 12))).filter
          fun change => !decide (change.at_ ≤ yearIssued start y)).map fun change =>
            (change.to_ - change.from_) * monthsBilled start y change.at_).sum := by
  have hpaid := firstPaidMonth_bounds y
  simp only [chargeCents_quarterPeriod h]
  rw [sum_map_filters, before, List.filter_filter, sum_map_filter, ← List.sum_map_mul_left]
  refine congrArg List.sum (List.map_congr_left fun change _ => ?_)
  simp only [billedInQuarter_iff hyear]
  by_cases hbehind : yearIssued start y < change.at_
  · obtain ⟨hstarted, hend⟩ := contractMonthIndex_behind hyear hbehind
    by_cases hraised : change.from_ < change.to_
    · simp only [hbehind, hraised, true_and, sum_quarters _ y _ (hpaid.2.1.trans hstarted),
        not_le.2 hbehind, decide_false, Bool.not_false, Bool.true_and, decide_eq_true_eq, hend]
      by_cases hmonth : contractMonthIndex start change.at_ < 12 * y + 12
      · rw [if_pos hmonth, if_pos hmonth, increaseCents_eq hyear hbehind hmonth]
      · rw [if_neg hmonth, if_neg hmonth, mul_zero]
    · have hnone : change.to_ - change.from_ = 0 := by omega
      simp [hraised, hnone]
  · simp [hbehind, not_lt.1 hbehind]

lemma sum_monthsBilled_upTo (hyear : 100 ≤ getUTCFullYear start)
    (h : InOrder SeatChange.at_ history)
    (hlinked : Linked SeatChange.from_ SeatChange.to_ 0 history) (y : ℕ) :
    ((seatsAdded (upTo SeatChange.at_ history (yearIssued start y))).map
      (monthsBilled start y)).sum =
      seatsAt history (yearIssued start y) * (12 * y + 12 - firstPaidMonth y) := by
  have hfull : ∀ addedAt ∈ seatsAdded (upTo SeatChange.at_ history (yearIssued start y)),
      monthsBilled start y addedAt = 12 * y + 12 - firstPaidMonth y := by
    intro addedAt hmem
    obtain ⟨change, hchange, rfl⟩ := (mem_foldl_addSeats hmem).resolve_left nofun
    have hby : change.at_ ≤ yearIssued start y :=
      of_decide_eq_true (List.mem_filter.1 hchange).2
    rw [yearIssued_eq] at hby
    have hmonth := contractMonthIndex_mono hyear hby
    rw [contractMonthIndex_addContractMonths hyear] at hmonth
    unfold monthsBilled
    rw [max_eq_right hmonth]
  have hlength : (seatsAdded (upTo SeatChange.at_ history (yearIssued start y))).length =
      current SeatChange.to_ 0 (upTo SeatChange.at_ history (yearIssued start y)) :=
    length_foldl_addSeats [] (hlinked.upTo h (yearIssued start y))
  rw [List.map_congr_left hfull, List.map_const', List.sum_replicate, smul_eq_mul, seatsAt_eq h]
  rw [hlength]

/-- **The periods of a year bill what is owed.**

**Proof sketch.** What was there when the year was issued is paid for all of its months, and as
often as the invoice counts. No seats are given up behind the invoice before the year ends, so the
other seats are those of the increases, each in the quarter of its contract month. -/
lemma sum_chargeCents (contract : YearlyContract) {until_ : ℤ}
    (hover : addContractMonths contract.start (12 * y + 12) ≤ until_) :
    ((periodsOfYear contract.start until_ y).map
      (chargeCents contract.start contract.history)).sum =
      100 * ADDED_SEAT_MONTH_USD * ((seatsAdded (before SeatChange.at_ contract.history
        (addContractMonths contract.start (12 * y + 12)))).map
          (monthsBilled contract.start y)).sum := by
  obtain ⟨start, history, hyear, h, hlinked, hlowered⟩ := contract
  dsimp only at *
  have hmono := addContractMonths_strictMono hyear
  have hpaid := firstPaidMonth_bounds y
  set yearEnd := addContractMonths start (12 * y + 12)
  set issued := yearIssued start y with hissued
  have hbefore : issued < yearEnd := by
    rw [hissued, yearIssued_eq]
    exact hmono (by omega)
  have hearlier : (before SeatChange.at_ history yearEnd).filter
      (fun change => change.at_ ≤ issued) = upTo SeatChange.at_ history issued := by
    unfold before upTo
    rw [List.filter_filter]
    refine List.filter_congr fun change _ => ?_
    by_cases hby : change.at_ ≤ issued
    · simp [hby, hby.trans_lt hbefore]
    · simp [hby]
  have hsplit := InOrder.filter_append (h.filter fun change => change.at_ < yearEnd)
    (fun change => change.at_ ≤ issued)
    (fun a b hab hb => decide_eq_true (hab.le.trans (of_decide_eq_true hb)))
  have hraised : ∀ change ∈ (before SeatChange.at_ history yearEnd).filter
      (fun change => !decide (change.at_ ≤ issued)), ¬change.to_ < change.from_ := by
    intro change hmem hlower
    obtain ⟨hmem, hbehind⟩ := List.mem_filter.1 hmem
    obtain ⟨hmem, hover⟩ := List.mem_filter.1 hmem
    obtain ⟨year, hat⟩ := hlowered change hmem hlower
    simp only [Bool.not_eq_true', decide_eq_false_iff_not, not_le] at hbehind
    rw [hat, hissued, yearIssued_eq, hmono.lt_iff_lt] at hbehind
    have hend := of_decide_eq_true hover
    rw [hat, hmono.lt_iff_lt] at hend
    omega
  have hseats := sum_foldl_addSeats hraised (seatsAdded (upTo SeatChange.at_ history issued))
    (monthsBilled start y)
  rw [sum_monthsBilled_upTo hyear h hlinked] at hseats
  calc
    ((periodsOfYear start until_ y).map (chargeCents start history)).sum
        = ((yearPeriod start y :: (List.range 4).map (quarterPeriod start y)).map
            (chargeCents start history)).sum :=
          ((periodsOfYear_perm hyear hover).map _).sum_eq
    _ = chargeCents start history (yearPeriod start y) + ((List.range 4).map fun q =>
          chargeCents start history (quarterPeriod start y q)).sum := by
        rw [List.map_cons, List.sum_cons, List.map_map]
        rfl
    _ = 100 * ADDED_SEAT_MONTH_USD * ((((before SeatChange.at_ history yearEnd).filter
          fun change => !decide (change.at_ ≤ issued)).foldl addSeats
            (seatsAdded (upTo SeatChange.at_ history issued))).map (monthsBilled start y)).sum := by
        rw [chargeCents_yearPeriod, sum_chargeCents_quarters hyear h, ← mul_add, hseats]
    _ = _ := by
        rw [← hearlier, seatsAdded, ← List.foldl_append]
        exact congrArg _ (congrArg List.sum (congrArg _ (congrArg _ hsplit)))

/-! ## What a change adds -/

/-- A change adds its seats to the invoice of a year that is issued when it has been made. -/
lemma chargeCents_yearPeriod_upTo (contract : YearlyContract)
    (hmem : change ∈ contract.history) (hraised : change.from_ < change.to_) (y : ℕ) :
    chargeCents contract.start (upTo SeatChange.at_ contract.history change.at_)
      (yearPeriod contract.start y) =
      chargeCents contract.start (before SeatChange.at_ contract.history change.at_)
        (yearPeriod contract.start y) +
      if change.at_ ≤ yearIssued contract.start y then
        100 * ADDED_SEAT_MONTH_USD *
          ((change.to_ - change.from_) * (12 * y + 12 - firstPaidMonth y))
      else 0 := by
  obtain ⟨start, history, _, h, hlinked, _⟩ := contract
  dsimp only at *
  set issued := yearIssued start y with hissued
  have hupTo : seatsAt (upTo SeatChange.at_ history change.at_) issued =
      current SeatChange.to_ 0
        (upTo SeatChange.at_ (upTo SeatChange.at_ history change.at_) issued) :=
    seatsAt_eq (h.filter _) issued
  have hbefore : seatsAt (before SeatChange.at_ history change.at_) issued =
      current SeatChange.to_ 0
        (upTo SeatChange.at_ (before SeatChange.at_ history change.at_) issued) :=
    seatsAt_eq (h.filter _) issued
  rw [chargeCents_yearPeriod, chargeCents_yearPeriod, ← hissued, hupTo, hbefore]
  split_ifs with hmade
  · have hall : upTo SeatChange.at_ (upTo SeatChange.at_ history change.at_) issued =
        upTo SeatChange.at_ history change.at_ :=
      List.filter_eq_self.2 fun c hc =>
        decide_eq_true ((of_decide_eq_true (List.mem_filter.1 hc).2).trans hmade)
    have hearlier : upTo SeatChange.at_ (before SeatChange.at_ history change.at_) issued =
        before SeatChange.at_ history change.at_ :=
      List.filter_eq_self.2 fun c hc =>
        decide_eq_true ((of_decide_eq_true (List.mem_filter.1 hc).2).le.trans hmade)
    rw [hall, hearlier, h.current_upTo hmem, hlinked.current_before h hmem, ← mul_add, ← add_mul,
      Nat.add_sub_cancel' hraised.le]
  · have hsame : upTo SeatChange.at_ (upTo SeatChange.at_ history change.at_) issued =
        upTo SeatChange.at_ (before SeatChange.at_ history change.at_) issued := by
      unfold upTo before
      rw [List.filter_filter, List.filter_filter]
      refine List.filter_congr fun c _ => ?_
      by_cases hby : c.at_ ≤ issued
      · have hlt : c.at_ < change.at_ := hby.trans_lt (not_le.1 hmade)
        simp [hlt, hlt.le]
      · simp [hby]
    rw [hsame, add_zero]

lemma chargeCents_quarterPeriod_upTo (contract : YearlyContract)
    (hmem : change ∈ contract.history) (y q : ℕ) :
    chargeCents contract.start (upTo SeatChange.at_ contract.history change.at_)
      (quarterPeriod contract.start y q) =
      chargeCents contract.start (before SeatChange.at_ contract.history change.at_)
        (quarterPeriod contract.start y q) +
      if billedInQuarter contract.start (quarterPeriod contract.start y q) y change then
        increaseCents contract.start change
      else 0 := by
  have hupTo : InOrder SeatChange.at_ (upTo SeatChange.at_ contract.history change.at_) :=
    contract.ordered.filter _
  have hbefore : InOrder SeatChange.at_ (before SeatChange.at_ contract.history change.at_) :=
    contract.ordered.filter _
  rw [chargeCents_quarterPeriod hupTo, chargeCents_quarterPeriod hbefore,
    contract.ordered.upTo_eq hmem, List.filter_append, List.map_append, List.sum_append]
  refine congrArg _ ?_
  split_ifs with hbilled
  · simp [hbilled]
  · simp [hbilled]

/-- **A change adds to one period of its contract year what its quote has shown**, at the instant
that the quote has shown, and nothing to the other ones. -/
def QuoteKept (contract : YearlyContract) (change : SeatChange) : Prop :=
  let y := contractMonthIndex contract.start change.at_ / 12
  let earlier := before SeatChange.at_ contract.history change.at_
  let made := upTo SeatChange.at_ contract.history change.at_
  ∀ until_, addContractMonths contract.start (12 * y + 12) ≤ until_ →
    ∃ period ∈ periodsOfYear contract.start until_ y, ∃ monthsLeft amountUsd,
      quoteSeatChange .yearly contract.start change.at_ change.from_ change.to_ =
        .yearly change.from_ change.to_ (change.to_ - change.from_) monthsLeft amountUsd
          period.issuedAt ∧
      chargeCents contract.start made period =
        chargeCents contract.start earlier period + 100 * amountUsd ∧
      ∀ other ∈ periodsOfYear contract.start until_ y, other ≠ period →
        chargeCents contract.start made other = chargeCents contract.start earlier other

/-- The periods of the contract years bill what is owed, and every increase as it was quoted. -/
def BilledAsQuoted (contract : YearlyContract) : Prop :=
  (∀ y until_, addContractMonths contract.start (12 * y + 12) ≤ until_ →
    ((periodsOfYear contract.start until_ y).map
      (chargeCents contract.start contract.history)).sum =
      100 * ADDED_SEAT_MONTH_USD * ((seatsAdded (before SeatChange.at_ contract.history
        (addContractMonths contract.start (12 * y + 12)))).map
          (monthsBilled contract.start y)).sum) ∧
    ∀ change ∈ contract.history, change.from_ < change.to_ → QuoteKept contract change

lemma quoteSeatChange_yearly (start now : ℤ) (from_ to_ : ℕ) :
    quoteSeatChange .yearly start now from_ to_ =
      .yearly from_ to_ (to_ - from_)
        (if contractMonthIndex start now = 0 then 11 else monthsLeftInYear start now)
        ((to_ - from_) * ADDED_SEAT_MONTH_USD *
          if contractMonthIndex start now = 0 then 11 else monthsLeftInYear start now)
        (if contractMonthIndex start now = 0 then addContractMonths start 1
          else contractQuarterEnd start now) := by
  simp [quoteSeatChange]

lemma mem_periodsOfYear {start until_ : ℤ} (hyear : 100 ≤ getUTCFullYear start)
    (hover : addContractMonths start (12 * y + 12) ≤ until_) {period : BillingPeriod} :
    period ∈ periodsOfYear start until_ y ↔
      period = yearPeriod start y ∨ ∃ q < 4, period = quarterPeriod start y q := by
  rw [(periodsOfYear_perm hyear hover).mem_iff, List.mem_cons, List.mem_map]
  simp only [List.mem_range, eq_comm]

lemma not_billedInQuarter (hyear : 100 ≤ getUTCFullYear start)
    (hmade : change.at_ ≤ yearIssued start y) (q : ℕ) :
    ¬billedInQuarter start (quarterPeriod start y q) y change = true := by
  rw [billedInQuarter_iff hyear]
  exact fun h => absurd h.1 (not_lt.2 hmade)

lemma quoteKept_of_trial (contract : YearlyContract)
    (hmem : change ∈ contract.history) (hraised : change.from_ < change.to_)
    (htrial : contractMonthIndex contract.start change.at_ = 0) : QuoteKept contract change := by
  unfold QuoteKept
  rw [quoteSeatChange_yearly, htrial]
  dsimp only
  intro until_ hover
  have hyear := contract.starts
  have hmade : change.at_ ≤ yearIssued contract.start 0 := by
    rw [yearIssued_eq, ← not_lt]
    intro hlt
    have := (addContractMonths_le_iff hyear (firstPaidMonth_bounds 0).1).1 hlt.le
    have := firstPaidMonth_bounds 0
    omega
  refine ⟨yearPeriod contract.start 0, (mem_periodsOfYear hyear hover).2 (.inl rfl), _, _, rfl,
    ?_, ?_⟩
  · rw [chargeCents_yearPeriod_upTo contract hmem hraised, if_pos hmade]
    have : 12 * 0 + 12 - firstPaidMonth 0 = 11 := rfl
    rw [if_pos rfl, this]
    ring
  · intro other hother hne
    obtain ⟨q, -, rfl⟩ := ((mem_periodsOfYear hyear hover).1 hother).resolve_left hne
    rw [chargeCents_quarterPeriod_upTo contract hmem, if_neg (not_billedInQuarter hyear hmade q),
      add_zero]

/-- A change behind the invoice of its year is billed by its quarter, as it was quoted. -/
lemma quoteKept_of_behind (contract : YearlyContract)
    (hmem : change ∈ contract.history) (hraised : change.from_ < change.to_)
    (hbehind : yearIssued contract.start (contractMonthIndex contract.start change.at_ / 12) <
      change.at_) : QuoteKept contract change := by
  unfold QuoteKept
  rw [quoteSeatChange_yearly]
  have hyear := contract.starts
  set month := contractMonthIndex contract.start change.at_ with hmonth
  set y := month / 12 with hy
  have hpaid : 0 < month := by
    have hstarted := (contractMonthIndex_behind hyear hbehind).1
    have := (firstPaidMonth_bounds y).1
    omega
  dsimp only
  rw [if_neg hpaid.ne', if_neg hpaid.ne']
  intro until_ hover
  have hbilled : ∀ q, billedInQuarter contract.start (quarterPeriod contract.start y q) y change =
      true ↔ month / 3 = 4 * y + q := by
    intro q
    rw [billedInQuarter_iff hyear, ← hmonth]
    exact ⟨fun h => h.2.2, fun h => ⟨hbehind, hraised, h⟩⟩
  have hquarter : month / 3 = 4 * y + (month / 3 - 4 * y) := by omega
  have hissued : contractQuarterEnd contract.start change.at_ =
      (quarterPeriod contract.start y (month / 3 - 4 * y)).issuedAt := by
    unfold contractQuarterEnd quarterPeriod
    dsimp only
    congr 1
    omega
  refine ⟨quarterPeriod contract.start y (month / 3 - 4 * y),
    (mem_periodsOfYear hyear hover).2 (.inr ⟨_, by omega, rfl⟩), _, _, by rw [hissued], ?_, ?_⟩
  · rw [chargeCents_quarterPeriod_upTo contract hmem, if_pos ((hbilled _).2 hquarter)]
    unfold increaseCents
    ring
  · intro other hother hne
    rcases (mem_periodsOfYear hyear hover).1 hother with rfl | ⟨q, -, rfl⟩
    · rw [chargeCents_yearPeriod_upTo contract hmem hraised, if_neg (not_le.2 hbehind), add_zero]
    · have hother : ¬month / 3 = 4 * y + q := by
        intro h
        exact hne (congrArg _ (by omega))
      rw [chargeCents_quarterPeriod_upTo contract hmem, if_neg (mt (hbilled q).1 hother), add_zero]

/-- A change at the instant at which a year is issued is billed then, and not when its quote has
shown. -/
lemma not_quoteKept_of_issued (contract : YearlyContract)
    (hmem : change ∈ contract.history) (hraised : change.from_ < change.to_)
    (hat : change.at_ = yearIssued contract.start y) : ¬QuoteKept contract change := by
  have hyear := contract.starts
  have hmono := addContractMonths_strictMono hyear
  have hfirst := firstPaidMonth_bounds y
  have hmonth : contractMonthIndex contract.start change.at_ = firstPaidMonth y := by
    rw [hat, yearIssued_eq, contractMonthIndex_addContractMonths hyear]
  have hy : firstPaidMonth y / 12 = y := by omega
  unfold QuoteKept
  rw [quoteSeatChange_yearly, hmonth, hy]
  dsimp only
  intro hkept
  obtain ⟨period, hperiod, monthsLeft, amountUsd, hquote, -, hothers⟩ := hkept _ le_rfl
  -- the change adds to the year, so the year is the period
  have hadds := chargeCents_yearPeriod_upTo contract hmem hraised y
  rw [if_pos hat.le] at hadds
  have hyearPeriod : yearPeriod contract.start y = period := by
    by_contra hne
    have hsame := hothers _ ((mem_periodsOfYear hyear le_rfl).2 (.inl rfl)) hne
    have hcents : 0 < 100 * ADDED_SEAT_MONTH_USD *
        ((change.to_ - change.from_) * (12 * y + 12 - firstPaidMonth y)) :=
      Nat.mul_pos (by decide) (Nat.mul_pos (by omega) (by omega))
    omega
  have hissued : contractQuarterEnd contract.start change.at_ = yearIssued contract.start y := by
    rw [← hyearPeriod] at hquote
    injection hquote with _ _ _ _ _ hissued
    rw [if_neg hfirst.1.ne'] at hissued
    exact hissued
  unfold contractQuarterEnd at hissued
  rw [hmonth, yearIssued_eq] at hissued
  have heq := hmono.injective hissued
  omega

/-- **The yearly bills are as quoted exactly where no seats are added at the very instant at which
a year is issued**: at the end of the trial, or at the start of a later contract year.

**Proof sketch.** The sums of the years hold in any case. An increase before the first year is
issued lies in the trial, and the quote and the year agree on it. Behind the invoice of its year
it lies in a quarter, that ends where the quote says. At that very instant the year bills it, and
the quote names the end of the quarter. -/
theorem billedAsQuoted_iff (contract : YearlyContract) : BilledAsQuoted contract ↔
    ∀ change ∈ contract.history, change.from_ < change.to_ →
      ∀ y, change.at_ ≠ yearIssued contract.start y := by
  constructor
  · intro h change hmem hraised y hat
    exact not_quoteKept_of_issued contract hmem hraised hat (h.2 change hmem hraised)
  · refine fun h => ⟨fun y until_ hover => sum_chargeCents contract hover, ?_⟩
    intro change hmem hraised
    have hyear := contract.starts
    rcases lt_trichotomy (yearIssued contract.start
      (contractMonthIndex contract.start change.at_ / 12)) change.at_ with hlt | heq | hgt
    · exact quoteKept_of_behind contract hmem hraised hlt
    · exact absurd heq.symm (h change hmem hraised _)
    · refine quoteKept_of_trial contract hmem hraised ?_
      have hfirst := firstPaidMonth_bounds (contractMonthIndex contract.start change.at_ / 12)
      rw [yearIssued_eq] at hgt
      have hmonth := mt (addContractMonths_le_iff hyear hfirst.1).2 (not_le.2 hgt)
      unfold firstPaidMonth at hmonth hfirst
      split_ifs at hmonth hfirst <;> omega

/-- Twenty-two seats are added at the end of the trial of a contract that started on a January
31. -/
def raisedAtTrialEnd : YearlyContract where
  start := 1801353600000
  history := [⟨1801353600000, 0, 50⟩, ⟨1803772800000, 50, 72⟩]
  starts := by decide +kernel
  ordered := List.pairwise_pair.2 (by decide)
  linked := ⟨rfl, rfl, trivial⟩
  lowered := by
    intro change hmem hlower
    rcases List.mem_pair.1 hmem with rfl | rfl
    · exact absurd hlower (by decide)
    · exact absurd hlower (by decide)

/-- **The seats that are added at the end of the trial are billed then**, and the quote names the
end of the quarter. -/
theorem raisedAtTrialEnd_not_billed : ¬BilledAsQuoted raisedAtTrialEnd := by
  have hat : (1803772800000 : ℤ) = yearIssued raisedAtTrialEnd.start 0 := by decide +kernel
  intro h
  have hmem : (⟨1803772800000, 50, 72⟩ : SeatChange) ∈ raisedAtTrialEnd.history :=
    List.mem_pair.2 (.inr rfl)
  exact not_quoteKept_of_issued raisedAtTrialEnd hmem (by decide) hat (h.2 _ hmem (by decide))

end Isomux.EnterpriseBilling
