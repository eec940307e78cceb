import Isomux.ControlPlane.LifecycleSafety

set_option autoImplicit false

/-!
# Whether the promise may shrink

Under the legacy policy the retention that is shown before the machine is off is a month after the
end of the grace, and the one that holds afterwards is a month after the power-off. The power-off
comes later, but a month after it may come earlier: in the month after, several dates may have to
stand for the same last day, and only the time of day tells them apart.

## Main results

* `Isomux.addUtcMonth_le_iff` — the months that end in their order.
* `Isomux.promise_kept_iff` — the power-offs behind which the promise has not shrunk.
-/

namespace Isomux

/-! ## The month after -/

/-- The month that follows the one of an instant: its year, as `Date.UTC` reads it, and its number
in the year. -/
def monthAfter (instant : ℤ) : ℤ × ℕ :=
  if getUTCMonth instant = 11 then (makeFullYear (getUTCFullYear instant + 1), 0)
  else (makeFullYear (getUTCFullYear instant), getUTCMonth instant + 1)

/-- The last date of the month that follows. -/
def lastDateAfter (instant : ℤ) : ℤ :=
  monthLength (leapDays (monthAfter instant).1) (monthAfter instant).2

lemma monthAfter_lt (instant : ℤ) : (monthAfter instant).2 < 12 := by
  obtain ⟨hmonth, -, -⟩ := getUTCDate_bounds instant
  unfold monthAfter
  split_ifs with hlast
  · exact Nat.zero_lt_succ 11
  · have hne : getUTCMonth instant + 1 ≠ 12 := fun h => hlast (Nat.succ.inj h)
    exact lt_of_le_of_ne hmonth hne

lemma addUtcMonth_eq (instant : ℤ) : addUtcMonth instant =
    (firstDay (monthAfter instant) + min (getUTCDate instant) (lastDateAfter instant) - 1) *
      msPerDay + instant % msPerDay := by
  obtain ⟨year, month, htarget, heq⟩ := dayOf_addUtcMonth instant
  have hmonth : monthAfter instant = (makeFullYear year, month) := by
    unfold monthAfter
    rcases htarget with ⟨rfl, rfl, hlt⟩ | ⟨rfl, rfl, hlast⟩
    · rw [if_neg (show ¬getUTCMonth instant = 11 by omega)]
    · rw [if_pos hlast]
  rw [heq, lastDateAfter, firstDay, hmonth]

/-! ## When a month that starts later ends earlier -/

/-- A month that starts at `offAt` ends before one that starts at `graceEnd`: in an earlier month,
or in the same one on an earlier date, or on the same date at an earlier time of the day. The dates
that the month lacks all end on its last one. -/
def MonthShrinks (graceEnd offAt : ℤ) : Prop :=
  MonthBefore (monthAfter offAt) (monthAfter graceEnd) ∨
    monthAfter offAt = monthAfter graceEnd ∧
      (getUTCDate offAt < getUTCDate graceEnd ∧ getUTCDate offAt < lastDateAfter graceEnd ∨
        (getUTCDate offAt = getUTCDate graceEnd ∨
            lastDateAfter graceEnd ≤ getUTCDate offAt ∧
              lastDateAfter graceEnd ≤ getUTCDate graceEnd) ∧
          offAt % msPerDay < graceEnd % msPerDay)

instance (graceEnd offAt : ℤ) : Decidable (MonthShrinks graceEnd offAt) :=
  inferInstanceAs (Decidable (_ ∨ _))

/-- **The months that end in their order.**

**Proof sketch.** A month ends on a day of the month that follows, at the time of the day at which
it started. Of two different months the earlier one is over when the later one begins. In the same
one the dates decide, as far as that month has them, and then the times. -/
theorem addUtcMonth_le_iff (graceEnd offAt : ℤ) :
    addUtcMonth graceEnd ≤ addUtcMonth offAt ↔ ¬MonthShrinks graceEnd offAt := by
  have hgrace := addUtcMonth_eq graceEnd
  have hoff := addUtcMonth_eq offAt
  obtain ⟨-, hgraceOne, -⟩ := getUTCDate_bounds graceEnd
  obtain ⟨-, hoffOne, -⟩ := getUTCDate_bounds offAt
  have hgraceLt := monthAfter_lt graceEnd
  have hoffLt := monthAfter_lt offAt
  have hgraceLast := (monthLength_bounds (leapDays_bounds (monthAfter graceEnd).1) hgraceLt).1
  have hoffLast := (monthLength_bounds (leapDays_bounds (monthAfter offAt).1) hoffLt).1
  by_cases hearlier : MonthBefore (monthAfter offAt) (monthAfter graceEnd)
  · have hover := firstDay_add_le hearlier hoffLt hgraceLt
    have hshrinks : MonthShrinks graceEnd offAt := .inl hearlier
    unfold lastDateAfter msPerDay at *
    simp only [hshrinks, not_true_eq_false, iff_false, not_le]
    omega
  by_cases hlater : MonthBefore (monthAfter graceEnd) (monthAfter offAt)
  · have hover := firstDay_add_le hlater hgraceLt hoffLt
    have hkept : ¬MonthShrinks graceEnd offAt := by
      rintro (hbefore | ⟨heq, -⟩)
      · exact hearlier hbefore
      · rw [heq] at hlater
        rcases hlater with hlt | ⟨-, hlt⟩
        · exact lt_irrefl _ hlt
        · exact lt_irrefl _ hlt
    unfold lastDateAfter msPerDay at *
    simp only [hkept, not_false_eq_true, iff_true]
    omega
  · have hsame : monthAfter offAt = monthAfter graceEnd := by
      unfold MonthBefore at hearlier hlater
      refine Prod.ext ?_ ?_ <;> omega
    have hdate : lastDateAfter offAt = lastDateAfter graceEnd := by
      unfold lastDateAfter
      rw [hsame]
    rw [hdate, hsame] at hoff
    rw [hsame] at hearlier
    unfold MonthShrinks msPerDay at *
    rw [hsame]
    simp only [hearlier, true_and, false_or]
    omega

/-! ## From the year 100 on -/

/-- **From the year 100 on, a later month ends earlier only where the month after lacks dates**:
both instants lie in the same month, on its last dates, and the later one earlier in its day. -/
theorem monthShrinks_iff {graceEnd offAt : ℤ} (hyear : 100 ≤ getUTCFullYear graceEnd)
    (hle : graceEnd ≤ offAt) : MonthShrinks graceEnd offAt ↔
      getUTCFullYear offAt = getUTCFullYear graceEnd ∧ getUTCMonth offAt = getUTCMonth graceEnd ∧
        lastDateAfter graceEnd ≤ getUTCDate graceEnd ∧ offAt % msPerDay < graceEnd % msPerDay := by
  have hyears := getUTCFullYear_mono hle
  obtain ⟨hgraceLt, -, -⟩ := getUTCDate_bounds graceEnd
  obtain ⟨hoffLt, -, -⟩ := getUTCDate_bounds offAt
  have hfull : ∀ year, 100 ≤ year → makeFullYear year = year := fun year h => if_neg (by omega)
  have hafter : ∀ instant, 100 ≤ getUTCFullYear instant → monthAfter instant =
      if getUTCMonth instant = 11 then (getUTCFullYear instant + 1, 0)
      else (getUTCFullYear instant, getUTCMonth instant + 1) := by
    intro instant h
    unfold monthAfter
    rw [hfull _ h, hfull _ (by omega)]
  have hgrace := hafter graceEnd hyear
  have hoff := hafter offAt (hyear.trans hyears)
  by_cases hsame : getUTCFullYear offAt = getUTCFullYear graceEnd ∧
      getUTCMonth offAt = getUTCMonth graceEnd
  · obtain ⟨hyearEq, hmonthEq⟩ := hsame
    have heq : monthAfter offAt = monthAfter graceEnd := by rw [hgrace, hoff, hyearEq, hmonthEq]
    have hdates := getUTCDate_mono hle hyearEq hmonthEq
    have hnot : ¬MonthBefore (monthAfter graceEnd) (monthAfter graceEnd) := by
      unfold MonthBefore
      omega
    unfold MonthShrinks
    rw [heq]
    simp only [hnot, hyearEq, hmonthEq, true_and, false_or]
    omega
  · have hbefore : MonthBefore (monthAfter graceEnd) (monthAfter offAt) := by
      have hmonths : getUTCFullYear offAt = getUTCFullYear graceEnd →
          getUTCMonth graceEnd ≤ getUTCMonth offAt := getUTCMonth_mono hle
      rw [hgrace, hoff]
      unfold MonthBefore
      split_ifs <;> dsimp only <;> omega
    have hkept : ¬MonthShrinks graceEnd offAt := by
      unfold MonthShrinks
      rintro (hearlier | ⟨heq, -⟩)
      · unfold MonthBefore at hbefore hearlier
        omega
      · rw [heq] at hbefore
        unfold MonthBefore at hbefore
        omega
    exact iff_of_false hkept fun h => hsame ⟨h.1, h.2.1⟩

/-! ## The promise -/

lemma le_toInstant {instant : ℤ} {n : ℚ} (h : (instant : ℚ) ≤ n) : instant ≤ toInstant n := by
  have hden : (0 : ℤ) < n.den := by exact_mod_cast n.den_pos
  have hmul : instant * n.den ≤ n.num := by
    have hnum := Rat.num_div_den n
    rw [← hnum, le_div_iff₀ (by exact_mod_cast n.den_pos)] at h
    exact_mod_cast h
  unfold toInstant
  calc instant = (instant * n.den).tdiv n.den := (Int.mul_tdiv_cancel _ hden.ne').symm
    _ ≤ n.num.tdiv n.den := Int.tdiv_le_tdiv hden hmul

lemma promisedUntil_legacy (facts : TimelineFacts) {endedAt : ℤ}
    (hended : facts.endedAt = some endedAt)
    (hreason : facts.cancellationReason = some CUSTOMER_CANCELLATION_REASON)
    (hlegacy : facts.cancellationPolicy ≠ some .launch) (now : ℤ) :
    (phaseAt facts now).promisedUntil = some (addUtcMonth
      (facts.poweredOffAt.elim (graceEndOf facts.cancellationPolicy endedAt) toInstant)) := by
  have hcustomer : isCustomerCancellation (some endedAt) facts.cancellationReason = true := by
    simp [isCustomerCancellation, hreason]
  unfold phaseAt
  simp only [hended, hcustomer, if_true, promisedUntilOf, retentionEndOf, if_neg hlegacy]
  cases facts.poweredOffAt <;> rfl

/-- **When the promise has not shrunk.** Under the legacy policy, what is promised once the machine
is off is at least what was shown before, except for the power-offs behind which the month shrinks.
From the year 100 on these are the ones in the month of the grace end, where it ends on one of the
last dates that the month after lacks, or on the last one it has, and at an earlier time of the
day. -/
theorem promise_kept_iff (facts : TimelineFacts) (endedAt shownAt now : ℤ) (offAt : ℚ)
    (hended : facts.endedAt = some endedAt)
    (hreason : facts.cancellationReason = some CUSTOMER_CANCELLATION_REASON)
    (hlegacy : facts.cancellationPolicy ≠ some .launch)
    (hoff : (graceEndOf facts.cancellationPolicy endedAt : ℚ) ≤ offAt) :
    ∃ projected promised,
      (phaseAt { facts with poweredOffAt := none } shownAt).promisedUntil = some projected ∧
      (phaseAt { facts with poweredOffAt := some offAt } now).promisedUntil = some promised ∧
      (projected ≤ promised ↔
        ¬MonthShrinks (graceEndOf facts.cancellationPolicy endedAt) (toInstant offAt)) ∧
      (100 ≤ getUTCFullYear (graceEndOf facts.cancellationPolicy endedAt) →
        (projected ≤ promised ↔
          ¬(getUTCFullYear (toInstant offAt) =
                getUTCFullYear (graceEndOf facts.cancellationPolicy endedAt) ∧
              getUTCMonth (toInstant offAt) =
                getUTCMonth (graceEndOf facts.cancellationPolicy endedAt) ∧
              lastDateAfter (graceEndOf facts.cancellationPolicy endedAt) ≤
                getUTCDate (graceEndOf facts.cancellationPolicy endedAt) ∧
              toInstant offAt % msPerDay <
                graceEndOf facts.cancellationPolicy endedAt % msPerDay))) := by
  have hle := le_toInstant hoff
  refine ⟨_, _, promisedUntil_legacy { facts with poweredOffAt := none } hended hreason hlegacy
    shownAt, promisedUntil_legacy { facts with poweredOffAt := some offAt } hended hreason hlegacy
    now, addUtcMonth_le_iff _ _, fun hyear => ?_⟩
  rw [← monthShrinks_iff hyear hle]
  exact addUtcMonth_le_iff _ _

/-- An office under the legacy policy that its customer ended on 23 January at 23:00. -/
def endedInJanuary : TimelineFacts where
  endedAt := some 1800745200000
  cancellationReason := some CUSTOMER_CANCELLATION_REASON
  poweredOffAt := none
  repoweredAt := none
  cancellationPolicy := some .legacy
  assetGone := false
  reinstatement := none

theorem promise_kept_iff_a_day_later : ∃ projected promised,
    (phaseAt { endedInJanuary with poweredOffAt := none } 1800745200000).promisedUntil =
      some projected ∧
    (phaseAt { endedInJanuary with poweredOffAt := some 1801436400000 } 1801436400000).promisedUntil =
      some promised ∧ projected ≤ promised := by
  obtain ⟨projected, promised, hprojected, hpromised, hkept, -⟩ :=
    promise_kept_iff endedInJanuary 1800745200000 1800745200000 1801436400000 1801436400000 rfl rfl
      (by decide) (by decide +kernel)
  exact ⟨projected, promised, hprojected, hpromised, hkept.2 (by decide +kernel)⟩

/-- **The promise shrinks**: the grace ends on 30 January at 23:00, and 28 February at 23:00 is
promised. The machine is powered off two hours later, on 31 January at 1:00, and 28 February at 1:00
is promised. -/
theorem promise_shrinks :
    ¬∀ (facts : TimelineFacts) (endedAt : ℤ) (offAt : ℚ), facts.endedAt = some endedAt →
      facts.cancellationPolicy = some .legacy →
      (graceEndOf facts.cancellationPolicy endedAt : ℚ) ≤ offAt →
      ∀ shownAt now, ∀ projected promised,
        (phaseAt { facts with poweredOffAt := none } shownAt).promisedUntil = some projected →
        (phaseAt { facts with poweredOffAt := some offAt } now).promisedUntil = some promised →
        projected ≤ promised := by
  intro h
  have hle := h endedInJanuary 1800745200000 1801357200000 rfl rfl (by decide +kernel) 1800745200000
    1801357200000 1803855600000 1803776400000 (by decide +kernel) (by decide +kernel)
  exact absurd hle (by decide)

end Isomux
