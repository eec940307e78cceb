import Isomux.ControlPlane.Lifecycle

set_option autoImplicit false

/-!
# No machine is deleted before the promise

The machine is deleted when its phase says so, and the phase says so when the machine was proven to
be off and stayed off, the retention is over, the asset is there and no customer may still come back.

The end of the retention is fixed by the policy. Under the legacy one it is a month after the
power-off. A month that starts on a day that the next month lacks ends on its last day, so a month
that starts later may end earlier.

## Main results

* `Isomux.addUtcMonth_ge` — a month has 28 days at least.
* `Isomux.decideLifecycle_cases` — what is opened in which phase.
* `Isomux.cancelAsset_allowed` — a deletion is opened only where it is allowed, and the names of the
  operations.
-/

namespace Isomux

/-! ## Months -/

lemma dayOf_addUtcMonth (instant : ℤ) : ∃ year month,
    (year = getUTCFullYear instant ∧ month = getUTCMonth instant + 1 ∧ month < 12 ∨
      year = getUTCFullYear instant + 1 ∧ month = 0 ∧ getUTCMonth instant = 11) ∧
    addUtcMonth instant =
      (dayFromYear (makeFullYear year) + daysBefore (leapDays (makeFullYear year)) month +
        min (getUTCDate instant) (monthLength (leapDays (makeFullYear year)) month) - 1) * msPerDay +
          instant % msPerDay := by
  obtain ⟨hmonth, -, -⟩ := getUTCDate_bounds instant
  have htime := time_eq instant
  have hday : ∀ year month date, month < 12 → makeDay (makeFullYear year) month date =
      dayFromYear (makeFullYear year) + daysBefore (leapDays (makeFullYear year)) month + date - 1 := by
    intro year month date hlt
    unfold makeDay
    rw [Nat.div_eq_of_lt hlt, Nat.mod_eq_of_lt hlt, Nat.cast_zero, add_zero]
  unfold addUtcMonth
  dsimp only
  by_cases hlast : getUTCMonth instant = 11
  · refine ⟨getUTCFullYear instant + 1, 0, .inr ⟨rfl, rfl, hlast⟩, ?_⟩
    rw [if_pos hlast, if_pos hlast, getUTCDate_monthEnd _ (by decide)]
    unfold dateUTC
    rw [hday _ _ _ (by decide), htime]
  · have hlt : getUTCMonth instant + 1 < 12 := by omega
    refine ⟨getUTCFullYear instant, getUTCMonth instant + 1, .inl ⟨rfl, rfl, hlt⟩, ?_⟩
    rw [if_neg hlast, if_neg hlast, getUTCDate_monthEnd _ hlt]
    unfold dateUTC
    rw [hday _ _ _ hlt, htime]

/-- **A month has 28 days at least.**

**Proof sketch.** When the target month has the day, the month that passes is as long as the one it
starts in. Otherwise it ends on the last day of the target month, and the days of the target month
alone are 28 at least. A year of two digits is taken for one of the twentieth century, which is
later. -/
theorem addUtcMonth_ge (instant : ℤ) : instant + 28 * msPerDay ≤ addUtcMonth instant := by
  obtain ⟨year, month, htarget, heq⟩ := dayOf_addUtcMonth instant
  obtain ⟨hmonth, hone, hdate⟩ := getUTCDate_bounds instant
  have hday := day_eq instant
  have hsplit : instant = dayOf instant * msPerDay + instant % msPerDay := by
    unfold dayOf msPerDay
    omega
  have hlen := monthLength_bounds (leapDays_bounds (getUTCFullYear instant)) hmonth
  suffices hdays : dayOf instant + 28 ≤
      dayFromYear (makeFullYear year) + daysBefore (leapDays (makeFullYear year)) month +
        min (getUTCDate instant) (monthLength (leapDays (makeFullYear year)) month) - 1 by
    unfold msPerDay at *
    omega
  have hlt12 : month < 12 := by
    rcases htarget with ⟨-, -, hlt⟩ | ⟨-, rfl, -⟩
    · exact hlt
    · decide
  have htargetLen := monthLength_bounds (leapDays_bounds (makeFullYear year)) hlt12
  unfold makeFullYear at htargetLen ⊢
  split_ifs at htargetLen ⊢ with hshort
  · -- the twentieth century is later than the year that the target month is in
    have hleap := leapDays_bounds (1900 + year)
    have hbefore : 0 ≤ daysBefore (leapDays (1900 + year)) month :=
      daysBefore_le hleap (Nat.zero_le month) hlt12.le
    have hinYear := (dayInYear_bounds instant).2
    have hnext := dayFromYear_succ (getUTCFullYear instant)
    have hlater := dayFromYear_add_le
      (show getUTCFullYear instant + 1 ≤ 1900 + year by omega)
    omega
  · rcases htarget with ⟨rfl, rfl, -⟩ | ⟨rfl, rfl, hlast⟩
    · unfold monthLength at *
      omega
    · have hnext := dayFromYear_succ (getUTCFullYear instant)
      have hbefore : daysBefore (leapDays (getUTCFullYear instant)) 11 =
        334 + leapDays (getUTCFullYear instant) := rfl
      have hfirst : daysBefore (leapDays (getUTCFullYear instant + 1)) 0 = 0 := rfl
      have hafter : daysBefore (leapDays (getUTCFullYear instant)) (11 + 1) =
        365 + leapDays (getUTCFullYear instant) := rfl
      unfold monthLength at *
      rw [hlast] at hday hdate hlen
      omega

/-! ## Reboots and power-offs -/

/-- A power-off of the cancellation that has evidence of its instant. -/
def ProvenOffAt (operations : List OperationRow) (subscriptionId : JsString) (endedAt : ℤ)
    (offAt : ℚ) : Prop :=
  ∃ op ∈ operations, op.status = .succeeded ∧ numberEvidence op "poweredOffAt" = some offAt ∧
    (op.id = lifecycleOperationId .powerOff subscriptionId endedAt ∨
      op ∈ correctionRows operations subscriptionId endedAt)

/-- Every reboot that succeeded is answered: a power-off is proven at its instant or later. Where the
instant of the reboot is not known, a later power-off that succeeded names it. -/
def RebootsAnswered (operations : List OperationRow) (subscriptionId : JsString) (endedAt : ℤ) :
    Prop :=
  ∀ reboot ∈ operations, reboot.kind = OperationKind.reboot.name → reboot.status = .succeeded →
    match numberEvidence reboot "rebootedAt" with
    | some rebootedAt =>
      ∃ offAt, ProvenOffAt operations subscriptionId endedAt offAt ∧ rebootedAt ≤ offAt
    | none =>
      ∃ op ∈ correctionRows operations subscriptionId endedAt,
        stringEvidence op "correctiveFor" = some reboot.id ∨
          reboot.id ∈ stringArrayEvidence op "answeredReboots"

variable {operations : List OperationRow} {subscriptionId : JsString} {endedAt : ℤ}
  {inputs : LifecycleInputs}

/-- A reboot of a machine that was off, which no power-off answers: it is later than all of them, or
its instant is not known and none of them names it. -/
def RebootUnanswered (operations : List OperationRow) (subscriptionId : JsString) (endedAt : ℤ)
    (reboot : OperationRow) : Prop :=
  reboot ∈ succeededReboots operations ∧
    ∃ first, poweredOffAtFrom operations subscriptionId endedAt = some first ∧
      match numberEvidence reboot "rebootedAt" with
      | some rebootedAt =>
        first < rebootedAt ∧ ∀ op ∈ correctionRows operations subscriptionId endedAt, ∀ offAt,
          numberEvidence op "poweredOffAt" = some offAt → offAt < rebootedAt
      | none =>
        ∀ op ∈ correctionRows operations subscriptionId endedAt,
          stringEvidence op "correctiveFor" ≠ some reboot.id ∧
            reboot.id ∉ stringArrayEvidence op "answeredReboots"

lemma provenOff_of_poweredOffAtFrom
    {offAt : ℚ}
    (h : poweredOffAtFrom operations subscriptionId endedAt = some offAt) :
    ∃ own ∈ operations, own.id = lifecycleOperationId .powerOff subscriptionId endedAt ∧
      own.status = .succeeded ∧ numberEvidence own "poweredOffAt" = some offAt := by
  obtain ⟨own, hfind, hat⟩ := Option.bind_eq_some_iff.1 h
  have htest := List.find?_some hfind
  rw [decide_eq_true_eq] at htest
  exact ⟨own, List.mem_of_find?_eq_some hfind, htest.1, htest.2, hat⟩

lemma foldl_max_lt_iff {first bound : ℚ} {list : List ℚ} :
    list.foldl max first < bound ↔ first < bound ∧ ∀ x ∈ list, x < bound := by
  induction list generalizing first with
  | nil => simp
  | cons x list ih => rw [List.foldl_cons, ih, max_lt_iff, List.forall_mem_cons, and_assoc]

lemma mem_rebootsAfter {reboots : List OperationRow} {lastOff : ℚ} {entry : OperationRow × ℚ} :
    entry ∈ rebootsAfter reboots lastOff ↔
      entry.1 ∈ reboots ∧ numberEvidence entry.1 "rebootedAt" = some entry.2 ∧ lastOff < entry.2 := by
  unfold rebootsAfter
  dsimp only
  rw [List.mem_insertionSort, List.mem_filter, List.mem_filterMap, decide_eq_true_eq, ← and_assoc]
  refine and_congr_left fun _ => ⟨?_, fun h => ⟨entry.1, h.1, by rw [h.2]; rfl⟩⟩
  rintro ⟨reboot, hreboot, htimed⟩
  obtain ⟨rebootedAt, hat, rfl⟩ := Option.map_eq_some_iff.1 htimed
  exact ⟨hreboot, hat⟩

variable {first : ℚ} {reboot : OperationRow}

lemma rebootUnanswered_iff (hfirst : poweredOffAtFrom operations subscriptionId endedAt = some first)
    (hreboot : reboot ∈ succeededReboots operations) :
    RebootUnanswered operations subscriptionId endedAt reboot ↔
      match numberEvidence reboot "rebootedAt" with
      | some rebootedAt =>
        lastPowerOff (correctionRows operations subscriptionId endedAt) first < rebootedAt
      | none =>
        explicitlyAnswered (correctionRows operations subscriptionId endedAt) reboot = false := by
  unfold RebootUnanswered
  rw [and_iff_right hreboot, hfirst]
  cases numberEvidence reboot "rebootedAt" with
  | some rebootedAt =>
    simp only [Option.some.injEq, exists_eq_left', lastPowerOff, foldl_max_lt_iff,
      List.mem_filterMap]
    exact and_congr_right fun _ => ⟨fun h x ⟨op, hop, hx⟩ => h op hop x hx,
      fun h op hop x hx => h x ⟨op, hop, hx⟩⟩
  | none => simp [explicitlyAnswered]

/-- **The reboot that counts** is one that is not answered, and there is one if any is not. -/
lemma repowerFacts_cases (operations : List OperationRow) (subscriptionId : JsString) (endedAt : ℤ) :
    let facts := repowerFacts operations subscriptionId endedAt
      (poweredOffAtFrom operations subscriptionId endedAt)
    (∃ reboot, RebootUnanswered operations subscriptionId endedAt reboot ∧
      facts.rebootId = some reboot.id ∧ facts.repoweredAt ≠ none) ∨
    facts.rebootId = none ∧ ∀ reboot, ¬RebootUnanswered operations subscriptionId endedAt reboot := by
  intro facts
  cases hfirst : poweredOffAtFrom operations subscriptionId endedAt with
  | none =>
    refine .inr ⟨by simp [facts, hfirst, repowerFacts], fun reboot h => ?_⟩
    obtain ⟨-, first, hsome, -⟩ := h
    exact nomatch hfirst.symm.trans hsome
  | some first =>
    have hfacts : facts = repowerFacts operations subscriptionId endedAt (some first) := by
      simp only [facts, hfirst]
    rw [hfacts]
    unfold repowerFacts
    dsimp only
    split
    · rename_i reboot hfind
      have htest := List.find?_some hfind
      rw [Bool.and_eq_true, Option.isNone_iff_eq_none, Bool.not_eq_true'] at htest
      refine .inl ⟨reboot, (rebootUnanswered_iff hfirst (List.mem_of_find?_eq_some hfind)).2 ?_, rfl, nofun⟩
      rw [htest.1]
      exact htest.2
    · rename_i hnone
      split
      · rename_i later rest hafter
        obtain ⟨hreboot, hat, hlater⟩ := mem_rebootsAfter.1
          (hafter ▸ List.mem_cons_self : later ∈ rebootsAfter _ _)
        refine .inl ⟨later.1, (rebootUnanswered_iff hfirst hreboot).2 ?_, rfl, nofun⟩
        rw [hat]
        exact hlater
      · rename_i hafter
        refine .inr ⟨rfl, fun reboot h => ?_⟩
        have hreboot := h.1
        rw [rebootUnanswered_iff hfirst hreboot] at h
        cases hat : numberEvidence reboot "rebootedAt" with
        | none =>
          rw [hat] at h
          exact List.find?_eq_none.1 hnone reboot hreboot (by simp [hat, h])
        | some rebootedAt =>
          rw [hat] at h
          have hmem : (reboot, rebootedAt) ∈ rebootsAfter _ _ := mem_rebootsAfter.2 ⟨hreboot, hat, h⟩
          exact List.not_mem_nil (hafter ▸ hmem)

/-- **A machine that stayed off has every reboot answered.** -/
lemma rebootsAnswered_of_repowerFacts
    (hfirst : poweredOffAtFrom operations subscriptionId endedAt = some first)
    (h : (repowerFacts operations subscriptionId endedAt (some first)).repoweredAt = none) :
    RebootsAnswered operations subscriptionId endedAt := by
  have hnone : ∀ reboot, ¬RebootUnanswered operations subscriptionId endedAt reboot := by
    have hcases := repowerFacts_cases operations subscriptionId endedAt
    rw [hfirst] at hcases
    rcases hcases with ⟨reboot, -, -, hsome⟩ | hnone
    · exact absurd h hsome
    · exact hnone.2
  intro reboot hmem hkind hstatus
  have hnot := hnone reboot
  simp only [RebootUnanswered, hfirst, Option.some.injEq, exists_eq_left', succeededReboots,
    List.mem_filter, hmem, hkind, hstatus, and_self, decide_true, true_and] at hnot
  cases hat : numberEvidence reboot "rebootedAt" with
  | none =>
    rw [hat] at hnot
    push Not at hnot
    obtain ⟨op, hop, hnames⟩ := hnot
    exact ⟨op, hop, or_iff_not_imp_left.2 hnames⟩
  | some rebootedAt =>
    rw [hat] at hnot
    by_cases hlt : first < rebootedAt
    · push Not at hnot
      obtain ⟨op, hop, offAt, hoffAt, hle⟩ := hnot hlt
      have hrow := List.mem_filter.1 hop
      have htest := of_decide_eq_true hrow.2
      exact ⟨offAt, ⟨op, hrow.1, htest.2.1, hoffAt, .inr hop⟩, hle⟩
    · obtain ⟨own, hown, hid, hsucceeded, hoffAt⟩ := provenOff_of_poweredOffAtFrom hfirst
      exact ⟨first, ⟨own, hown, hsucceeded, hoffAt, .inl hid⟩, not_lt.1 hlt⟩

/-! ## The phase of a deletion -/

lemma powerPhase_deprovisionDue {facts : TimelineFacts} {endedAt now : ℤ}
    (h : powerPhase facts endedAt now = .deprovisionDue) :
    ∃ offAt retentionEnd, facts.poweredOffAt = some offAt ∧ facts.repoweredAt = none ∧
      retentionEndOf facts.cancellationPolicy endedAt facts.poweredOffAt = some retentionEnd ∧
      retentionEnd ≤ now := by
  unfold powerPhase at h
  dsimp only at h
  split_ifs at h with hoff hdue
  obtain ⟨hsome, hnone⟩ := Bool.and_eq_true_iff.1 hoff
  obtain ⟨offAt, hoffAt⟩ := Option.isSome_iff_exists.1 hsome
  cases hretention : retentionEndOf facts.cancellationPolicy endedAt facts.poweredOffAt with
  | none =>
    rw [hretention] at hdue
    cases hdue
  | some retentionEnd =>
    rw [hretention] at hdue
    exact ⟨offAt, retentionEnd, hoffAt, Option.isNone_iff_eq_none.1 hnone, rfl,
      of_decide_eq_true hdue⟩

/-- What a reinstatement must not be for a deletion. -/
def ReinstatementOver (reinstatement : Option Reinstatement) (now : ℤ) : Prop :=
  ∀ r, reinstatement = some r → r.state ≠ .accepted ∧
    (r.state = .pending → r.fenceExpiresAt ≤ now ∧ r.expiryProven = true)

/-- The phase of a deletion says that the asset is there and no customer may come back. -/
lemma cancelledPhase_deprovisionDue {facts : TimelineFacts} {endedAt now : ℤ}
    (h : cancelledPhase facts endedAt now = .deprovisionDue) :
    facts.assetGone = false ∧ ReinstatementOver facts.reinstatement now ∧
      powerPhase facts endedAt now = .deprovisionDue := by
  unfold cancelledPhase at h
  split_ifs at h with hgone
  refine ⟨by simpa using hgone, ?_⟩
  unfold ReinstatementOver
  cases hrein : facts.reinstatement with
  | none =>
    rw [hrein] at h
    exact ⟨fun _ hr => (nomatch hr), h⟩
  | some r =>
    rw [hrein] at h
    obtain ⟨state, attemptId, fenceExpiresAt, expiryProven⟩ := r
    cases state with
    | accepted => cases h
    | pending =>
      dsimp only at h
      split_ifs at h with hfence hproven
      refine ⟨?_, h⟩
      rintro r hr
      obtain rfl := Option.some.inj hr
      exact ⟨by simp, fun _ => ⟨not_lt.1 hfence, by simpa using hproven⟩⟩
    | expired | attention =>
      refine ⟨?_, h⟩
      rintro r hr
      obtain rfl := Option.some.inj hr
      exact ⟨by simp, by simp⟩

/-! ## Decisions -/

/-- What the cancellation of a customer comes to. -/
abbrev LifecycleInputs.state (inputs : LifecycleInputs) (subscription : SubscriptionFacts)
    (endedAt : ℤ) : CancellationState :=
  cancellationStateFrom subscription endedAt inputs.operations inputs.asset inputs.now
    inputs.reinstatement

/-- The subscription of the office ended by a cancellation of its customer. -/
structure EndedByCustomer (inputs : LifecycleInputs) (subscription : SubscriptionFacts)
    (endedAt : ℤ) : Prop where
  linked : inputs.subscription = some subscription
  ended : subscription.endedAt = some endedAt
  byCustomer : subscription.cancellationReason = some CUSTOMER_CANCELLATION_REASON

def OpenedIn (inputs : LifecycleInputs) (subscription : SubscriptionFacts) (endedAt : ℤ)
    (op : OpenedOperation) : LifecyclePhase → Prop
  | .ended =>
    op.kind = .removeDns ∧ op.id = lifecycleOperationId .removeDns subscription.id endedAt
  | .checkoutExpiryDue => op.kind = .expireCheckout ∧
    ∃ r, inputs.reinstatement = some r ∧ op.id = js "op-checkout_expire-" ++ r.attemptId
  | .powerOffDue => op = openedPowerOff inputs subscription.id endedAt
    (inputs.state subscription endedAt).timeline (inputs.state subscription endedAt).repower
  | .deprovisionDue => (op.kind = .cancelAsset ∨ op.kind = .removeDns) ∧
    op.id = lifecycleOperationId op.kind subscription.id endedAt
  | _ => False

lemma decideServing_opened (inputs : LifecycleInputs) : (decideServing inputs).opened = [] := by
  unfold decideServing
  dsimp only
  split_ifs <;> rfl

/-- What a cancelled office opens depends on its phase. -/
lemma decideCancelled_cases {dateParse : JsString → Option ℤ}
    {subscription : SubscriptionFacts} {op : OpenedOperation}
    (h : op ∈ (decideCancelled dateParse inputs subscription endedAt).opened) :
    OpenedIn inputs subscription endedAt op
      (inputs.state subscription endedAt).timeline.phase := by
  unfold decideCancelled decideCourse at h
  dsimp only at h
  cases hphase : (inputs.state subscription endedAt).timeline.phase with
  | ended =>
    simp only [hphase] at h
    obtain rfl := List.mem_singleton.1 h
    exact ⟨rfl, rfl⟩
  | checkoutExpiryDue =>
    simp only [hphase] at h
    cases hattempt : truthy (inputs.reinstatement.map (·.attemptId)) with
    | none =>
      rw [hattempt] at h
      cases h
    | some attemptId =>
      rw [hattempt] at h
      obtain rfl := List.mem_singleton.1 h
      obtain ⟨hmap, -⟩ := Option.filter_eq_some_iff.1 hattempt
      obtain ⟨r, hr, rfl⟩ := Option.map_eq_some_iff.1 hmap
      exact ⟨rfl, r, hr, rfl⟩
  | powerOffDue =>
    simp only [hphase] at h
    exact List.mem_singleton.1 h
  | deprovisionDue =>
    simp only [hphase] at h
    obtain ⟨kind, hkind, rfl⟩ := List.mem_map.1 h
    refine ⟨?_, rfl⟩
    simpa [openedDeletion] using hkind
  | reinstated | _ =>
    simp only [hphase] at h
    cases h

/-- **What is opened in which phase.** -/
theorem decideLifecycle_cases {dateParse : JsString → Option ℤ}
    {op : OpenedOperation} (h : op ∈ (decideLifecycle dateParse inputs).opened) :
    ∃ subscription endedAt, EndedByCustomer inputs subscription endedAt ∧
      OpenedIn inputs subscription endedAt op
        (inputs.state subscription endedAt).timeline.phase := by
  unfold decideLifecycle at h
  cases hsub : inputs.subscription with
  | none =>
    rw [hsub] at h
    cases h
  | some subscription =>
    rw [hsub] at h
    dsimp only at h
    cases hended : subscription.endedAt with
    | none =>
      rw [hended] at h
      dsimp only at h
      rw [decideServing_opened] at h
      cases h
    | some endedAt =>
      rw [hended] at h
      dsimp only at h
      split_ifs at h with hcustomer
      · have hreason : subscription.cancellationReason = some CUSTOMER_CANCELLATION_REASON := by
          simpa [isCustomerCancellation] using hcustomer
        exact ⟨subscription, endedAt, ⟨hsub, hended, hreason⟩, decideCancelled_cases h⟩
      · rw [decideServing_opened] at h
        cases h

/-! ## Deletions -/

structure DeletionAllowed (inputs : LifecycleInputs) (subscription : SubscriptionFacts)
    (endedAt : ℤ) (offAt : ℚ) (retentionEnd : ℤ) : Prop where
  ended : EndedByCustomer inputs subscription endedAt
  poweredOff : ∃ own ∈ inputs.operations,
    own.id = lifecycleOperationId .powerOff subscription.id endedAt ∧ own.status = .succeeded ∧
      numberEvidence own "poweredOffAt" = some offAt
  rebootsAnswered : RebootsAnswered inputs.operations subscription.id endedAt
  retentionEnd_launch : subscription.cancellationPolicy = some .launch →
    retentionEnd = graceEndOf subscription.cancellationPolicy endedAt + RETENTION_MS
  retentionEnd_legacy : subscription.cancellationPolicy ≠ some .launch →
    retentionEnd = addUtcMonth (toInstant offAt) ∧
      toInstant offAt + 28 * msPerDay ≤ retentionEnd
  retentionOver : retentionEnd ≤ inputs.now
  assetThere : isAssetGone inputs.asset = false
  reinstatementOver : ReinstatementOver inputs.reinstatement inputs.now

/-- A power-off of the lifecycle that is under way, other than the one of the cancellation. -/
def IsUnderWay (subscriptionId : JsString) (endedAt : ℤ) (op : OperationRow) : Prop :=
  op.kind = OperationKind.powerOff.name ∧ op.status ∈ [.pending, .running, .ambiguous] ∧
    isLifecycleRow op ∧ op.id ≠ lifecycleOperationId .powerOff subscriptionId endedAt

/-- The name of a power-off that is opened. -/
inductive PowerOffName (operations : List OperationRow) (subscriptionId : JsString) (endedAt : ℤ) :
    JsString → Prop
  /-- The first one that is under way lends its name, whatever it is for. -/
  | underWay (before : List OperationRow) (active : OperationRow) (after : List OperationRow)
    (hsplit : operations = before ++ active :: after)
    (hactive : IsUnderWay subscriptionId endedAt active)
    (hfirst : ∀ op ∈ before, ¬IsUnderWay subscriptionId endedAt op) :
    PowerOffName operations subscriptionId endedAt active.id
  | corrective (reboot : OperationRow) (hnone : ∀ op ∈ operations, ¬IsUnderWay subscriptionId endedAt op)
    (hreboot : RebootUnanswered operations subscriptionId endedAt reboot) (hid : reboot.id ≠ []) :
    PowerOffName operations subscriptionId endedAt (correctivePowerOffId subscriptionId reboot.id)
  /-- Every reboot is answered; one without a name is not seen. -/
  | own (hnone : ∀ op ∈ operations, ¬IsUnderWay subscriptionId endedAt op)
    (hanswered : (∀ reboot, ¬RebootUnanswered operations subscriptionId endedAt reboot) ∨
      ∃ reboot, RebootUnanswered operations subscriptionId endedAt reboot ∧ reboot.id = []) :
    PowerOffName operations subscriptionId endedAt (lifecycleOperationId .powerOff subscriptionId endedAt)

/-- The name of an operation that is opened. -/
def OpenedName (inputs : LifecycleInputs) (subscription : SubscriptionFacts) (endedAt : ℤ)
    (op : OpenedOperation) : Prop :=
  match op.kind with
  | .powerOff => PowerOffName inputs.operations subscription.id endedAt op.id
  | .expireCheckout =>
    ∃ r, inputs.reinstatement = some r ∧ op.id = js "op-checkout_expire-" ++ r.attemptId
  | kind => op.id = lifecycleOperationId kind subscription.id endedAt

lemma retentionEndOf_policy (subscription : SubscriptionFacts) (endedAt : ℤ)
    (poweredOffAt : Option ℚ) :
    retentionEndOf (if subscription.cancellationPolicy = some .launch then some .launch
      else some .legacy) endedAt poweredOffAt =
        retentionEndOf subscription.cancellationPolicy endedAt poweredOffAt := by
  unfold retentionEndOf
  by_cases h : subscription.cancellationPolicy = some .launch <;> simp [h]

/-- **In the phase of a deletion it is allowed.** -/
lemma deletionAllowed_of_phase {subscription : SubscriptionFacts}
    (hended : EndedByCustomer inputs subscription endedAt)
    (h : (inputs.state subscription endedAt).timeline.phase = .deprovisionDue) :
    ∃ offAt retentionEnd, DeletionAllowed inputs subscription endedAt offAt retentionEnd := by
  have hcustomer : isCustomerCancellation (some endedAt) subscription.cancellationReason = true := by
    simp [isCustomerCancellation, hended.byCustomer]
  unfold LifecycleInputs.state cancellationStateFrom phaseAt at h
  simp only [hcustomer, if_true] at h
  obtain ⟨hgone, hrein, hpower⟩ := cancelledPhase_deprovisionDue h
  obtain ⟨offAt, retentionEnd, hoff, hon, hretention, hdue⟩ := powerPhase_deprovisionDue hpower
  dsimp only at hgone hrein hoff hon hretention
  rw [retentionEndOf_policy, hoff] at hretention
  rw [hoff] at hon
  refine ⟨offAt, retentionEnd, ?_⟩
  exact
    { ended := hended
      poweredOff := provenOff_of_poweredOffAtFrom hoff
      rebootsAnswered := rebootsAnswered_of_repowerFacts hoff hon
      retentionEnd_launch := by
        intro hlaunch
        unfold retentionEndOf at hretention
        rw [if_pos hlaunch] at hretention
        unfold graceEndOf
        rw [if_pos hlaunch, add_zero]
        exact (Option.some.inj hretention).symm
      retentionEnd_legacy := by
        intro hlegacy
        unfold retentionEndOf at hretention
        rw [if_neg hlegacy] at hretention
        obtain rfl := Option.some.inj hretention
        exact ⟨rfl, addUtcMonth_ge _⟩
      retentionOver := hdue
      assetThere := hgone
      reinstatementOver := hrein }

lemma openedPowerOff_name (inputs : LifecycleInputs) (subscription : SubscriptionFacts)
    (endedAt : ℤ) : OpenedName inputs subscription endedAt
      (openedPowerOff inputs subscription.id endedAt
        (inputs.state subscription endedAt).timeline (inputs.state subscription endedAt).repower) := by
  have hcases := repowerFacts_cases inputs.operations subscription.id endedAt
  change _ ∨ (inputs.state subscription endedAt).repower.rebootId = none ∧ _ at hcases
  unfold OpenedName openedPowerOff
  dsimp only
  split
  · rename_i active hfind
    obtain ⟨htest, before, after, hsplit, hbefore⟩ := List.find?_eq_some_iff_append.1 hfind
    have hactive := of_decide_eq_true htest
    refine .underWay before active after hsplit hactive fun op hop => ?_
    have hnot := hbefore op hop
    rw [Bool.not_eq_true', decide_eq_false_iff_not] at hnot
    exact hnot
  · rename_i hfind
    have hnone : ∀ op ∈ inputs.operations, ¬IsUnderWay subscription.id endedAt op := fun op hop => by
      simpa [IsUnderWay] using List.find?_eq_none.1 hfind op hop
    rcases hcases with ⟨reboot, hreboot, hid, -⟩ | ⟨hid, hanswered⟩
    · change (inputs.state subscription endedAt).repower.rebootId = some reboot.id at hid
      by_cases hempty : reboot.id = []
      · rw [hid, truthy, Option.filter_some, if_neg (by simp [hempty])]
        exact .own hnone (.inr ⟨reboot, hreboot, hempty⟩)
      · rw [hid, truthy, Option.filter_some, if_pos (by simp [hempty])]
        exact .corrective reboot hnone hreboot hempty
    · rw [hid]
      exact .own hnone (.inl hanswered)

/-- **No machine is deleted before the promise**, and the operations have names that say what they
are about.

**Proof sketch.** A deletion is opened in its phase only. The phase says that the asset is there, no
reinstatement holds it, the power-off of the cancellation has evidence of its instant, no reboot is
later than the last power-off or unknown, and the retention is over. -/
theorem cancelAsset_allowed (dateParse : JsString → Option ℤ) (inputs : LifecycleInputs) :
    ∀ op ∈ (decideLifecycle dateParse inputs).opened, ∃ subscription endedAt,
      EndedByCustomer inputs subscription endedAt ∧ OpenedName inputs subscription endedAt op ∧
      (op.kind = .cancelAsset →
        ∃ offAt retentionEnd, DeletionAllowed inputs subscription endedAt offAt retentionEnd) := by
  intro op hop
  obtain ⟨subscription, endedAt, hended, hopened⟩ := decideLifecycle_cases hop
  refine ⟨subscription, endedAt, hended, ?_⟩
  cases hphase : (inputs.state subscription endedAt).timeline.phase with
  | ended =>
    rw [hphase] at hopened
    obtain ⟨hkind, hid⟩ := hopened
    refine ⟨?_, fun hcancel => ?_⟩
    · unfold OpenedName
      rw [hkind]
      exact hid
    · rw [hkind] at hcancel
      cases hcancel
  | checkoutExpiryDue =>
    rw [hphase] at hopened
    obtain ⟨hkind, hattempt⟩ := hopened
    refine ⟨?_, fun hcancel => ?_⟩
    · unfold OpenedName
      rw [hkind]
      exact hattempt
    · rw [hkind] at hcancel
      cases hcancel
  | powerOffDue =>
    rw [hphase] at hopened
    obtain rfl : op = _ := hopened
    exact ⟨openedPowerOff_name inputs subscription endedAt, fun hcancel => nomatch hcancel⟩
  | deprovisionDue =>
    rw [hphase] at hopened
    obtain ⟨hkind, hid⟩ := hopened
    refine ⟨?_, fun _ => deletionAllowed_of_phase hended hphase⟩
    unfold OpenedName
    rcases hkind with hkind | hkind <;> rw [hkind] at hid ⊢ <;> exact hid
  | _ =>
    rw [hphase] at hopened
    exact hopened.elim

/-! ## What the names and the months do not say -/

/-- A subscription that its customer ended, under the legacy policy. -/
def legacySubscription : SubscriptionFacts where
  id := js "sub_1"
  endedAt := some 1800745200000
  cancellationReason := some CUSTOMER_CANCELLATION_REASON
  cancellationPolicy := some .legacy

/-- A power-off two hours after the grace ended, on 31 January. -/
def latePowerOff : OperationRow where
  id := lifecycleOperationId .powerOff (js "sub_1") 1800745200000
  kind := js "power_off"
  status := .succeeded
  evidence := some (.object [("reason", .string (js "cancellation")),
    ("poweredOffAt", .number 1801357200000)])

def lateReboot : OperationRow where
  id := js "op-reboot-1"
  kind := js "reboot"
  status := .succeeded
  evidence := some (.object [("rebootedAt", .number 1801360800000)])

def legacyOffice (operations : List OperationRow) (now : ℤ) : LifecycleInputs where
  instanceRow := ⟨.suspended⟩
  asset := some ⟨js "asset-1", none, js "active", none⟩
  operations := operations
  subscription := some legacySubscription
  reinstatement := none
  now := now

lemma opens_cancelAsset :
    ∃ op ∈ (decideLifecycle (fun _ => none) (legacyOffice [latePowerOff] 1803776400000)).opened,
      op.kind = .cancelAsset := by
  have hopened : ((decideLifecycle (fun _ => none)
      (legacyOffice [latePowerOff] 1803776400000)).opened.map (·.kind)) =
        [.cancelAsset, .removeDns] := by
    decide +kernel
  exact List.mem_map.1 (hopened ▸ List.mem_cons_self)

/-- **The kind, the subscription and its end do not give the name of a power-off**: one that answers
a reboot is named after the reboot. **The retention may end before a month after the grace**: the
machine is powered off on 31 January at 1:00, two hours after the grace ended, and may be deleted on
28 February at 1:00, before the 23:00 of that day. -/
theorem cancelAsset_early_and_named_apart :
    (¬∀ inputs inputs' : LifecycleInputs, inputs.subscription = inputs'.subscription →
      ∀ op ∈ (decideLifecycle (fun _ => none) inputs).opened,
      ∀ op' ∈ (decideLifecycle (fun _ => none) inputs').opened, op.kind = op'.kind →
        op.id = op'.id) ∧
    ¬∀ inputs : LifecycleInputs, ∀ subscription endedAt, EndedByCustomer inputs subscription endedAt →
      subscription.cancellationPolicy = some .legacy →
      ∀ op ∈ (decideLifecycle (fun _ => none) inputs).opened, op.kind = .cancelAsset →
        addUtcMonth (graceEndOf (some .legacy) endedAt) ≤ inputs.now := by
  constructor
  · intro h
    have hids : ((decideLifecycle (fun _ => none) (legacyOffice [] 1801350000000)).opened.map
          (fun op => (op.kind, op.id))) = [(.powerOff, latePowerOff.id)] ∧
        ((decideLifecycle (fun _ => none)
          (legacyOffice [latePowerOff, lateReboot] 1801360800000)).opened.map
            fun op => (op.kind, op.id)) =
          [(.powerOff, correctivePowerOffId (js "sub_1") (js "op-reboot-1"))] := by
      decide +kernel
    obtain ⟨op, hop, heq⟩ := List.mem_map.1 (hids.1 ▸ List.mem_singleton_self _)
    obtain ⟨op', hop', heq'⟩ := List.mem_map.1 (hids.2 ▸ List.mem_singleton_self _)
    obtain ⟨hkind, hid⟩ := Prod.mk.inj heq
    obtain ⟨hkind', hid'⟩ := Prod.mk.inj heq'
    have hsame := h (legacyOffice [] 1801350000000)
      (legacyOffice [latePowerOff, lateReboot] 1801360800000) rfl op hop op' hop'
      (hkind.trans hkind'.symm)
    rw [hid, hid'] at hsame
    revert hsame
    decide
  · intro h
    obtain ⟨op, hop, hkind⟩ := opens_cancelAsset
    have hle := h (legacyOffice [latePowerOff] 1803776400000) legacySubscription 1800745200000
      ⟨rfl, rfl, rfl⟩ rfl op hop hkind
    revert hle
    decide +kernel

theorem cancelAsset_allowed_legacy :
    ∃ op ∈ (decideLifecycle (fun _ => none) (legacyOffice [latePowerOff] 1803776400000)).opened,
      op.kind = .cancelAsset ∧ ∃ subscription endedAt offAt retentionEnd,
        DeletionAllowed (legacyOffice [latePowerOff] 1803776400000) subscription endedAt offAt
          retentionEnd := by
  obtain ⟨op, hop, hkind⟩ := opens_cancelAsset
  obtain ⟨subscription, endedAt, -, -, hallowed⟩ := cancelAsset_allowed _ _ op hop
  exact ⟨op, hop, hkind, subscription, endedAt, hallowed hkind⟩

end Isomux
