import Mathlib.Data.Int.ConditionallyCompleteOrder
import Isomux.ControlPlane.LifecycleSafety

set_option autoImplicit false

/-!
# A machine that is on again is not deleted

After the power-off of the cancellation a machine may be rebooted. As long as no power-off answers
the reboot, the office is not in the phase of the deletion, whatever the time is. And time moves an
office forward only: with everything else fixed, it never gets back to a phase that it left.

The phases are ordered as an office goes through them. A reinstatement that is pending holds an
office in front of the others; when it is over the office goes on where it is by then.

## Main results

* `Isomux.monotone_phaseAt` — the phase does not go back.
* `Isomux.repower_safety` — no deletion while a reboot is unanswered, and no way back.
-/

namespace Isomux

/-! ## The order of the phases -/

def LifecyclePhase.place : LifecyclePhase → ℕ
  | .serving => 0
  | .reinstatementPending => 1
  | .checkoutExpiryDue => 2
  | .grace => 3
  | .powerOffDue => 4
  | .suspended => 5
  | .deprovisionDue => 6
  | .reinstated => 7
  | .ended => 8

variable (facts : TimelineFacts)

/-- Where the phase depends on the machine only, time moves it from `grace` to `powerOffDue` or from
`suspended` to `deprovisionDue`. -/
lemma monotone_powerPhase (endedAt : ℤ) :
    Monotone fun now => (powerPhase facts endedAt now).place := by
  intro now later hnow
  dsimp only
  unfold powerPhase
  dsimp only
  by_cases hoff : (facts.poweredOffAt.isSome && facts.repoweredAt.isNone) = true
  · rw [if_pos hoff, if_pos hoff]
    cases retentionEndOf facts.cancellationPolicy endedAt facts.poweredOffAt with
    | none => exact le_rfl
    | some retentionEnd =>
      dsimp only [Option.any_some]
      by_cases hdue : retentionEnd ≤ now
      · rw [if_pos (decide_eq_true hdue), if_pos (decide_eq_true (hdue.trans hnow))]
      · rw [if_neg (by simpa using hdue)]
        split_ifs
        · decide
        · exact le_rfl
  · rw [if_neg hoff, if_neg hoff]
    by_cases hlater : facts.cancellationPolicy ≠ some .launch ∧
        later < graceEndOf facts.cancellationPolicy endedAt
    · rw [if_pos hlater, if_pos ⟨hlater.1, hnow.trans_lt hlater.2⟩]
    · rw [if_neg hlater]
      split_ifs
      · decide
      · exact le_rfl

lemma grace_le_powerPhase (endedAt now : ℤ) :
    LifecyclePhase.grace.place ≤ (powerPhase facts endedAt now).place := by
  unfold powerPhase
  dsimp only
  split_ifs <;> decide

/-- A reinstatement that is pending comes before everything else. -/
lemma monotone_cancelledPhase (endedAt : ℤ) :
    Monotone fun now => (cancelledPhase facts endedAt now).place := by
  intro now later hnow
  have hpower := monotone_powerPhase facts endedAt hnow
  dsimp only at hpower ⊢
  unfold cancelledPhase
  split_ifs with hgone
  · exact le_rfl
  cases facts.reinstatement with
  | none => exact hpower
  | some r =>
    obtain ⟨state, attemptId, fenceExpiresAt, expiryProven⟩ := r
    cases state with
    | accepted => exact le_rfl
    | pending =>
      dsimp only
      by_cases hfence : later < fenceExpiresAt
      · rw [if_pos hfence, if_pos (hnow.trans_lt hfence)]
      · rw [if_neg hfence]
        cases expiryProven with
        | false =>
          rw [Bool.not_false, if_pos rfl, if_pos rfl]
          split_ifs
          · decide
          · exact le_rfl
        | true =>
          rw [Bool.not_true, if_neg Bool.false_ne_true, if_neg Bool.false_ne_true]
          split_ifs
          · exact le_trans (by decide)
              (grace_le_powerPhase facts endedAt later)
          · exact hpower
    | expired => exact hpower
    | attention => exact hpower

/-- **The phase does not go back.** -/
theorem monotone_phaseAt : Monotone fun now => (phaseAt facts now).phase.place := by
  intro now later hnow
  dsimp only
  unfold phaseAt
  cases facts.endedAt with
  | none => exact le_rfl
  | some endedAt =>
    dsimp only
    split_ifs
    · exact monotone_cancelledPhase facts endedAt hnow
    · exact le_rfl

/-! ## Decisions -/

lemma decideServing_phase (inputs : LifecycleInputs) : (decideServing inputs).phase = .serving := by
  unfold decideServing
  dsimp only
  split_ifs <;> rfl

lemma decideCancelled_phase (dateParse : JsString → Option ℤ) (inputs : LifecycleInputs)
    (subscription : SubscriptionFacts) (endedAt : ℤ) :
    (decideCancelled dateParse inputs subscription endedAt).phase =
      (inputs.state subscription endedAt).timeline.phase := by
  unfold decideCancelled
  dsimp only
  split <;> rfl

/-- **The phase of a decision**: `serving`, or the one of the timeline of a cancellation. -/
lemma decideLifecycle_phase (dateParse : JsString → Option ℤ) (inputs : LifecycleInputs) :
    (decideLifecycle dateParse inputs).phase =
      match inputs.subscription with
      | none => .serving
      | some subscription =>
        match subscription.endedAt with
        | none => .serving
        | some endedAt =>
          if isCustomerCancellation subscription.endedAt subscription.cancellationReason then
            (inputs.state subscription endedAt).timeline.phase
          else .serving := by
  unfold decideLifecycle
  cases inputs.subscription with
  | none => rfl
  | some subscription =>
    dsimp only
    cases hended : subscription.endedAt with
    | none => exact decideServing_phase inputs
    | some endedAt =>
      dsimp only
      split_ifs
      · exact decideCancelled_phase dateParse inputs subscription endedAt
      · exact decideServing_phase inputs

/-! ## Reboots that are not answered -/

/-- A reboot that succeeded, later than every proven power-off of the cancellation. Where its instant
is not known, no later power-off that succeeded names it. -/
def Unanswered (operations : List OperationRow) (subscriptionId : JsString) (endedAt : ℤ)
    (reboot : OperationRow) : Prop :=
  reboot ∈ operations ∧ reboot.kind = OperationKind.reboot.name ∧ reboot.status = .succeeded ∧
    match numberEvidence reboot "rebootedAt" with
    | some rebootedAt =>
      ∀ offAt, ProvenOffAt operations subscriptionId endedAt offAt → offAt < rebootedAt
    | none =>
      ∀ op ∈ correctionRows operations subscriptionId endedAt,
        stringEvidence op "correctiveFor" ≠ some reboot.id ∧
          reboot.id ∉ stringArrayEvidence op "answeredReboots"

lemma not_rebootsAnswered {operations : List OperationRow} {subscriptionId : JsString} {endedAt : ℤ}
    {reboot : OperationRow} (h : Unanswered operations subscriptionId endedAt reboot) :
    ¬RebootsAnswered operations subscriptionId endedAt := by
  obtain ⟨hmem, hkind, hstatus, htest⟩ := h
  intro hall
  have hanswer := hall reboot hmem hkind hstatus
  cases hat : numberEvidence reboot "rebootedAt" with
  | some rebootedAt =>
    rw [hat] at htest hanswer
    obtain ⟨offAt, hproven, hle⟩ := hanswer
    exact absurd (htest offAt hproven) (not_lt.2 hle)
  | none =>
    rw [hat] at htest hanswer
    obtain ⟨op, hop, hnames⟩ := hanswer
    obtain ⟨hfirst, hsecond⟩ := htest op hop
    exact hnames.elim hfirst hsecond

lemma rebootsAnswered_of_phase {inputs : LifecycleInputs} {subscription : SubscriptionFacts}
    {endedAt : ℤ}
    (h : (inputs.state subscription endedAt).timeline.phase = .deprovisionDue) :
    RebootsAnswered inputs.operations subscription.id endedAt := by
  have hphase : ∀ facts : TimelineFacts, (phaseAt facts inputs.now).phase = .deprovisionDue →
      ∃ offAt, facts.poweredOffAt = some offAt ∧ facts.repoweredAt = none := by
    intro facts hdue
    unfold phaseAt at hdue
    split at hdue
    · split_ifs at hdue
      · obtain ⟨-, -, hpower⟩ := cancelledPhase_deprovisionDue hdue
        obtain ⟨offAt, -, hoffAt, hnone, -⟩ := powerPhase_deprovisionDue hpower
        exact ⟨offAt, hoffAt, hnone⟩
    · cases hdue
  obtain ⟨first, hfirst, hnone⟩ := hphase _ h
  dsimp only at hfirst hnone
  rw [hfirst] at hnone
  exact rebootsAnswered_of_repowerFacts hfirst hnone

lemma assetGone_of_phase {inputs : LifecycleInputs} {subscription : SubscriptionFacts} {endedAt : ℤ}
    (h : (inputs.state subscription endedAt).timeline.phase = .ended) :
    isAssetGone inputs.asset = true := by
  have hpower : ∀ (facts : TimelineFacts) (endedAt now : ℤ),
      powerPhase facts endedAt now ≠ .ended := by
    intro facts endedAt now
    unfold powerPhase
    dsimp only
    split_ifs <;> exact (nomatch ·)
  have hphase : ∀ facts : TimelineFacts, (phaseAt facts inputs.now).phase = .ended →
      facts.assetGone = true := by
    intro facts hended
    unfold phaseAt cancelledPhase at hended
    split at hended
    · split_ifs at hended with hcustomer hgone
      · exact hgone
      · split at hended
        · cases hended
        · split_ifs at hended
          exact absurd hended (hpower _ _ _)
        · exact absurd hended (hpower _ _ _)
    · cases hended
  exact hphase _ h

/-- **A machine that is on again is not deleted, and time moves an office forward only.**

While a reboot that succeeded after the last proven power-off is not answered, the decision is in no
phase of a deletion and opens none: the asset is not cancelled, and its name is taken away only when
the provider has taken the asset away itself. And with all facts fixed the place of the phase that is
reported is monotone in the time. -/
theorem repower_safety (dateParse : JsString → Option ℤ) (inputs : LifecycleInputs) :
    (∀ subscription endedAt reboot, EndedByCustomer inputs subscription endedAt →
      Unanswered inputs.operations subscription.id endedAt reboot →
        (decideLifecycle dateParse inputs).phase ≠ .deprovisionDue ∧
        ∀ op ∈ (decideLifecycle dateParse inputs).opened,
          op.kind ≠ .cancelAsset ∧ (op.kind = .removeDns → isAssetGone inputs.asset = true)) ∧
    Monotone fun now => (decideLifecycle dateParse { inputs with now := now }).phase.place := by
  constructor
  · intro subscription endedAt reboot hended hreboot
    have hnot := not_rebootsAnswered hreboot
    have hphase : (inputs.state subscription endedAt).timeline.phase ≠ .deprovisionDue :=
      fun hdue => hnot (rebootsAnswered_of_phase hdue)
    constructor
    · rw [decideLifecycle_phase, hended.linked]
      dsimp only
      rw [hended.ended]
      dsimp only
      split_ifs
      · exact hphase
      · exact (nomatch ·)
    · intro op hop
      obtain ⟨other, otherEnd, hother, hopened⟩ := decideLifecycle_cases hop
      obtain rfl := Option.some.inj (hended.linked.symm.trans hother.linked)
      obtain rfl := Option.some.inj (hended.ended.symm.trans hother.ended)
      cases hin : (inputs.state subscription endedAt).timeline.phase with
      | deprovisionDue => exact absurd hin hphase
      | ended =>
        rw [hin] at hopened
        refine ⟨?_, fun _ => assetGone_of_phase hin⟩
        rw [hopened.1]
        exact (nomatch ·)
      | checkoutExpiryDue =>
        rw [hin] at hopened
        rw [hopened.1]
        exact ⟨(nomatch ·), (nomatch ·)⟩
      | powerOffDue =>
        rw [hin] at hopened
        obtain rfl : op = _ := hopened
        exact ⟨(nomatch ·), (nomatch ·)⟩
      | _ =>
        rw [hin] at hopened
        exact hopened.elim
  · intro now later hnow
    dsimp only
    rw [decideLifecycle_phase, decideLifecycle_phase]
    dsimp only
    cases inputs.subscription with
    | none => exact le_rfl
    | some subscription =>
      dsimp only
      cases subscription.endedAt with
      | none => exact le_rfl
      | some endedAt =>
        dsimp only
        split_ifs
        · exact monotone_phaseAt _ hnow
        · exact le_rfl

theorem repower_safety_lateReboot :
    (decideLifecycle (fun _ => none)
      (legacyOffice [latePowerOff, lateReboot] 1900000000000)).phase ≠ .deprovisionDue := by
  refine ((repower_safety (fun _ => none) (legacyOffice [latePowerOff, lateReboot]
    1900000000000)).1 legacySubscription 1800745200000 lateReboot ⟨rfl, rfl, rfl⟩
      ⟨List.mem_cons_of_mem _ List.mem_cons_self, by decide, rfl, ?_⟩).1
  have hevidence : numberEvidence lateReboot "rebootedAt" = some 1801360800000 ∧
      numberEvidence lateReboot "poweredOffAt" = none ∧
      numberEvidence latePowerOff "poweredOffAt" = some 1801357200000 := by decide +kernel
  obtain ⟨hreboot, hnone, hoff⟩ := hevidence
  rw [hreboot]
  rintro offAt ⟨op, hop, -, hat, -⟩
  rcases List.mem_cons.1 hop with rfl | hop
  · obtain rfl := Option.some.inj (hoff.symm.trans hat)
    norm_num
  · obtain rfl := List.mem_singleton.1 hop
    rw [hnone] at hat
    cases hat

end Isomux
