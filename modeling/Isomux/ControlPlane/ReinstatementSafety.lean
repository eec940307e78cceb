import Isomux.ControlPlane.Reinstatement
import Mathlib.Data.List.Perm.Basic

set_option autoImplicit false

/-!
# An accepted reinstatement is final

Two of the writes to the row of an attempt do not look at its state: the one that records a session
names the generation alone, and the one that begins a new generation names the id alone. A Checkout
that was overtaken by the payment can take an accepted attempt back with either. Where neither comes
too late, an accepted attempt stays as it is and the office is governed by its subscription.

## Main results

* `Isomux.Reinstatement.step_effect` — the effect of a step in time.
* `Isomux.Reinstatement.Effect.exists_rowStep`, `Isomux.Reinstatement.Effect.fresh` — the rows behind a step.
* `Isomux.Reinstatement.Sound.step` — a step keeps the invariant.
* `Isomux.Reinstatement.reinstatement_final` — the rows along a run.
* `Isomux.Reinstatement.reinstatement_undone` — writes that come too late.
-/

namespace Isomux.Reinstatement

open Office

/-! ## Writes in time -/

/-- The write of an overtaken Checkout does not meet an attempt that was accepted, or one of a later
generation. -/
def Office.inTime (s : Office) : Event → Bool
  | .recordSession prepared _ _ =>
    (s.attempts.find prepared.attemptId).all fun row =>
      row.checkoutGeneration ≠ prepared.generation || row.state ≠ .accepted
  | .writeAttempt i =>
    match (s.preparing[i]?).map (·.stage) with
    | some (PrepareStage.read closed _ _ (some existing)) =>
      existing.state ≠ .expired ||
        (s.attempts.find (reinstatementAttemptId closed.id)).all fun row =>
          row.state ≠ .accepted && row.checkoutGeneration ≤ existing.checkoutGeneration + 1
    | _ => true
  | _ => true

/-- An attempt may be accepted on what a transaction reads: it is pending, its time is not over, the
office may come back, and the account is that of the subscription. -/
structure Entitled (s : Office) (row : AttemptRow) (accountId : JsString) (facts : Facts)
    (reservation : ReservationRow) (now : ℤ) : Prop where
  pending : row.state = .pending
  unexpired : now < row.fenceExpiresAt
  notStarted : facts.expiryStarted = false
  eligible : ∃ closed, s.subscriptions.find row.closedSubscriptionId = some closed ∧
    checkReinstatementEligibility facts s.subscriptions.rows reservation closed now = .ok ()
  account : row.accountId = accountId

/-! ## What a step does -/

/-- What a step does to the row of an attempt. -/
inductive RowStep (s : Office) (row : AttemptRow) : AttemptRow → Prop
  | same : RowStep s row row
  | reopened (generation : ℕ) (now stripeExpiresAt : ℤ) (hstate : row.state ≠ .accepted)
    (hgeneration : row.checkoutGeneration ≤ generation) :
    RowStep s row (Office.reopened generation now stripeExpiresAt row)
  /-- A session is recorded that was created for the generation. -/
  | opened (sessionId : JsString) (now : ℤ) (hstate : row.state ≠ .accepted)
    (hsession : (row.id, row.checkoutGeneration, sessionId) ∈ s.sessions) :
    RowStep s row { inState .pending now row with checkoutSessionId := some sessionId }
  | expired (now : ℤ) (hstate : row.state ≠ .accepted) : RowStep s row (inState .expired now row)
  | accepted (fetched : Fetched) (facts : Facts) (reservation : ReservationRow) (now : ℤ)
    (accountId : JsString) (hentitled : Entitled s row accountId facts reservation now) :
    RowStep s row (accept fetched.id now row)

structure Fresh (s : Office) (row : AttemptRow) : Prop where
  id : row.id = reinstatementAttemptId row.closedSubscriptionId
  instanceId : row.instanceId = s.instanceId
  state : row.state = .opening
  session : row.checkoutSessionId = none

lemma accept_id {subscriptionId : JsString} {now : ℤ} {row : AttemptRow} :
    (accept subscriptionId now row).id = row.id := rfl

inductive Effect (s : Office) (event : Event) (s' : Office) : Prop
  | quiet (hattempts : s'.attempts = s.attempts) (hsessions : s'.sessions = s.sessions)
    (happlying : s'.applying.Sublist s.applying)
    (hsubscriptions : ∀ id, s.subscriptions.Has id → s'.subscriptions.Has id)
  | created (entry : JsString × ℕ × JsString) (hattempts : s'.attempts = s.attempts)
    (hsessions : s'.sessions = entry :: s.sessions)
    (hdistinct : ∀ other ∈ s.sessions, other.2.2 ≠ entry.2.2)
    (happlying : s'.applying = s.applying) (hsubscriptions : s'.subscriptions = s.subscriptions)
  | inserted (row : AttemptRow) (hinsert : s.attempts.insert row = some s'.attempts)
    (hfresh : Fresh s row) (hsessions : s'.sessions = s.sessions)
    (happlying : s'.applying = s.applying) (hsubscriptions : s'.subscriptions = s.subscriptions)
  /-- The row of an attempt is written that nobody holds. -/
  | written (k : JsString) (f : AttemptRow → AttemptRow) (hf : ∀ row, (f row).id = row.id)
    (hfree : s.locked k = false) (hattempts : s'.attempts = s.attempts.update k f hf)
    (hrow : ∀ row, s.attempts.find k = some row →
      RowStep s row (f row) ∧ ((f row).state = .accepted → row.state = .accepted))
    (hsessions : s'.sessions = s.sessions) (happlying : s'.applying = s.applying)
    (hsubscriptions : s'.subscriptions = s.subscriptions)
  /-- The row of an attempt is locked that nobody holds. -/
  | lock (t : Apply) (hfree : s.locked t.attempt.id = false)
    (hfind : s.attempts.find t.attempt.id = some t.attempt) (hattempts : s'.attempts = s.attempts)
    (hsessions : s'.sessions = s.sessions) (happlying : s'.applying = s.applying ++ [t])
    (hsubscriptions : s'.subscriptions = s.subscriptions)
  /-- An attempt is accepted, and its row is free again. -/
  | accepted (i : ℕ) (t : Apply) (facts : Facts) (reservation : ReservationRow) (now : ℤ)
    (hevent : event = .commitEvent i facts (some reservation) now) (ht : s.applying[i]? = some t)
    (hattempts : s'.attempts = s.attempts.update t.attempt.id (accept t.fetched.id now)
      fun _ => accept_id)
    (hentitled : Entitled s t.attempt ((t.row.map (·.accountId)).getD t.fetched.accountId) facts
      reservation now)
    (hsessions : s'.sessions = s.sessions) (happlying : s'.applying = s.applying.eraseIdx i)
    (hsubscriptions : ∀ id, s.subscriptions.Has id → s'.subscriptions.Has id)
    (linked : SubscriptionRow) (hlinked : s'.subscriptions.find t.fetched.id = some linked)
    (haccount : linked.accountId = (t.row.map (·.accountId)).getD t.fetched.accountId)

section Effects

variable {s : Office} {event : Event}

lemma updateWhere_effect {k : JsString} {where_ : AttemptRow → Bool}
    {change : AttemptRow → AttemptRow} {hchange : ∀ row, (change row).id = row.id}
    (hrow : ∀ row, s.attempts.find k = some row → where_ row = true →
      RowStep s row (change row) ∧ (change row).state ≠ .accepted) :
    Effect s event (s.updateWhere k where_ change hchange) := by
  unfold updateWhere
  split_ifs with hlocked
  · exact .quiet rfl rfl (List.Sublist.refl _) fun _ => id
  · have hkey : ∀ row, (if where_ row then change row else row).id = row.id := fun row => by
      split_ifs
      · exact hchange row
      · rfl
    refine .written k _ hkey (eq_false_of_ne_true hlocked) rfl (fun row hfind => ?_) rfl rfl rfl
    split_ifs with hwhere
    · obtain ⟨hstep, hstate⟩ := hrow row hfind hwhere
      exact ⟨hstep, fun h => absurd h hstate⟩
    · exact ⟨.same, id⟩

lemma writeAttempt_effect {i : ℕ} {t : Prepare} {closed : SubscriptionRow} {endedAt now : ℤ}
    {existing : Option AttemptRow}
    (hinTime : ∀ e, existing = some e → e.state = .expired → ∀ row,
      s.attempts.find (reinstatementAttemptId closed.id) = some row →
      row.state ≠ .accepted ∧ row.checkoutGeneration ≤ e.checkoutGeneration + 1) :
    Effect s event (s.writeAttempt i t closed endedAt now existing) := by
  unfold Office.writeAttempt
  cases existing with
  | none =>
    dsimp only
    split_ifs
    · exact .quiet rfl rfl (List.Sublist.refl _) fun _ => id
    · cases hinsert : s.attempts.insert (s.firstAttempt t closed endedAt now) with
      | none => exact .quiet rfl rfl (List.Sublist.refl _) fun _ => id
      | some attempts => exact .inserted _ hinsert ⟨rfl, rfl, rfl, rfl⟩ rfl rfl rfl
  | some e =>
    dsimp only
    split_ifs with hexpired hlocked
    · exact .quiet rfl rfl (List.Sublist.refl _) fun _ => id
    · exact .quiet rfl rfl (List.Sublist.refl _) fun _ => id
    · refine .written _ (reopened _ _ _) (fun _ => rfl) (eq_false_of_ne_true hlocked) rfl
        (fun row hfind => ?_) rfl rfl rfl
      have hstate : e.state = .expired := of_not_not hexpired
      obtain ⟨haccepted, hgeneration⟩ := hinTime e rfl hstate row hfind
      refine ⟨.reopened _ _ _ haccepted ?_, nofun⟩
      rw [nextGeneration, if_pos hstate]
      exact hgeneration

variable {t : Apply} {now : ℤ}

lemma entitled_of_links {facts : Facts} {reservation : Option ReservationRow}
    (h : s.links t facts reservation now = true) :
    ∃ reserved, reservation = some reserved ∧
      Entitled s t.attempt ((t.row.map (·.accountId)).getD t.fetched.accountId) facts reserved now := by
  rw [links, Bool.and_eq_true, Bool.and_eq_true, Bool.not_eq_true'] at h
  obtain ⟨⟨hterminal, -⟩, -⟩ := h
  unfold terminalRefusal at hterminal
  split at hterminal
  · rename_i reservation closed hclosed
    simp only [Bool.or_eq_false_iff, decide_eq_false_iff_not, not_not, not_le,
      Bool.not_eq_false'] at hterminal
    obtain ⟨⟨⟨⟨⟨hstate, -⟩, haccount⟩, hexpiry⟩, hfence⟩, heligible⟩ := hterminal
    refine ⟨reservation, rfl, hstate, hfence, hexpiry, ⟨closed, hclosed, ?_⟩, haccount⟩
    cases hcheck : checkReinstatementEligibility facts s.subscriptions.rows reservation closed now with
    | ok u => rfl
    | error refusal =>
      rw [hcheck] at heligible
      cases heligible
  · cases hterminal

lemma has_put (row : SubscriptionRow) {id : JsString} (h : s.subscriptions.Has id) :
    (s.subscriptions.put row).Has id := by
  rw [KeyedTable.has_iff_find, KeyedTable.find_put]
  split_ifs with hid
  · exact ⟨row, rfl⟩
  · exact KeyedTable.has_iff_find.1 h

lemma fetchedRow_id {instanceId : Option JsString}
    (h : s.subscriptions.find t.fetched.id = t.row) :
    (fetchedRow t instanceId now).id = t.fetched.id := by
  unfold fetchedRow
  cases hrow : t.row with
  | none => rfl
  | some row => exact (KeyedTable.find_eq_some_iff.1 (h.trans hrow)).2

lemma fetchedRow_accountId {instanceId : Option JsString} :
    (fetchedRow t instanceId now).accountId =
      (t.row.map (·.accountId)).getD t.fetched.accountId := by
  unfold fetchedRow
  cases t.row <;> rfl

lemma commitEvent_effect {i : ℕ} {facts : Facts} {reservation : Option ReservationRow}
    (ht : s.applying[i]? = some t) :
    Effect s (.commitEvent i facts reservation now)
      (s.commitEvent i t facts reservation now) := by
  have hsublist : (s.applying.eraseIdx i).Sublist s.applying := List.eraseIdx_sublist _ _
  unfold commitEvent
  split_ifs with hread hlinks htaken
  · exact .quiet rfl rfl hsublist fun _ => id
  · exact .quiet rfl rfl hsublist fun _ => id
  · have hread : s.subscriptions.find t.fetched.id = t.row := of_not_not hread
    obtain ⟨reserved, rfl, hentitled⟩ := entitled_of_links hlinks
    refine .accepted i t facts reserved now rfl ht rfl hentitled rfl rfl
      (fun _ h => has_put _ h) (fetchedRow t (some t.fetched.instanceId) now) ?_
      fetchedRow_accountId
    rw [KeyedTable.find_put, if_pos (fetchedRow_id hread)]
  · exact .quiet rfl rfl hsublist fun _ h => has_put _ h

lemma prepareStep_effect {i : ℕ} {t : Prepare} (ht : s.preparing[i]? = some t)
    (hevent : ∀ j, event = .writeAttempt j → j = i)
    (hinTime : s.inTime event = true) : Effect s event (s.prepareStep i t event) := by
  have hquiet : ∀ preparing prepared, Effect s event { s with preparing, prepared } := fun _ _ =>
    .quiet rfl rfl (List.Sublist.refl _) fun _ => id
  unfold prepareStep
  split
  all_goals first | exact hquiet _ _ | skip
  · split <;> exact hquiet _ _
  · split
    · split <;> exact hquiet _ _
    · exact hquiet _ _
  · split
    · split <;> exact hquiet _ _
    · exact hquiet _ _
  · split
    · dsimp only
      split_ifs <;> exact hquiet _ _
    · exact hquiet _ _
  · split
    · rename_i j _ closed endedAt now existing hstage
      refine writeAttempt_effect fun e he hexpired row hfind => ?_
      obtain rfl := hevent j rfl
      subst he
      simp only [inTime, ht, Option.map_some, hstage, hexpired, hfind] at hinTime
      simpa using hinTime
    · exact hquiet _ _

lemma onPrepare_effect {i : ℕ} (hevent : ∀ j, event = .writeAttempt j → j = i)
    (hinTime : s.inTime event = true) : Effect s event (s.onPrepare i event) := by
  unfold onPrepare
  cases ht : s.preparing[i]? with
  | none => exact .quiet rfl rfl (List.Sublist.refl _) fun _ => id
  | some t => exact prepareStep_effect ht hevent hinTime

/-- **Effects.** The effect of a step in time. -/
theorem step_effect (hinTime : s.inTime event = true) :
    Effect s event (s.step event) := by
  have hquiet : Effect s event s := .quiet rfl rfl (List.Sublist.refl _) fun _ => id
  cases event with
  | beginPrepare accountId reservation account planKnown stripeCallPreparedAt =>
    dsimp only [step, beginPrepare]
    split_ifs
    · exact hquiet
    · exact .quiet rfl rfl (List.Sublist.refl _) fun _ => id
  | selectAccepted i | selectClosed i | checkEligible i facts now | readAttempt i =>
    exact onPrepare_effect (by simp) hinTime
  | writeAttempt i => exact onPrepare_effect (fun j h => (Event.writeAttempt.inj h).symm) hinTime
  | abortPrepare i => exact .quiet rfl rfl (List.Sublist.refl _) fun _ => id
  | createSession prepared sessionId =>
    dsimp only [step, createSession]
    split_ifs with h
    · exact .created _ rfl rfl h.2 rfl rfl
    · exact hquiet
  | recordSession prepared sessionId now =>
    dsimp only [step]
    split_ifs with h
    · refine updateWhere_effect fun row hfind hwhere => ⟨?_, by rintro ⟨⟩⟩
      have hgeneration : row.checkoutGeneration = prepared.generation := of_decide_eq_true hwhere
      obtain ⟨-, hid⟩ := KeyedTable.find_eq_some_iff.1 hfind
      have hstate : row.state ≠ .accepted := by
        simpa [inTime, hfind, hgeneration] using hinTime
      refine .opened sessionId now hstate ?_
      rw [hid, hgeneration]
      exact h.2
    · exact hquiet
  | recordCheckoutFailure prepared now =>
    dsimp only [step]
    split_ifs
    · refine updateWhere_effect fun row _ hwhere => ⟨.expired now fun h => ?_, by rintro ⟨⟩⟩
      simp [h] at hwhere
    · exact hquiet
  | recordFetchedExpired attemptId sessionId now =>
    dsimp only [step, Office.recordFetchedExpired]
    refine updateWhere_effect fun row _ hwhere => ⟨.expired now fun h => ?_, by rintro ⟨⟩⟩
    simp [h] at hwhere
  | lockAttempt fetched =>
    dsimp only [step, lockAttempt]
    split
    · exact hquiet
    · rename_i attempt hfind
      obtain ⟨-, hid⟩ := KeyedTable.find_eq_some_iff.1 hfind
      split_ifs with h
      · exact hquiet
      · rw [Bool.or_eq_true, not_or] at h
        exact .lock _ (eq_false_of_ne_true h.1) (hid.symm ▸ hfind) rfl rfl rfl rfl
  | commitEvent i facts reservation now =>
    dsimp only [step]
    split
    · exact hquiet
    · rename_i t ht
      exact commitEvent_effect ht
  | abortEvent i => exact .quiet rfl rfl (List.eraseIdx_sublist _ _) fun _ => id
  | otherEvent row =>
    dsimp only [step, Office.otherEvent]
    split
    · exact .quiet rfl rfl (List.Sublist.refl _) fun _ h => has_put _ h
    · exact .quiet rfl rfl (List.Sublist.refl _) fun _ h => has_put _ h

end Effects

/-! ## The rows behind a step -/

section Rows

variable {s s' : Office} {event : Event} {row row' : AttemptRow}

lemma RowStep.keeps (h : RowStep s row row') :
    row'.id = row.id ∧ row'.closedSubscriptionId = row.closedSubscriptionId ∧
      row'.instanceId = row.instanceId ∧ row.checkoutGeneration ≤ row'.checkoutGeneration := by
  cases h with
  | reopened generation now stripeExpiresAt hstate hgeneration =>
    exact ⟨rfl, rfl, rfl, hgeneration⟩
  | same | opened sessionId now hstate hsession | expired now hstate
  | accepted fetched facts reservation now accountId hentitled => exact ⟨rfl, rfl, rfl, le_rfl⟩

lemma RowStep.eq_of_accepted (h : RowStep s row row') (haccepted : row.state = .accepted) :
    row' = row := by
  cases h with
  | same => rfl
  | reopened generation now stripeExpiresAt hstate | opened sessionId now hstate
  | expired now hstate => exact absurd haccepted hstate
  | accepted fetched facts reservation now accountId hentitled =>
    have hpending := hentitled.pending
    rw [haccepted] at hpending
    cases hpending

lemma RowStep.session (h : RowStep s row row') {sessionId : JsString}
    (hsession : row'.checkoutSessionId = some sessionId) :
    (row'.id, row'.checkoutGeneration, sessionId) ∈ s.sessions ∨
      row.checkoutSessionId = some sessionId ∧ row'.checkoutGeneration = row.checkoutGeneration := by
  cases h with
  | same | expired now hstate | accepted fetched facts reservation now accountId hentitled =>
    exact .inr ⟨hsession, rfl⟩
  | reopened generation now stripeExpiresAt hstate hgeneration => cases hsession
  | opened opened now hstate hcreated =>
    obtain rfl : opened = sessionId := Option.some.inj hsession
    exact .inl hcreated

lemma exists_rowStep_update {k id : JsString} {f : AttemptRow → AttemptRow}
    {hf : ∀ row, (f row).id = row.id} (hstep : ∀ row, s.attempts.find k = some row → RowStep s row (f row))
    (hrow : s.attempts.find id = some row) :
    ∃ row', (s.attempts.update k f hf).find id = some row' ∧ RowStep s row row' := by
  rw [KeyedTable.find_update, hrow]
  split_ifs with hid
  · subst hid
    exact ⟨f row, rfl, hstep row hrow⟩
  · exact ⟨row, rfl, .same⟩

def Held (s : Office) : Prop := ∀ t ∈ s.applying, s.attempts.find t.attempt.id = some t.attempt

/-- **Rows.** The row of an attempt behind a step. -/
theorem Effect.exists_rowStep (h : Effect s event s') (hheld : Held s) {id : JsString}
    (hrow : s.attempts.find id = some row) :
    ∃ row', s'.attempts.find id = some row' ∧ RowStep s row row' := by
  cases h with
  | quiet hattempts | created entry hattempts | lock t hfree hfind hattempts =>
    exact ⟨row, hattempts ▸ hrow, .same⟩
  | inserted first hinsert =>
    obtain ⟨hfresh, -⟩ := KeyedTable.insert_eq_some hinsert
    have hne : first.id ≠ id := by
      rintro rfl
      exact hfresh (KeyedTable.has_iff_find.2 ⟨row, hrow⟩)
    refine ⟨row, ?_, .same⟩
    rw [KeyedTable.find_insert hinsert, if_neg hne]
    exact hrow
  | written k f hf hfree hattempts hstep =>
    rw [hattempts]
    exact exists_rowStep_update (fun row hfind => (hstep row hfind).1) hrow
  | accepted i t facts reservation now hevent ht hattempts hentitled =>
    rw [hattempts]
    refine exists_rowStep_update (fun row hfind => ?_) hrow
    have hattempt := hheld t (List.mem_of_getElem? ht)
    obtain rfl : t.attempt = row := Option.some.inj (hattempt.symm.trans hfind)
    exact .accepted t.fetched facts reservation now _ hentitled

theorem Effect.fresh (h : Effect s event s') {id : JsString} (hnone : s.attempts.find id = none)
    (hrow : s'.attempts.find id = some row) : Fresh s row := by
  have hkept : s'.attempts = s.attempts → Fresh s row := by
    intro hattempts
    rw [hattempts, hnone] at hrow
    cases hrow
  have hupdated : ∀ k f hf, s'.attempts = s.attempts.update k f hf → Fresh s row := by
    intro k f hf hattempts
    rw [hattempts, KeyedTable.find_update, hnone, Option.map_none, ite_self] at hrow
    cases hrow
  cases h with
  | quiet hattempts => exact hkept hattempts
  | created entry hattempts => exact hkept hattempts
  | lock t hfree hfind hattempts => exact hkept hattempts
  | inserted first hinsert hfresh =>
    rw [KeyedTable.find_insert hinsert] at hrow
    split_ifs at hrow with hid
    · exact Option.some.inj hrow ▸ hfresh
    · rw [hnone] at hrow
      cases hrow
  | written k f hf hfree hattempts => exact hupdated k f hf hattempts
  | accepted i t facts reservation now hevent ht hattempts => exact hupdated _ _ _ hattempts

lemma Effect.origin (h : Effect s event s') (hheld : Held s) (hrow : row' ∈ s'.attempts.rows) :
    Fresh s row' ∨ ∃ row ∈ s.attempts.rows, RowStep s row row' := by
  have hfind' := KeyedTable.find_of_mem hrow
  cases hfind : s.attempts.find row'.id with
  | none => exact .inl (h.fresh hfind hfind')
  | some row =>
    obtain ⟨next, hnext, hstep⟩ := h.exists_rowStep hheld hfind
    obtain rfl : next = row' := Option.some.inj (hnext.symm.trans hfind')
    exact .inr ⟨row, (KeyedTable.find_eq_some_iff.1 hfind).1, hstep⟩

end Rows

/-! ## The invariant -/

structure Sound (s : Office) : Prop where
  keys : ∀ row ∈ s.attempts.rows,
    row.id = reinstatementAttemptId row.closedSubscriptionId ∧ row.instanceId = s.instanceId
  sessions : ∀ row ∈ s.attempts.rows, ∀ sessionId, row.checkoutSessionId = some sessionId →
    (row.id, row.checkoutGeneration, sessionId) ∈ s.sessions
  distinct : ∀ entry ∈ s.sessions, ∀ other ∈ s.sessions, entry.2.2 = other.2.2 → entry = other
  held : Held s
  holders : (s.applying.map (·.attempt.id)).Nodup
  named : ∀ row ∈ s.attempts.rows, row.state = .accepted →
    ∃ id, row.newSubscriptionId = some id ∧ s.subscriptions.Has id

lemma start_sound (instanceId : JsString) (subscriptions : KeyedTable SubscriptionRow.id) :
    Sound (start instanceId subscriptions) where
  keys _ h := absurd h List.not_mem_nil
  sessions _ h := absurd h List.not_mem_nil
  distinct _ h := absurd h List.not_mem_nil
  held _ h := absurd h List.not_mem_nil
  holders := List.nodup_nil
  named _ h := absurd h List.not_mem_nil

lemma step_instanceId {s : Office} {event : Event} : (s.step event).instanceId = s.instanceId := by
  cases event
  all_goals
    simp only [step, beginPrepare, onPrepare, prepareStep, advance, endPrepare,
      Office.writeAttempt, createSession, updateWhere, Office.recordSession,
      Office.recordCheckoutFailure, Office.recordFetchedExpired, lockAttempt, commitEvent, endApply,
      Office.otherEvent]
    repeat' split
    all_goals rfl

section Step

variable {s s' : Office} {event : Event}

lemma Effect.sessions_subset (h : Effect s event s') {entry : JsString × ℕ × JsString}
    (hentry : entry ∈ s.sessions) : entry ∈ s'.sessions := by
  cases h with
  | created other hattempts hsessions => exact hsessions ▸ List.mem_cons_of_mem _ hentry
  | quiet hattempts hsessions | inserted row hinsert hfresh hsessions
  | written k f hf hfree hattempts hrow hsessions | lock t hfree hfind hattempts hsessions
  | accepted i t facts reservation now hevent ht hattempts hentitled hsessions =>
    exact hsessions ▸ hentry

lemma Effect.has_subscription (h : Effect s event s') {id : JsString} (hid : s.subscriptions.Has id) :
    s'.subscriptions.Has id := by
  cases h with
  | quiet hattempts hsessions happlying hsubscriptions => exact hsubscriptions id hid
  | created other hattempts hsessions hdistinct happlying hsubscriptions =>
    exact hsubscriptions ▸ hid
  | inserted row hinsert hfresh hsessions happlying hsubscriptions
  | lock t hfree hfind hattempts hsessions happlying hsubscriptions => exact hsubscriptions ▸ hid
  | written k f hf hfree hattempts hrow hsessions happlying hsubscriptions =>
    exact hsubscriptions ▸ hid
  | accepted i t facts reservation now hevent ht hattempts hentitled hsessions happlying hsubscriptions =>
    exact hsubscriptions id hid

lemma Effect.distinct (h : Effect s event s')
    (hs : ∀ entry ∈ s.sessions, ∀ other ∈ s.sessions, entry.2.2 = other.2.2 → entry = other) :
    ∀ entry ∈ s'.sessions, ∀ other ∈ s'.sessions, entry.2.2 = other.2.2 → entry = other := by
  cases h with
  | created first hattempts hsessions hdistinct =>
    rw [hsessions]
    intro entry hentry other hother hid
    rcases List.mem_cons.1 hentry with rfl | hold <;> rcases List.mem_cons.1 hother with rfl | hold'
    · rfl
    · exact absurd hid.symm (hdistinct other hold')
    · exact absurd hid (hdistinct entry hold)
    · exact hs entry hold other hold' hid
  | quiet hattempts hsessions => exact hsessions ▸ hs
  | inserted row hinsert hfresh hsessions => exact hsessions ▸ hs
  | written k f hf hfree hattempts hrow hsessions => exact hsessions ▸ hs
  | lock t hfree hfind hattempts hsessions => exact hsessions ▸ hs
  | accepted i t facts reservation now hevent ht hattempts hentitled hsessions => exact hsessions ▸ hs

lemma ne_of_locked {k : JsString} (hfree : s.locked k = false) {t : Apply} (ht : t ∈ s.applying) :
    t.attempt.id ≠ k := by
  rintro rfl
  rw [locked, List.any_eq_false] at hfree
  exact hfree t ht (decide_eq_true rfl)

lemma ne_of_mem_eraseIdx (hs : (s.applying.map (·.attempt.id)).Nodup) {i : ℕ} {t other : Apply}
    (ht : s.applying[i]? = some t) (hother : other ∈ s.applying.eraseIdx i) :
    other.attempt.id ≠ t.attempt.id := by
  obtain ⟨hi, rfl⟩ := List.getElem?_eq_some_iff.1 ht
  have hperm := (List.getElem_cons_eraseIdx_perm hi).map (·.attempt.id)
  have hnodup := hperm.nodup_iff.2 hs
  rw [List.map_cons, List.nodup_cons] at hnodup
  intro heq
  exact hnodup.1 (heq ▸ List.mem_map_of_mem hother)

/-- The locked rows stay as they were read. -/
lemma Effect.held (h : Effect s event s') (hs : Sound s) : Held s' := by
  intro other hother
  cases h with
  | quiet hattempts hsessions happlying =>
    rw [hattempts]
    exact hs.held other (happlying.subset hother)
  | created entry hattempts hsessions hdistinct happlying =>
    rw [happlying] at hother
    rw [hattempts]
    exact hs.held other hother
  | inserted row hinsert hfresh hsessions happlying =>
    rw [happlying] at hother
    obtain ⟨hnew, -⟩ := KeyedTable.insert_eq_some hinsert
    have hne : row.id ≠ other.attempt.id := fun heq =>
      hnew (KeyedTable.has_iff_find.2 ⟨_, heq ▸ hs.held other hother⟩)
    rw [KeyedTable.find_insert hinsert, if_neg hne]
    exact hs.held other hother
  | written k f hf hfree hattempts hrow hsessions happlying =>
    rw [happlying] at hother
    rw [hattempts, KeyedTable.find_update, if_neg (ne_of_locked hfree hother)]
    exact hs.held other hother
  | lock t hfree hfind hattempts hsessions happlying =>
    rw [happlying] at hother
    rw [hattempts]
    rcases List.mem_append.1 hother with hother | hother
    · exact hs.held other hother
    · obtain rfl := List.mem_singleton.1 hother
      exact hfind
  | accepted i t facts reservation now hevent ht hattempts hentitled hsessions happlying =>
    rw [happlying] at hother
    rw [hattempts, KeyedTable.find_update, if_neg (ne_of_mem_eraseIdx hs.holders ht hother)]
    exact hs.held other ((List.eraseIdx_sublist _ _).subset hother)

lemma Effect.holders (h : Effect s event s') (hs : (s.applying.map (·.attempt.id)).Nodup) :
    (s'.applying.map (·.attempt.id)).Nodup := by
  cases h with
  | quiet hattempts hsessions happlying => exact hs.sublist (happlying.map _)
  | created entry hattempts hsessions hdistinct happlying => exact happlying ▸ hs
  | inserted row hinsert hfresh hsessions happlying => exact happlying ▸ hs
  | written k f hf hfree hattempts hrow hsessions happlying => exact happlying ▸ hs
  | lock t hfree hfind hattempts hsessions happlying =>
    rw [happlying, List.map_append, List.map_singleton]
    refine hs.append (List.nodup_singleton _) ?_
    rw [List.disjoint_singleton]
    intro hmem
    obtain ⟨other, hother, heq⟩ := List.mem_map.1 hmem
    exact ne_of_locked hfree hother heq
  | accepted i t facts reservation now hevent ht hattempts hentitled hsessions happlying =>
    rw [happlying]
    exact hs.sublist ((List.eraseIdx_sublist _ _).map _)

/-- An accepted attempt was accepted before, or it is accepted by the step, on what the step reads. -/
lemma Effect.accepted_origin (h : Effect s event s') (hs : Sound s) {row' : AttemptRow}
    (hrow : row' ∈ s'.attempts.rows) (haccepted : row'.state = .accepted) :
    row' ∈ s.attempts.rows ∨ ∃ i t facts reservation now linked,
      event = .commitEvent i facts (some reservation) now ∧ s.applying[i]? = some t ∧
        t.attempt ∈ s.attempts.rows ∧ row' = accept t.fetched.id now t.attempt ∧
        s'.subscriptions.find t.fetched.id = some linked ∧
        Entitled s t.attempt linked.accountId facts reservation now := by
  have hkept : s'.attempts = s.attempts → row' ∈ s.attempts.rows := fun hattempts => hattempts ▸ hrow
  cases h with
  | quiet hattempts | created entry hattempts | lock t hfree hfind hattempts =>
    exact .inl (hkept hattempts)
  | inserted first hinsert hfresh =>
    obtain ⟨-, hrows⟩ := KeyedTable.insert_eq_some hinsert
    rw [hrows] at hrow
    rcases List.mem_append.1 hrow with hrow | hrow
    · exact .inl hrow
    · obtain rfl := List.mem_singleton.1 hrow
      rw [hfresh.state] at haccepted
      cases haccepted
  | written k f hf hfree hattempts hstep =>
    rw [hattempts] at hrow
    rcases KeyedTable.mem_rows_update hrow with hrow | ⟨old, hfind, rfl⟩
    · exact .inl hrow
    · obtain ⟨hchange, hstate⟩ := hstep old hfind
      rw [hchange.eq_of_accepted (hstate haccepted)]
      exact .inl (KeyedTable.find_eq_some_iff.1 hfind).1
  | accepted i t facts reservation now hevent ht hattempts hentitled hsessions happlying hsubscriptions
      linked hlinked haccount =>
    rw [hattempts] at hrow
    have hheld := hs.held t (List.mem_of_getElem? ht)
    rcases KeyedTable.mem_rows_update hrow with hrow | ⟨old, hfind, rfl⟩
    · exact .inl hrow
    · obtain rfl : t.attempt = old := Option.some.inj (hheld.symm.trans hfind)
      exact .inr ⟨i, t, facts, reservation, now, linked, hevent, ht,
        (KeyedTable.find_eq_some_iff.1 hfind).1, rfl, hlinked, haccount ▸ hentitled⟩

/-- **Invariant.** A step keeps it. -/
theorem Sound.step (hs : Sound s) (h : Effect s event s') (hoffice : s'.instanceId = s.instanceId) :
    Sound s' where
  keys row hrow := by
    rw [hoffice]
    rcases h.origin hs.held hrow with hfresh | ⟨old, hold, hstep⟩
    · exact ⟨hfresh.id, hfresh.instanceId⟩
    · obtain ⟨hid, hclosed, hinstance, -⟩ := hstep.keeps
      rw [hid, hclosed, hinstance]
      exact hs.keys old hold
  sessions row hrow sessionId hsession := by
    rcases h.origin hs.held hrow with hfresh | ⟨old, hold, hstep⟩
    · rw [hfresh.session] at hsession
      cases hsession
    · refine h.sessions_subset ?_
      rcases hstep.session hsession with hnew | ⟨hsame, hgeneration⟩
      · exact hnew
      · rw [hgeneration, hstep.keeps.1]
        exact hs.sessions old hold sessionId hsame
  distinct := h.distinct hs.distinct
  held := h.held hs
  holders := h.holders hs.holders
  named row hrow haccepted := by
    rcases h.accepted_origin hs hrow haccepted with
      hold | ⟨i, t, facts, reservation, now, linked, -, -, -, rfl, hlinked, -⟩
    · obtain ⟨id, hid, hhas⟩ := hs.named row hold haccepted
      exact ⟨id, hid, h.has_subscription hhas⟩
    · exact ⟨t.fetched.id, rfl, KeyedTable.has_iff_find.2 ⟨linked, hlinked⟩⟩

end Step

/-! ## The rows along a run -/

section Runs

variable {s₀ : Office} {before after : List Event}

def InTime (s₀ : Office) (events : List Event) : Prop :=
  Machine.Along Office.step (fun s event => s.inTime event = true) s₀ events

instance (events : List Event) : Decidable (InTime s₀ events) :=
  inferInstanceAs (Decidable (Machine.Along _ _ s₀ events))

theorem Sound.run (hs : Sound s₀) (htime : InTime s₀ after) : Sound (s₀.run after) :=
  Machine.run_invariant_along
    (fun _ _ h hinTime => h.step (step_effect hinTime) step_instanceId) hs htime

theorem row_run (hs : Sound s₀) (htime : InTime s₀ after) {id : JsString} {row : AttemptRow}
    (hrow : s₀.attempts.find id = some row) :
    ∃ row', (s₀.run after).attempts.find id = some row' ∧
      row.checkoutGeneration ≤ row'.checkoutGeneration ∧ (row.state = .accepted → row' = row) := by
  induction after generalizing s₀ row with
  | nil => exact ⟨row, hrow, le_rfl, fun _ => rfl⟩
  | cons event events ih =>
    obtain ⟨hinTime, htime⟩ := htime
    have heffect := step_effect hinTime
    obtain ⟨next, hnext, hstep⟩ := heffect.exists_rowStep hs.held hrow
    obtain ⟨row', hrow', hgeneration, hfinal⟩ :=
      ih (hs.step heffect step_instanceId) htime hnext
    refine ⟨row', hrow', hstep.keeps.2.2.2.trans hgeneration, fun haccepted => ?_⟩
    have hsame := hstep.eq_of_accepted haccepted
    rw [hfinal (by rw [hsame, haccepted]), hsame]

lemma Sound.governs {s : Office} (hs : Sound s) {row : AttemptRow} (hrow : row ∈ s.attempts.rows)
    (haccepted : row.state = .accepted)
    (honly : ∀ other ∈ s.attempts.rows, other.state = .accepted → other.id = row.id) :
    ∃ subscription, row.newSubscriptionId = some subscription.id ∧
      s.currentSubscriptionForInstance = some subscription := by
  have hmem : row ∈ s.attempts.rows.filter fun row =>
      row.instanceId = s.instanceId ∧ row.state = .accepted :=
    List.mem_filter.2 ⟨hrow, decide_eq_true ⟨(hs.keys row hrow).2, haccepted⟩⟩
  have hnewest : s.acceptedAttempt = some row := by
    obtain ⟨other, hother⟩ : ∃ other, s.acceptedAttempt = some other := exists_newest hmem
    obtain ⟨hmem', hstate⟩ := List.mem_filter.1 (newest_eq_some hother).1
    have hid := honly other hmem' (of_decide_eq_true hstate).2
    have hfind := KeyedTable.find_of_mem hmem'
    rw [hid, KeyedTable.find_of_mem hrow] at hfind
    rw [hother, hfind]
  obtain ⟨id, hid, hhas⟩ := hs.named row hrow haccepted
  obtain ⟨subscription, hfind⟩ := KeyedTable.has_iff_find.1 hhas
  refine ⟨subscription, ?_, ?_⟩
  · rw [hid, (KeyedTable.find_eq_some_iff.1 hfind).2]
  · rw [currentSubscriptionForInstance, hnewest, Option.bind_some, hid]
    exact hfind

/-- An accepted reinstatement is final, from a part of a run to the whole of it. -/
structure Final (s₀ : Office) (before after : List Event) : Prop where
  accepted : ∀ row ∈ (s₀.run before).attempts.rows, row.state = .accepted →
    ∃ row' ∈ (s₀.run (before ++ after)).attempts.rows, row'.id = row.id ∧ row'.state = .accepted ∧
      row'.newSubscriptionId = row.newSubscriptionId
  governs : ∀ row ∈ (s₀.run before).attempts.rows, row.state = .accepted →
    (∀ other ∈ (s₀.run (before ++ after)).attempts.rows, other.state = .accepted →
      other.id = row.id) →
    ∃ subscription, row.newSubscriptionId = some subscription.id ∧
      (s₀.run (before ++ after)).currentSubscriptionForInstance = some subscription
  once : ∀ row ∈ (s₀.run before).attempts.rows, ∀ row' ∈ (s₀.run (before ++ after)).attempts.rows,
    row.state = .accepted → row'.state = .accepted →
    row'.closedSubscriptionId = row.closedSubscriptionId →
    row'.newSubscriptionId = row.newSubscriptionId
  generation : ∀ row ∈ (s₀.run before).attempts.rows,
    ∃ row' ∈ (s₀.run (before ++ after)).attempts.rows, row'.id = row.id ∧
      row.checkoutGeneration ≤ row'.checkoutGeneration
  session : ∀ row ∈ (s₀.run (before ++ after)).attempts.rows,
    ∀ entry ∈ (s₀.run (before ++ after)).sessions, row.checkoutSessionId = some entry.2.2 →
    entry.1 = row.id ∧ entry.2.1 = row.checkoutGeneration
  entitled : ∀ event rest, after = event :: rest →
    ∀ row' ∈ ((s₀.run before).step event).attempts.rows, row'.state = .accepted →
    row' ∈ (s₀.run before).attempts.rows ∨ ∃ i t facts reservation now linked,
      event = .commitEvent i facts (some reservation) now ∧ (s₀.run before).applying[i]? = some t ∧
        t.attempt ∈ (s₀.run before).attempts.rows ∧ row' = accept t.fetched.id now t.attempt ∧
        ((s₀.run before).step event).subscriptions.find t.fetched.id = some linked ∧
        Entitled (s₀.run before) t.attempt linked.accountId facts reservation now

/-- **Finality.** An accepted reinstatement is final in every run whose writes are in time: the
attempt keeps its subscription, which governs the office, and it was accepted when it might be.

**Proof sketch.** The invariant says that a locked row is as it was read, so that what `applyEvent`
accepts is the pending attempt it judged. Every write in time leaves an accepted row as it is, and
sets no generation below the one that is there; both follow for the run by induction. -/
theorem reinstatement_final (instanceId : JsString) (subscriptions : KeyedTable SubscriptionRow.id)
    (htime : InTime (start instanceId subscriptions) (before ++ after)) :
    Final (start instanceId subscriptions) before after := by
  obtain ⟨hbefore, hafter⟩ := Machine.along_append.1 htime
  have hs : Sound ((start instanceId subscriptions).run before) :=
    (start_sound instanceId subscriptions).run hbefore
  have hs' : Sound ((start instanceId subscriptions).run (before ++ after)) :=
    (start_sound instanceId subscriptions).run htime
  have hrun : (start instanceId subscriptions).run (before ++ after) =
      ((start instanceId subscriptions).run before).run after := Machine.run_append
  have hrow : ∀ row ∈ ((start instanceId subscriptions).run before).attempts.rows,
      ∃ row' ∈ ((start instanceId subscriptions).run (before ++ after)).attempts.rows,
        row'.id = row.id ∧ row.checkoutGeneration ≤ row'.checkoutGeneration ∧
          (row.state = .accepted → row' = row) := by
    intro row hmem
    obtain ⟨row', hfind, hgeneration, hfinal⟩ := row_run hs hafter (KeyedTable.find_of_mem hmem)
    obtain ⟨hmem', hid⟩ := KeyedTable.find_eq_some_iff.1 hfind
    exact ⟨row', hrun ▸ hmem', hid, hgeneration, hfinal⟩
  have hkept : ∀ row ∈ ((start instanceId subscriptions).run before).attempts.rows,
      row.state = .accepted →
      row ∈ ((start instanceId subscriptions).run (before ++ after)).attempts.rows := by
    intro row hmem haccepted
    obtain ⟨row', hmem', -, -, hfinal⟩ := hrow row hmem
    exact hfinal haccepted ▸ hmem'
  refine ⟨?_, ?_, ?_, ?_, ?_, ?_⟩
  · intro row hmem haccepted
    exact ⟨row, hkept row hmem haccepted, rfl, haccepted, rfl⟩
  · intro row hmem haccepted honly
    exact hs'.governs (hkept row hmem haccepted) haccepted honly
  · intro row hmem row' hmem' haccepted haccepted' hclosed
    have hid : row'.id = row.id := by
      rw [(hs'.keys row' hmem').1, (hs.keys row hmem).1, hclosed]
    have hfind := KeyedTable.find_of_mem (hkept row hmem haccepted)
    rw [← hid, KeyedTable.find_of_mem hmem'] at hfind
    rw [Option.some.inj hfind]
  · intro row hmem
    obtain ⟨row', hmem', hid, hgeneration, -⟩ := hrow row hmem
    exact ⟨row', hmem', hid, hgeneration⟩
  · intro row hmem entry hentry hsession
    have hown := hs'.sessions row hmem entry.2.2 hsession
    have heq := hs'.distinct _ hown entry hentry rfl
    exact ⟨(congrArg (·.1) heq).symm, (congrArg (·.2.1) heq).symm⟩
  · rintro event rest rfl row' hmem haccepted
    exact (step_effect hafter.1).accepted_origin hs hmem haccepted

end Runs

/-! ## A Checkout that was overtaken -/

/-- A subscription that the customer cancelled. -/
def cancelledSubscription : SubscriptionRow where
  id := js "sub_1"
  accountId := js "a"
  instanceId := some (js "i")
  status := js "canceled"
  endedAt := some 0
  cancellationReason := some CUSTOMER_CANCELLATION_REASON
  version := 1
  createdAt := 0

def retainedOffice : Office :=
  start (js "i") ⟨[cancelledSubscription], List.nodup_singleton _⟩

def retainedReservation : ReservationRow := ⟨js "r", js "i", js "a", js "small"⟩

def retainedFacts : Facts where
  instanceRow := some (⟨.suspended⟩, some (js "key"))
  asset := some ⟨js "asset", none, js "active", none⟩
  operations := [⟨lifecycleOperationId .powerOff (js "sub_1") 0, OperationKind.powerOff.name,
    .succeeded, some (.object [("poweredOffAt", .number 1)])⟩]
  expiryStarted := false

/-- A Checkout is prepared as far as the attempt is read. -/
def readEvents (i : ℕ) : List Event :=
  [.beginPrepare (js "a") retainedReservation ⟨js "a", some (js "cus_1")⟩ true 2, .selectAccepted i,
    .selectClosed i, .checkEligible i retainedFacts 3, .readAttempt i]

/-- What is returned of a generation before its session is recorded. -/
def preparedGeneration (generation : ℕ) : Prepared where
  reservation := retainedReservation
  account := ⟨js "a", some (js "cus_1")⟩
  attemptId := reinstatementAttemptId (js "sub_1")
  generation
  stripeExpiresAt := 2 + REINSTATEMENT_CHECKOUT_MS + 5000
  existingSessionId := none

/-- A session is recorded, and its payment is linked. -/
def payEvents (generation : ℕ) : List Event :=
  [.createSession (preparedGeneration generation) (js "cs_1"),
    .recordSession (preparedGeneration generation) (js "cs_1") 4,
    .lockAttempt ⟨js "sub_2", js "a", js "active", none, none, js "i",
      reinstatementAttemptId (js "sub_1")⟩,
    .commitEvent 0 retainedFacts (some retainedReservation) 5]

/-- Two Checkouts are prepared for one generation, and it is paid. -/
def preparedTwice : List Event :=
  readEvents 0 ++ [.writeAttempt 0] ++ readEvents 0 ++ [.writeAttempt 0] ++ payEvents 1

/-- No session is made at first. Two Checkouts read that, one writes, and its generation is paid. -/
def readTwice : List Event :=
  readEvents 0 ++ [.writeAttempt 0, .recordCheckoutFailure (preparedGeneration 1) 4] ++
    readEvents 0 ++ readEvents 1 ++ [.writeAttempt 1] ++ payEvents 2

theorem reinstatement_final_paid :
    (∃ row ∈ (retainedOffice.run preparedTwice).attempts.rows, row.state = .accepted) ∧
      Final retainedOffice preparedTwice [.recordCheckoutFailure (preparedGeneration 1) 6] :=
  ⟨by decide +kernel, reinstatement_final _ _ (by decide +kernel)⟩

/-- Behind a payment, the session of the other Checkout is recorded, or the other one begins its
generation: the attempt is not accepted any more. -/
theorem reinstatement_undone :
    ¬ Final retainedOffice preparedTwice [.recordSession (preparedGeneration 1) (js "cs_1") 6] ∧
      ¬ Final retainedOffice readTwice [.writeAttempt 0] := by
  have hlost : ∀ before after,
      (∃ row ∈ (retainedOffice.run before).attempts.rows, row.state = .accepted) →
      (∀ row ∈ (retainedOffice.run (before ++ after)).attempts.rows, row.state ≠ .accepted) →
      ¬ Final retainedOffice before after := by
    rintro before after ⟨row, hrow, haccepted⟩ hnone hfinal
    obtain ⟨row', hrow', -, haccepted', -⟩ := hfinal.accepted row hrow haccepted
    exact hnone row' hrow' haccepted'
  exact ⟨hlost _ _ (by decide +kernel) (by decide +kernel),
    hlost _ _ (by decide +kernel) (by decide +kernel)⟩

end Isomux.Reinstatement
