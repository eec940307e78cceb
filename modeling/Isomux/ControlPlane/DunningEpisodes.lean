import Isomux.ControlPlane.Dunning
import Mathlib.Data.List.Induction

set_option autoImplicit false

/-!
# One suspension for an episode

Events come in any order and more than once, and the pass over the holds comes at any time. Behind
the ledger of the events, the suspension of an episode is requested at most once, and only when
Stripe was seen to have given up while that episode was running. An episode opens when there is
none, and ends in a recovery or with its hold. Without the ledger the first of these fails: an event
that comes again behind a recovery opens its episode again.

## Main results

* `Isomux.Dunning.observe_turn` — an observation does one of these.
* `Isomux.Dunning.suspended_twice` — a suspension that is requested twice.
* `Isomux.Dunning.dunning_episodes` — the episodes over all runs.
-/

namespace Isomux.Dunning

/-! ## What an observation does to an episode -/

/-- The columns of the episode of a row. -/
@[ext] structure Episode where
  state : EpisodeState
  id : Option JsString
  exhaustion : Option ℤ

def SubscriptionRow.episode (row : SubscriptionRow) : Episode :=
  ⟨row.episodeState, row.episodeId, row.exhaustionObservedAt⟩

def Episode.over : Episode := ⟨.none, none, none⟩

/-- The columns fit: there is no episode and nothing about one, or there is one, which is named
after an event. -/
def Episode.Fits (e : Episode) : Prop :=
  e = .over ∨ e.state ≠ .none ∧ ∃ eventId, e.id = some (episodeIdOf eventId)

/-- The observation sees that Stripe has given up on an invoice of an unpaid subscription. -/
def Observation.SeesExhaustion : Observation → Prop
  | .event subscription invoice _ _ _ _ =>
    unpaid subscription.status = true ∧ observedExhaustion invoice subscription = true
  | _ => False

/-- The observation sees that the customer is paid up. -/
def Observation.SeesRecovery : Observation → Prop
  | .event subscription _ _ _ _ _ => healthy subscription.status = true
  | _ => False

/-- The observation finds the hold of the row over, and the subscription not unpaid. -/
def Observation.ClosesHold (row : SubscriptionRow) : Observation → Prop
  | .holdExpiry now => row.episodeState = .couponHold ∧ row.holdOver now = true ∧
      unpaid row.status = false
  | _ => False

/-- What an observation may do to the episode of a row, and whose suspension it may request. -/
inductive Turn (row : SubscriptionRow) (o : Observation) : Option JsString → Episode → Prop where
  | rests : Turn row o none row.episode
  | records (instant : ℤ) (hstate : row.episodeState ≠ .none) (hseen : o.SeesExhaustion) :
    Turn row o none { row.episode with exhaustion := some instant }
  | opens (eventId : JsString) (state : EpisodeState) (exhaustion : Option ℤ)
    (hnone : row.episodeState = .none) (hevent : o.eventId = some eventId) (hstate : state ≠ .none)
    (hrequested : state ≠ .suspensionRequested)
    (hseen : exhaustion ≠ none → o.SeesExhaustion) :
    Turn row o none ⟨state, some (episodeIdOf eventId), exhaustion⟩
  /-- An episode opens, and its suspension is requested. -/
  | opensAsking (eventId : JsString) (instant : ℤ) (hnone : row.episodeState = .none)
    (hevent : o.eventId = some eventId) (hseen : o.SeesExhaustion) :
    Turn row o (some (episodeIdOf eventId))
      ⟨.suspensionRequested, some (episodeIdOf eventId), some instant⟩
  /-- Stripe gives up, and the suspension is requested. -/
  | asks (id : JsString) (instant : ℤ) (hopen : row.episodeState = .open)
    (hid : row.episodeId = some id) (hseen : o.SeesExhaustion) :
    Turn row o (some id) ⟨.suspensionRequested, some id, some instant⟩
  /-- The hold of an episode ends in which Stripe was seen to have given up. -/
  | expires (id : JsString) (instant : ℤ) (hhold : row.episodeState = .couponHold)
    (hid : row.episodeId = some id) (hseen : row.exhaustionObservedAt = some instant) :
    Turn row o (some id) ⟨.suspensionRequested, some id, some instant⟩
  /-- The hold of an episode ends, and it goes on. -/
  | resumes (hhold : row.episodeState = .couponHold) :
    Turn row o none { row.episode with state := .open }
  | closes (hwhy : o.SeesRecovery ∨ o.ClosesHold row) : Turn row o none .over

lemma episode_keep (row : SubscriptionRow) (patch : EpisodePatch) :
    (row.keep patch).episode =
      ⟨patch.episodeState.getD row.episodeState, patch.episodeId.getD row.episodeId,
        patch.exhaustionObservedAt.getD row.exhaustionObservedAt⟩ := rfl

variable {row : SubscriptionRow} {subscription : SubscriptionSnapshot}
  {invoice : Option InvoiceSnapshot} {eventId eventType : JsString} {eventCreated now : ℤ}

/-- **The turn of a hold.** -/
lemma decideHoldExpiry_turn :
    Turn row (.holdExpiry now) (decideHoldExpiry row now).suspension
      (row.keep (decideHoldExpiry row now).episode).episode := by
  unfold decideHoldExpiry
  split_ifs with hstate hover
  · exact Turn.rests
  · exact Turn.rests
  · have hhold : row.episodeState = .couponHold := not_not.1 hstate
    split
    · rename_i instant c id hexhausted hunpaid hid
      have hturn := Turn.expires (o := .holdExpiry now) (c :: id) instant hhold hid hexhausted
      simpa [episode_keep, hid, hexhausted] using hturn
    · rename_i hunpaid
      exact Turn.closes (Or.inr ⟨hhold, by simpa using hover, hunpaid⟩)
    · exact Turn.resumes hhold

lemma exhaustionAt_eq (inputs : LadderInputs) :
    (observedExhaustion inputs.invoice inputs.subscription = true ∧
        ∃ instant, inputs.exhaustionAt = some instant) ∨
      (observedExhaustion inputs.invoice inputs.subscription = false ∧
        inputs.exhaustionAt = inputs.row.bind SubscriptionRow.exhaustionObservedAt) := by
  unfold LadderInputs.exhaustionAt
  cases observedExhaustion inputs.invoice inputs.subscription with
  | true => exact Or.inl ⟨rfl, _, rfl⟩
  | false => exact Or.inr ⟨rfl, rfl⟩

/-- **The turn of an unpaid status.** -/
lemma decideUnpaid_turn (hfits : row.episode.Fits) (hunpaid : unpaid subscription.status = true) :
    Turn row (.event subscription invoice eventId eventType eventCreated now)
      (decideUnpaid ⟨some row, subscription, invoice, eventId, eventType, eventCreated,
        now⟩).suspension
      (row.keep (decideUnpaid ⟨some row, subscription, invoice, eventId, eventType, eventCreated,
        now⟩).episode).episode := by
  set inputs : LadderInputs :=
    ⟨some row, subscription, invoice, eventId, eventType, eventCreated, now⟩ with hinputs
  set o : Observation := .event subscription invoice eventId eventType eventCreated now with ho
  have hstate : inputs.state = row.episodeState := rfl
  have hseen : observedExhaustion invoice subscription = true → o.SeesExhaustion :=
    fun h => ⟨hunpaid, h⟩
  -- what goes on in a state with an episode
  have hstays : row.episodeState ≠ .none →
      Turn row o none { row.episode with exhaustion := inputs.exhaustionAt } := by
    intro hne
    rcases exhaustionAt_eq inputs with ⟨hgiven, instant, hat⟩ | ⟨-, hat⟩
    · rw [hat]
      exact Turn.records instant hne (hseen hgiven)
    · rw [hat]
      exact Turn.rests
  unfold decideUnpaid
  rw [hstate]
  cases hrow : row.episodeState with
  | none =>
    have hover : row.episode = .over := by
      rcases hfits with hover | ⟨hne, -⟩
      · exact hover
      · exact absurd hrow hne
    have hnothing : row.exhaustionObservedAt = none := congrArg Episode.exhaustion hover
    have hfirst : inputs.exhaustionAt ≠ none → o.SeesExhaustion := by
      intro hne
      rcases exhaustionAt_eq inputs with ⟨hgiven, -⟩ | ⟨-, hat⟩
      · exact hseen hgiven
      · exact absurd (hat.trans hnothing) hne
    dsimp only
    split_ifs with hlapsed hgiven
    · exact Turn.opens eventId .couponHold inputs.exhaustionAt hrow rfl (by simp) (by simp) hfirst
    · obtain ⟨-, instant, hat⟩ | ⟨hnot, -⟩ := exhaustionAt_eq inputs
      · rw [episode_keep, hat]
        exact Turn.opensAsking eventId instant hrow rfl (hseen hgiven)
      · exact absurd hgiven (by simp [hnot])
    · exact Turn.opens eventId .open inputs.exhaustionAt hrow rfl (by simp) (by simp) hfirst
  | «open» =>
    have hne : row.episodeState ≠ .none := by simp [hrow]
    dsimp only
    split
    · rename_i c id hgiven hid
      obtain ⟨-, instant, hat⟩ | ⟨hnot, -⟩ := exhaustionAt_eq inputs
      · have hturn := Turn.asks (o := o) (c :: id) instant hrow hid (hseen hgiven)
        have hid' : row.episodeId = some (c :: id) := hid
        simpa [episode_keep, hat, hid'] using hturn
      · exact absurd hgiven (by simp [hnot])
    · exact hstays hne
  | couponHold | suspensionRequested => exact hstays (by simp [hrow])

/-- **The turn of an event.** -/
lemma decide_turn (hfits : row.episode.Fits) :
    Turn row (.event subscription invoice eventId eventType eventCreated now)
      (decide ⟨some row, subscription, invoice, eventId, eventType, eventCreated, now⟩).suspension
      (row.keep (decide ⟨some row, subscription, invoice, eventId, eventType, eventCreated,
        now⟩).episode).episode := by
  unfold decide
  dsimp only
  split_ifs with hhealthy hunpaid
  · unfold decideHealthy
    split_ifs
    · exact Turn.rests
    · exact Turn.closes (Or.inl hhealthy)
  · exact decideUnpaid_turn hfits hunpaid
  · exact Turn.rests
  · exact Turn.rests

variable {books : Books} {o : Observation}

/-- **An observation does one of the turns.** -/
theorem observe_turn (hfits : books.row.episode.Fits) (o : Observation) :
    ∃ asked, (observe books o).requested = books.requested ++ Option.toList asked ∧
      Turn books.row o asked (observe books o).row.episode := by
  cases o with
  | event subscription invoice eventId eventType eventCreated now =>
    exact ⟨_, rfl, decide_turn hfits⟩
  | holdExpiry now => exact ⟨_, rfl, decideHoldExpiry_turn⟩
  | polledCheckout subscription => exact ⟨none, by simp [observe], Turn.rests⟩

/-! ## Runs -/

/-- The event of the observation is not in the ledger. -/
def Books.New (books : Books) (o : Observation) : Prop :=
  ∀ eventId, o.eventId = some eventId → eventId ∉ books.applied

lemma deliver_turn (hfits : books.row.episode.Fits) (o : Observation) :
    deliver books o = books ∨ books.New o ∧
      (deliver books o).applied = books.applied ++ o.eventId.toList ∧
      ∃ asked, (deliver books o).requested = books.requested ++ Option.toList asked ∧
        Turn books.row o asked (deliver books o).row.episode := by
  have happlied : (observe books o).applied = books.applied := by
    cases o <;> rfl
  unfold deliver Books.New
  cases o.eventId with
  | none =>
    refine Or.inr ⟨fun eventId h => (by cases h), by simpa using happlied, ?_⟩
    exact observe_turn hfits o
  | some eventId =>
    dsimp only
    split_ifs with hseen
    · exact Or.inl rfl
    · refine Or.inr ⟨?_, rfl, observe_turn hfits o⟩
      intro eventId' h
      obtain rfl := Option.some.inj h
      exact hseen

structure Kept (books : Books) : Prop where
  fits : books.row.episode.Fits
  named : ∀ id, books.row.episodeId = some id → ∃ eventId ∈ books.applied, id = episodeIdOf eventId
  requestedNamed : ∀ id ∈ books.requested, ∃ eventId ∈ books.applied, id = episodeIdOf eventId
  requestedOnce : books.requested.Nodup
  pending : ∀ id, books.row.episodeId = some id → books.row.episodeState ≠ .suspensionRequested →
    id ∉ books.requested

lemma Kept.start : Kept Books.start := by
  constructor
  · exact Or.inl rfl
  · intro id hid
    cases hid
  · intro id hid
    cases hid
  · exact List.nodup_nil
  · intro id hid
    cases hid

lemma episodeIdOf_inj {e e' : JsString} (h : episodeIdOf e = episodeIdOf e') : e = e' :=
  List.append_cancel_left h

lemma Kept.fresh (h : Kept books) (hnew : books.New o)
    (hevent : o.eventId = some eventId) : episodeIdOf eventId ∉ books.requested := by
  intro hmem
  obtain ⟨eventId', happlied, heq⟩ := h.requestedNamed _ hmem
  rw [episodeIdOf_inj heq] at hevent
  exact hnew eventId' hevent happlied

lemma Kept.ask {books books' : Books} (h : Kept books) {id : JsString}
    {exhaustion : Option ℤ} (happlied : books'.applied = books.applied ++ o.eventId.toList)
    (hrequested : books'.requested = books.requested ++ [id])
    (hepisode : books'.row.episode = ⟨.suspensionRequested, some id, exhaustion⟩)
    (hname : ∃ eventId ∈ books'.applied, id = episodeIdOf eventId) (hfirst : id ∉ books.requested) :
    Kept books' := by
  have hstate : books'.row.episodeState = .suspensionRequested := congrArg Episode.state hepisode
  have hid : books'.row.episodeId = some id := congrArg Episode.id hepisode
  constructor
  · obtain ⟨eventId, -, rfl⟩ := hname
    rw [hepisode]
    exact Or.inr ⟨by simp, eventId, rfl⟩
  · intro id' hid'
    obtain rfl : id = id' := Option.some.inj (hid.symm.trans hid')
    exact hname
  · intro id' hid'
    rw [hrequested] at hid'
    rcases List.mem_append.1 hid' with hold | hnew
    · obtain ⟨eventId, hmem, rfl⟩ := h.requestedNamed id' hold
      exact ⟨eventId, by rw [happlied]; exact List.mem_append_left _ hmem, rfl⟩
    · obtain rfl := List.mem_singleton.1 hnew
      exact hname
  · rw [hrequested, List.nodup_append]
    refine ⟨h.requestedOnce, by simp, ?_⟩
    rintro id' hid' id'' hid'' rfl
    obtain rfl := List.mem_singleton.1 hid''
    exact hfirst hid'
  · intro id' hid' hne
    exact absurd hstate hne

lemma Kept.quiet {books books' : Books} (h : Kept books)
    (happlied : books'.applied = books.applied ++ o.eventId.toList)
    (hrequested : books'.requested = books.requested) (hfits : books'.row.episode.Fits)
    (hname : ∀ id, books'.row.episodeId = some id → (∃ eventId ∈ books'.applied,
      id = episodeIdOf eventId) ∧ (books'.row.episodeState ≠ .suspensionRequested →
        id ∉ books.requested)) :
    Kept books' := by
  refine ⟨hfits, fun id hid => (hname id hid).1, ?_, by rw [hrequested]; exact h.requestedOnce, ?_⟩
  · intro id hid
    rw [hrequested] at hid
    obtain ⟨eventId, hmem, rfl⟩ := h.requestedNamed id hid
    exact ⟨eventId, by rw [happlied]; exact List.mem_append_left _ hmem, rfl⟩
  · intro id hid hne
    rw [hrequested]
    exact (hname id hid).2 hne

lemma Kept.same {books books' : Books} (h : Kept books)
    (happlied : books'.applied = books.applied ++ o.eventId.toList)
    (hrequested : books'.requested = books.requested)
    (hid : books'.row.episodeId = books.row.episodeId)
    (hstate : books'.row.episodeState = books.row.episodeState ∨
      books.row.episodeState = .couponHold ∧ books'.row.episodeState = .open)
    (hexhaustion : books.row.episodeState = .none → books'.row.episode = books.row.episode) :
    Kept books' := by
  refine h.quiet happlied hrequested ?_ ?_
  · obtain hover | ⟨hne, eventId, hname⟩ := h.fits
    · rw [hexhaustion (congrArg Episode.state hover)]
      exact Or.inl hover
    · refine Or.inr ⟨?_, eventId, hid.trans hname⟩
      rcases hstate with hsame | ⟨-, hopen⟩
      · exact fun heq => hne (hsame.symm.trans heq)
      · exact fun heq => by rw [SubscriptionRow.episode, hopen] at heq; cases heq
  · intro id hid'
    rw [hid] at hid'
    obtain ⟨eventId, hmem, rfl⟩ := h.named id hid'
    refine ⟨⟨eventId, by rw [happlied]; exact List.mem_append_left _ hmem, rfl⟩, fun hne => ?_⟩
    refine h.pending _ hid' ?_
    rcases hstate with hsame | ⟨hhold, -⟩
    · rwa [← hsame]
    · simp [hhold]

/-- **Every observation keeps the books.** -/
theorem Kept.deliver (h : Kept books) (o : Observation) :
    Kept (deliver books o) := by
  obtain hsame | ⟨hnew, happlied, asked, hrequested, hturn⟩ := deliver_turn h.fits o
  · rw [hsame]
    exact h
  generalize Dunning.deliver books o = books' at happlied hrequested hturn ⊢
  generalize hepisode : books'.row.episode = episode at hturn
  have hmem : ∀ eventId, o.eventId = some eventId → eventId ∈ books'.applied := by
    intro eventId hevent
    rw [happlied, hevent]
    exact List.mem_append_right _ (List.mem_singleton_self _)
  cases hturn with
  | rests =>
    exact h.same happlied (by simpa using hrequested) (congrArg Episode.id hepisode)
      (Or.inl (congrArg Episode.state hepisode)) fun _ => hepisode
  | records instant hstate hseen =>
    exact h.same happlied (by simpa using hrequested) (congrArg Episode.id hepisode)
      (Or.inl (congrArg Episode.state hepisode)) fun hnone => absurd hnone hstate
  | opens eventId state exhaustion hnone hevent hstate hne hseen =>
    have hid : books'.row.episodeId = some (episodeIdOf eventId) := congrArg Episode.id hepisode
    refine h.quiet happlied (by simpa using hrequested) ?_ ?_
    · rw [hepisode]
      exact Or.inr ⟨hstate, eventId, rfl⟩
    · intro id hid'
      obtain rfl := Option.some.inj (hid.symm.trans hid')
      exact ⟨⟨eventId, hmem eventId hevent, rfl⟩, fun _ => h.fresh hnew hevent⟩
  | opensAsking eventId instant hnone hevent hseen =>
    exact h.ask happlied hrequested hepisode ⟨eventId, hmem eventId hevent, rfl⟩
      (h.fresh hnew hevent)
  | asks id instant hopen hid hseen =>
    obtain ⟨eventId, hold, hname⟩ := h.named id hid
    exact h.ask happlied hrequested hepisode
      ⟨eventId, by rw [happlied]; exact List.mem_append_left _ hold, hname⟩
      (h.pending id hid (by simp [hopen]))
  | expires id instant hhold hid hseen =>
    obtain ⟨eventId, hold, hname⟩ := h.named id hid
    exact h.ask happlied hrequested hepisode
      ⟨eventId, by rw [happlied]; exact List.mem_append_left _ hold, hname⟩
      (h.pending id hid (by simp [hhold]))
  | resumes hhold =>
    exact h.same happlied (by simpa using hrequested) (congrArg Episode.id hepisode)
      (Or.inr ⟨hhold, congrArg Episode.state hepisode⟩) fun hnone => by simp [hhold] at hnone
  | closes hwhy =>
    have hid : books'.row.episodeId = none := congrArg Episode.id hepisode
    refine h.quiet happlied (by simpa using hrequested) (Or.inl hepisode) ?_
    intro id hid'
    rw [hid] at hid'
    cases hid'

lemma Kept.run (observations : List Observation) :
    Kept (Machine.run Dunning.deliver Books.start observations) :=
  Machine.run_invariant (fun _ o h => Kept.deliver h o) Kept.start

/-! ## Where a suspension comes from -/

/-- The episode of a row is a certain one, and Stripe was seen to have given up in it. -/
def Exhausted (id : JsString) (books : Books) : Prop :=
  books.row.episodeId = some id ∧ books.row.exhaustionObservedAt ≠ none

lemma exhausted_begins (h : Kept books) {id : JsString}
    (hbefore : ¬ Exhausted id books) (hafter : Exhausted id (deliver books o)) :
    books.New o ∧ o.SeesExhaustion := by
  obtain hsame | ⟨hnew, -, asked, -, hturn⟩ := deliver_turn h.fits o
  · rw [hsame] at hafter
    exact absurd hafter hbefore
  · obtain ⟨hid, hexhaustion⟩ := hafter
    refine ⟨hnew, ?_⟩
    generalize Dunning.deliver books o = books' at hturn hid hexhaustion
    generalize hepisode : books'.row.episode = episode at hturn
    have hid' : books'.row.episodeId = episode.id := congrArg Episode.id hepisode
    have hexhaustion' : books'.row.exhaustionObservedAt = episode.exhaustion :=
      congrArg Episode.exhaustion hepisode
    rw [hid'] at hid
    rw [hexhaustion'] at hexhaustion
    cases hturn with
    | rests | resumes hhold => exact absurd ⟨hid, hexhaustion⟩ hbefore
    | records instant hstate hseen => exact hseen
    | opens eventId state exhaustion hnone hevent hstate hne hseen => exact hseen hexhaustion
    | opensAsking eventId instant hnone hevent hseen => exact hseen
    | asks id' instant hopen hold hseen => exact hseen
    | expires id' instant hhold hold hseen =>
      exact absurd ⟨hold.trans hid, by simp [hseen]⟩ hbefore
    | closes hwhy => cases hid

/-- A suspension is requested for the episode of the row, in which Stripe was seen to have given
up. -/
lemma requested_begins (h : Kept books) {id : JsString}
    (hbefore : id ∉ books.requested) (hafter : id ∈ (deliver books o).requested) :
    Exhausted id (deliver books o) := by
  obtain hsame | ⟨-, -, asked, hrequested, hturn⟩ := deliver_turn h.fits o
  · rw [hsame] at hafter
    exact absurd hafter hbefore
  · rw [hrequested] at hafter
    have hasked : asked = some id := by
      rcases List.mem_append.1 hafter with hold | hnew
      · exact absurd hold hbefore
      · exact Option.mem_toList.1 hnew
    subst hasked
    generalize Dunning.deliver books o = books' at hturn
    generalize hepisode : books'.row.episode = episode at hturn
    refine ⟨(congrArg Episode.id hepisode).trans ?_, fun hnone => ?_⟩
    · cases hturn <;> rfl
    · have hexhaustion : episode.exhaustion = none :=
        (congrArg Episode.exhaustion hepisode).symm.trans hnone
      cases hturn <;> cases hexhaustion

lemma requested_deliver (h : Kept books) (o : Observation) :
    books.requested ⊆ (deliver books o).requested := by
  obtain hsame | ⟨-, -, asked, hrequested, -⟩ := deliver_turn h.fits o
  · rw [hsame]
    exact List.Subset.refl _
  · rw [hrequested]
    exact List.subset_append_left _ _

lemma requested_run (before after : List Observation) :
    (Machine.run deliver Books.start before).requested ⊆
      (Machine.run deliver Books.start (before ++ after)).requested := by
  induction after using List.reverseRecOn with
  | nil => simp
  | append_singleton after o ih =>
    rw [← List.append_assoc, Machine.run_append]
    exact List.Subset.trans ih (requested_deliver (Kept.run (before ++ after)) o)

lemma episodeId_changes (h : Kept books)
    (hne : (deliver books o).row.episodeId ≠ books.row.episodeId) :
    (books.row.episodeId = none ∧ ∃ eventId, o.eventId = some eventId ∧
        eventId ∉ books.applied ∧
        (deliver books o).row.episodeId = some (episodeIdOf eventId)) ∨
      ((deliver books o).row.episodeId = none ∧ (o.SeesRecovery ∨ o.ClosesHold books.row)) := by
  have hnothing : books.row.episodeState = .none → books.row.episodeId = none := by
    intro hnone
    obtain hover | ⟨hsome, -⟩ := h.fits
    · exact congrArg Episode.id hover
    · exact absurd hnone hsome
  obtain hsame | ⟨hnew, -, asked, -, hturn⟩ := deliver_turn h.fits o
  · rw [hsame] at hne
    exact absurd rfl hne
  · generalize Dunning.deliver books o = books' at hturn hne ⊢
    generalize hepisode : books'.row.episode = episode at hturn
    have hid' : books'.row.episodeId = episode.id := congrArg Episode.id hepisode
    rw [hid'] at hne ⊢
    cases hturn with
    | rests => exact absurd rfl hne
    | records instant hstate hseen => exact absurd rfl hne
    | opens eventId state exhaustion hnone hevent hstate hrequested hseen
    | opensAsking eventId instant hnone hevent hseen =>
      exact Or.inl ⟨hnothing hnone, eventId, hevent, hnew eventId hevent, rfl⟩
    | asks id instant hopen hid hseen | expires id instant hhold hid hseen =>
      exact absurd hid.symm hne
    | resumes hhold => exact absurd rfl hne
    | closes hwhy => exact Or.inr ⟨rfl, hwhy⟩

/-! ## The episodes over all runs -/

/-- Without the ledger an event that comes again behind a recovery opens its episode again, and the
suspension of one episode is requested twice. -/
theorem suspended_twice :
    let pastDue : SubscriptionSnapshot := ⟨js "past_due", none, false, none, none, none, none, none,
      none⟩
    let active : SubscriptionSnapshot := ⟨js "active", none, false, none, none, none, none, none,
      none⟩
    let failed : Observation := .event pastDue (some ⟨js "open", none, false⟩) (js "evt_1")
      (js "invoice.payment_failed") 0 0
    let paid : Observation := .event active none (js "evt_2") (js "invoice.paid") 1 1
    ¬ (Machine.run observe Books.start [failed, paid, failed]).requested.Nodup := by
  decide +kernel

/-- **The episodes.** Behind the ledger of the events, in every run of observations in any order and
with any repetitions: no suspension is requested twice for an episode; where one is requested, an
event has been applied before, or right then, that saw that Stripe had given up, while that episode
was running; and the name of the episode changes only when an episode opens where there was none,
named after an event that was not applied before, or when it is over, by a recovery or with its
hold.

**Proof sketch.** An observation does one of a few turns to the episode. The suspensions that were
requested are named after events that were applied, and a new episode after a new event. That Stripe
has given up is written down with the episode and goes with it. -/
theorem dunning_episodes (observations : List Observation) :
    let books := Machine.run deliver Books.start observations
    books.requested.Nodup ∧
    (∀ id ∈ books.requested, ∃ before o after, observations = before ++ o :: after ∧
      (Machine.run deliver Books.start before).New o ∧ o.SeesExhaustion ∧
      id ∉ (Machine.run deliver Books.start before).requested ∧
      (Machine.run deliver Books.start (before ++ [o])).row.episodeId = some id) ∧
    ∀ o, (deliver books o).row.episodeId ≠ books.row.episodeId →
      (books.row.episodeId = none ∧ ∃ eventId, o.eventId = some eventId ∧
        eventId ∉ books.applied ∧
        (deliver books o).row.episodeId = some (episodeIdOf eventId)) ∨
      ((deliver books o).row.episodeId = none ∧ (o.SeesRecovery ∨ o.ClosesHold books.row)) := by
  intro books
  have hkept : Kept books := Kept.run observations
  refine ⟨hkept.requestedOnce, ?_, fun o hne => episodeId_changes hkept hne⟩
  intro id hid
  obtain ⟨before, o, after, rfl, hbefore, hafter⟩ :=
    Machine.run_begins (P := fun books : Books => id ∈ books.requested) (by simp [Books.start]) hid
  have hexhausted : Exhausted id (Machine.run deliver Books.start (before ++ [o])) := by
    rw [Machine.run_append]
    exact requested_begins (Kept.run before) hbefore hafter
  -- the first time that the exhaustion is known in this episode
  obtain ⟨before', o', after', hsplit, hbefore', hafter'⟩ :=
    Machine.run_begins (P := Exhausted id) (by rintro ⟨hnone, -⟩; cases hnone) hexhausted
  obtain ⟨hnew, hseen⟩ := exhausted_begins (Kept.run before') hbefore' hafter'
  refine ⟨before', o', after' ++ after, ?_, hnew, hseen, ?_, ?_⟩
  · rw [← List.cons_append, ← List.append_assoc, ← hsplit, List.append_assoc,
      List.singleton_append]
  · intro hmem
    refine hbefore ?_
    obtain ⟨rest, hrest⟩ : before' <+: before := by
      have hprefix : before' <+: before ++ [o] := ⟨o' :: after', hsplit.symm⟩
      rcases List.prefix_concat_iff.1 hprefix with heq | hle
      · have hlength := congrArg List.length hsplit
        rw [heq] at hlength
        simp at hlength
      · exact hle
    rw [← hrest]
    exact requested_run before' rest hmem
  · rw [Machine.run_append]
    exact hafter'.1

end Isomux.Dunning
