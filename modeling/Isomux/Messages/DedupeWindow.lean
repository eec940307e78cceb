import Isomux.Messages.QueueRoundTrip

set_option autoImplicit false

/-!
# How long an id is remembered

An agent remembers the id of an accepted message for `QUEUE_DEDUPE_TTL_MS`, and the reader of the file
drops what is over. The map of a running server drops it only when the map has grown and another id
comes, and until then a message with the old id counts as sent.

Here the accepted messages are kept beside the queues, and every event at which the clock is read is
judged by them.

## Main results

* `Isomux.DedupeHistory.right_iff_fresh` — at one event, the one is the other.
* `Isomux.DedupeHistory.dedupe_window` — along every run with a clock that does not go back, too.
-/

namespace Isomux

def QueueLifeEvent.time : QueueLifeEvent → Option ℤ
  | .call (.delivery _ (.enqueue c)) => some c.now
  | .call (.delivery _ (.turnCompleted now _)) => some now
  | .call (.drain _ _ now _) => some now
  | .persist _ now _ => some now
  | .restart _ now => some now
  | _ => none

structure AcceptedId where
  agentId : AgentId
  id : JsString
  time : ℤ

/-- The queues, and the messages that were accepted. -/
structure DedupeHistory where
  queues : MessageQueues
  accepts : List AcceptedId

namespace DedupeHistory

open MessageQueues (QUEUE_DEDUPE_TTL_MS EnqueueCall EnqueueResult)

/-- The message that an event accepts, if it has an id. -/
def acceptsOf (s : MessageQueues) : QueueLifeEvent → List AcceptedId
  | .call (.delivery agentId (.enqueue c)) =>
    match (s.enqueueMessage agentId c).2, c.dedupeKey with
    | some (.accepted _ _ _ _), some id => [⟨agentId, id, c.now⟩]
    | _, _ => []
  | _ => []

variable (h : DedupeHistory) (event : QueueLifeEvent)

def step : DedupeHistory :=
  ⟨h.queues.liveStep event, h.accepts ++ acceptsOf h.queues event⟩

def start (turns : AgentId → Option TurnStatus) (now : ℤ) : DedupeHistory :=
  ⟨MessageQueues.start turns now, []⟩

/-- A message that counts as sent has the id of one that this agent accepted within the window. -/
def InWindow : Prop :=
  ∀ agentId c, event = .call (.delivery agentId (.enqueue c)) →
    (h.queues.enqueueMessage agentId c).2 = some .deduped →
    ∃ x ∈ h.accepts, x.agentId = agentId ∧ c.clientMessageId = some x.id ∧
      c.now - QUEUE_DEDUPE_TTL_MS ≤ x.time ∧ x.time ≤ c.now

/-- The ids that count are the same before and after a save and a start. -/
def SameBehindRestart : Prop :=
  ∀ now, event.time = some now → ∀ agentIds agentId a, agentId ∈ agentIds →
    h.queues.agents agentId = some a → ∀ id, JsMap.has a.queueDedupe id =
      JsMap.has (h.queues.reload agentIds agentId a now now).dedupe id

def Right : Prop :=
  h.InWindow event ∧ h.SameBehindRestart event

/-- When the clock is read, no agent remembers an id that is over, or the id `__proto__`. -/
def Fresh : Prop :=
  ∀ now, event.time = some now → ∀ agentId a, h.queues.agents agentId = some a →
    ∀ entry ∈ a.queueDedupe, now < entry.2 ∧ entry.1 ≠ PROTO

/-! ## What is remembered was accepted -/

/-- The history has the message of this entry. -/
def Known (agentId : AgentId) (entry : JsString × ℤ) : Prop :=
  ∃ x ∈ h.accepts, x.agentId = agentId ∧ x.id = entry.1 ∧ x.time + QUEUE_DEDUPE_TTL_MS = entry.2

/-- What is remembered, in memory and in the file, was accepted. -/
structure Sound (h : DedupeHistory) : Prop where
  keyed : h.queues.Keyed
  held : ∀ b a, h.queues.agents b = some a → ∀ entry ∈ a.queueDedupe, h.Known b entry
  disk : ∀ b, ∀ entry ∈ h.queues.recordedIds b, h.Known b entry

section Steps

variable {h : DedupeHistory} {event : QueueLifeEvent}

variable {agentId : AgentId} {s : MessageQueues} {c : EnqueueCall}

lemma Known.step {entry : JsString × ℤ} (hknown : h.Known agentId entry) :
    (h.step event).Known agentId entry := by
  obtain ⟨x, hx, hrest⟩ := hknown
  exact ⟨x, List.mem_append_left _ hx, hrest⟩

lemma acceptsOf_of_accepts {id : JsString}
    (haccepts : s.Accepts agentId c) (hkey : c.dedupeKey = some id) :
    acceptsOf s (.call (.delivery agentId (.enqueue c))) = [⟨agentId, id, c.now⟩] := by
  obtain ⟨a, drawn, ha, hcheck, hid, hsave⟩ := haccepts
  have hresult := MessageQueues.acceptMessage_result s agentId a c drawn
  rw [hsave, if_neg Bool.false_ne_true] at hresult
  obtain ⟨queued, steered, declined, hresult⟩ := hresult
  have hanswer : (s.enqueueMessage agentId c).2 = some (.accepted queued drawn steered declined) := by
    simp only [MessageQueues.enqueueMessage, ha, hcheck, hid, hresult]
  simp only [acceptsOf, hanswer, hkey]

/-- **What is remembered was accepted**, behind every event. -/
lemma Sound.step (hs : h.Sound) (event : QueueLifeEvent) : (h.step event).Sound := by
  have hmoves := MessageQueues.liveStep_moves hs.keyed.synced event
  have hheld : ∀ b a, (h.step event).queues.agents b = some a → ∀ entry ∈ a.queueDedupe,
      (h.step event).Known b entry := by
    intro b a' ha' entry hentry
    cases hmoves.held b a' ha' with
    | kept a ha hqueue hdedupe => exact (hs.held b a ha entry (hdedupe.subset hentry)).step
    | accepted a c id hevent ha haccepts hheld =>
      subst hevent
      obtain ⟨-, hdedupe⟩ := Prod.mk.inj hheld
      rw [hdedupe] at hentry
      simp only [MessageQueues.pushItem] at hentry
      split at hentry
      · rename_i key hkey
        rcases MessageQueues.mem_recordDedupe hentry with hold | rfl
        · exact (hs.held b a ha entry hold).step
        · refine ⟨⟨b, key, c.now⟩, List.mem_append_right _ ?_, rfl, rfl, rfl⟩
          rw [acceptsOf_of_accepts haccepts hkey]
          exact List.mem_singleton_self _
      · exact (hs.held b a ha entry hentry).step
    | rewritten a queue hevent ha hheld =>
      obtain ⟨-, hdedupe⟩ := Prod.mk.inj hheld
      rw [hdedupe] at hentry
      exact (hs.held b a ha entry hentry).step
    | started hqueue hdedupe => exact (hs.disk b entry (hdedupe.subset hentry)).step
  refine ⟨MessageQueues.keyed_liveStep hs.keyed event, hheld, fun b entry hentry => ?_⟩
  rcases hmoves.disk b with hsame | hnone | ⟨a, now, ha, hnew⟩
  · exact (hs.disk b entry (hsame ▸ hentry)).step
  · exact absurd (hnone ▸ hentry) List.not_mem_nil
  · have hkeys := (MessageQueues.keyed_liveStep hs.keyed event).held b a ha
    have hmem := (mem_recordOf (hkeys.sublist (List.filter_sublist.map _))).1 (hnew ▸ hentry)
    exact hheld b a ha entry (List.mem_filter.1 hmem.1).1

lemma sound_start (turns : AgentId → Option TurnStatus) (now : ℤ) : (start turns now).Sound := by
  refine ⟨MessageQueues.keyed_start turns now, fun b a ha entry hentry => ?_, fun b entry hentry => ?_⟩
  · obtain ⟨-, hdedupe⟩ := Prod.mk.inj (MessageQueues.held_start (n := now) ha)
    exact absurd (hdedupe ▸ hentry) List.not_mem_nil
  · exact absurd hentry List.not_mem_nil

/-! ## One event -/

lemma has_of_checkEnqueue {a : ManagedAgent}
    (hcheck : MessageQueues.checkEnqueue a c = some .deduped) :
    ∃ id, c.clientMessageId = some id ∧ JsMap.has a.queueDedupe id = true := by
  unfold MessageQueues.checkEnqueue at hcheck
  split at hcheck
  · cases hcheck
  · split at hcheck
    · cases hcheck
    · split at hcheck
      · rename_i hhas
        obtain ⟨id, hid, hmem⟩ := (Option.any_eq_true _ _).1 hhas
        exact ⟨id, (Option.filter_eq_some_iff.1 hid).1, hmem⟩
      · split at hcheck
        · cases hcheck
        · split at hcheck
          · cases hcheck
          · split at hcheck <;> cases hcheck

lemma has_of_deduped
    (hdeduped : (s.enqueueMessage agentId c).2 = some .deduped) :
    ∃ a id, s.agents agentId = some a ∧ c.clientMessageId = some id ∧
      JsMap.has a.queueDedupe id = true := by
  unfold MessageQueues.enqueueMessage at hdeduped
  split at hdeduped
  · cases hdeduped
  · rename_i a ha
    split at hdeduped
    · rename_i result hcheck
      obtain rfl : result = .deduped := Option.some.inj hdeduped
      obtain ⟨id, hid, hhas⟩ := has_of_checkEnqueue hcheck
      exact ⟨a, id, ha, hid, hhas⟩
    · split at hdeduped
      · cases hdeduped
      · -- behind the checks, a message is accepted or refused
        rename_i id _
        have hresult := MessageQueues.acceptMessage_result s agentId a c id
        have hanswer : (s.acceptMessage agentId a c id).2 = .deduped := Option.some.inj hdeduped
        split_ifs at hresult
        · cases hanswer.symm.trans hresult
        · obtain ⟨queued, steered, declined, hresult⟩ := hresult
          cases hanswer.symm.trans hresult

lemma sameBehindRestart_iff (hkeyed : h.queues.Keyed) : h.SameBehindRestart event ↔ h.Fresh event := by
  have hspec := fun {agentIds agentId a} (hmem : agentId ∈ agentIds)
    (ha : h.queues.agents agentId = some a) now =>
      (MessageQueues.reload_spec (s := h.queues) hmem (hkeyed.held agentId a ha) now now).2
  constructor
  · rintro hsame now hnow agentId a ha ⟨id, t⟩ hentry
    have hmem : agentId ∈ [agentId] := List.mem_singleton_self agentId
    have hlive : JsMap.has a.queueDedupe id = true := JsMap.has_iff.2 ⟨t, hentry⟩
    rw [hsame now hnow [agentId] agentId a hmem ha id] at hlive
    obtain ⟨v, hv⟩ := JsMap.has_iff.1 hlive
    obtain ⟨t', ht', hproto, hlt, -⟩ := (hspec hmem ha now id v).1 hv
    have hkeys := hkeyed.held agentId a ha
    obtain rfl : t' = t := Option.some.inj
      (((JsMap.mem_iff_get hkeys).1 ht').symm.trans ((JsMap.mem_iff_get hkeys).1 hentry))
    exact ⟨hlt, hproto⟩
  · intro hfresh now hnow agentIds agentId a hmem ha id
    rw [Bool.eq_iff_iff, JsMap.has_iff, JsMap.has_iff]
    constructor
    · rintro ⟨t, hentry⟩
      obtain ⟨hlt, hproto⟩ := hfresh now hnow agentId a ha _ hentry
      exact ⟨t, (hspec hmem ha now id t).2 ⟨t, hentry, hproto, hlt, hlt, rfl⟩⟩
    · rintro ⟨v, hv⟩
      obtain ⟨t, hentry, -⟩ := (hspec hmem ha now id v).1 hv
      exact ⟨t, hentry⟩

/-- **At one event**, everything is right exactly when nothing is over. -/
theorem right_iff_fresh (hs : h.Sound)
    (hclock : ∀ now, event.time = some now → ∀ x ∈ h.accepts, x.time ≤ now) :
    h.Right event ↔ h.Fresh event := by
  refine ⟨fun hright => (sameBehindRestart_iff hs.keyed).1 hright.2, fun hfresh =>
    ⟨?_, (sameBehindRestart_iff hs.keyed).2 hfresh⟩⟩
  rintro agentId c rfl hdeduped
  obtain ⟨a, id, ha, hid, hhas⟩ := has_of_deduped hdeduped
  obtain ⟨t, hentry⟩ := JsMap.has_iff.1 hhas
  obtain ⟨x, hx, hagent, hxid, htime⟩ := hs.held agentId a ha _ hentry
  have hlive : c.now < t := (hfresh c.now rfl agentId a ha _ hentry).1
  refine ⟨x, hx, hagent, hid.trans (congrArg some hxid.symm), ?_, hclock c.now rfl x hx⟩
  change x.time + QUEUE_DEDUPE_TTL_MS = t at htime
  omega

lemma time_of_mem_acceptsOf {x : AcceptedId} (hx : x ∈ acceptsOf s event) :
    event.time = some x.time := by
  unfold acceptsOf at hx
  split at hx
  · split at hx
    · rw [List.mem_singleton.1 hx]
      rfl
    · exact absurd hx List.not_mem_nil
  · exact absurd hx List.not_mem_nil

lemma along_right_iff (events : List QueueLifeEvent) (hs : h.Sound)
    (hclock : (events.filterMap QueueLifeEvent.time).Pairwise (· ≤ ·))
    (hpast : ∀ x ∈ h.accepts, ∀ now ∈ events.filterMap QueueLifeEvent.time, x.time ≤ now) :
    Machine.Along step Right h events ↔ Machine.Along step Fresh h events := by
  induction events generalizing h with
  | nil => exact Iff.rfl
  | cons event events ih =>
    have hhere : h.Right event ↔ h.Fresh event := right_iff_fresh hs fun now hnow x hx =>
      hpast x hx now (List.mem_filterMap.2 ⟨event, List.mem_cons_self, hnow⟩)
    refine and_congr hhere (ih (hs.step event) ?_ ?_)
    · refine hclock.sublist ?_
      exact (List.sublist_cons_self event events).filterMap _
    · intro x hx now hnow
      rcases List.mem_append.1 hx with hold | hnew
      · refine hpast x hold now ?_
        exact ((List.sublist_cons_self event events).filterMap _).subset hnow
      · rw [List.filterMap_cons_some (time_of_mem_acceptsOf hnew)] at hclock
        exact (List.pairwise_cons.1 hclock).1 now hnow

end Steps

/-! ## Runs -/

/-- **Along every run with a clock that does not go back**, a message counts as sent only within the
window of its id, and a restart changes nothing about that, if and only if the clock is never read
while an agent remembers an id that is over, or `__proto__`. -/
theorem dedupe_window (turns : AgentId → Option TurnStatus) (now : ℤ) (events : List QueueLifeEvent)
    (hclock : (events.filterMap QueueLifeEvent.time).Pairwise (· ≤ ·)) :
    Machine.Along step Right (start turns now) events ↔
      Machine.Along step Fresh (start turns now) events :=
  along_right_iff events (sound_start turns now) hclock fun _ hx => absurd hx List.not_mem_nil

def idCall (now : ℤ) : EnqueueCall :=
  { sender := .user none none, text := js "hi", clientMessageId := some (js "m1"), now,
    draws := [js "00000001", js "00000002"], saveFails := false }

/-- A message and, six minutes later, one with the same id. -/
def lateResend : List QueueLifeEvent :=
  [.call (.delivery (js "a") (.enqueue (idCall 0))),
    .call (.delivery (js "a") (.enqueue (idCall 360000)))]

theorem dedupe_window_late :
    Machine.Along step Right (start (fun _ => some MessageQueues.idleTurn) 0) lateResend ↔
      Machine.Along step Fresh (start (fun _ => some MessageQueues.idleTurn) 0) lateResend :=
  dedupe_window _ 0 lateResend (by decide)

theorem late_resend_deduped : ¬ ∀ turns now events,
    (events.filterMap QueueLifeEvent.time).Pairwise (· ≤ ·) →
    Machine.Along step Right (start turns now) events := by
  intro hall
  obtain ⟨-, ⟨hwindow, -⟩, -⟩ := hall (fun _ => some MessageQueues.idleTurn) 0 lateResend (by decide)
  obtain ⟨x, hx, -, -, hlate, -⟩ := hwindow (js "a") (idCall 360000) rfl (by decide +kernel)
  have haccepts : (MessageQueues.start (fun _ => some MessageQueues.idleTurn) 0).Accepts (js "a")
      (idCall 0) := ⟨{ turn := MessageQueues.idleTurn }, js "00000001", rfl, rfl, rfl, rfl⟩
  have hfirst : x = ⟨js "a", js "m1", 0⟩ :=
    List.mem_singleton.1 (acceptsOf_of_accepts haccepts rfl ▸ hx)
  rw [hfirst] at hlate
  exact absurd hlate (by decide)

end DedupeHistory

end Isomux
