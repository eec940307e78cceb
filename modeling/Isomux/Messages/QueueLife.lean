import Isomux.Messages.QueueDurability

set_option autoImplicit false

/-!
# The life of the queues

The calls of `Isomux.QueueEvent` are not all that happens to a queue. Agents come, other modules of
the server move the items of a queue, mark them or put one in, and the server starts again from the
file.

## Main results

* `Isomux.MessageQueues.liveStep_moves` — every event does only that.
* `Isomux.MessageQueues.keyed_liveStep` — every event keeps the invariant.
-/

namespace Isomux

inductive QueueLifeEvent where
  | call (event : QueueEvent)
  | spawn (agentId : AgentId) (turn : TurnStatus)
  /-- Another module writes the queue of an agent. -/
  | rewrite (agentId : AgentId) (queue : List QueuedMessage)
  | persist (agentId : AgentId) (now : ℤ) (saveFails : Bool)
  /-- The server starts again, with these agents. -/
  | restart (turns : AgentId → Option TurnStatus) (now : ℤ)

namespace MessageQueues

def liveStep (s : MessageQueues) : QueueLifeEvent → MessageQueues
  | .call event => s.step event
  | .spawn agentId turn => s.setAgent agentId { turn }
  | .rewrite agentId queue => s.withAgent agentId fun a => { a with messageQueue := queue }
  | .persist agentId now saveFails =>
    match s.agents agentId with
    | none => s
    | some a => s.persistQueueState agentId a now saveFails
  | .restart turns now => boot s.disk turns now

def live (s : MessageQueues) (events : List QueueLifeEvent) : MessageQueues :=
  Machine.run liveStep s events

def start (turns : AgentId → Option TurnStatus) (now : ℤ) : MessageQueues :=
  boot (fun _ => none) turns now

def idleTurn : TurnStatus :=
  { state := .idle, session := some 0, pendingTurn := false, aborting := false,
    sessionSwapping := false, multiStepFlow := false, autoHandoffPhase := none,
    conversationHold := false, backendHold := false }

/-- `enqueueMessage` makes an item for this agent, and the file has it. -/
def Accepts (s : MessageQueues) (agentId : AgentId) (c : EnqueueCall) : Prop :=
  ∃ a id, s.agents agentId = some a ∧ checkEnqueue a c = none ∧
    generateQueuedId a.messageQueue c.draws = some id ∧ c.saveFails = false

/-- The ids of accepted messages in an agent's record. -/
def recordedIds (s : MessageQueues) (agentId : AgentId) : JsMap JsString ℤ :=
  (s.disk agentId).elim [] (·.dedupe)

/-- What an agent holds behind an event, in terms of what was there before. -/
inductive Holding (s : MessageQueues) (event : QueueLifeEvent) (b : AgentId) (a' : ManagedAgent) :
    Prop where
  | kept (a : ManagedAgent) (hagent : s.agents b = some a)
    (hqueue : a'.messageQueue ⊆ a.messageQueue) (hdedupe : a'.queueDedupe.Sublist a.queueDedupe)
  | accepted (a : ManagedAgent) (c : EnqueueCall) (id : JsString)
    (hevent : event = .call (.delivery b (.enqueue c))) (hagent : s.agents b = some a)
    (haccepts : s.Accepts b c)
    (hheld : a'.held = (pushItem a c (newItem a c id (.accepted s.calls))).held)
  | rewritten (a : ManagedAgent) (queue : List QueuedMessage) (hevent : event = .rewrite b queue)
    (hagent : s.agents b = some a) (hheld : a'.held = (queue, a.queueDedupe))
  /-- The agent was made, or comes from the file. -/
  | started (hqueue : ∀ m ∈ a'.messageQueue, isValidQueuedMessage m)
    (hdedupe : a'.queueDedupe.Sublist (s.recordedIds b))

/-- What an event may do to what is held, and to the file. -/
structure Moves (s : MessageQueues) (event : QueueLifeEvent) (s' : MessageQueues) : Prop where
  synced : s'.Synced
  held : ∀ b a', s'.agents b = some a' → Holding s event b a'
  disk : ∀ b, s'.recordedIds b = s.recordedIds b ∨ s'.recordedIds b = [] ∨
    ∃ a now, s'.agents b = some a ∧
      s'.recordedIds b = recordOf (a.queueDedupe.filter fun e => now < e.2)

/-! ## What an event does -/

section Steps

variable {s : MessageQueues} {event : QueueLifeEvent} {agentId : AgentId}

lemma buildQueueRecord_dedupe (a : ManagedAgent) (now : ℤ) :
    (buildQueueRecord a now).elim [] (·.dedupe) =
      recordOf (a.queueDedupe.filter fun e => now < e.2) := by
  unfold buildQueueRecord
  dsimp only
  split_ifs with h
  · exact (List.length_eq_zero_iff.1 h.2).symm
  · rfl

lemma agents_of_setAgent {a a' : ManagedAgent} {b : AgentId}
    (h : (s.setAgent agentId a).agents b = some a') :
    b = agentId ∧ a' = a ∨ b ≠ agentId ∧ s.agents b = some a' := by
  rw [agents_setAgent] at h
  split_ifs at h with hb
  · exact .inl ⟨hb, (Option.some.inj h).symm⟩
  · exact .inr ⟨hb, h⟩

lemma holding_self {b : AgentId} {a : ManagedAgent} (h : s.agents b = some a) :
    Holding s event b a :=
  .kept a h (List.Subset.refl _) (List.Sublist.refl _)

lemma moves_setAgent (hs : s.Synced) {a : ManagedAgent} (ha : Holding s event agentId a) :
    Moves s event (s.setAgent agentId a) where
  synced := hs
  held b a' h := by
    rcases agents_of_setAgent h with ⟨rfl, rfl⟩ | ⟨-, hb⟩
    · exact ha
    · exact holding_self hb
  disk b := .inl rfl

lemma moves_self (hs : s.Synced) : Moves s event s :=
  ⟨hs, fun _ _ h => holding_self h, fun _ => .inl rfl⟩

lemma Moves.countCall {s' : MessageQueues} (h : Moves s event s') : Moves s event s'.countCall :=
  { h with }

lemma Moves.countOffer {s' : MessageQueues} (h : Moves s event s') : Moves s event s'.countOffer :=
  { h with }

lemma moves_withAgent (hs : s.Synced) (f : ManagedAgent → ManagedAgent)
    (hf : ∀ a, (f a).held = a.held) : Moves s event (s.withAgent agentId f) := by
  unfold withAgent
  cases ha : s.agents agentId with
  | none => exact moves_self hs
  | some a =>
    obtain ⟨hqueue, hdedupe⟩ := Prod.mk.inj (hf a)
    exact moves_setAgent hs (.kept a ha (hqueue ▸ List.Subset.refl _)
      (hdedupe ▸ List.Sublist.refl _))

variable (agentId) in
lemma recordedIds_persistQueueState (hs : s.Synced) (a : ManagedAgent) (now : ℤ) (saveFails : Bool)
    (b : AgentId) : (s.persistQueueState agentId a now saveFails).recordedIds b =
      if saveFails = false ∧ b = agentId then recordOf (a.queueDedupe.filter fun e => now < e.2)
      else s.recordedIds b := by
  unfold persistQueueState commitStore recordedIds
  cases saveFails with
  | true => simp
  | false =>
    by_cases hb : b = agentId
    · subst hb
      simp [buildQueueRecord_dedupe]
    · simp only [Bool.false_eq_true, if_false, Function.update_of_ne hb, hb, and_false]
      rw [show s.queueStore = s.disk from hs]

lemma moves_setAgent_persistQueueState (hs : s.Synced) {saved a : ManagedAgent} (now : ℤ)
    (saveFails : Bool) (ha : Holding s event agentId a)
    (hheld : saveFails = false → saved.held = a.held) :
    Moves s event ((s.persistQueueState agentId saved now saveFails).setAgent agentId a) where
  synced := synced_persistQueueState hs
  held b a' h := by
    rcases agents_of_setAgent h with ⟨rfl, rfl⟩ | ⟨-, hb⟩
    · exact ha
    · exact holding_self (by simpa using hb)
  disk b := by
    have hids := recordedIds_persistQueueState agentId hs saved now saveFails b
    split_ifs at hids with hsave
    · obtain ⟨hsave, rfl⟩ := hsave
      refine .inr (.inr ⟨a, now, by simp [setAgent], ?_⟩)
      have hsame : saved.queueDedupe = a.queueDedupe := congrArg Prod.snd (hheld hsave)
      exact hsame ▸ hids
    · exact .inl hids

lemma moves_persistQueueState (hs : s.Synced) {a : ManagedAgent} (now : ℤ) (saveFails : Bool)
    (ha : Holding s event agentId a) :
    Moves s event ((s.setAgent agentId a).persistQueueState agentId a now saveFails) := by
  have hcomm : (s.setAgent agentId a).persistQueueState agentId a now saveFails =
      (s.persistQueueState agentId a now saveFails).setAgent agentId a := by
    cases saveFails <;> rfl
  exact hcomm ▸ moves_setAgent_persistQueueState hs now saveFails ha fun _ => rfl

lemma moves_drainQueueItems (hs : s.Synced) {a b : ManagedAgent} (ha : s.agents agentId = some a)
    (hheld : b.held = a.held) (items : List MessageRef) (now : ℤ) (saveFails : Bool) :
    Moves s event (s.drainQueueItems agentId b items now saveFails) := by
  obtain ⟨hqueue, hdedupe⟩ := Prod.mk.inj hheld
  refine moves_persistQueueState hs now saveFails (.kept a ha ?_ ?_)
  · rw [ManagedAgent.emitQueueUpdate_messageQueue]
    exact hqueue ▸ List.filter_sublist.subset
  · have hsame := congrArg Prod.snd (ManagedAgent.emitQueueUpdate_held
      { b with messageQueue := b.messageQueue.filter fun m => m.ref ∉ items })
    change ManagedAgent.queueDedupe _ = b.queueDedupe at hsame
    rw [hsame, hdedupe]

lemma moves_kill (hs : s.Synced) (saveFails : Bool) : Moves s event (s.kill agentId saveFails) where
  synced := (writes_kill hs).synced
  held b a' h := by
    have hagents : (s.kill agentId saveFails).agents = (s.deleteAgent agentId).agents := by
      unfold kill removeQueueRecord commitStore
      split_ifs <;> rfl
    rw [hagents] at h
    by_cases hb : b = agentId
    · simp [deleteAgent, hb] at h
    · exact holding_self (by simpa [deleteAgent, hb] using h)
  disk b := by
    have hstore : (s.deleteAgent agentId).queueStore = s.disk := hs
    unfold kill removeQueueRecord commitStore recordedIds
    split_ifs
    · exact .inl rfl
    · exact .inl rfl
    · by_cases hb : b = agentId
      · exact .inr (.inl (by simp [hb]))
      · exact .inl (by simp only [Function.update_of_ne hb, hstore])

/-! ### Accepting a message -/

@[simp] lemma afterAccept_held (a : ManagedAgent) (c : EnqueueCall) (steers : Bool) (id : JsString)
    (freshClaim freshSteer : ℕ) :
    (afterAccept a c steers id freshClaim freshSteer).1.held = a.held := by
  unfold afterAccept
  cases a.turn.autoHandoffPhase <;> dsimp only <;> split_ifs <;>
    first | rfl | exact ManagedAgent.pushBoundarySteer_held _ _ _ _ _

lemma delete_set {β : Type*} (m : JsMap JsString β) (key : JsString) (value : β) :
    JsMap.delete (JsMap.set m key value) key = JsMap.delete m key := by
  unfold JsMap.delete JsMap.set
  split_ifs with h
  · rw [List.filter_map]
    have hkeep : ((fun e : JsString × β => decide (e.1 ≠ key)) ∘
        fun e => if e.1 = key then (key, value) else e) = fun e => decide (e.1 ≠ key) := by
      funext e
      by_cases he : e.1 = key <;> simp [he]
    rw [hkeep]
    refine (List.map_congr_left fun e he => ?_).trans (List.map_id _)
    rw [List.mem_filter, decide_eq_true_iff] at he
    rw [if_neg he.2, id]
  · simp

lemma delete_recordDedupe_sublist (dedupe : JsMap JsString ℤ) (key : JsString) (now : ℤ) :
    (JsMap.delete (recordDedupe dedupe key now) key).Sublist dedupe := by
  rw [recordDedupe, delete_set]
  split_ifs
  · exact List.filter_sublist.trans List.filter_sublist
  · exact List.filter_sublist

lemma popItem_pushItem (a : ManagedAgent) (c : EnqueueCall) (item : QueuedMessage) :
    (popItem (pushItem a c item) c).messageQueue = a.messageQueue ∧
      (popItem (pushItem a c item) c).queueDedupe.Sublist a.queueDedupe := by
  refine ⟨by simp [popItem, pushItem], ?_⟩
  unfold popItem pushItem
  cases c.dedupeKey with
  | none => exact List.Sublist.refl _
  | some key => exact delete_recordDedupe_sublist _ _ _

lemma moves_enqueueMessage (hs : s.Synced) (c : EnqueueCall) :
    Moves s (.call (.delivery agentId (.enqueue c))) (s.enqueueMessage agentId c).1 := by
  unfold enqueueMessage
  split
  · exact (moves_self hs).countCall
  · rename_i a ha
    split
    · exact (moves_self hs).countCall
    · rename_i hcheck
      split
      · exact (moves_self hs).countCall
      · rename_i id hid
        obtain ⟨hqueue, hdedupe⟩ :=
          popItem_pushItem a c (newItem a c id (.accepted s.calls))
        refine Moves.countCall ?_
        unfold acceptMessage
        split_ifs with hsave
        · exact moves_setAgent_persistQueueState hs c.now c.saveFails
            (.kept a ha (hqueue ▸ List.Subset.refl _) hdedupe) fun h => absurd hsave (by simp [h])
        · have hkept := (afterAccept_held (releaseBackendHold (pushItem a c
            (newItem a c id (.accepted s.calls))).emitQueueUpdate) c (boundarySteer a c) id s.claims
            s.steers).trans (ManagedAgent.emitQueueUpdate_held _)
          exact (moves_setAgent_persistQueueState hs c.now c.saveFails
            (.accepted a c id rfl ha ⟨a, id, ha, hcheck, hid, by simpa using hsave⟩ hkept)
            fun _ => hkept.symm).countOffer

lemma moves_boot (turns : AgentId → Option TurnStatus) (now : ℤ) :
    Moves s event (boot s.disk turns now) where
  synced := rfl
  held b a' h := by
    obtain ⟨turn, -, rfl⟩ := Option.map_eq_some_iff.1 h
    unfold readPersistedQueueRecord queueStore loadMessageQueuesRaw
    cases hrecord : s.disk b with
    | none => exact .started (by simp [hrecord]) (by simp [hrecord])
    | some record =>
      simp only [Option.getD_none, hrecord, Option.map_some]
      split_ifs
      · exact .started (by simp) (by simp)
      · refine .started (fun m hm => (List.mem_filter.1 hm).2) ?_
        rw [recordedIds, hrecord]
        exact List.filter_sublist
  disk b := by
    refine .inl ?_
    change ((loadMessageQueuesRaw s.disk) b).elim [] (·.dedupe) = _
    unfold recordedIds loadMessageQueuesRaw
    cases s.disk b <;> rfl

end Steps

/-- **Every event does only that.** -/
theorem liveStep_moves {s : MessageQueues} (hs : s.Synced) (event : QueueLifeEvent) :
    Moves s event (s.liveStep event) := by
  cases event with
  | call event =>
    cases event with
    | delivery agentId event =>
      cases event with
      | enqueue c => exact moves_enqueueMessage hs c
      | take session textFails | push steer textFails =>
        exact (moves_withAgent hs _ (by simp)).countOffer
      | answered claimId steerId ok =>
        cases ok with
        | true => exact moves_self hs
        | false => exact moves_withAgent hs _ (by simp)
      | steerDelivered steerId => exact moves_withAgent hs _ (by simp)
      | turnCompleted now saveFails =>
        simp only [liveStep, step, deliver]
        split
        · exact moves_self hs
        · rename_i a ha
          unfold drainBoundaryClaim
          dsimp only
          split_ifs
          · exact moves_drainQueueItems (b := { a with boundaryClaim := none }) hs ha rfl _ _ _
          · exact moves_setAgent hs (.kept a ha (List.Subset.refl _) (List.Sublist.refl _))
      | turn turn => exact moves_withAgent hs _ fun _ => rfl
    | drain agentId items now saveFails =>
      simp only [liveStep, step]
      split
      · exact moves_self hs
      · rename_i a ha
        exact moves_drainQueueItems hs ha rfl _ _ _
    | kill agentId saveFails => exact moves_kill hs saveFails
  | spawn agentId turn => exact moves_setAgent hs (.started (by simp) (by simp))
  | rewrite agentId queue =>
    simp only [liveStep, withAgent]
    split
    · exact moves_self hs
    · rename_i a ha
      exact moves_setAgent hs (.rewritten a queue rfl ha rfl)
  | persist agentId now saveFails =>
    simp only [liveStep]
    split
    · exact moves_self hs
    · rename_i a ha
      have hset : s.setAgent agentId a = s := by
        unfold setAgent
        rw [← ha, Function.update_eq_self]
      have h : Moves s (.persist agentId now saveFails) _ :=
        moves_persistQueueState hs now saveFails (holding_self ha)
      rwa [hset] at h
  | restart turns now => exact moves_boot turns now

/-! ## The ids -/

/-- An id is once in a map and in a record, and no record has `__proto__`. -/
structure Keyed (s : MessageQueues) : Prop where
  synced : s.Synced
  held : ∀ b a, s.agents b = some a → (a.queueDedupe.map Prod.fst).Nodup
  disk : ∀ b, ((s.recordedIds b).map Prod.fst).Nodup
  proto : ∀ b, ∀ e ∈ s.recordedIds b, e.1 ≠ PROTO

lemma nodup_recordDedupe {dedupe : JsMap JsString ℤ} (h : (dedupe.map Prod.fst).Nodup)
    (key : JsString) (now : ℤ) : ((recordDedupe dedupe key now).map Prod.fst).Nodup := by
  unfold recordDedupe
  refine JsMap.nodup_keys_set ?_
  split_ifs
  · exact h.sublist (List.filter_sublist.map _)
  · exact h

lemma mem_recordDedupe_self (dedupe : JsMap JsString ℤ) (key : JsString) (now : ℤ) :
    (key, now + QUEUE_DEDUPE_TTL_MS) ∈ recordDedupe dedupe key now := by
  refine JsMap.mem_of_get ?_
  rw [recordDedupe, JsMap.get_set, if_pos rfl]

lemma mem_recordDedupe {dedupe : JsMap JsString ℤ} {key : JsString} {now : ℤ} {e : JsString × ℤ}
    (h : e ∈ recordDedupe dedupe key now) : e ∈ dedupe ∨ e = (key, now + QUEUE_DEDUPE_TTL_MS) := by
  rcases JsMap.mem_set h with hold | hnew
  · refine .inl ?_
    split_ifs at hold
    · exact (List.mem_filter.1 hold).1
    · exact hold
  · exact .inr hnew

/-- **Every event keeps the ids apart.** -/
theorem keyed_liveStep {s : MessageQueues} (h : s.Keyed) (event : QueueLifeEvent) :
    (s.liveStep event).Keyed := by
  have hmoves := liveStep_moves h.synced event
  have hheld : ∀ b a, (s.liveStep event).agents b = some a →
      (a.queueDedupe.map Prod.fst).Nodup := by
    intro b a' ha'
    cases hmoves.held b a' ha' with
    | kept a ha hqueue hdedupe => exact (h.held b a ha).sublist (hdedupe.map _)
    | accepted a c id hevent ha haccepts hheld =>
      have hdedupe : a'.queueDedupe = _ := congrArg Prod.snd hheld
      rw [hdedupe]
      simp only [ManagedAgent.held, pushItem]
      split
      · exact nodup_recordDedupe (h.held b a ha) _ _
      · exact h.held b a ha
    | rewritten a queue hevent ha hheld =>
      have hdedupe : a'.queueDedupe = _ := congrArg Prod.snd hheld
      exact hdedupe ▸ h.held b a ha
    | started hqueue hdedupe => exact (h.disk b).sublist (hdedupe.map _)
  have hfilter : ∀ b a now, (s.liveStep event).agents b = some a →
      ((a.queueDedupe.filter fun e => (now : ℤ) < e.2).map Prod.fst).Nodup :=
    fun b a now ha => (hheld b a ha).sublist (List.filter_sublist.map _)
  refine ⟨hmoves.synced, hheld, fun b => ?_, fun b => ?_⟩
  · rcases hmoves.disk b with hsame | hnone | ⟨a, now, ha, hnew⟩
    · exact hsame ▸ h.disk b
    · simp [hnone]
    · exact hnew ▸ nodup_recordOf (hfilter b a now ha)
  · rcases hmoves.disk b with hsame | hnone | ⟨a, now, ha, hnew⟩
    · exact hsame ▸ h.proto b
    · simp [hnone]
    · exact fun e he => ((mem_recordOf (hfilter b a now ha)).1 (hnew ▸ he)).2

lemma held_start {turns : AgentId → Option TurnStatus} {n : ℤ} {b : AgentId} {a : ManagedAgent}
    (h : (start turns n).agents b = some a) : a.held = ([], []) := by
  obtain ⟨turn, -, rfl⟩ := Option.map_eq_some_iff.1 h
  rfl

lemma keyed_start (turns : AgentId → Option TurnStatus) (now : ℤ) : (start turns now).Keyed := by
  have hids : ∀ b, (start turns now).recordedIds b = [] := fun _ => rfl
  refine ⟨rfl, fun b a ha => ?_, fun b => by simp [hids], fun b => by simp [hids]⟩
  have hnone : a.queueDedupe = [] := congrArg Prod.snd (held_start ha)
  simp [hnone]

end MessageQueues

end Isomux
