import Isomux.Messages.Queue

set_option autoImplicit false

/-!
# What is accepted is in the file

A message is accepted when the file has it, and leaves the file only behind the queue of its agent.
A message whose save failed is taken back before anything else can be written.

## Main results

* `Isomux.MessageQueues.step_writes` — every call does only that.
* `Isomux.MessageQueues.mem_liveQueue_step` — only a call that removes an item takes it out.
* `Isomux.MessageQueues.enqueueMessage_durable` — for any sequence of calls, a refused message is
  nowhere, and an accepted one is in the file until it is removed from its queue.
* `Isomux.MessageQueues.queue_orderly` — what waits for an agent is in order, and not too much.
-/

namespace Isomux.MessageQueues

def liveQueue (s : MessageQueues) (agentId : AgentId) : List QueuedMessage :=
  (s.agents agentId).elim [] (·.messageQueue)

/-- The items of an agent's record in the file. -/
def recorded (s : MessageQueues) (agentId : AgentId) : List QueuedMessage :=
  (s.disk agentId).elim [] (·.queue)

/-- The cache, once it is there, is the file. -/
def Synced (s : MessageQueues) : Prop := s.queueStore = s.disk

/-- What a call may do. A record becomes the live queue of its agent or stays, and an item comes
into a queue with the record that has it. -/
structure Writes (s s' : MessageQueues) : Prop where
  synced : s'.Synced
  record : ∀ b, s'.recorded b = s.recorded b ∨ s'.recorded b = s'.liveQueue b
  queue : ∀ b, ∀ m ∈ s'.liveQueue b, m ∈ s.liveQueue b ∨
    m.ref = .accepted s.calls ∧ s.calls < s'.calls ∧ s'.recorded b = s'.liveQueue b
  calls : s.calls ≤ s'.calls

/-! ## The file -/

section File

variable {s : MessageQueues} {agentId : AgentId} {a : ManagedAgent} {now : ℤ} {saveFails : Bool}

@[simp] lemma liveQueue_setAgent (b : AgentId) :
    (s.setAgent agentId a).liveQueue b = if b = agentId then a.messageQueue else s.liveQueue b := by
  unfold liveQueue setAgent
  split_ifs with h <;> simp [h]

lemma agents_setAgent (b : AgentId) :
    (s.setAgent agentId a).agents b = if b = agentId then some a else s.agents b := by
  unfold setAgent
  split_ifs with h <;> simp [h]

@[simp] lemma agents_persistQueueState :
    (s.persistQueueState agentId a now saveFails).agents = s.agents := by
  unfold persistQueueState commitStore
  split_ifs <;> rfl

@[simp] lemma recorded_setAgent (b : AgentId) :
    (s.setAgent agentId a).recorded b = s.recorded b := rfl

@[simp] lemma synced_setAgent : (s.setAgent agentId a).Synced ↔ s.Synced := Iff.rfl

@[simp] lemma calls_setAgent : (s.setAgent agentId a).calls = s.calls := rfl

lemma synced_commitStore (h : s.Synced) (next : QueueStore) :
    (s.commitStore next saveFails).Synced := by
  unfold commitStore
  split_ifs
  · exact h
  · rfl

@[simp] lemma liveQueue_commitStore (next : QueueStore) (b : AgentId) :
    (s.commitStore next saveFails).liveQueue b = s.liveQueue b := by
  unfold commitStore
  split_ifs <;> rfl

@[simp] lemma calls_commitStore (next : QueueStore) :
    (s.commitStore next saveFails).calls = s.calls := by
  unfold commitStore
  split_ifs <;> rfl

lemma recorded_commitStore (next : QueueStore) (b : AgentId) :
    (s.commitStore next saveFails).recorded b =
      if saveFails then s.recorded b else (next b).elim [] (·.queue) := by
  unfold commitStore recorded
  split_ifs <;> rfl

lemma buildQueueRecord_queue : (buildQueueRecord a now).elim [] (·.queue) = a.messageQueue := by
  unfold buildQueueRecord
  dsimp only
  split_ifs with h
  · exact (List.length_eq_zero_iff.mp h.1).symm
  · rfl

lemma recorded_persistQueueState (h : s.Synced) (b : AgentId) :
    (s.persistQueueState agentId a now saveFails).recorded b =
      if saveFails = false ∧ b = agentId then a.messageQueue else s.recorded b := by
  unfold persistQueueState
  rw [recorded_commitStore]
  cases saveFails with
  | true => simp
  | false =>
    by_cases hb : b = agentId
    · subst hb
      simp [buildQueueRecord_queue]
    · simp only [Bool.false_eq_true, if_false, Function.update_of_ne hb, hb, and_false]
      rw [show s.queueStore = s.disk from h]
      rfl

@[simp] lemma liveQueue_persistQueueState (b : AgentId) :
    (s.persistQueueState agentId a now saveFails).liveQueue b = s.liveQueue b :=
  liveQueue_commitStore _ b

@[simp] lemma calls_persistQueueState :
    (s.persistQueueState agentId a now saveFails).calls = s.calls := calls_commitStore _

lemma synced_persistQueueState (h : s.Synced) :
    (s.persistQueueState agentId a now saveFails).Synced := synced_commitStore h _

end File

/-! ## What a call does -/

section Calls

variable {s : MessageQueues} {agentId : AgentId}

lemma writes_of_queues {s' : MessageQueues} (hs : s.Synced) (hcache : s'.queueStoreCache =
    s.queueStoreCache) (hdisk : s'.disk = s.disk) (hqueue : ∀ b, s'.liveQueue b = s.liveQueue b)
    (hcalls : s.calls ≤ s'.calls) : Writes s s' where
  synced := by
    unfold Synced queueStore
    rw [hcache, hdisk]
    exact hs
  record b := .inl (by rw [recorded, recorded, hdisk])
  queue b m hm := .inl (hqueue b ▸ hm)
  calls := hcalls

variable (agentId) in
lemma writes_withAgent (hs : s.Synced) (f : ManagedAgent → ManagedAgent)
    (hf : ∀ a, (f a).messageQueue = a.messageQueue) : Writes s (s.withAgent agentId f) := by
  unfold withAgent
  cases ha : s.agents agentId with
  | none => exact writes_of_queues hs rfl rfl (fun _ => rfl) (Nat.le_refl _)
  | some a =>
    refine writes_of_queues hs rfl rfl (fun b => ?_) (Nat.le_refl _)
    rw [liveQueue_setAgent]
    split_ifs with hb
    · rw [hb, hf, liveQueue, ha]
      rfl
    · rfl

lemma liveQueue_drainQueueItems {a : ManagedAgent} {items : List MessageRef} {now : ℤ}
    {saveFails : Bool} (b : AgentId) :
    (s.drainQueueItems agentId a items now saveFails).liveQueue b =
      if b = agentId then a.messageQueue.filter fun m => m.ref ∉ items else s.liveQueue b := by
  simp [drainQueueItems]

lemma writes_drainQueueItems {a a' : ManagedAgent} {items : List MessageRef} {now : ℤ}
    {saveFails : Bool} (hs : s.Synced) (ha : s.agents agentId = some a)
    (hqueue : a'.messageQueue = a.messageQueue) :
    Writes s (s.drainQueueItems agentId a' items now saveFails) := by
  refine ⟨synced_persistQueueState hs, fun b => ?_, fun b m hm => .inl ?_,
    by simp [drainQueueItems]⟩
  · rw [liveQueue_drainQueueItems, drainQueueItems,
      recorded_persistQueueState (synced_setAgent.mpr hs)]
    split_ifs with hsave hb
    · exact .inr (by simp)
    · exact absurd hsave.2 hb
    · exact .inl rfl
    · exact .inl rfl
  · rw [liveQueue_drainQueueItems] at hm
    split_ifs at hm with hb
    · rw [hqueue] at hm
      rw [hb, liveQueue, ha]
      exact (List.mem_filter.mp hm).1
    · exact hm

lemma writes_drainBoundaryClaim {a : ManagedAgent} {now : ℤ} {saveFails : Bool} (hs : s.Synced)
    (ha : s.agents agentId = some a) :
    Writes s (s.drainBoundaryClaim agentId a now saveFails) := by
  unfold drainBoundaryClaim
  dsimp only
  split_ifs
  · exact writes_drainQueueItems hs ha rfl
  · refine writes_of_queues hs rfl rfl (fun b => ?_) (Nat.le_refl _)
    rw [liveQueue_setAgent]
    split_ifs with hb
    · rw [hb, liveQueue, ha]
      rfl
    · rfl

@[simp] lemma liveQueue_deleteAgent (b : AgentId) :
    (s.deleteAgent agentId).liveQueue b = if b = agentId then [] else s.liveQueue b := by
  unfold liveQueue deleteAgent
  split_ifs with hb <;> simp [hb]

@[simp] lemma liveQueue_removeQueueRecord {saveFails : Bool} (b : AgentId) :
    (s.removeQueueRecord agentId saveFails).liveQueue b = s.liveQueue b := by
  unfold removeQueueRecord
  split_ifs
  · rfl
  · simp

lemma recorded_removeQueueRecord (saveFails : Bool) (hs : s.Synced) (b : AgentId) :
    (s.removeQueueRecord agentId saveFails).recorded b = s.recorded b ∨
      b = agentId ∧ (s.removeQueueRecord agentId saveFails).recorded b = [] := by
  unfold removeQueueRecord
  split_ifs
  · exact .inl rfl
  · rw [recorded_commitStore]
    cases saveFails with
    | true => exact .inl rfl
    | false =>
      by_cases hb : b = agentId
      · exact .inr ⟨hb, by simp [hb]⟩
      · simp only [Bool.false_eq_true, if_false, Function.update_of_ne hb]
        exact .inl (congrArg (fun d : QueueStore => (d b).elim [] (·.queue)) hs)

lemma writes_kill {saveFails : Bool} (hs : s.Synced) :
    Writes s (s.kill agentId saveFails) := by
  have hdel : (s.deleteAgent agentId).Synced := hs
  refine ⟨?_, fun b => ?_, fun b m hm => .inl ?_, ?_⟩
  · unfold kill removeQueueRecord
    split_ifs
    · exact hdel
    · exact synced_commitStore hdel _
  · rcases recorded_removeQueueRecord saveFails hdel b with h | ⟨hb, h⟩
    · exact .inl h
    · exact .inr (h.trans (by simp [kill, hb]))
  · rw [kill, liveQueue_removeQueueRecord, liveQueue_deleteAgent] at hm
    split_ifs at hm
    · exact absurd hm (by simp)
    · exact hm
  · unfold kill removeQueueRecord
    split_ifs
    · exact Nat.le_refl _
    · rw [calls_commitStore]
      exact Nat.le_refl _

/-! ### Accepting a message -/

@[simp] lemma afterAccept_messageQueue (a : ManagedAgent) (c : EnqueueCall) (steers : Bool)
    (id : JsString) (freshClaim freshSteer : ℕ) :
    (afterAccept a c steers id freshClaim freshSteer).1.messageQueue = a.messageQueue := by
  unfold afterAccept
  cases a.turn.autoHandoffPhase <;> dsimp only <;> split_ifs <;> simp

lemma afterAccept_accepted (a : ManagedAgent) (c : EnqueueCall) (steers : Bool)
    (id : JsString) (freshClaim freshSteer : ℕ) :
    ∃ queued steered declined,
      (afterAccept a c steers id freshClaim freshSteer).2 =
        .accepted queued id steered declined := by
  unfold afterAccept
  cases a.turn.autoHandoffPhase <;> dsimp only <;> split_ifs <;> exact ⟨_, _, _, rfl⟩

variable {a : ManagedAgent} {c : EnqueueCall} {id : JsString}

@[simp] lemma liveQueue_countOffer (b : AgentId) : s.countOffer.liveQueue b = s.liveQueue b := rfl

@[simp] lemma liveQueue_countCall (b : AgentId) : s.countCall.liveQueue b = s.liveQueue b := rfl

lemma liveQueue_acceptMessage (b : AgentId) :
    (s.acceptMessage agentId a c id).1.liveQueue b =
      if b = agentId then
        if c.saveFails then a.messageQueue
        else a.messageQueue ++ [newItem a c id (.accepted s.calls)]
      else s.liveQueue b := by
  unfold acceptMessage
  cases c.saveFails with
  | true => simp [popItem, pushItem]
  | false => simp [releaseBackendHold, pushItem]

lemma recorded_acceptMessage (hs : s.Synced) (b : AgentId) :
    (s.acceptMessage agentId a c id).1.recorded b =
      if c.saveFails = false ∧ b = agentId then
        a.messageQueue ++ [newItem a c id (.accepted s.calls)]
      else s.recorded b := by
  have hsaved := @recorded_persistQueueState s agentId
    (pushItem a c (newItem a c id (.accepted s.calls))) c.now c.saveFails hs b
  unfold acceptMessage
  cases hsave : c.saveFails with
  | true =>
    rw [hsave] at hsaved
    simpa using hsaved
  | false =>
    rw [hsave] at hsaved
    exact hsaved

variable (s agentId a c id) in
lemma acceptMessage_result :
    if c.saveFails then (s.acceptMessage agentId a c id).2 = .refused "persist_failed" 500
    else ∃ queued steered declined,
      (s.acceptMessage agentId a c id).2 = .accepted queued id steered declined := by
  unfold acceptMessage
  split_ifs
  · rfl
  · exact afterAccept_accepted _ _ _ _ _ _

lemma checkEnqueue_ne_accepted {result : EnqueueResult} (h : checkEnqueue a c = some result)
    (queued : Bool) (id : JsString) (steered : Option Bool)
    (declined : Option SteerDeclineReason) : result ≠ .accepted queued id steered declined := by
  rintro rfl
  unfold checkEnqueue at h
  cases hcap : c.capRefusal <;> simp only [hcap] at h <;> split_ifs at h <;> simp at h

lemma enqueueMessage_cases (s : MessageQueues) (agentId : AgentId) (c : EnqueueCall) :
    (∃ result, s.enqueueMessage agentId c = (s.countCall, result) ∧
      ∀ queued id steered declined, result ≠ some (.accepted queued id steered declined)) ∨
    ∃ a id, s.agents agentId = some a ∧ s.enqueueMessage agentId c =
      ((s.acceptMessage agentId a c id).1.countCall,
        some (s.acceptMessage agentId a c id).2) := by
  unfold enqueueMessage
  split
  · exact .inl ⟨_, rfl, by simp⟩
  · rename_i a ha
    split
    · rename_i result hcheck
      exact .inl ⟨_, rfl, fun _ _ _ _ h =>
        checkEnqueue_ne_accepted hcheck _ _ _ _ (Option.some.inj h)⟩
    · split
      · exact .inl ⟨_, rfl, by simp⟩
      · exact .inr ⟨a, _, ha, rfl⟩

variable (agentId a c id) in
lemma acceptMessage_frame (hs : s.Synced) :
    (s.acceptMessage agentId a c id).1.calls = s.calls ∧
      (s.acceptMessage agentId a c id).1.Synced := by
  have hsaved : ∀ pushed : ManagedAgent,
      (s.persistQueueState agentId pushed c.now c.saveFails).Synced :=
    fun _ => synced_persistQueueState hs
  unfold acceptMessage
  split_ifs
  · exact ⟨calls_persistQueueState, hsaved _⟩
  · exact ⟨calls_persistQueueState, hsaved _⟩

lemma writes_enqueueMessage (hs : s.Synced) (c : EnqueueCall) :
    Writes s (s.enqueueMessage agentId c).1 := by
  rcases enqueueMessage_cases s agentId c with ⟨result, heq, -⟩ | ⟨a, id, ha, heq⟩
  · rw [heq]
    exact writes_of_queues hs rfl rfl (fun _ => rfl) (Nat.le_succ _)
  · rw [heq]
    obtain ⟨hcalls, hsynced⟩ := acceptMessage_frame agentId a c id hs
    have hlt : s.calls < (s.acceptMessage agentId a c id).1.countCall.calls :=
      hcalls ▸ Nat.lt_succ_self _
    have hlive : s.liveQueue agentId = a.messageQueue := by
      rw [liveQueue, ha]
      rfl
    refine ⟨hsynced, fun b => ?_, fun b m hm => ?_, Nat.le_of_lt hlt⟩
    · change (s.acceptMessage agentId a c id).1.recorded b = _ ∨
        (s.acceptMessage agentId a c id).1.recorded b = _
      rw [recorded_acceptMessage hs, liveQueue_countCall, liveQueue_acceptMessage]
      split_ifs with hsave hb hb' <;> simp_all
    · change _ ∨ _ ∧ _ ∧ (s.acceptMessage agentId a c id).1.recorded b = _
      rw [recorded_acceptMessage hs]
      rw [liveQueue_countCall, liveQueue_acceptMessage] at hm ⊢
      split_ifs at hm with hb hsave
      · exact .inl (by rw [hb, hlive]; exact hm)
      · rcases List.mem_append.mp hm with hold | hnew
        · exact .inl (by rw [hb, hlive]; exact hold)
        · rw [List.mem_singleton] at hnew
          subst hnew
          exact .inr ⟨rfl, hlt, by simp [hb, hsave]⟩
      · exact .inl hm

end Calls

/-- **Every call writes records from live queues only.** -/
theorem step_writes {s : MessageQueues} (hs : s.Synced) (event : QueueEvent) :
    Writes s (s.step event) := by
  cases event with
  | delivery agentId event =>
    cases event with
    | enqueue c => exact writes_enqueueMessage hs c
    | take session textFails =>
      have h := writes_withAgent agentId hs
        (fun a => (a.takeToolBoundaryMessage session textFails s.claims).1) (by simp)
      exact { h with }
    | push steer textFails =>
      have h := writes_withAgent agentId hs
        (fun a => a.pushBoundarySteer steer textFails s.claims s.steers) (by simp)
      exact { h with }
    | answered claimId steerId ok =>
      cases ok with
      | true => exact writes_of_queues hs rfl rfl (fun _ => rfl) (Nat.le_refl _)
      | false => exact writes_withAgent _ hs _ (by simp)
    | steerDelivered steerId | turn turn => exact writes_withAgent _ hs _ (by simp)
    | turnCompleted now saveFails =>
      simp only [step, deliver]
      split
      · exact writes_of_queues hs rfl rfl (fun _ => rfl) (Nat.le_refl _)
      · rename_i a ha
        exact writes_drainBoundaryClaim hs ha
  | drain agentId items now saveFails =>
    simp only [step]
    split
    · exact writes_of_queues hs rfl rfl (fun _ => rfl) (Nat.le_refl _)
    · rename_i a ha
      exact writes_drainQueueItems hs ha rfl
  | kill agentId saveFails => exact writes_kill hs

/-! ## The invariant -/

/-- The cache is the file, every live item is in its agent's record, and no record has an item of a
call to come. -/
structure Durable (s : MessageQueues) : Prop where
  synced : s.Synced
  covered : ∀ b, ∀ m ∈ s.liveQueue b, m ∈ s.recorded b
  issued : ∀ b, ∀ m ∈ s.recorded b, ∀ n, m.ref = .accepted n → n < s.calls

section Invariant

variable {s s' : MessageQueues}

lemma Durable.of_writes (h : s.Durable) (hw : Writes s s') : s'.Durable where
  synced := hw.synced
  covered b m hm := by
    rcases hw.record b with hrec | hrec
    · rcases hw.queue b m hm with hold | ⟨-, -, hrec'⟩
      · rw [hrec]
        exact h.covered b m hold
      · rw [hrec']
        exact hm
    · rw [hrec]
      exact hm
  issued b m hm n href := by
    have hold : ∀ m' ∈ s.recorded b, m'.ref = .accepted n → n < s'.calls :=
      fun m' hm' href' => Nat.lt_of_lt_of_le (h.issued b m' hm' n href') hw.calls
    rcases hw.record b with hrec | hrec
    · exact hold m (hrec ▸ hm) href
    · rcases hw.queue b m (hrec ▸ hm) with hlive | ⟨hnew, hlt, -⟩
      · exact hold m (h.covered b m hlive) href
      · obtain rfl : s.calls = n := by simpa [hnew] using href
        exact hlt

lemma Durable.step (h : s.Durable) (event : QueueEvent) : (s.step event).Durable :=
  h.of_writes (step_writes h.synced event)

lemma Durable.run (h : s.Durable) (events : List QueueEvent) : (s.run events).Durable :=
  Machine.run_invariant (fun _ event hs => Durable.step hs event) h

lemma durable_boot (file : QueueStore) (turns : AgentId → Option TurnStatus) (now : ℤ) :
    (boot file turns now).Durable where
  synced := rfl
  covered b m hm := by
    unfold liveQueue boot at hm
    unfold recorded boot
    dsimp only at hm ⊢
    cases hturn : turns b with
    | none => simp [hturn] at hm
    | some turn =>
      simp only [hturn, Option.map_some, Option.elim_some, readPersistedQueueRecord, queueStore,
        Option.getD_none] at hm
      cases hrec : loadMessageQueuesRaw file b with
      | none => simp [hrec] at hm
      | some record =>
        simp only [hrec] at hm
        split_ifs at hm
        · simp at hm
        · exact (List.mem_filter.mp hm).1
  issued b m hm n href := by
    unfold recorded boot loadMessageQueuesRaw at hm
    cases hfile : file b with
    | none => simp [hfile] at hm
    | some record =>
      simp only [hfile, Option.map_some, Option.elim_some, List.mem_mapIdx] at hm
      obtain ⟨i, hi, rfl⟩ := hm
      simp at href

/-- The item of a call is in no record, and the call was made. -/
def Absent (n : ℕ) (s : MessageQueues) : Prop :=
  n < s.calls ∧ ∀ b, ∀ m ∈ s.recorded b, m.ref ≠ .accepted n

lemma Absent.step {n : ℕ} (hs : s.Durable) (h : Absent n s) (event : QueueEvent) :
    Absent n (s.step event) := by
  have hw := step_writes hs.synced event
  refine ⟨Nat.lt_of_lt_of_le h.1 hw.calls, fun b m hm href => ?_⟩
  rcases hw.record b with hrec | hrec
  · exact h.2 b m (hrec ▸ hm) href
  · rcases hw.queue b m (hrec ▸ hm) with hlive | ⟨hnew, -, -⟩
    · exact h.2 b m (hs.covered b m hlive) href
    · have heq : s.calls = n := by simpa [hnew] using href
      exact absurd h.1 (by omega)

lemma Absent.run {n : ℕ} (hs : s.Durable) (h : Absent n s) (events : List QueueEvent) :
    Absent n (s.run events) :=
  (Machine.run_invariant (P := fun t => t.Durable ∧ Absent n t)
    (fun _ event ht => ⟨ht.1.step event, ht.2.step ht.1 event⟩) ⟨hs, h⟩).2

end Invariant

/-! ## What takes an item out of a queue -/

/-- The calls that take an item out of an agent's queue: a drain of the item, the end of the turn
that took it, and the end of the agent. -/
def Removes (s : MessageQueues) (event : QueueEvent) (agentId : AgentId) (ref : MessageRef) :
    Prop :=
  match event with
  | .delivery b (.turnCompleted _ _) =>
    b = agentId ∧ ∃ a, s.agents b = some a ∧ ref ∈ a.drainable
  | .delivery _ _ => False
  | .drain b items _ _ => b = agentId ∧ ref ∈ items
  | .kill b _ => b = agentId

section Removal

variable {s : MessageQueues} {agentId : AgentId} {m : QueuedMessage}

lemma liveQueue_of_agent {b : AgentId} {a : ManagedAgent} (ha : s.agents b = some a) :
    s.liveQueue b = a.messageQueue := by
  rw [liveQueue, ha]
  rfl

lemma liveQueue_withAgent {f : ManagedAgent → ManagedAgent}
    (hf : ∀ a, (f a).messageQueue = a.messageQueue) (b : AgentId) :
    (s.withAgent agentId f).liveQueue b = s.liveQueue b := by
  unfold withAgent
  cases ha : s.agents agentId with
  | none => rfl
  | some a =>
    simp only [liveQueue_setAgent, hf]
    split_ifs with hb
    · rw [hb, liveQueue_of_agent ha]
    · rfl

/-- **What a call does to a queue**: items that it removes leave it, or one that passed the checks
enters it. -/
lemma liveQueue_step (event : QueueEvent) (b : AgentId) :
    (∃ keeps : QueuedMessage → Bool, (s.step event).liveQueue b = (s.liveQueue b).filter keeps ∧
        ∀ m, keeps m = false → s.Removes event b m.ref) ∨
      ∃ a c id, s.agents b = some a ∧ checkEnqueue a c = none ∧
        generateQueuedId a.messageQueue c.draws = some id ∧
        (s.step event).liveQueue b = a.messageQueue ++ [newItem a c id (.accepted s.calls)] := by
  have hsame : ∀ {s' : MessageQueues}, s'.liveQueue b = s.liveQueue b →
      ∃ keeps : QueuedMessage → Bool, s'.liveQueue b = (s.liveQueue b).filter keeps ∧
        ∀ m, keeps m = false → s.Removes event b m.ref :=
    fun h => ⟨fun _ => true, h.trans (List.filter_true _).symm, by simp⟩
  have hdrain : ∀ {agentId : AgentId} {a a' : ManagedAgent} {items now saveFails},
      s.agents agentId = some a → a'.messageQueue = a.messageQueue →
      (agentId = b → ∀ ref ∈ items, s.Removes event b ref) →
      ∃ keeps : QueuedMessage → Bool,
        (s.drainQueueItems agentId a' items now saveFails).liveQueue b =
          (s.liveQueue b).filter keeps ∧ ∀ m, keeps m = false → s.Removes event b m.ref := by
    intro agentId a a' items now saveFails ha hqueue hitems
    by_cases hb : b = agentId
    · refine ⟨fun m => m.ref ∉ items, ?_, fun m hm => hitems hb.symm m.ref (by simpa using hm)⟩
      rw [liveQueue_drainQueueItems, if_pos hb, hb, liveQueue_of_agent ha, hqueue]
    · exact hsame (by rw [liveQueue_drainQueueItems, if_neg hb])
  cases event with
  | delivery agentId event =>
    cases event with
    | enqueue c =>
      simp only [step, deliver, enqueueMessage]
      cases ha : s.agents agentId with
      | none => exact .inl (hsame rfl)
      | some a =>
        dsimp only
        cases hcheck : checkEnqueue a c with
        | some result => exact .inl (hsame rfl)
        | none =>
          cases hid : generateQueuedId a.messageQueue c.draws with
          | none => exact .inl (hsame rfl)
          | some id =>
            dsimp only
            rw [liveQueue_countCall, liveQueue_acceptMessage]
            split_ifs with hb
            · rw [← liveQueue_of_agent ha, ← hb]
              exact .inl (hsame rfl)
            · exact .inr ⟨a, c, id, hb ▸ ha, hcheck, hid, rfl⟩
            · exact .inl (hsame rfl)
    | take session textFails | push steer textFails | steerDelivered steerId | turn turn =>
      exact .inl (hsame (liveQueue_withAgent (by simp) b))
    | answered claimId steerId ok =>
      cases ok with
      | true => exact .inl (hsame rfl)
      | false => exact .inl (hsame (liveQueue_withAgent (by simp) b))
    | turnCompleted now saveFails =>
      simp only [step, deliver, drainBoundaryClaim]
      cases ha : s.agents agentId with
      | none => exact .inl (hsame rfl)
      | some a =>
        dsimp only
        split_ifs
        · exact .inl (hdrain ha rfl fun hb ref href => ⟨hb, a, ha, href⟩)
        · refine .inl (hsame ?_)
          rw [liveQueue_setAgent]
          split_ifs with hb
          · rw [hb, liveQueue_of_agent ha]
          · rfl
  | drain agentId items now saveFails =>
    simp only [step]
    cases ha : s.agents agentId with
    | none => exact .inl (hsame rfl)
    | some a => exact .inl (hdrain ha rfl fun hb ref href => ⟨hb, href⟩)
  | kill agentId saveFails =>
    rw [step, kill, liveQueue_removeQueueRecord, liveQueue_deleteAgent]
    by_cases hb : b = agentId
    · exact .inl ⟨fun _ => false, by simp [hb], fun _ _ => hb.symm⟩
    · exact .inl ⟨fun _ => true, by simp [hb], by simp⟩

/-- Only a call that removes an item takes it out of a queue. -/
lemma mem_liveQueue_step {event : QueueEvent} (hm : m ∈ s.liveQueue agentId)
    (hkeep : ¬ s.Removes event agentId m.ref) : m ∈ (s.step event).liveQueue agentId := by
  rcases s.liveQueue_step event agentId with ⟨keeps, heq, hout⟩ | ⟨a, c, id, ha, -, -, heq⟩
  · rw [heq]
    refine List.mem_filter.2 ⟨hm, ?_⟩
    by_contra hnot
    exact hkeep (hout m (by simpa using hnot))
  · rw [heq, ← liveQueue_of_agent ha]
    exact List.mem_append_left _ hm

end Removal

/-! ## The result -/

section Result

variable {s : MessageQueues} {agentId : AgentId} {c : EnqueueCall}

lemma absent_of_refused (hs : s.Durable) {error : String} {status : ℕ}
    (h : (s.enqueueMessage agentId c).2 = some (.refused error status)) :
    Absent s.calls (s.enqueueMessage agentId c).1 := by
  have hold : ∀ b, ∀ m ∈ s.recorded b, m.ref ≠ .accepted s.calls :=
    fun b m hm href => absurd (hs.issued b m hm _ href) (Nat.lt_irrefl _)
  rcases enqueueMessage_cases s agentId c with ⟨result, heq, -⟩ | ⟨a, id, ha, heq⟩
  · rw [heq]
    exact ⟨Nat.lt_succ_self _, hold⟩
  · rw [heq] at h ⊢
    have hfails : c.saveFails = true := by
      by_contra hsave
      have hres := acceptMessage_result s agentId a c id
      rw [if_neg hsave] at hres
      obtain ⟨queued, steered, declined, hres⟩ := hres
      simp [hres] at h
    refine ⟨?_, fun b m hm => ?_⟩
    · have hcalls := (acceptMessage_frame agentId a c id hs.synced).1
      exact Nat.lt_succ_of_le (Nat.le_of_eq hcalls.symm)
    · change m ∈ (s.acceptMessage agentId a c id).1.recorded b at hm
      rw [recorded_acceptMessage hs.synced, if_neg (by simp [hfails])] at hm
      exact hold b m hm

lemma mem_liveQueue_of_accepted {queued : Bool} {id : JsString} {steered : Option Bool}
    {declined : Option SteerDeclineReason}
    (h : (s.enqueueMessage agentId c).2 = some (.accepted queued id steered declined)) :
    ∃ a, s.agents agentId = some a ∧
      newItem a c id (.accepted s.calls) ∈ (s.enqueueMessage agentId c).1.liveQueue agentId := by
  rcases enqueueMessage_cases s agentId c with ⟨result, heq, hnot⟩ | ⟨a, id', ha, heq⟩
  · rw [heq] at h
    exact absurd h (hnot _ _ _ _)
  · rw [heq] at h ⊢
    have hres := acceptMessage_result s agentId a c id'
    split_ifs at hres with hsave
    · simp [hres] at h
    · obtain ⟨queued', steered', declined', hres⟩ := hres
      obtain ⟨-, rfl, -, -⟩ : queued' = queued ∧ id' = id ∧ steered' = steered ∧
          declined' = declined := by simpa [hres] using h
      refine ⟨a, ha, ?_⟩
      rw [liveQueue_countCall, liveQueue_acceptMessage, if_pos rfl, if_neg hsave]
      simp

end Result

/-- **A refused message is nowhere, and an accepted message is in the file until it is removed from
its queue.** For any file the server starts with and any sequence of calls with any saves that
fail: behind a refusal the message is never in a record or in a queue; behind an acceptance it is
in its agent's queue and record, as long as no call removes it; and every item of every queue is in
its record. -/
theorem enqueueMessage_durable (file : QueueStore) (turns : AgentId → Option TurnStatus) (now : ℤ)
    (before after : List QueueEvent) (agentId : AgentId) (c : EnqueueCall) :
    let s := (boot file turns now).run before
    let result := (s.enqueueMessage agentId c).2
    let behind := s.step (.delivery agentId (.enqueue c))
    let later := behind.run after
    (∀ error status, result = some (.refused error status) → ∀ b,
      (∀ m ∈ later.recorded b, m.ref ≠ .accepted s.calls) ∧
        ∀ m ∈ later.liveQueue b, m.ref ≠ .accepted s.calls) ∧
    (∀ queued id steered declined, result = some (.accepted queued id steered declined) →
      Machine.Along step (fun t event => ¬ t.Removes event agentId (.accepted s.calls)) behind
        after →
      ∃ a, s.agents agentId = some a ∧
        newItem a c id (.accepted s.calls) ∈ later.liveQueue agentId ∧
        newItem a c id (.accepted s.calls) ∈ later.recorded agentId) ∧
    ∀ b, ∀ m ∈ later.liveQueue b, m ∈ later.recorded b := by
  intro s result behind later
  have hs : s.Durable := (durable_boot file turns now).run before
  have hbehind : behind.Durable := hs.step _
  have hlater : later.Durable := hbehind.run after
  refine ⟨fun error status hres b => ?_, fun queued id steered declined hres hkeep => ?_,
    hlater.covered⟩
  · have habsent : Absent s.calls later := (absent_of_refused hs hres).run hbehind after
    exact ⟨habsent.2 b, fun m hm => habsent.2 b m (hlater.covered b m hm)⟩
  · obtain ⟨a, ha, hmem⟩ := mem_liveQueue_of_accepted hres
    have hlive : newItem a c id (.accepted s.calls) ∈ later.liveQueue agentId :=
      Machine.run_invariant_along
        (P := fun t : MessageQueues => newItem a c id (.accepted s.calls) ∈ t.liveQueue agentId)
        (fun _ _ ht hok => mem_liveQueue_step ht hok) hmem hkeep
    exact ⟨a, ha, hlive, hlater.covered agentId _ hlive⟩

/-! ## How much waits, and in which order -/

/-- The item was there before: it came from the file, in front of the other one or of all accepted
ones, or it was accepted by an earlier call. -/
def CameBefore (m m' : QueuedMessage) : Prop :=
  match m.ref, m'.ref with
  | .loaded _ i, .loaded _ j => i < j
  | .loaded _ _, .accepted _ => True
  | .accepted _, .loaded _ _ => False
  | .accepted n, .accepted k => n < k

/-- What holds of a queue that had these items first. -/
structure Orderly (first l : List QueuedMessage) : Prop where
  room : l.length ≤ max QUEUE_MAX first.length
  order : l.Pairwise CameBefore
  ids : (first.map (·.id)).Nodup → (l.map (·.id)).Nodup

section Order

variable {s : MessageQueues} {first l l' : List QueuedMessage} {b : AgentId}

lemma Orderly.sublist (h : Orderly first l) (hsub : l'.Sublist l) : Orderly first l' :=
  ⟨hsub.length_le.trans h.room, h.order.sublist hsub, fun hids => (h.ids hids).sublist (hsub.map _)⟩

lemma Orderly.push {a : ManagedAgent} {c : EnqueueCall} {id : JsString} {n : ℕ}
    (h : Orderly first a.messageQueue) (hcheck : checkEnqueue a c = none)
    (hid : generateQueuedId a.messageQueue c.draws = some id)
    (hissued : ∀ m ∈ a.messageQueue, ∀ k, m.ref = .accepted k → k < n) :
    Orderly first (a.messageQueue ++ [newItem a c id (.accepted n)]) where
  room := by
    have hroom : ¬ QUEUE_MAX ≤ a.messageQueue.length := fun hfull => by
      rw [checkEnqueue, if_pos hfull] at hcheck
      split_ifs at hcheck
    simp only [List.length_append, List.length_singleton]
    omega
  order := by
    refine List.pairwise_append.2 ⟨h.order, List.pairwise_singleton _ _, fun m hm m' hm' => ?_⟩
    rw [List.mem_singleton.1 hm', CameBefore]
    cases href : m.ref with
    | loaded agentId i => trivial
    | accepted k => exact hissued m hm k href
  ids hids := by
    have hnew : id ∉ a.messageQueue.map (·.id) := by
      simpa [generateQueuedId] using List.find?_some hid
    rw [List.map_append, List.map_singleton]
    exact (h.ids hids).append (List.nodup_singleton _) (by simpa [newItem] using hnew)

/-- What the start reads is in order, and it takes a part of it into the queues. -/
lemma orderly_boot (file : QueueStore) (turns : AgentId → Option TurnStatus) (now : ℤ) :
    Orderly ((file b).elim [] (·.queue)) ((boot file turns now).recorded b) ∧
      ((boot file turns now).liveQueue b).Sublist ((boot file turns now).recorded b) := by
  unfold recorded liveQueue boot
  simp only [readPersistedQueueRecord, queueStore, Option.getD_none, loadMessageQueuesRaw]
  cases file b with
  | none => exact ⟨⟨by simp, .nil, fun _ => .nil⟩, by cases turns b <;> simp⟩
  | some record =>
    refine ⟨⟨by simp, ?_, fun hids => ?_⟩, ?_⟩
    · simp only [Option.map_some, Option.elim_some, List.pairwise_iff_getElem, List.length_mapIdx,
        List.getElem_mapIdx, CameBefore]
      exact fun i j _ _ hij => hij
    · refine Eq.mp (congrArg List.Nodup ?_) hids
      exact List.ext_getElem (by simp) (by simp)
    · cases turns b with
      | none => simp
      | some turn =>
        simp only [Option.map_some, Option.elim_some]
        split_ifs <;> simp

end Order

/-- **What waits for an agent.** Behind any sequence of calls with any saves that fail, in its queue
and in its record: the items are in the order in which they came, no two have the same id unless two
of the first file had, and there are at most 50 unless the first file had more. -/
theorem queue_orderly (file : QueueStore) (turns : AgentId → Option TurnStatus) (now : ℤ)
    (events : List QueueEvent) (b : AgentId) :
    let s := (boot file turns now).run events
    Orderly ((file b).elim [] (·.queue)) (s.liveQueue b) ∧
      Orderly ((file b).elim [] (·.queue)) (s.recorded b) := by
  have hstart := orderly_boot (b := b) file turns now
  refine (Machine.run_invariant (P := fun s : MessageQueues => s.Durable ∧
    Orderly ((file b).elim [] (·.queue)) (s.liveQueue b) ∧
      Orderly ((file b).elim [] (·.queue)) (s.recorded b)) (fun s event h => ?_)
    ⟨durable_boot file turns now, hstart.1.sublist hstart.2, hstart.1⟩).2
  obtain ⟨hs, hlive, hrecorded⟩ := h
  have hnext : Orderly ((file b).elim [] (·.queue)) ((s.step event).liveQueue b) := by
    rcases s.liveQueue_step event b with ⟨keeps, heq, -⟩ | ⟨a, c, id, ha, hcheck, hid, heq⟩
    · exact hlive.sublist (heq ▸ List.filter_sublist)
    · rw [liveQueue_of_agent ha] at hlive
      rw [heq]
      exact hlive.push hcheck hid fun m hm =>
        hs.issued b m (hs.covered b m (liveQueue_of_agent ha ▸ hm))
  refine ⟨hs.step event, hnext, ?_⟩
  rcases (step_writes hs.synced event).record b with hsame | hsame
  · exact hsame ▸ hrecorded
  · exact hsame ▸ hnext

end Isomux.MessageQueues
