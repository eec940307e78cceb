import Isomux.Messages.QueueFile
import Isomux.Messages.QueueLife

set_option autoImplicit false

/-!
# What a save keeps of a queue

An agent's queue and the ids of its accepted messages are saved, and read again at the next start.
The items come back as they were, and in their order, where each of them passes the check of the
reader: a contact's message has to name its app. The ids come back that still count, except
`__proto__`: the record is a plain object, where an assignment under this name does nothing.

## Main results

* `Isomux.MessageQueues.roundTrips_iff` — which agents a save keeps.
* `Isomux.MessageQueues.queues_round_trip` — every state of a run comes back exactly when every
  event of the run is loadable.
-/

namespace Isomux.MessageQueues

/-- What is read at the time `later` of the file that a save of this agent at the time `now` leaves. -/
def reload (s : MessageQueues) (agentIds : List AgentId) (agentId : AgentId) (a : ManagedAgent)
    (now later : ℤ) : QueueFile.LoadedRecord :=
  let file := QueueFile.text agentIds (s.persistQueueState agentId a now false).disk
  (QueueFile.readPersistedQueueRecord (QueueFile.loadMessageQueuesRaw file) agentId later).getD
    .empty

/-- For every agent, a save and a start give back the queue, and of the ids those that count at both
times. -/
def RoundTrips (s : MessageQueues) : Prop :=
  ∀ agentIds agentId a, agentId ∈ agentIds → s.agents agentId = some a → ∀ now later,
    (s.reload agentIds agentId a now later).queue = a.messageQueue.map QueuedMessage.toJson ∧
    ∀ id v, (id, v) ∈ (s.reload agentIds agentId a now later).dedupe ↔
      ∃ t : ℤ, (id, t) ∈ a.queueDedupe ∧ now < t ∧ later < t ∧ v = t

def namesApp : Sender → Bool
  | .messaging app _ _ => app != []
  | _ => true

/-- The event brings no item that the reader refuses, and no id `__proto__`. -/
def Loadable (s : MessageQueues) : QueueLifeEvent → Prop
  | .call (.delivery agentId (.enqueue c)) =>
    s.Accepts agentId c → namesApp c.sender ∧ c.dedupeKey ≠ some PROTO
  | .rewrite agentId queue => (s.agents agentId).isSome → ∀ m ∈ queue, namesApp m.sender
  | _ => True

/-! ## One save -/

section Save

variable {s : MessageQueues} {agentIds : List AgentId} {agentId : AgentId} {a : ManagedAgent}

lemma isValidQueuedMessage_eq (m : QueuedMessage) : isValidQueuedMessage m = namesApp m.sender := by
  unfold isValidQueuedMessage namesApp
  cases m.sender <;> rfl

lemma disk_persistQueueState (s : MessageQueues) (agentId : AgentId) (a : ManagedAgent) (now : ℤ) :
    (s.persistQueueState agentId a now false).disk agentId = buildQueueRecord a now := by
  simp [persistQueueState, commitStore]

lemma reload_spec (hmem : agentId ∈ agentIds) (hkeys : (a.queueDedupe.map Prod.fst).Nodup)
    (now later : ℤ) :
    (s.reload agentIds agentId a now later).queue =
        (a.messageQueue.filter isValidQueuedMessage).map QueuedMessage.toJson ∧
      ∀ id v, (id, v) ∈ (s.reload agentIds agentId a now later).dedupe ↔
        ∃ t : ℤ, (id, t) ∈ a.queueDedupe ∧ id ≠ PROTO ∧ now < t ∧ later < t ∧ v = t := by
  have hfilter : ((a.queueDedupe.filter fun e => now < e.2).map Prod.fst).Nodup :=
    hkeys.sublist (List.filter_sublist.map _)
  have hdisk := disk_persistQueueState s agentId a now
  have hids : ((((s.persistQueueState agentId a now false).disk agentId).elim [] (·.dedupe)).map
      Prod.fst).Nodup := by
    rw [hdisk, buildQueueRecord_dedupe]
    exact nodup_recordOf hfilter
  obtain ⟨hqueue, hdedupe⟩ := QueueFile.readPersistedQueueRecord_text hmem _ hids later
  rw [hdisk, buildQueueRecord_queue] at hqueue
  rw [hdisk, buildQueueRecord_dedupe] at hdedupe
  refine ⟨hqueue, fun id v => (hdedupe id v).trans (exists_congr fun t => ?_)⟩
  rw [mem_recordOf hfilter, List.mem_filter, decide_eq_true_iff]
  tauto

def Sound (s : MessageQueues) : Prop :=
  ∀ b a, s.agents b = some a →
    (∀ m ∈ a.messageQueue, namesApp m.sender) ∧ ∀ e ∈ a.queueDedupe, e.1 ≠ PROTO

/-- **What a save keeps**: a save and a start give back what the agents hold exactly when every item
passes the check of the reader and no id is `__proto__`. -/
theorem roundTrips_iff (h : s.Keyed) : s.RoundTrips ↔ s.Sound := by
  constructor
  · intro htrips b a ha
    have hmem : b ∈ [b] := List.mem_singleton_self b
    constructor
    · have hqueue := (htrips [b] b a hmem ha 0 0).1
      rw [(reload_spec hmem (h.held b a ha) 0 0).1] at hqueue
      have hlength := congrArg List.length hqueue
      rw [List.length_map, List.length_map] at hlength
      intro m hm
      rw [← isValidQueuedMessage_eq]
      exact List.length_filter_eq_length_iff.1 hlength m hm
    · -- an entry is read at the last moment that it counts
      rintro ⟨id, t⟩ he rfl
      have hread := ((htrips [b] b a hmem ha (t - 1) (t - 1)).2 PROTO t).2
        ⟨t, he, by omega, by omega, rfl⟩
      obtain ⟨t', -, hproto, -⟩ := ((reload_spec hmem (h.held b a ha) _ _).2 PROTO t).1 hread
      exact hproto rfl
  · intro hsound agentIds b a hmem ha now later
    obtain ⟨hitems, hids⟩ := hsound b a ha
    obtain ⟨hqueue, hdedupe⟩ := reload_spec (s := s) hmem (h.held b a ha) now later
    constructor
    · rw [hqueue, List.filter_eq_self.2 fun m hm => isValidQueuedMessage_eq m ▸ hitems m hm]
    · refine fun id v => (hdedupe id v).trans (exists_congr fun t => ?_)
      exact ⟨fun ⟨he, _, hrest⟩ => ⟨he, hrest⟩, fun ⟨he, hrest⟩ => ⟨he, hids _ he, hrest⟩⟩

end Save

/-! ## Runs -/

section Runs

variable {s : MessageQueues}

lemma agents_of_accepts {agentId : AgentId} {c : EnqueueCall} (h : s.Accepts agentId c) :
    ∃ a a' id, s.agents agentId = some a ∧
      (s.liveStep (.call (.delivery agentId (.enqueue c)))).agents agentId = some a' ∧
      a'.held = (pushItem a c (newItem a c id (.accepted s.calls))).held := by
  obtain ⟨a, id, ha, hcheck, hid, hsave⟩ := h
  have hheld := (afterAccept_held (releaseBackendHold (pushItem a c
    (newItem a c id (.accepted s.calls))).emitQueueUpdate) c (boundarySteer a c) id s.claims
    s.steers).trans (ManagedAgent.emitQueueUpdate_held _)
  refine ⟨a, _, id, ha, ?_, hheld⟩
  simp only [liveStep, step, deliver, enqueueMessage, ha, hcheck, hid, acceptMessage, hsave]
  simp [countCall, countOffer, setAgent]

/-- **Which events keep the agents loadable.** -/
theorem sound_liveStep (h : s.Keyed) (hs : s.Sound) (event : QueueLifeEvent) :
    (s.liveStep event).Sound ↔ s.Loadable event := by
  constructor
  · intro hnext
    unfold Loadable
    split
    · rename_i agentId c
      intro haccepts
      obtain ⟨a, a', id, -, ha', hheld⟩ := agents_of_accepts haccepts
      obtain ⟨hqueue, hdedupe⟩ := Prod.mk.inj hheld
      obtain ⟨hitems, hids⟩ := hnext agentId a' ha'
      rw [hqueue] at hitems
      rw [hdedupe] at hids
      refine ⟨hitems (newItem a c id (.accepted s.calls)) (by simp [pushItem]), fun hkey => ?_⟩
      simp only [pushItem, hkey] at hids
      exact hids _ (mem_recordDedupe_self a.queueDedupe PROTO c.now) rfl
    · rename_i agentId queue
      intro hsome
      obtain ⟨a, ha⟩ := Option.isSome_iff_exists.1 hsome
      refine (hnext agentId { a with messageQueue := queue } ?_).1
      simp [liveStep, withAgent, ha, setAgent]
    · trivial
  · intro hok b a' ha'
    cases (liveStep_moves h.synced event).held b a' ha' with
    | kept a ha hqueue hdedupe =>
      exact ⟨fun m hm => (hs b a ha).1 m (hqueue hm), fun e he => (hs b a ha).2 e (hdedupe.subset he)⟩
    | accepted a c id hevent ha haccepts hheld =>
      subst hevent
      obtain ⟨hqueue, hdedupe⟩ := Prod.mk.inj hheld
      obtain ⟨happ, hkey⟩ := hok haccepts
      rw [hqueue, hdedupe]
      constructor
      · intro m hm
        rcases List.mem_append.1 hm with hold | hnew
        · exact (hs b a ha).1 m hold
        · rw [List.mem_singleton.1 hnew]
          exact happ
      · intro e he
        simp only [pushItem] at he
        split at he
        · rename_i key hk
          rcases mem_recordDedupe he with hold | hnew
          · exact (hs b a ha).2 e hold
          · intro hproto
            rw [hnew] at hproto
            exact hkey (hk.trans (congrArg some hproto))
        · exact (hs b a ha).2 e he
    | rewritten a queue hevent ha hheld =>
      subst hevent
      obtain ⟨hqueue, hdedupe⟩ := Prod.mk.inj hheld
      rw [hqueue, hdedupe]
      exact ⟨hok (by simp [ha]), (hs b a ha).2⟩
    | started hqueue hdedupe =>
      exact ⟨fun m hm => isValidQueuedMessage_eq m ▸ hqueue m hm,
        fun e he => h.proto b e (hdedupe.subset he)⟩

variable (turns : AgentId → Option TurnStatus) (now : ℤ)

/-- **In every run, the queues come back from the file** in every state of the run, with exactly the
ids that still count, if and only if every event of the run is loadable. -/
theorem queues_round_trip (events : List QueueLifeEvent) :
    (∀ n, ((start turns now).live (events.take n)).RoundTrips) ↔
      Machine.Along liveStep Loadable (start turns now) events := by
  have hstart : (start turns now).Keyed := keyed_start turns now
  have hsound : (start turns now).Sound := by
    intro b a ha
    obtain ⟨hqueue, hdedupe⟩ := Prod.mk.inj (held_start ha)
    simp [hqueue, hdedupe]
  refine Machine.forall_take_iff_along_of_invariant (I := Keyed)
    (fun _ event h => keyed_liveStep h event) ?_ hstart ((roundTrips_iff hstart).2 hsound)
  intro s event hkeyed htrips
  rw [roundTrips_iff (keyed_liveStep hkeyed event),
    sound_liveStep hkeyed ((roundTrips_iff hkeyed).1 htrips)]

/-- An agent's message with the id `__proto__`. -/
def protoCall : EnqueueCall :=
  { sender := .agent (js "b") (js "Bo") (js "Room"), text := js "hi",
    clientMessageId := some PROTO, now := 0, draws := [js "00000001"], saveFails := false }

theorem proto_not_kept : ¬ ∀ turns now events, ((start turns now).live events).RoundTrips := by
  intro hall
  have hkeyed := keyed_start (fun _ => some idleTurn) 0
  have hsound : (start (fun _ => some idleTurn) 0).Sound := by
    rw [← roundTrips_iff hkeyed]
    exact hall _ 0 []
  have hnext : ((start (fun _ => some idleTurn) 0).liveStep (.call (.delivery (js "a") (.enqueue
      protoCall)))).RoundTrips := hall _ 0 [.call (.delivery (js "a") (.enqueue protoCall))]
  have hok := (sound_liveStep hkeyed hsound _).1 ((roundTrips_iff (keyed_liveStep hkeyed _)).1 hnext)
  have haccepts : (start (fun _ => some idleTurn) 0).Accepts (js "a") protoCall :=
    ⟨{ turn := idleTurn }, js "00000001", rfl, rfl, rfl, rfl⟩
  exact (hok haccepts).2 rfl

end Runs

end Isomux.MessageQueues
