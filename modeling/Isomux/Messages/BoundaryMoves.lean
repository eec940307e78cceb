import Isomux.Messages.QueueDurability

set_option autoImplicit false

/-!
# What the delivery at tool boundaries does to a queue

Every call around the delivery is a sequence of a few moves: an item comes, a session takes or is
offered the unclaimed queue, a steer is refused or recorded, and a turn that is over drains what was
delivered.

## Main results

* `Isomux.ManagedAgent.takeToolBoundaryMessage_moves`,
  `Isomux.ManagedAgent.pushBoundarySteer_moves`, `Isomux.ManagedAgent.releasePendingSteer_moves`,
  `Isomux.ManagedAgent.onSteerDelivered_moves` — the calls, as moves.
* `Isomux.MessageQueues.deliver_moves` — the same for every event of a run.
-/

namespace Isomux

def refs (items : List QueuedMessage) : List MessageRef := items.map (·.ref)

/-- The identities of the items of pending steers. -/
def pendingRefs (pending : JsMap ℕ (List QueuedMessage)) : List MessageRef :=
  pending.flatMap fun e => refs e.2

namespace ManagedAgent

/-- The claim a session takes items under: the one that is there, or an empty one. -/
def Claimable (a : ManagedAgent) (claim : BoundaryClaim) : Prop :=
  some claim.session = a.turn.session ∧
    (a.boundaryClaim = some claim ∨
      a.boundaryClaim = none ∧ claim.items = [] ∧ claim.pending = [])

/-- One move. An item that comes has the identity `fresh`, and a steer that is offered has the id
`steer`. -/
inductive Move (fresh : Option MessageRef) (steer : Option ℕ) : ManagedAgent → ManagedAgent → Prop
  | keep {a a' : ManagedAgent} (hsession : a'.turn.session = a.turn.session)
      (hqueue : a'.messageQueue = a.messageQueue) (hclaim : a'.boundaryClaim = a.boundaryClaim)
      (hlog : a'.delivered = a.delivered) : Move fresh steer a a'
  | drop (a : ManagedAgent) : Move fresh steer a a.dropStaleClaim
  | accept {a : ManagedAgent} {m : QueuedMessage} (hfresh : fresh = some m.ref)
      (hnew : m.ref ∉ refs a.messageQueue) :
      Move fresh steer a { a with messageQueue := a.messageQueue ++ [m] }
  | take {a : ManagedAgent} {claim : BoundaryClaim} (hclaim : a.Claimable claim) :
      Move fresh steer a
        ({ a with
          boundaryClaim := some
            { claim with items := claim.items ++ refs a.unclaimedQueue } }.logDeliveredItems
          a.unclaimedQueue)
  /-- The session is offered the unclaimed queue. -/
  | offer {a : ManagedAgent} {claim : BoundaryClaim} {k : ℕ} (hclaim : a.Claimable claim)
      (hsteer : steer = some k) (hnew : ∀ e ∈ claim.pending, e.1 ≠ k) :
      Move fresh steer a
        { a with
          boundaryClaim := some
            { claim with
              items := claim.items ++ refs a.unclaimedQueue
              pending := claim.pending ++ [(k, a.unclaimedQueue)] } }
  | refuse {a : ManagedAgent} {claim : BoundaryClaim} {k : ℕ} {items : List QueuedMessage}
      (hclaim : a.boundaryClaim = some claim) (hitems : JsMap.get claim.pending k = some items) :
      Move fresh steer a
        { a with
          boundaryClaim := some
            { claim with
              pending := JsMap.delete claim.pending k
              items := claim.items.filter fun r => r ∉ refs items } }
  | record {a : ManagedAgent} {claim : BoundaryClaim} {k : ℕ} {items : List QueuedMessage}
      (hclaim : a.boundaryClaim = some claim) (hlive : some claim.session = a.turn.session)
      (hitems : JsMap.get claim.pending k = some items) :
      Move fresh steer a
        ({ a with
          boundaryClaim := some
            { claim with pending := JsMap.delete claim.pending k } }.logDeliveredItems items)
  | complete (a : ManagedAgent) :
      Move fresh steer a
        { a with
          boundaryClaim := none
          messageQueue := a.messageQueue.filter fun m => m.ref ∉ a.drainable }

def Moves (fresh : Option MessageRef) (steer : Option ℕ) : ManagedAgent → ManagedAgent → Prop :=
  Relation.ReflTransGen (Move fresh steer)

/-! ## Claims -/

section Claims

variable {a : ManagedAgent} {claim : BoundaryClaim}

lemma dropStaleClaim_eq (a : ManagedAgent) :
    a.dropStaleClaim = { a with
      boundaryClaim := a.boundaryClaim.filter fun c => some c.session = a.turn.session } := by
  unfold dropStaleClaim
  rcases a with ⟨turn, queue, dedupe, _ | claim, recent, log⟩
  · rfl
  · by_cases h : some claim.session = turn.session <;> simp [h, Option.filter]

lemma dropStaleClaim_boundaryClaim_eq_some :
    a.dropStaleClaim.boundaryClaim = some claim ↔
      a.boundaryClaim = some claim ∧ some claim.session = a.turn.session := by
  rw [dropStaleClaim_eq]
  simp [Option.filter_eq_some_iff]

@[simp] lemma dropStaleClaim_dropStaleClaim (a : ManagedAgent) :
    a.dropStaleClaim.dropStaleClaim = a.dropStaleClaim := by
  rw [dropStaleClaim_eq a.dropStaleClaim, dropStaleClaim_eq a]
  simp [Option.filter_filter]

@[simp] lemma dropStaleClaim_turn (a : ManagedAgent) : a.dropStaleClaim.turn = a.turn := by
  rw [dropStaleClaim_eq]

lemma mem_liveClaimed {r : MessageRef} :
    r ∈ a.liveClaimed ↔ ∃ claim, a.boundaryClaim = some claim ∧
      some claim.session = a.turn.session ∧ r ∈ claim.items := by
  unfold liveClaimed
  split
  · rename_i claim h
    obtain ⟨hclaim, hlive⟩ := dropStaleClaim_boundaryClaim_eq_some.mp h
    simp [hclaim, hlive]
  · rename_i h
    simp only [List.not_mem_nil, false_iff, not_exists, not_and]
    intro claim hclaim hlive
    rw [dropStaleClaim_boundaryClaim_eq_some.mpr ⟨hclaim, hlive⟩] at h
    cases h

@[simp] lemma liveClaimed_dropStaleClaim (a : ManagedAgent) :
    a.dropStaleClaim.liveClaimed = a.liveClaimed := by
  simp [liveClaimed]

lemma mem_unclaimedQueue {m : QueuedMessage} :
    m ∈ a.unclaimedQueue ↔ m ∈ a.messageQueue ∧ m.ref ∉ a.liveClaimed := by
  simp [unclaimedQueue]

lemma boundaryBatch_eq {items : List QueuedMessage} (h : a.boundaryBatch = some items) :
    items = a.unclaimedQueue := by
  unfold boundaryBatch at h
  dsimp only at h
  split_ifs at h
  exact (Option.some.inj h).symm

lemma session_of_boundaryTakeable {session : SessionId} (h : a.boundaryTakeable session = true) :
    a.turn.session = some session := by
  unfold boundaryTakeable at h
  simp only [Bool.not_eq_true', Bool.or_eq_false_iff, bne_eq_false_iff_eq] at h
  exact h.1.1.1.1.1.1.1

lemma claimable_claimFor {session : SessionId} {freshClaim : ℕ}
    (h : a.turn.session = some session) :
    a.dropStaleClaim.Claimable (a.dropStaleClaim.claimFor session freshClaim) := by
  unfold Claimable claimFor
  cases hclaim : a.dropStaleClaim.boundaryClaim with
  | none => simp [h]
  | some claim =>
    have hlive := (dropStaleClaim_boundaryClaim_eq_some.mp hclaim).2
    have heq : claim.session = session := by simpa [h] using hlive
    simp [heq, h]

lemma claimFor_pending {session : SessionId} {freshClaim : ℕ} {e : ℕ × List QueuedMessage}
    (he : e ∈ (a.claimFor session freshClaim).pending) :
    ∃ claim, a.boundaryClaim = some claim ∧ e ∈ claim.pending := by
  unfold claimFor at he
  cases hclaim : a.boundaryClaim with
  | none => simp [hclaim] at he
  | some claim =>
    rw [hclaim] at he
    dsimp only at he
    split_ifs at he
    · exact ⟨claim, rfl, he⟩
    · simp at he

end Claims

/-! ## What is not written into the chat -/

section Chat

@[simp] lemma dropStaleClaim_delivered (a : ManagedAgent) :
    a.dropStaleClaim.delivered = a.delivered := by
  rw [dropStaleClaim_eq]

@[simp] lemma emitQueueUpdate_delivered (a : ManagedAgent) :
    a.emitQueueUpdate.delivered = a.delivered := dropStaleClaim_delivered a

@[simp] lemma releasePendingSteer_delivered (a : ManagedAgent) (claimId k : ℕ) :
    (a.releasePendingSteer claimId k).delivered = a.delivered := by
  unfold releasePendingSteer
  split
  · rfl
  · split
    · rfl
    · split <;> simp

@[simp] lemma pushBoundarySteer_delivered (a : ManagedAgent) (call : SteerCall) (textFails : Bool)
    (freshClaim k : ℕ) :
    (a.pushBoundarySteer call textFails freshClaim k).delivered = a.delivered := by
  unfold pushBoundarySteer
  split
  · rfl
  · split
    · rfl
    · dsimp only
      split
      · simp
      · split
        · simp
        · split <;> simp

@[simp] lemma afterAccept_delivered (a : ManagedAgent) (c : MessageQueues.EnqueueCall)
    (steers : Bool) (id : JsString) (freshClaim k : ℕ) :
    (MessageQueues.afterAccept a c steers id freshClaim k).1.delivered = a.delivered := by
  unfold MessageQueues.afterAccept
  cases a.turn.autoHandoffPhase <;> dsimp only <;> split_ifs <;> simp

end Chat

/-! ## The calls, as moves -/

section Calls

variable {fresh : Option MessageRef} {steer : Option ℕ} {a : ManagedAgent}

lemma releasePendingSteer_moves (a : ManagedAgent) (claimId k : ℕ) :
    Moves fresh steer a (a.releasePendingSteer claimId k) := by
  unfold releasePendingSteer
  split
  · exact .refl
  · rename_i claim hclaim
    split
    · exact .refl
    · rename_i items hitems
      split
      · exact .refl
      · exact (Relation.ReflTransGen.single (.refuse hclaim hitems)).tail (.drop _)

lemma takeToolBoundaryMessage_moves (a : ManagedAgent) (session : Option SessionId)
    (textFails : Bool) (freshClaim : ℕ) :
    Moves fresh steer a (a.takeToolBoundaryMessage session textFails freshClaim).1 := by
  unfold takeToolBoundaryMessage
  split
  · exact .refl
  · rename_i session
    split
    · exact .refl
    · rename_i htake
      have hsession := session_of_boundaryTakeable (by simpa using htake)
      dsimp only
      split
      · exact .single (.drop a)
      · rename_i items hbatch
        obtain rfl := boundaryBatch_eq hbatch
        split
        · exact .single (.drop a)
        · exact ((Relation.ReflTransGen.single (.drop a)).tail
            (.take (claimable_claimFor hsession))).tail (.drop _)

/-- A steer is offered, and refused where the engine throws. -/
lemma pushBoundarySteer_moves (a : ManagedAgent) (call : SteerCall) (textFails : Bool)
    (freshClaim k : ℕ)
    (hnew : ∀ claim, a.boundaryClaim = some claim → ∀ e ∈ claim.pending, e.1 ≠ k) :
    Moves fresh (some k) a (a.pushBoundarySteer call textFails freshClaim k) := by
  unfold pushBoundarySteer
  split
  · exact .refl
  · rename_i session hsession
    split
    · exact .refl
    · dsimp only
      split
      · exact .single (.drop a)
      · rename_i items hbatch
        obtain rfl := boundaryBatch_eq hbatch
        split
        · exact .single (.drop a)
        · have hkeys : ∀ e ∈ (a.dropStaleClaim.claimFor session freshClaim).pending,
              e.1 ≠ k := by
            intro e he
            obtain ⟨claim, hclaim, hmem⟩ := claimFor_pending he
            exact hnew claim (dropStaleClaim_boundaryClaim_eq_some.mp hclaim).1 e hmem
          have hset : ∀ items : List QueuedMessage,
              JsMap.set (a.dropStaleClaim.claimFor session freshClaim).pending k items =
                (a.dropStaleClaim.claimFor session freshClaim).pending ++ [(k, items)] := by
            intro items
            have hhas : JsMap.has (a.dropStaleClaim.claimFor session freshClaim).pending k =
                false := by
              simpa [JsMap.has] using fun n v hv => hkeys (n, v) hv
            simp [JsMap.set, hhas]
          rw [hset]
          have hoffer : Moves fresh (some k) a _ :=
            ((Relation.ReflTransGen.single (.drop a)).tail
              (.offer (claimable_claimFor hsession) rfl hkeys)).tail (.drop _)
          split
          · exact hoffer.trans (releasePendingSteer_moves _ _ _)
          · exact hoffer

lemma onSteerDelivered_moves (a : ManagedAgent) (k : ℕ) :
    Moves fresh steer a (a.onSteerDelivered k) := by
  unfold onSteerDelivered
  dsimp only
  split
  · exact .single (.drop a)
  · split
    · exact .single (.drop a)
    · rename_i claim hclaim
      split
      · exact .single (.drop a)
      · rename_i items hitems
        have hlive := (dropStaleClaim_boundaryClaim_eq_some.mp hclaim).2
        exact (Relation.ReflTransGen.single (.drop a)).tail
          (.record hclaim (by simpa using hlive) hitems)

lemma afterAccept_moves (a : ManagedAgent) (c : MessageQueues.EnqueueCall) (steers : Bool)
    (id : JsString) (freshClaim k : ℕ)
    (hnew : ∀ claim, a.boundaryClaim = some claim → ∀ e ∈ claim.pending, e.1 ≠ k) :
    Moves fresh (some k) a (MessageQueues.afterAccept a c steers id freshClaim k).1 := by
  have hkeep : ∀ recent : List ℤ, Moves fresh (some k) a { a with recentSteers := recent } :=
    fun _ => .single (.keep rfl rfl rfl rfl)
  unfold MessageQueues.afterAccept
  cases a.turn.autoHandoffPhase <;> dsimp only <;> split_ifs
  all_goals first
    | exact .refl
    | exact pushBoundarySteer_moves a _ _ _ k hnew
    | exact hkeep _

lemma pushItem_moves {a : ManagedAgent} {c : MessageQueues.EnqueueCall} {item : QueuedMessage}
    (hnew : item.ref ∉ refs a.messageQueue) :
    Moves (some item.ref) steer a (MessageQueues.pushItem a c item) := by
  have haccept : Moves (some item.ref) steer a
      { a with messageQueue := a.messageQueue ++ [item] } := .single (.accept rfl hnew)
  exact haccept.tail (.keep rfl rfl rfl rfl)

lemma popItem_pushItem_moves (a : ManagedAgent) (c : MessageQueues.EnqueueCall)
    (item : QueuedMessage) :
    Moves fresh steer a (MessageQueues.popItem (MessageQueues.pushItem a c item) c) :=
  .single (.keep rfl (by simp [MessageQueues.popItem, MessageQueues.pushItem]) rfl rfl)

end Calls

/-- The identities an agent knows are below the counters. -/
structure Below (calls steers : ℕ) (a : ManagedAgent) : Prop where
  queue : ∀ m ∈ a.messageQueue, ∀ n, m.ref = .accepted n → n < calls
  log : ∀ d ∈ a.delivered, ∀ n, d.ref = .accepted n → n < calls
  keys : ∀ claim, a.boundaryClaim = some claim → ∀ e ∈ claim.pending, e.1 < steers

end ManagedAgent

/-! ## The events of a run -/

namespace MessageQueues

open ManagedAgent (Moves Below)

section Events

variable {s : MessageQueues} {b agentId : AgentId} {a : ManagedAgent}

lemma agents_withAgent (f : ManagedAgent → ManagedAgent) (ha : s.agents agentId = some a) :
    (s.withAgent b f).agents agentId = some (if agentId = b then f a else a) := by
  unfold withAgent
  by_cases h : agentId = b
  · subst h
    simp [ha, agents_setAgent]
  · cases hb : s.agents b with
    | none => simp [h, ha]
    | some _ => simp [h, ha, agents_setAgent]

/-- What an event does to an agent, with the identities it draws. An event an item comes with writes
nothing into the chat. -/
def EventMoves (s s' : MessageQueues) (a a' : ManagedAgent) : Prop :=
  ∃ fresh steer, Moves fresh steer a a' ∧
    (∀ r, fresh = some r →
      r = .accepted s.calls ∧ s.calls < s'.calls ∧ a'.delivered = a.delivered) ∧
    ∀ k, steer = some k → k = s.steers ∧ s.steers < s'.steers

lemma EventMoves.of_moves {s' : MessageQueues} {a' : ManagedAgent} (h : Moves none none a a') :
    EventMoves s s' a a' := ⟨none, none, h, by simp, by simp⟩

variable (c : EnqueueCall) (id : JsString)

lemma acceptMessage_calls : (s.acceptMessage b a c id).1.calls = s.calls := by
  unfold acceptMessage
  split_ifs
  · exact calls_persistQueueState
  · exact calls_persistQueueState

@[simp] lemma steers_persistQueueState {now : ℤ} {saveFails : Bool} :
    (s.persistQueueState b a now saveFails).steers = s.steers := by
  unfold persistQueueState commitStore
  split_ifs <;> rfl

lemma acceptMessage_steers :
    (s.acceptMessage b a c id).1.steers = if c.saveFails then s.steers else s.steers + 1 := by
  unfold acceptMessage
  split_ifs
  · exact steers_persistQueueState
  · exact congrArg (· + 1) steers_persistQueueState

/-- What a call of `enqueueMessage` does to the agent it is for. -/
lemma acceptMessage_moves (hb : a.Below s.calls s.steers) :
    ∃ a', (s.acceptMessage b a c id).1.agents b = some a' ∧
      EventMoves s (s.acceptMessage b a c id).1.countCall a a' := by
  have hnew : (newItem a c id (.accepted s.calls)).ref ∉ refs a.messageQueue := by
    intro hmem
    obtain ⟨m, hm, href⟩ := List.mem_map.mp hmem
    exact absurd (hb.queue m hm s.calls href) (Nat.lt_irrefl _)
  have hkeys : ∀ claim, a.boundaryClaim = some claim → ∀ e ∈ claim.pending, e.1 ≠ s.steers :=
    fun claim hclaim e he => Nat.ne_of_lt (hb.keys claim hclaim e he)
  have hcalls : s.calls < (s.acceptMessage b a c id).1.countCall.calls :=
    Nat.lt_succ_of_le (Nat.le_of_eq (acceptMessage_calls c id).symm)
  cases hsave : c.saveFails with
  | true =>
    refine ⟨popItem (pushItem a c (newItem a c id (.accepted s.calls))) c, ?_,
      .of_moves (ManagedAgent.popItem_pushItem_moves a c _)⟩
    simp [acceptMessage, hsave, agents_setAgent]
  | false =>
    have hsteers : s.steers < (s.acceptMessage b a c id).1.countCall.steers :=
      Nat.lt_of_lt_of_eq (Nat.lt_succ_self _)
        ((acceptMessage_steers c id).trans (by simp [hsave])).symm
    refine ⟨_, by simp [acceptMessage, hsave, countOffer, agents_setAgent]; rfl,
      some (.accepted s.calls), some s.steers, ?_,
      fun r hr => ⟨(Option.some.inj hr).symm, hcalls, ?_⟩,
      fun k hk => ⟨(Option.some.inj hk).symm, hsteers⟩⟩
    rotate_left
    · simp [releaseBackendHold, pushItem]
    have hpush : Moves (some (.accepted s.calls)) (some s.steers) a _ :=
      ManagedAgent.pushItem_moves (c := c) hnew
    have hrelease : Moves (some (.accepted s.calls)) (some s.steers) a
        (releaseBackendHold (pushItem a c (newItem a c id (.accepted s.calls))).emitQueueUpdate) :=
      (hpush.tail (.drop _)).tail (.keep rfl rfl rfl rfl)
    refine hrelease.trans (ManagedAgent.afterAccept_moves _ _ _ _ _ _ fun claim hclaim => ?_)
    exact hkeys claim (ManagedAgent.dropStaleClaim_boundaryClaim_eq_some.mp hclaim).1

lemma agents_acceptMessage_of_ne (hne : agentId ≠ b) :
    (s.acceptMessage b a c id).1.agents agentId = s.agents agentId := by
  unfold acceptMessage
  split_ifs <;> simp [countOffer, agents_setAgent, hne]

variable (s b a) in
lemma drainBoundaryClaim_moves (now : ℤ) (saveFails : Bool) :
    ∃ a', (s.drainBoundaryClaim b a now saveFails).agents b = some a' ∧ Moves none none a a' := by
  have hcomplete : Moves none none a { a with
      boundaryClaim := none
      messageQueue := a.messageQueue.filter fun m => m.ref ∉ a.drainable } := .single (.complete a)
  unfold drainBoundaryClaim
  dsimp only
  split_ifs with hdrain
  · refine ⟨_, by simp [drainQueueItems, agents_setAgent]; rfl, hcomplete.tail (.drop _)⟩
  · refine ⟨{ a with boundaryClaim := none }, by simp [agents_setAgent], ?_⟩
    have hnil : a.drainable = [] := by simpa using hdrain
    simpa [hnil] using hcomplete

lemma agents_drainBoundaryClaim_of_ne {now : ℤ} {saveFails : Bool} (hne : agentId ≠ b) :
    (s.drainBoundaryClaim b a now saveFails).agents agentId = s.agents agentId := by
  unfold drainBoundaryClaim drainQueueItems
  dsimp only
  split_ifs <;> simp [agents_setAgent, hne]

/-- The counters only grow. -/
lemma deliver_counts (s : MessageQueues) (b : AgentId) (event : DeliveryEvent) :
    s.calls ≤ (s.deliver b event).calls ∧ s.steers ≤ (s.deliver b event).steers := by
  have hwith : ∀ f : ManagedAgent → ManagedAgent,
      (s.withAgent b f).calls = s.calls ∧ (s.withAgent b f).steers = s.steers := by
    intro f
    unfold withAgent
    split <;> exact ⟨rfl, rfl⟩
  cases event with
  | enqueue c =>
    simp only [deliver]
    rcases enqueueMessage_cases s b c with ⟨result, heq, -⟩ | ⟨a, id, ha, heq⟩
    · rw [heq]
      exact ⟨Nat.le_succ _, Nat.le_refl _⟩
    · rw [heq]
      have hsteers := acceptMessage_steers (s := s) (b := b) (a := a) c id
      refine ⟨Nat.le_succ_of_le (Nat.le_of_eq (acceptMessage_calls c id).symm), ?_⟩
      change s.steers ≤ (s.acceptMessage b a c id).1.steers
      split_ifs at hsteers <;> omega
  | take session textFails | push steer textFails =>
    exact ⟨Nat.le_of_eq (hwith _).1.symm, Nat.le_succ_of_le (Nat.le_of_eq (hwith _).2.symm)⟩
  | answered claimId steerId ok =>
    cases ok with
    | true => exact ⟨Nat.le_refl _, Nat.le_refl _⟩
    | false => exact ⟨Nat.le_of_eq (hwith _).1.symm, Nat.le_of_eq (hwith _).2.symm⟩
  | steerDelivered steerId | turn turn =>
    exact ⟨Nat.le_of_eq (hwith _).1.symm, Nat.le_of_eq (hwith _).2.symm⟩
  | turnCompleted now saveFails =>
    simp only [deliver]
    split
    · exact ⟨Nat.le_refl _, Nat.le_refl _⟩
    · unfold drainBoundaryClaim drainQueueItems
      dsimp only
      split_ifs
      · rw [calls_persistQueueState, steers_persistQueueState]
        exact ⟨Nat.le_refl _, Nat.le_refl _⟩
      · exact ⟨Nat.le_refl _, Nat.le_refl _⟩

/-- **Every event but a change of the turn is a sequence of moves of one agent.** -/
theorem deliver_moves (s : MessageQueues) (b : AgentId) (event : DeliveryEvent)
    (hcall : ∀ turn, event ≠ .turn turn) (ha : s.agents agentId = some a)
    (hb : a.Below s.calls s.steers) :
    ∃ a', (s.deliver b event).agents agentId = some a' ∧
      EventMoves s (s.deliver b event) a a' := by
  have hwith : ∀ f : ManagedAgent → ManagedAgent, Moves none none a (f a) →
      ∃ a', (s.withAgent b f).agents agentId = some a' ∧ Moves none none a a' := by
    intro f hf
    refine ⟨_, agents_withAgent f ha, ?_⟩
    split_ifs
    · exact hf
    · exact .refl
  cases event with
  | enqueue c =>
    simp only [deliver]
    rcases enqueueMessage_cases s b c with ⟨result, heq, -⟩ | ⟨a₀, id, ha₀, heq⟩
    · rw [heq]
      exact ⟨a, ha, .of_moves .refl⟩
    · rw [heq]
      by_cases hne : agentId = b
      · subst hne
        obtain rfl : a = a₀ := Option.some.inj (ha.symm.trans ha₀)
        exact acceptMessage_moves c id hb
      · exact ⟨a, (agents_acceptMessage_of_ne c id hne).trans ha, .of_moves .refl⟩
  | take session textFails =>
    obtain ⟨a', ha', hmoves⟩ := hwith
      (fun a => (a.takeToolBoundaryMessage session textFails s.claims).1)
      (ManagedAgent.takeToolBoundaryMessage_moves a _ _ _)
    exact ⟨a', ha', .of_moves hmoves⟩
  | push steer textFails =>
    refine ⟨_, agents_withAgent _ ha, none, some s.steers, ?_, by simp, fun k hk => ?_⟩
    · split_ifs
      · exact ManagedAgent.pushBoundarySteer_moves a _ _ _ _ fun claim hclaim e he =>
          Nat.ne_of_lt (hb.keys claim hclaim e he)
      · exact .refl
    · have hsteers : (s.withAgent b fun a =>
          a.pushBoundarySteer steer textFails s.claims s.steers).steers = s.steers := by
        unfold withAgent
        split <;> rfl
      exact ⟨(Option.some.inj hk).symm, Nat.lt_succ_of_le (Nat.le_of_eq hsteers.symm)⟩
  | answered claimId steerId ok =>
    cases ok with
    | true => exact ⟨a, ha, .of_moves .refl⟩
    | false =>
      obtain ⟨a', ha', hmoves⟩ := hwith
        (fun a => a.releasePendingSteer claimId steerId)
        (ManagedAgent.releasePendingSteer_moves a claimId steerId)
      exact ⟨a', ha', .of_moves hmoves⟩
  | steerDelivered steerId =>
    obtain ⟨a', ha', hmoves⟩ := hwith (fun a => a.onSteerDelivered steerId)
      (ManagedAgent.onSteerDelivered_moves a steerId)
    exact ⟨a', ha', .of_moves hmoves⟩
  | turnCompleted now saveFails =>
    simp only [deliver]
    split
    · exact ⟨a, ha, .of_moves .refl⟩
    · rename_i a₀ ha₀
      by_cases hne : agentId = b
      · subst hne
        obtain rfl : a = a₀ := Option.some.inj (ha.symm.trans ha₀)
        obtain ⟨a', ha', hmoves⟩ := drainBoundaryClaim_moves s agentId a now saveFails
        exact ⟨a', ha', .of_moves hmoves⟩
      · exact ⟨a, (agents_drainBoundaryClaim_of_ne hne).trans ha, .of_moves .refl⟩
  | turn turn => exact absurd rfl (hcall turn)

end Events

end MessageQueues

end Isomux
