import Isomux.Runtime.Records

set_option autoImplicit false

/-!
# The message queue (`src/server/message-queue.ts`)

Every agent has a queue of messages in memory, and one file holds the queues of all agents. A
message is accepted when the file has it. While a turn runs, an engine may take the queue at a tool
boundary, or be offered it as a steer: the items are then claimed, and stay in the queue until the
turn is over.

The items of a queue are objects, compared by identity. The identity of an item is its `ref` here:
where the file had it, or the number of the call of `enqueueMessage` that made it.

## Main definitions

* `Isomux.QueuedMessage`, `Isomux.BoundaryClaim`, `Isomux.ManagedAgent` — the queue of one agent.
* `Isomux.ManagedAgent.unclaimedQueue`, `Isomux.ManagedAgent.takeToolBoundaryMessage`,
  `Isomux.ManagedAgent.pushBoundarySteer`, `Isomux.ManagedAgent.releasePendingSteer`,
  `Isomux.ManagedAgent.onSteerDelivered` — delivery at tool boundaries.
* `Isomux.MessageQueues` — the agents and the file, with `enqueueMessage`, `drainQueueItems`,
  `drainBoundaryClaim` and `kill`.
* `Isomux.DeliveryEvent`, `Isomux.QueueEvent`, `Isomux.MessageQueues.run` — any sequence of calls.
-/

namespace Isomux

/-! ## Items -/

abbrev AgentId := JsString

inductive MessageRef where
  /-- The item at this place of an agent's record, when the file was read. -/
  | loaded (agentId : AgentId) (index : ℕ)
  | accepted (call : ℕ)
  deriving DecidableEq

inductive Sender where
  | user (username device : Option JsString)
  | agent (agentId : AgentId) (agentName roomName : JsString)
  | cronjob (cronjobId cronjobName : JsString)
  | app (appName : JsString)
  | webhook (webhookId webhookName : JsString)
  | messaging (app routeId routeName : JsString)
  deriving DecidableEq

/-- `sender.kind === "user"`. -/
def Sender.isUser : Sender → Bool
  | .user _ _ => true
  | _ => false

structure AskRef where
  id : JsString
  prompt : JsString
  dismissed : Option Bool := none
  simplify : Option Bool := none
  simplifyUndone : Option Bool := none
  taskId : Option JsString := none
  sessionId : Option JsString := none
  options : Option (List JsString) := none
  recommended : Option JsString := none
  app : Option JsString := none
  deriving DecidableEq

structure Attachment where
  filename : JsString
  originalName : JsString
  mediaType : JsString
  size : ℕ
  deriving DecidableEq

/-- What the caller of `enqueueMessage` puts into an item. An absent flag is `false`. -/
structure MessageBody where
  sender : Sender
  text : JsString
  sdkText : Option JsString := none
  native : Bool := false
  scheduledFor : Option ℤ := none
  scheduledSenderGone : Bool := false
  handoff : Bool := false
  limitResume : Bool := false
  restartWake : Bool := false
  fallbackContinue : Bool := false
  notice : Bool := false
  limitResumeMemberIds : List JsString := []
  ask : Option AskRef := none
  attachments : Option (List Attachment) := none
  deriving DecidableEq

inductive InterruptCause where
  | agentSteer
  | memberSendNow
  deriving DecidableEq

structure QueuedMessage extends MessageBody where
  ref : MessageRef
  id : JsString
  queuedDuringBusyTurn : Bool := false
  echoed : Bool := false
  steer : Bool := false
  queuedAt : ℤ
  interruptCause : Option InterruptCause := none
  carried : Bool := false
  modelRetry : Bool := false
  deriving DecidableEq

variable (m : QueuedMessage)

/-- `isValidQueuedMessage(v)`, for a value with the fields of an item: a contact's message names its
app. -/
def isValidQueuedMessage : Bool :=
  match m.sender with
  | .messaging app _ _ => app != []
  | _ => true

/-! ## The queue of one agent -/

inductive AgentState where
  | idle
  | thinking
  | toolExecuting
  | waitingForResponse
  | error
  | stopped
  deriving DecidableEq

abbrev SessionId := ℕ

/-- What the queue asks about the agent's session and turn. -/
structure TurnStatus where
  state : AgentState
  session : Option SessionId
  pendingTurn : Bool
  aborting : Bool
  sessionSwapping : Bool
  multiStepFlow : Bool
  autoHandoffPhase : Option Bool
  conversationHold : Bool
  backendHold : Bool
  deriving DecidableEq

/-- `queueHeld(managed)`. -/
def TurnStatus.queueHeld (t : TurnStatus) : Bool := t.conversationHold || t.backendHold

/-- Items a session took, or was offered, inside its running turn. -/
structure BoundaryClaim where
  id : ℕ
  session : SessionId
  items : List MessageRef
  pending : JsMap ℕ (List QueuedMessage) := []
  deriving DecidableEq

/-- What the chat shows of a delivered item. -/
inductive ChatLine where
  | userMessage (text : JsString)
  | limitResumed
  | restartWoken
  deriving DecidableEq

/-- One delivered item, as `logDeliveredItems` writes it. -/
structure DeliveredItem where
  ref : MessageRef
  line : Option ChatLine
  deriving DecidableEq

/-- The fields of an agent that the message queue reads and writes. -/
structure ManagedAgent where
  turn : TurnStatus
  messageQueue : List QueuedMessage := []
  queueDedupe : JsMap JsString ℤ := []
  boundaryClaim : Option BoundaryClaim := none
  recentSteers : List ℤ := []
  delivered : List DeliveredItem := []
  deriving DecidableEq

namespace ManagedAgent

def chatLine : Option ChatLine :=
  if m.echoed then none
  else if m.limitResume then some .limitResumed
  else if m.restartWake then some .restartWoken
  else if m.fallbackContinue || m.notice then none
  else some (.userMessage m.text)

variable (a : ManagedAgent)

/-- `logDeliveredItems(agentId, managed, items)`. The chat's writes catch their own errors. -/
def logDeliveredItems (items : List QueuedMessage) : ManagedAgent :=
  { a with delivered := a.delivered ++ items.map fun m => ⟨m.ref, chatLine m⟩ }

/-! ### Claims -/

/-- What `liveClaimed` does to the agent: the claim of another session is dropped. -/
def dropStaleClaim : ManagedAgent :=
  match a.boundaryClaim with
  | some claim =>
    if some claim.session ≠ a.turn.session then { a with boundaryClaim := none } else a
  | none => a

/-- `liveClaimed(managed)`: the items the installed session holds. -/
def liveClaimed : List MessageRef :=
  match a.dropStaleClaim.boundaryClaim with
  | some claim => claim.items
  | none => []

/-- `unclaimedQueue(managed)`. -/
def unclaimedQueue : List QueuedMessage :=
  a.messageQueue.filter fun m => m.ref ∉ a.liveClaimed

/-- `emitQueueUpdate(agentId, managed)`, which looks at the unclaimed queue. -/
def emitQueueUpdate : ManagedAgent := a.dropStaleClaim

/-- `boundaryEligible(m)`. -/
def boundaryEligible : Bool :=
  !m.sender.isUser && m.sdkText.all List.isEmpty && !m.handoff && !m.limitResume && !m.restartWake &&
    !m.fallbackContinue && !m.native

/-- `boundaryTakeable(managed, session)`. -/
def boundaryTakeable (session : SessionId) : Bool :=
  !(a.turn.session != some session || !a.turn.pendingTurn || a.turn.aborting ||
    a.turn.sessionSwapping || (a.turn.state != .thinking && a.turn.state != .toolExecuting) ||
    a.turn.multiStepFlow || a.turn.autoHandoffPhase.isSome || a.turn.queueHeld)

/-- `boundaryBatch(managed)`. -/
def boundaryBatch : Option (List QueuedMessage) :=
  let items := a.unclaimedQueue
  if !items.any (·.steer) || !items.all boundaryEligible then none else some items

/-- `claimFor(managed, session)`; `fresh` is the identity of a new claim. -/
def claimFor (session : SessionId) (fresh : ℕ) : BoundaryClaim :=
  match a.boundaryClaim with
  | some claim => if claim.session = session then claim else ⟨fresh, session, [], []⟩
  | none => ⟨fresh, session, [], []⟩

/-- `takeToolBoundaryMessage(agentId, session)`, and whether it delivers. Building the text may
throw; then nothing is claimed. -/
def takeToolBoundaryMessage (session : Option SessionId) (textFails : Bool)
    (fresh : ℕ) : ManagedAgent × Bool :=
  match session with
  | none => (a, false)
  | some session =>
    if !a.boundaryTakeable session then (a, false)
    else
      let a := a.dropStaleClaim
      match a.boundaryBatch with
      | none => (a, false)
      | some items =>
        let claim := a.claimFor session fresh
        if textFails then (a, false)
        else
          let claim := { claim with items := claim.items ++ items.map (·.ref) }
          (({ a with boundaryClaim := some claim }.logDeliveredItems items).emitQueueUpdate, true)

/-- `releasePendingSteer(agentId, managed, claim, steerId)`. The claim may be one that was drained
or replaced; then nothing happens. -/
def releasePendingSteer (claimId steerId : ℕ) : ManagedAgent :=
  match a.boundaryClaim with
  | none => a
  | some claim =>
    match JsMap.get claim.pending steerId with
    | none => a
    | some items =>
      if claim.id ≠ claimId then a
      else
        let claim := { claim with
          pending := JsMap.delete claim.pending steerId
          items := claim.items.filter fun r => r ∉ items.map (·.ref) }
        { a with boundaryClaim := some claim }.emitQueueUpdate

/-- What `session.steer` does. -/
inductive SteerCall where
  | absent
  | threw
  | sent
  deriving DecidableEq

/-- `pushBoundarySteer(agentId)`. Building the text may throw; then nothing is claimed. -/
def pushBoundarySteer (steer : SteerCall) (textFails : Bool)
    (freshClaim freshSteer : ℕ) : ManagedAgent :=
  match a.turn.session with
  | none => a
  | some session =>
    if steer = .absent || !a.boundaryTakeable session then a
    else
      let a := a.dropStaleClaim
      match a.boundaryBatch with
      | none => a
      | some items =>
        let claim := a.claimFor session freshClaim
        if textFails then a
        else
          let claim := { claim with
            items := claim.items ++ items.map (·.ref)
            pending := JsMap.set claim.pending freshSteer items }
          let a := { a with boundaryClaim := some claim }.emitQueueUpdate
          if steer = .threw then a.releasePendingSteer claim.id freshSteer else a

/-- `onSteerDelivered(agentId, managed, steerId)`. -/
def onSteerDelivered (steerId : ℕ) : ManagedAgent :=
  let a := a.dropStaleClaim
  if a.liveClaimed.length = 0 then a
  else
    match a.boundaryClaim with
    | none => a
    | some claim =>
      match JsMap.get claim.pending steerId with
      | none => a
      | some items =>
        let claim := { claim with pending := JsMap.delete claim.pending steerId }
        { a with boundaryClaim := some claim }.logDeliveredItems items

/-- The pending steers of the claim of the installed session. -/
def pendingSteers : JsMap ℕ (List QueuedMessage) :=
  match a.dropStaleClaim.boundaryClaim with
  | some claim => claim.pending
  | none => []

/-- The items `drainBoundaryClaim` drains: what was claimed, without what is still pending. -/
def drainable : List MessageRef :=
  a.liveClaimed.filter fun r => ∀ p ∈ a.pendingSteers, r ∉ p.2.map (·.ref)

/-! ### What the calls leave alone -/

/-- What an agent holds: its queue, and the ids of accepted messages. -/
def held : List QueuedMessage × JsMap JsString ℤ :=
  (a.messageQueue, a.queueDedupe)

@[simp] lemma dropStaleClaim_held : a.dropStaleClaim.held = a.held := by
  unfold dropStaleClaim
  split
  · split <;> rfl
  · rfl

@[simp] lemma emitQueueUpdate_held : a.emitQueueUpdate.held = a.held :=
  dropStaleClaim_held a

@[simp] lemma takeToolBoundaryMessage_held (session : Option SessionId)
    (textFails : Bool) (fresh : ℕ) :
    (a.takeToolBoundaryMessage session textFails fresh).1.held = a.held := by
  unfold takeToolBoundaryMessage
  split
  · rfl
  · split
    · rfl
    · dsimp only
      split
      · simp
      · split
        · simp
        · exact (emitQueueUpdate_held _).trans (dropStaleClaim_held a)

@[simp] lemma releasePendingSteer_held (claimId steerId : ℕ) :
    (a.releasePendingSteer claimId steerId).held = a.held := by
  unfold releasePendingSteer
  split
  · rfl
  · split
    · rfl
    · split
      · rfl
      · exact emitQueueUpdate_held _

@[simp] lemma pushBoundarySteer_held (steer : SteerCall) (textFails : Bool)
    (freshClaim freshSteer : ℕ) :
    (a.pushBoundarySteer steer textFails freshClaim freshSteer).held = a.held := by
  unfold pushBoundarySteer
  split
  · rfl
  · split
    · rfl
    · dsimp only
      split
      · simp
      · split
        · simp
        · split
          · rw [releasePendingSteer_held]
            exact (emitQueueUpdate_held _).trans (dropStaleClaim_held a)
          · exact (emitQueueUpdate_held _).trans (dropStaleClaim_held a)

@[simp] lemma onSteerDelivered_held (steerId : ℕ) : (a.onSteerDelivered steerId).held = a.held := by
  unfold onSteerDelivered
  dsimp only
  split
  · simp
  · split
    · simp
    · split
      · simp
      · exact dropStaleClaim_held a

@[simp] lemma dropStaleClaim_messageQueue :
    a.dropStaleClaim.messageQueue = a.messageQueue := congrArg Prod.fst (dropStaleClaim_held a)

@[simp] lemma emitQueueUpdate_messageQueue :
    a.emitQueueUpdate.messageQueue = a.messageQueue := congrArg Prod.fst (emitQueueUpdate_held a)

@[simp] lemma takeToolBoundaryMessage_messageQueue (session : Option SessionId)
    (textFails : Bool) (fresh : ℕ) :
    (a.takeToolBoundaryMessage session textFails fresh).1.messageQueue = a.messageQueue :=
  congrArg Prod.fst (takeToolBoundaryMessage_held a session textFails fresh)

@[simp] lemma releasePendingSteer_messageQueue (claimId steerId : ℕ) :
    (a.releasePendingSteer claimId steerId).messageQueue = a.messageQueue :=
  congrArg Prod.fst (releasePendingSteer_held a claimId steerId)

@[simp] lemma pushBoundarySteer_messageQueue (steer : SteerCall)
    (textFails : Bool) (freshClaim freshSteer : ℕ) :
    (a.pushBoundarySteer steer textFails freshClaim freshSteer).messageQueue =
      a.messageQueue :=
  congrArg Prod.fst (pushBoundarySteer_held a steer textFails freshClaim freshSteer)

@[simp] lemma onSteerDelivered_messageQueue (steerId : ℕ) :
    (a.onSteerDelivered steerId).messageQueue = a.messageQueue :=
  congrArg Prod.fst (onSteerDelivered_held a steerId)

end ManagedAgent

/-! ## The agents and the file -/

structure QueueRecord where
  queue : List QueuedMessage
  dedupe : JsMap JsString ℤ
  deriving DecidableEq

abbrev QueueStore := AgentId → Option QueueRecord

structure MessageQueues where
  agents : AgentId → Option ManagedAgent
  queueStoreCache : Option QueueStore
  disk : QueueStore
  calls : ℕ
  claims : ℕ
  steers : ℕ

namespace MessageQueues

def QUEUE_MAX : ℕ := 50

/-- How long the id of an accepted message counts. -/
def QUEUE_DEDUPE_TTL_MS : ℤ := 5 * 60000

/-- How many interruptions fit into the window. -/
def STEER_RATE_LIMIT : ℕ := 3

def STEER_RATE_WINDOW_MS : ℤ := 60000

variable (s : MessageQueues)

/-- `agents.set(agentId, managed)`. -/
def setAgent (agentId : AgentId) (a : ManagedAgent) : MessageQueues :=
  { s with agents := Function.update s.agents agentId (some a) }

/-- `queueStore()`. -/
def queueStore : QueueStore := s.queueStoreCache.getD s.disk

variable (a : ManagedAgent)

/-- `buildQueueRecord(managed)`. -/
def buildQueueRecord (now : ℤ) : Option QueueRecord :=
  let dedupe := recordOf (a.queueDedupe.filter fun e => now < e.2)
  if a.messageQueue.length = 0 ∧ dedupe.length = 0 then none else some ⟨a.messageQueue, dedupe⟩

/-- `saveMessageQueues(next)` and, behind it, `queueStoreCache = next`. The write is atomic: one
that fails leaves the file, and the cache is the store that was read. -/
def commitStore (next : QueueStore) (saveFails : Bool) : MessageQueues :=
  if saveFails then { s with queueStoreCache := some s.queueStore }
  else { s with disk := next, queueStoreCache := some next }

/-- `persistQueueState(agentId, managed)`, and `persistQueueStateThrow`, which throws where the save
fails. -/
def persistQueueState (agentId : AgentId) (a : ManagedAgent) (now : ℤ)
    (saveFails : Bool) : MessageQueues :=
  s.commitStore (Function.update s.queueStore agentId (buildQueueRecord a now)) saveFails

/-- `removeQueueRecord(agentId)`. -/
def removeQueueRecord (agentId : AgentId) (saveFails : Bool) : MessageQueues :=
  if (s.queueStore agentId).isNone then { s with queueStoreCache := some s.queueStore }
  else s.commitStore (Function.update s.queueStore agentId none) saveFails

/-- `readPersistedQueueRecord(agentId)`. -/
def readPersistedQueueRecord (agentId : AgentId) (now : ℤ) : Option QueueRecord :=
  match s.queueStore agentId with
  | none => none
  | some record =>
    let queue := record.queue.filter isValidQueuedMessage
    let dedupe := record.dedupe.filter fun e => now < e.2
    if queue.length = 0 ∧ dedupe.length = 0 then none else some ⟨queue, dedupe⟩

/-- The file as it is read: every item is an object of its own. -/
def loadMessageQueuesRaw (file : QueueStore) : QueueStore := fun agentId =>
  (file agentId).map fun record =>
    { record with queue := record.queue.mapIdx fun i m => { m with ref := .loaded agentId i } }

/-- The start of the server with these agents: every agent gets the queue of its record. -/
def boot (file : QueueStore) (turns : AgentId → Option TurnStatus) (now : ℤ) : MessageQueues :=
  let disk := loadMessageQueuesRaw file
  let s : MessageQueues :=
    { agents := fun _ => none, queueStoreCache := none, disk, calls := 0, claims := 0, steers := 0 }
  { s with
    agents := fun agentId => (turns agentId).map fun turn =>
      match s.readPersistedQueueRecord agentId now with
      | none => { turn }
      | some record => { turn, messageQueue := record.queue, queueDedupe := record.dedupe } }

/-- `drainQueueItems(agentId, managed, items)`. -/
def drainQueueItems (agentId : AgentId) (a : ManagedAgent)
    (items : List MessageRef) (now : ℤ) (saveFails : Bool) : MessageQueues :=
  let a := { a with messageQueue := a.messageQueue.filter fun m => m.ref ∉ items }.emitQueueUpdate
  (s.setAgent agentId a).persistQueueState agentId a now saveFails

/-- `drainBoundaryClaim(agentId, managed)`. -/
def drainBoundaryClaim (agentId : AgentId) (a : ManagedAgent) (now : ℤ)
    (saveFails : Bool) : MessageQueues :=
  let items := a.drainable
  let a := { a with boundaryClaim := none }
  if 0 < items.length then s.drainQueueItems agentId a items now saveFails
  else s.setAgent agentId a

/-- `agents.delete(agentId)`. -/
def deleteAgent (agentId : AgentId) : MessageQueues :=
  { s with agents := Function.update s.agents agentId none }

/-- The queue's part of `kill(agentId)`. -/
def kill (agentId : AgentId) (saveFails : Bool) : MessageQueues :=
  (s.deleteAgent agentId).removeQueueRecord agentId saveFails

/-! ### Accepting a message -/

/-- A call of `enqueueMessage`, with what the call reads from the rest of the server. -/
structure EnqueueCall extends MessageBody where
  clientMessageId : Option JsString := none
  resend : Option Bool := none
  steer : Bool := false
  now : ℤ
  draws : List JsString
  canResume : Bool := false
  capRefusal : Option (String × ℕ) := none
  doesNotFit : Bool := false
  toolBoundaryDelivery : Bool := false
  steerCall : ManagedAgent.SteerCall := .absent
  textFails : Bool := false
  saveFails : Bool

inductive SteerDeclineReason where
  | multiStepFlow
  | rateLimited
  | autoHandoff
  | handoff
  deriving DecidableEq

/-- What `enqueueMessage` returns. -/
inductive EnqueueResult where
  | refused (error : String) (status : ℕ)
  /-- `{ ok: true, queued: false, deduped: true }`. -/
  | deduped
  /-- `{ ok: true, queued, messageId, steered, steerDeclined }`. -/
  | accepted (queued : Bool) (messageId : JsString) (steered : Option Bool)
    (steerDeclined : Option SteerDeclineReason)
  deriving DecidableEq

def AGENT_DOES_NOT_FIT : String := "agent_does_not_fit"

/-- `generateQueuedId(existing)`: the first id drawn that no item has. -/
def generateQueuedId (existing : List QueuedMessage) (draws : List JsString) : Option JsString :=
  draws.find? fun id => id ∉ existing.map (·.id)

/-- `isQueueIdleState(state)`. -/
def isQueueIdleState (state : AgentState) : Bool :=
  state == .idle || state == .waitingForResponse

/-- `msg.clientMessageId`, where it is truthy. -/
def EnqueueCall.dedupeKey (c : EnqueueCall) : Option JsString :=
  c.clientMessageId.filter fun id => !id.isEmpty

/-- `recordDedupe(managed, clientMessageId)`. -/
def recordDedupe (dedupe : JsMap JsString ℤ) (clientMessageId : JsString) (now : ℤ) :
    JsMap JsString ℤ :=
  let kept := if 100 < dedupe.length then dedupe.filter fun e => !(e.2 < now) else dedupe
  JsMap.set kept clientMessageId (now + QUEUE_DEDUPE_TTL_MS)

/-- What `enqueueMessage` checks before it makes an item. -/
def checkEnqueue (c : EnqueueCall) : Option EnqueueResult :=
  if a.turn.state = .stopped then some (.refused "agent_stopped" 409)
  else if a.turn.state = .error ∧ !c.canResume then some (.refused "agent_error" 409)
  else if c.dedupeKey.any (JsMap.has a.queueDedupe) then some .deduped
  else if QUEUE_MAX ≤ a.messageQueue.length then some (.refused "queue_full" 429)
  else
    match c.capRefusal with
    | some (error, status) => some (.refused error status)
    | none => if c.doesNotFit then some (.refused AGENT_DOES_NOT_FIT 403) else none

def queuedDuringBusyTurn (c : EnqueueCall) : Bool :=
  a.turn.state != .error && !isQueueIdleState a.turn.state && c.resend.isNone &&
    !c.fallbackContinue && !c.notice

def boundarySteer (c : EnqueueCall) : Bool :=
  c.steer && queuedDuringBusyTurn a c && !a.turn.multiStepFlow &&
    a.turn.autoHandoffPhase.isNone && !a.turn.queueHeld && c.toolBoundaryDelivery

def newItem (c : EnqueueCall) (id : JsString) (ref : MessageRef) : QueuedMessage :=
  { c.toMessageBody with
    sdkText := c.sdkText.filter fun text => !text.isEmpty
    ref, id
    queuedDuringBusyTurn := queuedDuringBusyTurn a c
    echoed := c.resend.getD false
    steer := boundarySteer a c
    queuedAt := c.now }

/-- `releaseBackendHold(agentId, managed)`. -/
def releaseBackendHold : ManagedAgent :=
  { a with turn := { a.turn with backendHold := false } }

/-- What happens behind the save: the answer, and what it does to the agent. The flush, the resume
of a session and the interruption of a turn are not the queue's. -/
def afterAccept (c : EnqueueCall) (steers : Bool) (id : JsString)
    (freshClaim freshSteer : ℕ) : ManagedAgent × EnqueueResult :=
  let steered := if c.steer then some false else none
  if a.turn.state = .error then (a, .accepted true id steered none)
  else if isQueueIdleState a.turn.state ∧ !a.turn.multiStepFlow then
    (a, .accepted false id steered none)
  else if !c.steer then (a, .accepted true id none none)
  else if a.turn.multiStepFlow then
    (a, .accepted true id (some false) (some .multiStepFlow))
  else if a.turn.queueHeld then (a, .accepted true id (some false) none)
  else
    match a.turn.autoHandoffPhase with
    | some manual =>
      (a, .accepted true id (some false) (some (if manual then .handoff else .autoHandoff)))
    | none =>
      if steers then
        (a.pushBoundarySteer c.steerCall c.textFails freshClaim freshSteer,
          .accepted false id (some true) none)
      else
        let recent := a.recentSteers.filter fun t => c.now - STEER_RATE_WINDOW_MS < t
        if STEER_RATE_LIMIT ≤ recent.length then
          ({ a with recentSteers := recent },
            .accepted true id (some false) (some .rateLimited))
        else
          ({ a with recentSteers := recent ++ [c.now] }, .accepted false id (some true) none)

/-- The item and its dedupe key, in memory. -/
def pushItem (c : EnqueueCall) (item : QueuedMessage) : ManagedAgent :=
  { a with
    messageQueue := a.messageQueue ++ [item]
    queueDedupe :=
      match c.dedupeKey with
      | some key => recordDedupe a.queueDedupe key c.now
      | none => a.queueDedupe }

def popItem (c : EnqueueCall) : ManagedAgent :=
  { a with
    messageQueue := a.messageQueue.dropLast
    queueDedupe :=
      match c.dedupeKey with
      | some key => JsMap.delete a.queueDedupe key
      | none => a.queueDedupe }

/-- One more claim and one more steer have an identity. -/
def countOffer : MessageQueues :=
  { s with claims := s.claims + 1, steers := s.steers + 1 }

/-- The body of `enqueueMessage` for an agent that is there, behind the checks. -/
def acceptMessage (agentId : AgentId) (a : ManagedAgent) (c : EnqueueCall)
    (id : JsString) : MessageQueues × EnqueueResult :=
  let pushed := pushItem a c (newItem a c id (.accepted s.calls))
  let saved := s.persistQueueState agentId pushed c.now c.saveFails
  if c.saveFails then (saved.setAgent agentId (popItem pushed c), .refused "persist_failed" 500)
  else
    let (a, result) :=
      afterAccept (releaseBackendHold pushed.emitQueueUpdate) c (boundarySteer a c) id s.claims
        s.steers
    ((saved.setAgent agentId a).countOffer, result)

/-- One more call of `enqueueMessage`. -/
def countCall : MessageQueues := { s with calls := s.calls + 1 }

/-- `enqueueMessage(agentId, msg, opts)`; `none` is a draw of ids that found no free one. -/
def enqueueMessage (agentId : AgentId) (c : EnqueueCall) : MessageQueues × Option EnqueueResult :=
  match s.agents agentId with
  | none => (s.countCall, some (.refused "agent not found" 404))
  | some a =>
    match checkEnqueue a c with
    | some result => (s.countCall, some result)
    | none =>
      match generateQueuedId a.messageQueue c.draws with
      | none => (s.countCall, none)
      | some id =>
        let (s, result) := s.acceptMessage agentId a c id
        (s.countCall, some result)

end MessageQueues

/-! ## Runs -/

/-- The calls around the delivery at tool boundaries. -/
inductive DeliveryEvent where
  | enqueue (call : MessageQueues.EnqueueCall)
  | take (session : Option SessionId) (textFails : Bool)
  | push (steer : ManagedAgent.SteerCall) (textFails : Bool)
  /-- The engine accepts or refuses a steer of a claim. -/
  | answered (claimId steerId : ℕ) (ok : Bool)
  | steerDelivered (steerId : ℕ)
  /-- The turn of the installed session is over. -/
  | turnCompleted (now : ℤ) (saveFails : Bool)
  | turn (turn : TurnStatus)

inductive QueueEvent where
  | delivery (agentId : AgentId) (event : DeliveryEvent)
  /-- Items leave an agent's queue: a flush sent them, or a member cancelled them. -/
  | drain (agentId : AgentId) (items : List MessageRef) (now : ℤ) (saveFails : Bool)
  | kill (agentId : AgentId) (saveFails : Bool)

namespace MessageQueues

variable (s : MessageQueues)

/-- An event of an agent that is there, and changes nothing else. -/
def withAgent (agentId : AgentId) (f : ManagedAgent → ManagedAgent) : MessageQueues :=
  match s.agents agentId with
  | none => s
  | some a => s.setAgent agentId (f a)

def deliver (agentId : AgentId) : DeliveryEvent → MessageQueues
  | .enqueue call => (s.enqueueMessage agentId call).1
  | .take session textFails =>
    (s.withAgent agentId fun a => (a.takeToolBoundaryMessage session textFails s.claims).1).countOffer
  | .push steer textFails =>
    (s.withAgent agentId fun a => a.pushBoundarySteer steer textFails s.claims s.steers).countOffer
  | .answered claimId steerId ok =>
    if ok then s else s.withAgent agentId fun a => a.releasePendingSteer claimId steerId
  | .steerDelivered steerId => s.withAgent agentId fun a => a.onSteerDelivered steerId
  | .turnCompleted now saveFails =>
    match s.agents agentId with
    | none => s
    | some a => s.drainBoundaryClaim agentId a now saveFails
  | .turn turn => s.withAgent agentId fun a => { a with turn }

def step : QueueEvent → MessageQueues
  | .delivery agentId event => s.deliver agentId event
  | .drain agentId items now saveFails =>
    match s.agents agentId with
    | none => s
    | some a => s.drainQueueItems agentId a items now saveFails
  | .kill agentId saveFails => s.kill agentId saveFails

def run (s : MessageQueues) (events : List QueueEvent) : MessageQueues := Machine.run step s events

end MessageQueues

end Isomux
