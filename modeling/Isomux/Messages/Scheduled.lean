import Isomux.Messages.Queue

set_option autoImplicit false

/-!
# Scheduled messages (`src/server/scheduled-messages.ts`)

An agent schedules a message for a later time. The pending entries are in memory and in one file,
which every change writes as a whole. A tick hands the entries that are due to the queues of their
receivers.

The server runs one operation at a time, so a tick meets no other operation; it can be cut by a
crash at any point, and the next start reads the file. The identity of an entry is its `ref`: its
place in the first file, or the number of the call of `schedule` that made it. The `log` holds what
happened, in order.

## Main definitions

* `Isomux.ScheduledMessageEntry`, `Isomux.ScheduledMessages` — the entries and the state.
* `Isomux.ScheduledMessages.schedule`, `Isomux.ScheduledMessages.cancel`,
  `Isomux.ScheduledMessages.tick` — the operations.
* `Isomux.ScheduledEvent`, `Isomux.ScheduledMessages.run` — any sequence of operations and crashes.
-/

namespace Isomux

/-! ## Entries -/

inductive EntryRef where
  /-- The entry at this place of the first file. -/
  | loaded (index : ℕ)
  | scheduled (call : ℕ)
  deriving DecidableEq

structure ScheduledMessageEntry where
  ref : EntryRef
  id : JsString
  senderAgentId : AgentId
  senderName : JsString
  senderRoomName : JsString
  receiverAgentId : AgentId
  text : JsString
  clientMessageId : Option JsString
  deliverAt : ℤ
  createdAt : ℤ
  deriving DecidableEq

/-- `isValidEntry(e)`, for a value with the fields of an entry. -/
def isValidEntry (e : ScheduledMessageEntry) : Bool := 0 < e.id.length

structure AgentDisplay where
  name : JsString
  roomName : JsString
  deriving DecidableEq

structure ScheduledDelivery where
  sender : Sender
  text : JsString
  scheduledFor : ℤ
  scheduledSenderGone : Bool
  deriving DecidableEq

inductive ScheduledOutcome where
  | accepted (entry : ScheduledMessageEntry)
  | refused (call : ℕ)
  | cancelled (ref : EntryRef)
  /-- The queue of the receiver took the message. -/
  | enqueued (ref : EntryRef) (delivery : ScheduledDelivery)
  | recordedSent (ref : EntryRef) (messageId : Option JsString)
  | dropped (entry : ScheduledMessageEntry)
  /-- The sender is told that it was given up, as far as that works. -/
  | notified (ref : EntryRef) (senderAgentId : AgentId) (text : JsString)
  | crashed
  deriving DecidableEq

/-- The entries, the file and what happened. -/
structure ScheduledMessages where
  entries : List ScheduledMessageEntry
  disk : List ScheduledMessageEntry
  calls : ℕ
  log : List ScheduledOutcome

namespace ScheduledMessages

/-- How many pending entries a sender may have. -/
def MAX_PENDING_PER_SENDER : ℕ := 20

def MAX_HORIZON_MS : ℤ := 30 * 24 * 60 * 60 * 1000

def DELIVERY_DEADLINE_MS : ℤ := 24 * 60 * 60 * 1000

variable (s : ScheduledMessages)

def emit (outcomes : List ScheduledOutcome) : ScheduledMessages :=
  { s with log := s.log ++ outcomes }

def boot (file : List ScheduledMessageEntry) : ScheduledMessages :=
  let disk := file.mapIdx fun i e => { e with ref := .loaded i }
  { entries := disk.filter isValidEntry, disk, calls := 0, log := [] }

def crash : ScheduledMessages :=
  { s with entries := s.disk.filter isValidEntry }.emit [.crashed]

/-- `persistence.save(entries)`. The write is atomic: one that fails leaves the file. -/
def save (saveFails : Bool) : ScheduledMessages :=
  if saveFails then s else { s with disk := s.entries }

/-! ## Schedule -/

/-- A call of `schedule`, with what it reads from the rest of the server. -/
structure ScheduleCall where
  senderAgentId : AgentId
  receiverAgentId : AgentId
  text : JsString
  deliverAt : ℤ
  clientMessageId : Option JsString := none
  now : ℤ
  receiverDisplay : Option AgentDisplay
  senderDisplay : Option AgentDisplay
  draws : List JsString
  saveFails : Bool
  crashes : Bool := false

/-- What `schedule` returns. -/
inductive ScheduleResult where
  | ok (entry : ScheduledMessageEntry) (deduped : Bool)
  | refused (status : ℕ) (code message : String)
  deriving DecidableEq

variable (c : ScheduleCall)

/-- `input.clientMessageId`, where it is truthy. -/
def ScheduleCall.dedupeKey : Option JsString :=
  c.clientMessageId.filter fun id => !id.isEmpty

/-- `generateScheduledId(existing)`: the first id drawn that no entry has. -/
def generateScheduledId (existing : List ScheduledMessageEntry) (draws : List JsString) :
    Option JsString :=
  (draws.map (js "sm_" ++ ·)).find? fun id => id ∉ existing.map (·.id)

/-- The pending entry of the same sender with the same key. -/
def existingEntry (c : ScheduleCall) : Option ScheduledMessageEntry :=
  match c.dedupeKey with
  | some key =>
    s.entries.find? fun e => e.senderAgentId = c.senderAgentId ∧ e.clientMessageId = some key
  | none => none

/-- What `schedule` checks about the call alone. -/
def checkScheduleInput : Option ScheduleResult :=
  if c.text.length = 0 then some (.refused 400 "invalid_text" "text is required")
  else if c.deliverAt ≤ c.now then
    some (.refused 400 "invalid_deliver_at" "deliverAt must be in the future")
  else if MAX_HORIZON_MS < c.deliverAt - c.now then
    some (.refused 400 "invalid_deliver_at" "deliverAt is more than 30 days ahead")
  else if c.receiverDisplay.isNone then
    some (.refused 404 "recipient_not_found" "Recipient not found.")
  else none

/-- What `schedule` answers for an entry with the same key. -/
def answerExisting (existing : ScheduledMessageEntry) : ScheduleResult :=
  if existing.receiverAgentId = c.receiverAgentId ∧ existing.text = c.text ∧
      existing.deliverAt = c.deliverAt then .ok existing true
  else
    .refused 409 "client_message_id_conflict"
      "clientMessageId matches a pending scheduled message with a different payload."

def newEntry (sender : AgentDisplay) (id : JsString) (ref : EntryRef) : ScheduledMessageEntry where
  ref
  id
  senderAgentId := c.senderAgentId
  senderName := sender.name
  senderRoomName := sender.roomName
  receiverAgentId := c.receiverAgentId
  text := c.text
  clientMessageId := c.dedupeKey
  deliverAt := c.deliverAt
  createdAt := c.now

/-- The end of `schedule`: the entry is saved, or taken back. -/
def pushEntry (entry : ScheduledMessageEntry) (saveFails : Bool) :
    ScheduledMessages × ScheduleResult :=
  let s := { s with entries := s.entries ++ [entry] }.save saveFails
  if saveFails then
    ({ s with entries := s.entries.dropLast },
      .refused 500 "persist_failed" "Failed to persist the scheduled message.")
  else (s, .ok entry false)

/-- `schedule(input)`; `none` is a draw of ids that found no free one. -/
def scheduleEntry (c : ScheduleCall) : ScheduledMessages × Option ScheduleResult :=
  match checkScheduleInput c with
  | some result => (s, some result)
  | none =>
    match c.senderDisplay with
    | none => (s, some (.refused 400 "unknown_sender" "Sender is not a known agent."))
    | some sender =>
      match s.existingEntry c with
      | some existing => (s, some (answerExisting c existing))
      | none =>
        if MAX_PENDING_PER_SENDER ≤
            (s.entries.filter fun e => e.senderAgentId = c.senderAgentId).length then
          (s, some (.refused 429 "schedule_full"
            "Sender already has 20 pending scheduled messages."))
        else
          match generateScheduledId s.entries c.draws with
          | none => (s, none)
          | some id =>
            let (s, result) := s.pushEntry (newEntry c sender id (.scheduled s.calls)) c.saveFails
            (s, some result)

def logAnswer (call : ℕ) : Option ScheduleResult → ScheduledMessages
  | some (.ok entry _) => s.emit [.accepted entry]
  | some (.refused _ _ _) => s.emit [.refused call]
  | none => s

/-- A call of `schedule`, its answer and the crash before it. -/
def schedule (c : ScheduleCall) : ScheduledMessages :=
  let (s', result) := s.scheduleEntry c
  let s' := { s' with calls := s.calls + 1 }
  if c.crashes then s'.crash else s'.logAnswer s.calls result

/-! ## Cancel -/

/-- `cancel(senderAgentId, scheduledId)`. The crash falls between the save and the answer. -/
def cancel (senderAgentId : AgentId) (scheduledId : JsString)
    (saveFails crashes : Bool) : ScheduledMessages :=
  match s.entries.find? fun e => e.id = scheduledId ∧ e.senderAgentId = senderAgentId with
  | none => if crashes then s.crash else s
  | some removed =>
    let idx := s.entries.findIdx fun e => e.id = scheduledId ∧ e.senderAgentId = senderAgentId
    let s := { s with entries := s.entries.eraseIdx idx }.save saveFails
    let s :=
      if saveFails then { s with entries := s.entries.insertIdx idx removed }
      else s.emit [.cancelled removed.ref]
    if crashes then s.crash else s

/-! ## Tick -/

/-- What `deps.enqueue` returns. -/
inductive HandoffResult where
  | ok (messageId : Option JsString)
  | refused (error : JsString) (status : ℕ)
  deriving DecidableEq

/-- Where a crash cuts the handling of one entry. -/
inductive CrashPoint where
  | beforeEnqueue
  | beforeSave
  | afterSave
  deriving DecidableEq

structure Firing where
  liveSender : Option AgentDisplay := none
  result : HandoffResult
  saveFails : Bool := false
  crash : Option CrashPoint := none

inductive FireVerdict where
  | delivered (messageId : Option JsString)
  | drop (notice : JsString)
  /-- It stays, and the later ones of its receiver wait. -/
  | retry
  deriving DecidableEq

variable (entry : ScheduledMessageEntry)

def dropNotice (why : JsString) : JsString :=
  js "Scheduled message " ++ entry.id ++ js " to agent " ++ entry.receiverAgentId ++
    js " was dropped" ++ why

/-- How `tick` reads the answer of the queue. -/
def fireVerdict (now : ℤ) (entry : ScheduledMessageEntry) : HandoffResult → FireVerdict
  | .ok messageId => .delivered messageId
  | .refused error status =>
    if status = 403 then
      .drop (dropNotice entry (js ": the recipient's access no longer fits inside yours."))
    else if status = 404 then
      .drop (dropNotice entry (js ": the recipient no longer exists."))
    else if DELIVERY_DEADLINE_MS < now - entry.deliverAt then
      .drop (dropNotice entry
        (js " after 24h of failed delivery attempts (last error: " ++ error ++ js ")."))
    else .retry

/-- What `tick` hands over. -/
def deliveryOf (liveSender : Option AgentDisplay) : ScheduledDelivery where
  sender := .agent entry.senderAgentId (liveSender.elim entry.senderName (·.name))
    (liveSender.elim entry.senderRoomName (·.roomName))
  text := entry.text
  scheduledFor := entry.deliverAt
  scheduledSenderGone := liveSender.isNone

/-- `removeAndPersistBestEffort(entry)`. -/
def removeAndPersistBestEffort (entry : ScheduledMessageEntry)
    (saveFails : Bool) : ScheduledMessages :=
  { s with entries := s.entries.eraseP (·.ref = entry.ref) }.save saveFails

@[simp] lemma log_removeAndPersistBestEffort (entry : ScheduledMessageEntry)
    (saveFails : Bool) : (s.removeAndPersistBestEffort entry saveFails).log = s.log := by
  cases saveFails <;> rfl

inductive FireEnd where
  | goOn
  /-- The tick goes on, and the receiver is blocked. -/
  | blocked
  | crashed
  deriving DecidableEq

/-- The removal of an entry: what happens with it, and what comes behind it. -/
def settle (entry : ScheduledMessageEntry) (firing : Firing)
    (removed behind : List ScheduledOutcome) : ScheduledMessages × FireEnd :=
  if firing.crash = some .beforeSave then (s.crash, .crashed)
  else
    let s := (s.removeAndPersistBestEffort entry firing.saveFails).emit removed
    if firing.crash = some .afterSave then (s.crash, .crashed) else (s.emit behind, .goOn)

/-- `recordSent(entry, messageId)`, where the sender is there and is not the receiver. -/
def recordSent (firing : Firing) (messageId : Option JsString) : List ScheduledOutcome :=
  if firing.liveSender.isSome ∧ entry.senderAgentId ≠ entry.receiverAgentId then
    [.recordedSent entry.ref messageId]
  else []

/-- The body of the loop in `tick`. -/
def fireEntry (now : ℤ) (entry : ScheduledMessageEntry)
    (firing : Firing) : ScheduledMessages × FireEnd :=
  if firing.crash = some .beforeEnqueue then (s.crash, .crashed)
  else
    match fireVerdict now entry firing.result with
    | .delivered messageId =>
      (s.emit [.enqueued entry.ref (deliveryOf entry firing.liveSender)]).settle entry firing []
        (recordSent entry firing messageId)
    | .drop notice =>
      s.settle entry firing [.dropped entry] [.notified entry.ref entry.senderAgentId notice]
    | .retry => if firing.crash.isSome then (s.crash, .crashed) else (s, .blocked)

/-- The loop in `tick`. -/
def fireDue (now : ℤ) (firings : ScheduledMessageEntry → Firing) :
    List ScheduledMessageEntry → List AgentId → ScheduledMessages → ScheduledMessages
  | [], _, s => s
  | entry :: due, blockedReceivers, s =>
    if entry.receiverAgentId ∈ blockedReceivers then fireDue now firings due blockedReceivers s
    else
      match s.fireEntry now entry (firings entry) with
      | (s, .goOn) => fireDue now firings due blockedReceivers s
      | (s, .blocked) => fireDue now firings due (entry.receiverAgentId :: blockedReceivers) s
      | (s, .crashed) => s

/-- `a` fires before `b`, or they are due and were scheduled at the same time. -/
def firesFirst (a b : ScheduledMessageEntry) : Bool :=
  a.deliverAt < b.deliverAt || (a.deliverAt == b.deliverAt && a.createdAt ≤ b.createdAt)

/-- `tick()`. -/
def tick (now : ℤ) (firings : ScheduledMessageEntry → Firing) : ScheduledMessages :=
  fireDue now firings ((s.entries.filter fun e => e.deliverAt ≤ now).mergeSort firesFirst) [] s

end ScheduledMessages

/-! ## Runs -/

/-- The operations, and a crash between two of them. -/
inductive ScheduledEvent where
  | schedule (call : ScheduledMessages.ScheduleCall)
  | cancel (senderAgentId : AgentId) (scheduledId : JsString) (saveFails crashes : Bool)
  | tick (now : ℤ) (firings : ScheduledMessageEntry → ScheduledMessages.Firing)
  | crash

namespace ScheduledMessages

def step (s : ScheduledMessages) : ScheduledEvent → ScheduledMessages
  | .schedule call => s.schedule call
  | .cancel senderAgentId scheduledId saveFails crashes =>
    s.cancel senderAgentId scheduledId saveFails crashes
  | .tick now firings => s.tick now firings
  | .crash => s.crash

def run (s : ScheduledMessages) (events : List ScheduledEvent) : ScheduledMessages :=
  Machine.run step s events

end ScheduledMessages

end Isomux
