import Isomux.Asks.EntryChecks
import Isomux.Foundations.AllOrNothing
import Mathlib.Algebra.Order.Ring.Unbundled.Rat

set_option autoImplicit false

/-!
# The store of asks

The store keeps the open asks in memory and in a file. Every operation writes the file first and
changes memory after. A write goes to a file beside it that is then renamed, and may fail at each of
its steps.

The value that is read from the file is what came back of the entries that were written. The
operations are called with the time, with the ids that are drawn and with how the write goes. Ids are
drawn until one is free; when no draw is, the operation has not come back yet. What the history and
the listeners are told is left out: no failure of theirs reaches the store.

## Main definitions

* `Isomux.AskStore` — the store and its disk.
* `Isomux.AskStore.create`, `Isomux.AskStore.edit` and so on — the operations.
* `Isomux.AskStore.load` — a start of the store.
* `Isomux.AsksRun.step` — one call or one start.
-/

namespace Isomux

open JsValue (ofList isArrayOf)

/-- The asks of one agent that may be open. -/
def ASK_MAX_OPEN_PER_AGENT : ℕ := 500

/-- The asks with an alarm that one source may hold. -/
def ASK_PAGES_MAX_OPEN_PER_SOURCE : ℕ := 50

/-! ## Memory and disk -/

/-- What the file beside the file of asks holds. -/
inductive AskTempFile where
  | absent
  | cut
  | whole (entries : List AskEntry)

/-- The file, by the entries that were written to it, and the file beside it. -/
structure AsksDisk where
  file : Option (List AskEntry)
  temp : AskTempFile

structure AskStore where
  entries : List AskEntry
  available : Bool
  disk : AsksDisk

inductive WriteFault where
  | mkdir
  | write
  | rename
  deriving DecidableEq

/-- Why an operation throws, or that it draws ids. -/
inductive AskError where
  | unavailable
  | notValid
  | notSaved
  | drawing
  deriving DecidableEq

abbrev AskM := EStateM AskError AskStore

namespace AskStore

def atomicWriteFileSync (fault : Option WriteFault) (next : List AskEntry) : AskM Unit :=
  if fault = some .mkdir then throw .notSaved
  else if fault = some .write then do
    modify fun s => { s with disk := { s.disk with temp := .cut } }
    throw .notSaved
  else do
    modify fun s => { s with disk := { s.disk with temp := .whole next } }
    if fault = some .rename then throw .notSaved
    else modify fun s => { s with disk := { file := some next, temp := .absent } }

/-- `commit`: the file first, and memory after. -/
def commit (fault : Option WriteFault) (next : List AskEntry) : AskM Unit := do
  atomicWriteFileSync fault next
  modify fun s => { s with entries := next }

def check : AskM Unit := do
  let s ← get
  if s.available then pure () else throw .unavailable

def withEntries {α : Type} (body : List AskEntry → AskM α) : AskM α := do
  check
  let s ← get
  body s.entries

end AskStore

/-! ## Ids -/

inductive HistoryAnswer where
  | free
  | held
  | silent
  deriving DecidableEq

/-- Bytes that are drawn for an id, and what the history says of it. -/
structure IdDraw (byteLength : ℕ) where
  bytes : List UInt8
  length_bytes : bytes.length = byteLength
  history : HistoryAnswer

def idDigit (n : ℕ) : CodeUnit := (js "0123456789abcdef").getD n 0

/-- `generateHexId`, of the bytes that were drawn. -/
def IdDraw.id {byteLength : ℕ} (d : IdDraw byteLength) : JsString :=
  d.bytes.flatMap fun b => [idDigit (b.toNat / 16), idDigit (b.toNat % 16)]

/-- `freshId` and `freshPageId`: the first draw that nothing holds, and the draws behind it. A history
that cannot answer is passed over. -/
def freshFrom {byteLength : ℕ} (held : List JsString) :
    List (IdDraw byteLength) → Option (JsString × List (IdDraw byteLength))
  | [] => none
  | d :: draws =>
    if d.id ∈ held then freshFrom held draws
    else if d.history = .held then freshFrom held draws
    else some (d.id, draws)

variable (entries : List AskEntry)

def heldPageIds : List JsString :=
  entries.filterMap fun e => e.page.bind (·.pageId)

/-- What an operation meets outside the store. -/
structure AskEnv where
  now : JsDouble
  ids : List (IdDraw 4)
  pageIds : List (IdDraw 8)
  fault : Option WriteFault

/-! ## Sources -/

/-- `AskPageSource`: who opened an ask with an alarm. -/
inductive AskPageSource where
  | agent (agentId : JsString)
  | app (name : JsString) (createdAt : JsDouble)
  | office (feature memberUserId : JsString)

def askPageSource (agentId : JsString) (app : Option AskApp) (office : Option AskOfficeSource)
    (memberUserId : Option JsString) : AskPageSource :=
  match app with
  | some app => .app app.name app.createdAt
  | none =>
    match office with
    | some office => .office office.feature (memberUserId.getD [])
    | none => .agent agentId

def AskEntry.source (e : AskEntry) : AskPageSource :=
  askPageSource e.agentId e.app e.office e.memberUserId

def samePageSource : AskPageSource → AskPageSource → Bool
  | .agent agentId, .agent agentId' => agentId = agentId'
  | .app name createdAt, .app name' createdAt' => name = name' && createdAt.strictEq createdAt'
  | .office feature memberUserId, .office feature' memberUserId' =>
    feature = feature' && memberUserId = memberUserId'
  | _, _ => false

/-! ## A new ask -/

structure AskAffordances where
  commands : Option (List JsString)
  editFiles : Option (List FilePayload)
  readFiles : Option (List AskReadFile)

structure NewPage where
  recipients : List JsString
  key : Option JsString

/-- Who acked a page that is moved into the store, and when. -/
structure MigratedAck where
  byUserId : JsString
  ackedAt : JsDouble

/-- What is known of a page that is moved into the store. -/
structure MigratedPage where
  pageId : JsString
  createdAt : JsDouble
  raiseCount : JsDouble
  lastRaisedAt : JsDouble
  delivery : PagerDelivery
  acked : Option MigratedAck

structure NewAsk where
  agentId : JsString
  memberUserId : Option JsString
  otherMemberUserIds : Option (List JsString)
  room : Bool
  prompt : JsString
  secret : Option SecretAskRequest
  «sudo» : Option SudoAskRequest
  link : Option JsString
  options : Option (List JsString)
  recommended : Option JsString
  priority : Option TaskPriority
  affordances : AskAffordances
  sessionId : Option JsString
  step : Option TaggedFields
  app : Option AskApp
  messaging : Option AskMessaging
  page : Option NewPage
  office : Option AskOfficeSource
  migrated : Option MigratedPage

def NewAsk.source (n : NewAsk) : AskPageSource :=
  askPageSource n.agentId n.app n.office n.memberUserId

/-- The sends of a page before the first one. -/
def PagerDelivery.initial : PagerDelivery where
  state := .notDelivered
  sends := .finite 0
  lastAttemptAt := none
  lastFailure := none
  resolvedNotice := none

def newAskPage (page : NewPage) (migrated : Option MigratedPage) (pageId : JsString) : AskPage where
  state := if (migrated.bind (·.acked)).isSome then .acked else .ringing
  ackedByUserId := (migrated.bind (·.acked)).map (·.byUserId)
  ackedAt := (migrated.bind (·.acked)).map (·.ackedAt)
  pageId := some pageId
  key := page.key
  raiseCount := migrated.map (·.raiseCount)
  lastRaisedAt := migrated.map (·.lastRaisedAt)
  delivery := page.recipients.foldl (fun delivery userId =>
    JsMap.set delivery userId ((migrated.map (·.delivery)).getD .initial)) []

/-- The alarm of a new ask, if it has one, with the id it brings or a free one. -/
def NewAsk.drawPage (n : NewAsk) (entries : List AskEntry) (pageIds : List (IdDraw 8)) :
    Option (Option AskPage) :=
  match n.page with
  | none => some none
  | some page =>
    match n.migrated with
    | some migrated => some (some (newAskPage page (some migrated) migrated.pageId))
    | none =>
      (freshFrom (heldPageIds entries) pageIds).map fun drawn => some (newAskPage page none drawn.1)

def listOrNone {α : Type} (list : List α) : Option (List α) := if list.isEmpty then none else some list

def NewAsk.entry (n : NewAsk) (id : JsString) (createdAt : JsDouble) (page : Option AskPage) : AskEntry where
  id := id
  agentId := n.agentId
  memberUserId := n.memberUserId
  otherMemberUserIds := n.otherMemberUserIds.bind listOrNone
  room := n.room
  prompt := n.prompt
  createdAt := createdAt
  updatedAt := createdAt
  secret := n.secret
  «sudo» := n.sudo
  link := n.link
  options := n.options
  recommended := n.recommended
  priority := n.priority
  commands := n.affordances.commands
  editFiles := n.affordances.editFiles
  readFiles := n.affordances.readFiles
  runs := none
  sessionId := n.sessionId.bind listOrNone
  step := n.step
  app := n.app
  simplifyRequestedAt := none
  originalPrompt := none
  messaging := n.messaging
  page := page
  office := n.office

/-- What `create` gives back. -/
inductive AskCreated where
  | created (entry : AskEntry)
  | tooMany
  | tooManyPages

def openAsks (agentId : JsString) : List AskEntry :=
  entries.filter fun e => agentId ≠ [] && e.agentId = agentId

def heldPages (source : AskPageSource) : List AskEntry :=
  entries.filter fun e => e.page.isSome && samePageSource e.source source

namespace AskStore

def create (env : AskEnv) (n : NewAsk) : AskM AskCreated :=
  withEntries fun entries =>
    if n.migrated.isNone ∧ ASK_MAX_OPEN_PER_AGENT ≤ (openAsks entries n.agentId).length then
      pure .tooMany
    else if n.page.isSome ∧ n.migrated.isNone ∧
        ASK_PAGES_MAX_OPEN_PER_SOURCE ≤ (heldPages entries n.source).length then
      pure .tooManyPages
    else
      match freshFrom (entries.map (·.id)) env.ids, n.drawPage entries env.pageIds with
      | some (id, _), some page =>
        let createdAt := (n.migrated.map (·.createdAt)).getD env.now
        let entry := n.entry id createdAt page
        if isAskEntry entry.toJs then do
          commit env.fault (entries ++ [entry])
          pure (.created entry)
        else throw .notValid
      | _, _ => throw .drawing

/-! ## Operations on one ask -/

def replaced (id : JsString) (entry : AskEntry) : List AskEntry :=
  entries.map fun e => if e.id = id then entry else e

/-- Replaces an entry by one that was made of it. -/
def replace (env : AskEnv) (entries : List AskEntry) (id : JsString) (entry : AskEntry) :
    AskM (Option AskEntry) := do
  commit env.fault (replaced entries id entry)
  pure (some entry)

/-- Replaces an entry by one that was made of it, if that is an ask. -/
def replaceChecked (env : AskEnv) (entries : List AskEntry) (id : JsString) (entry : AskEntry) :
    AskM (Option AskEntry) :=
  if isAskEntry entry.toJs then replace env entries id entry else throw .notValid

/-- An operation on the open entry with an id. -/
def withEntry (id : JsString) (body : List AskEntry → AskEntry → AskM (Option AskEntry)) :
    AskM (Option AskEntry) :=
  withEntries fun entries =>
    match entries.find? fun e => e.id = id with
    | none => pure none
    | some prev => body entries prev

end AskStore

/-- What an edit changes: nothing, `null` or a value. -/
structure AskEdit where
  prompt : JsString
  link : Option (Option JsString)
  options : Option (Option (List JsString))
  commands : Option (Option (List JsString))
  editFiles : Option (Option (List FilePayload))
  readFiles : Option (Option (List AskReadFile))
  recommended : Option (Option JsString)
  priority : Option (Option TaskPriority)

def afterEdit {α : Type} (edit : Option (Option α)) (value : Option α) : Option α := edit.getD value

/-- The edit rewrites a prompt that a member wants simpler. -/
def AskEdit.rewrites (edit : AskEdit) (prev : AskEntry) : Bool :=
  prev.simplifyRequestedAt.isSome && edit.prompt ≠ prev.prompt

/-- The entry that an edit makes. A run goes with its command, and the mark goes with the options. -/
def AskEdit.entry (edit : AskEdit) (prev : AskEntry) (now : JsDouble) : AskEntry :=
  let commands := afterEdit edit.commands prev.commands
  { prev with
    prompt := edit.prompt
    updatedAt := now
    simplifyRequestedAt := if edit.rewrites prev then none else prev.simplifyRequestedAt
    originalPrompt :=
      if edit.rewrites prev then some (prev.originalPrompt.getD prev.prompt) else prev.originalPrompt
    link := afterEdit edit.link prev.link
    options := afterEdit edit.options prev.options
    recommended :=
      if edit.recommended = some none ∨ edit.options = some none then none
      else afterEdit edit.recommended prev.recommended
    priority := afterEdit edit.priority prev.priority
    commands := commands
    runs := prev.runs.bind fun runs =>
      listOrNone (runs.filter fun r => (commands.getD []).contains r.command)
    editFiles := afterEdit edit.editFiles prev.editFiles
    readFiles := afterEdit edit.readFiles prev.readFiles }

def AskCommandRun.lost (r : AskCommandRun) : AskCommandRun :=
  if r.state = .running then { r with state := .lost } else r

def AskEntry.isRunning (e : AskEntry) : Bool :=
  (e.runs.getD []).any fun r => r.state = .running

def AskEntry.lostRuns (e : AskEntry) : AskEntry :=
  if e.isRunning then { e with runs := e.runs.map (·.map AskCommandRun.lost) } else e

def AskPage.reraised (page : AskPage) (now : JsDouble) : AskPage :=
  { page with
    raiseCount := some (page.raiseCount.getD (.finite 1)).succ
    lastRaisedAt := some now }

def AskPage.acked (page : AskPage) (byUserId : JsString) (now : JsDouble) : AskPage :=
  { page with
    state := .acked
    ackedByUserId := some byUserId
    ackedAt := some now }

/-- What is left of an entry when its agent goes: the page of an app, without an agent. -/
def AskEntry.orphan (e : AskEntry) : Option AskEntry :=
  if e.app.isNone || e.page.isNone then none
  else
    let orphan := { e with sessionId := none, agentId := [] }
    if isAskEntry orphan.toJs then some orphan else none

namespace AskStore

variable (env : AskEnv)

def edit (id : JsString) (change : AskEdit) : AskM (Option AskEntry) :=
  withEntry id fun entries prev => replaceChecked env entries id (change.entry prev env.now)

def requestSimplify (id : JsString) : AskM (Option AskEntry) :=
  withEntry id fun entries prev =>
    replace env entries id { prev with simplifyRequestedAt := some env.now, updatedAt := env.now }

def cancelSimplify (id : JsString) : AskM (Option AskEntry) :=
  withEntry id fun entries prev =>
    if prev.simplifyRequestedAt = none then pure none
    else replace env entries id { prev with simplifyRequestedAt := none, updatedAt := env.now }

def setRun (id command : JsString) (run : Option AskCommandRun) : AskM (Option AskEntry) :=
  withEntry id fun entries prev =>
    if (prev.commands.getD []).contains command then
      let others := (prev.runs.getD []).filter fun r => r.command ≠ command
      let runs := others ++ (run.map fun r => { r with command := command }).toList
      replaceChecked env entries id { prev with runs := listOrNone runs }
    else pure none

/-- `markLostRuns`, which gives back the entries it changed. -/
def markLostRuns : AskM (List AskEntry) :=
  withEntries fun entries =>
    if entries.any (·.isRunning) then do
      commit env.fault (entries.map (·.lostRuns))
      pure ((entries.filter (·.isRunning)).map (·.lostRuns))
    else pure []

def reraise (id prompt : JsString) : AskM (Option AskEntry) :=
  withEntry id fun entries prev =>
    match prev.page with
    | none => pure none
    | some page =>
      let page := page.reraised env.now
      if prev.prompt = prompt then replace env entries id { prev with page := some page }
      else
        replace env entries id
          { prev with
            prompt := prompt
            updatedAt := env.now
            page := some page }

def ack (id byUserId : JsString) : AskM (Option AskEntry) :=
  withEntry id fun entries prev =>
    match prev.page with
    | none => pure none
    | some page =>
      if page.state = .acked then pure (some prev)
      else replace env entries id { prev with page := some (page.acked byUserId env.now) }

def recordPageDelivery (id userId : JsString) (delivery : PagerDelivery) : AskM (Option AskEntry) :=
  withEntry id fun entries prev =>
    match prev.page with
    | none => pure none
    | some page =>
      if JsMap.has page.delivery userId then
        replace env entries id
          { prev with
            page := some { page with delivery := JsMap.set page.delivery userId delivery } }
      else pure none

def remove (id : JsString) : AskM (Option AskEntry) :=
  withEntry id fun entries prev => do
    commit env.fault (entries.filter fun e => e.id ≠ id)
    pure (some prev)

/-! ## Operations on many asks -/

/-- The pages that stay when an agent goes, by the id of their ask. -/
def keptPages (theirs : List AskEntry) : JsMap JsString AskEntry :=
  theirs.foldl (fun kept e =>
    match e.orphan with
    | some orphan => JsMap.set kept e.id orphan
    | none => kept) []

/-- `removeAgent`, which gives back how many asks went. -/
def removeAgent (agentId : JsString) : AskM ℕ :=
  withEntries fun entries =>
    let theirs := entries.filter fun e => e.agentId = agentId
    if theirs.isEmpty then pure 0
    else do
      let kept := keptPages theirs
      commit env.fault (entries.filterMap fun e =>
        if e.agentId ≠ agentId then some e else JsMap.get kept e.id)
      pure (theirs.filter fun e => !JsMap.has kept e.id).length

/-- The entries in which every page has an id. Each id that is drawn is held before the next is. -/
def withPageIds (done : List AskEntry) :
    List AskEntry → List (IdDraw 8) → Option (List AskEntry)
  | [], _ => some done
  | e :: rest, draws =>
    match e.page with
    | none => withPageIds (done ++ [e]) rest draws
    | some page =>
      if page.pageId = none then
        match freshFrom (heldPageIds (done ++ e :: rest)) draws with
        | none => none
        | some (pageId, draws) =>
          withPageIds (done ++ [{ e with page := some { page with pageId := some pageId } }]) rest
            draws
      else withPageIds (done ++ [e]) rest draws

def backfillPages : AskM Unit :=
  withEntries fun entries =>
    if entries.any fun e => e.page.any fun page => page.pageId.isNone then
      match withPageIds [] entries env.pageIds with
      | none => throw .drawing
      | some next => commit env.fault next
    else pure ()

/-! ## Starts -/

inductive AskLoadResult where
  | missing
  | data (entries : List AskEntry)
  | corrupt
  | unreadable

/-- `load` of the persistence. -/
def readFile (disk : AsksDisk) (readable : Bool) : AskLoadResult :=
  if readable then
    match disk.file with
    | none => .missing
    | some entries => .data entries
  else .unreadable

/-- The value that is read where some entries were written: `JSON.parse(JSON.stringify(entries))`. -/
def valueOfFile : JsValue := (ofList AskEntry.toJs entries).roundTrip

/-- A file is read whose value is an array of asks. -/
def accepted : Bool := isArrayOf isAskEntry (valueOfFile entries)

/-- The store after a file was put aside, if it was. -/
def quarantined (disk : AsksDisk) (moved : Bool) : AskStore where
  entries := []
  available := moved
  disk := if moved then { disk with file := none } else disk

/-- `createAskStore`: a start on what is on the disk. -/
def load (disk : AsksDisk) (readable moved : Bool) : AskStore :=
  match readFile disk readable with
  | .missing => { entries := [], available := true, disk := disk }
  | .unreadable => { entries := [], available := false, disk := disk }
  | .corrupt => quarantined disk moved
  | .data entries =>
    if accepted entries then { entries := entries, available := true, disk := disk }
    else quarantined disk moved

/-- A store without asks on a disk without a file. -/
def empty : AskStore where
  entries := []
  available := true
  disk := { file := none, temp := .absent }

end AskStore

/-! ## Runs -/

inductive AskOp where
  | create (n : NewAsk)
  | edit (id : JsString) (change : AskEdit)
  | requestSimplify (id : JsString)
  | cancelSimplify (id : JsString)
  | setRun (id command : JsString) (run : Option AskCommandRun)
  | markLostRuns
  | reraise (id prompt : JsString)
  | ack (id byUserId : JsString)
  | recordPageDelivery (id userId : JsString) (delivery : PagerDelivery)
  | remove (id : JsString)
  | removeAgent (agentId : JsString)
  | backfillPages

/-- A call of an operation, without its answer. -/
def AskOp.call (env : AskEnv) : AskOp → AskM Unit
  | .create n => AskStore.create env n >>= fun _ => pure ()
  | .edit id change => AskStore.edit env id change >>= fun _ => pure ()
  | .requestSimplify id => AskStore.requestSimplify env id >>= fun _ => pure ()
  | .cancelSimplify id => AskStore.cancelSimplify env id >>= fun _ => pure ()
  | .setRun id command run => AskStore.setRun env id command run >>= fun _ => pure ()
  | .markLostRuns => AskStore.markLostRuns env >>= fun _ => pure ()
  | .reraise id prompt => AskStore.reraise env id prompt >>= fun _ => pure ()
  | .ack id byUserId => AskStore.ack env id byUserId >>= fun _ => pure ()
  | .recordPageDelivery id userId delivery =>
    AskStore.recordPageDelivery env id userId delivery >>= fun _ => pure ()
  | .remove id => AskStore.remove env id >>= fun _ => pure ()
  | .removeAgent agentId => AskStore.removeAgent env agentId >>= fun _ => pure ()
  | .backfillPages => AskStore.backfillPages env

def NewAsk.isFinite (n : NewAsk) : Bool :=
  n.secret.all SecretAskRequest.isFinite && n.app.all AskApp.isFinite &&
    n.affordances.readFiles.all (·.all AskReadFile.isFinite) &&
    n.migrated.all fun m => m.createdAt.isFinite && m.raiseCount.isFinite &&
      m.lastRaisedAt.isFinite && m.delivery.isFinite && m.acked.all (·.ackedAt.isFinite)

/-- The numbers that an operation is called with are finite. -/
def AskOp.isFinite : AskOp → Bool
  | .create n => n.isFinite
  | .edit _ change => change.readFiles.all (·.all (·.all AskReadFile.isFinite))
  | .setRun _ _ run => run.all AskCommandRun.isFinite
  | .recordPageDelivery _ _ delivery => delivery.isFinite
  | _ => true

/-- An operation creates an ask out of a page that is moved into the store. -/
def AskOp.isMigration : AskOp → Bool
  | .create n => n.migrated.isSome
  | _ => false

/-- What happens to the store: a call, or a start, which may find the file unreadable and may fail to
put it aside. -/
inductive AsksEvent where
  | call (env : AskEnv) (op : AskOp)
  | start (readable moved : Bool)

/-- The numbers that the store gets are finite. -/
def AsksEvent.isFinite : AsksEvent → Bool
  | .call env op => env.now.isFinite && op.isFinite
  | .start _ _ => true

/-- The store, and the ids of the asks that were moved into it. -/
structure AsksRun where
  store : AskStore
  migrated : List JsString

namespace AsksRun

def initial : AsksRun where
  store := .empty
  migrated := []

/-- The ids that an operation brought into the store. -/
def broughtIn (before after : List AskEntry) : List JsString :=
  (after.map (·.id)).filter fun id => id ∉ before.map (·.id)

/-- The ids of the asks that were moved into the store, behind a call. -/
def marks (migrated : List JsString) (op : AskOp) (ids : List JsString) : List JsString :=
  if op.isMigration then ids ++ migrated else migrated.filter (· ∉ ids)

def step (r : AsksRun) : AsksEvent → AsksRun
  | .call env op =>
    let store := AllOrNothing.after (op.call env) r.store
    { store := store
      migrated := marks r.migrated op (broughtIn r.store.entries store.entries) }
  | .start readable moved => { r with store := AskStore.load r.store.disk readable moved }

/-- An ask of the store was not moved into it. -/
def isOwn (r : AsksRun) (e : AskEntry) : Bool := e.id ∉ r.migrated

end AsksRun

end Isomux
