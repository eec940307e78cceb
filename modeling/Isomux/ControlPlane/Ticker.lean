import Isomux.ControlPlane.OperationStore
import Isomux.Runtime.Json

set_option autoImplicit false

/-!
# Tickers

A ticker leases an operation that is due, proves that the lease is long enough for the remote work
of its handler, lets the handler act, and records what came of it. Several tickers do so on one
database, each in its own process and under its own name. A handler may do anything between its
remote calls: it may run for any time, write to its operation, and conclude as it likes.

A run is a list of events. A statement of a ticker is made with a clock that was read some time
before, its `lag`. A remote call ends within the time that its budget gave it: the clock goes no
further while it is open.

The statements on attention and on instances are given by the audit rows they append, or by what
they throw. Evidence of an operation is an object.

## Main definitions

* `Isomux.Ticker.RemoteBudget` — the time that is left for remote work.
* `Isomux.Ticker.resultPatch` — what a result changes of its operation.
* `Isomux.Ticker.finishBody` — the transaction that records a result.
* `Isomux.Ticker.step` — what an event does to the tickers and the database.
-/

namespace Isomux.Ticker

open ControlStore

/-! ## Operations -/

inductive Goal where
  | firstContact
  | installed
  | live
  | handedOff
  deriving DecidableEq

structure Deadlines where
  inactivityMs : ℤ
  absoluteMs : ℤ
  maxRemoteMs : ℤ

def MINUTE : ℤ := 60000

def DEADLINES : OperationKind → Deadlines
  | .createInstance => ⟨15 * MINUTE, 15 * MINUTE, 60000⟩
  | .waitForAddress => ⟨15 * MINUTE, 30 * MINUTE, 30000⟩
  | .waitForSsh => ⟨15 * MINUTE, 15 * MINUTE, 30000⟩
  | .waitForPackageManager => ⟨5 * MINUTE, 15 * MINUTE, 30000⟩
  | .firstContact => ⟨3 * MINUTE, 3 * MINUTE, 90000⟩
  | .installCustomerKey => ⟨3 * MINUTE, 3 * MINUTE, 60000⟩
  | .armRevocation => ⟨3 * MINUTE, 3 * MINUTE, 150000⟩
  | .setDns => ⟨5 * MINUTE, 30 * MINUTE, 60000⟩
  | .runInstaller => ⟨8 * MINUTE, 40 * MINUTE, 120000⟩
  | .verifyHttps => ⟨10 * MINUTE, 20 * MINUTE, 40000⟩
  | .mintInvite => ⟨3 * MINUTE, 3 * MINUTE, 60000⟩
  | .revokeAccess => ⟨5 * MINUTE, 10 * MINUTE, 120000⟩
  | .powerOff => ⟨5 * MINUTE, 30 * MINUTE, 60000⟩
  | .reboot => ⟨5 * MINUTE, 30 * MINUTE, 60000⟩
  | .powerOn => ⟨5 * MINUTE, 30 * MINUTE, 60000⟩
  | .expireCheckout => ⟨5 * MINUTE, 30 * MINUTE, 30000⟩
  | .cancelAsset => ⟨5 * MINUTE, 60 * MINUTE, 60000⟩
  | .removeDns => ⟨5 * MINUTE, 60 * MINUTE, 60000⟩

def operationKinds : List OperationKind :=
  [.createInstance, .waitForAddress, .waitForSsh, .waitForPackageManager, .firstContact,
    .installCustomerKey, .armRevocation, .setDns, .runInstaller, .verifyHttps, .mintInvite,
    .revokeAccess, .powerOff, .reboot, .powerOn, .expireCheckout, .cancelAsset, .removeDns]

def kindOf (name : JsString) : Option OperationKind := operationKinds.find? (·.name = name)

def deadlinesFor (kind : JsString) : Except Failure Deadlines :=
  match kindOf kind with
  | some k => .ok (DEADLINES k)
  | none => .error (.error (js "no handler and no deadlines for operation kind \"" ++ kind ++
      js "\"; this slice does not drive it, and enqueueing it would look like work that never " ++
      js "runs"))

def nextKind : OperationKind → Goal → Option OperationKind
  | .createInstance, _ => some .waitForAddress
  | .waitForAddress, _ => some .waitForSsh
  | .waitForSsh, _ => some .firstContact
  | .firstContact, _ => some .installCustomerKey
  | .installCustomerKey, _ => some .armRevocation
  | .armRevocation, goal => if goal = .firstContact then none else some .waitForPackageManager
  | .waitForPackageManager, _ => some .setDns
  | .setDns, _ => some .runInstaller
  | .runInstaller, goal => if goal = .installed then none else some .verifyHttps
  | .verifyHttps, goal => if goal = .handedOff then some .mintInvite else none
  | .mintInvite, goal => if goal = .handedOff then some .revokeAccess else none
  | .revokeAccess, _ => none
  | .powerOff, _ => none
  | .reboot, _ => none
  | .powerOn, _ => none
  | .expireCheckout, _ => none
  | .cancelAsset, _ => none
  | .removeDns, _ => none

/-- The wait behind the first failed attempt. -/
def BACKOFF_BASE_MS : ℤ := 5000

def BACKOFF_CAP_MS : ℤ := 300000

def backoffMs (attempt : ℕ) : ℤ := min (BACKOFF_BASE_MS * 2 ^ attempt) BACKOFF_CAP_MS

def newOperationId (kind : JsString) (seq : ℕ) : JsString :=
  js "op-" ++ kind ++ js "-" ++ decimalDigits seq

/-! ## Remote work -/

def LEASE_MS : ℤ := 300000

/-- What is kept between the end of remote work and the end of the lease. -/
def LEASE_SAFETY_MS : ℤ := 60000

/-- The wait before the next step of an operation that goes on. -/
def HANDLER_STEP_RETRY_MS : ℤ := 5000

def MAX_OPS_PER_TICK : ℕ := 8

/-- What is left of the time for remote work. -/
structure RemoteBudget where
  deadlineAt : ℤ
  leaseUntil : ℤ
  deriving DecidableEq

def RemoteBudget.remaining (budget : RemoteBudget) (now : ℤ) : ℤ :=
  min budget.deadlineAt (budget.leaseUntil - LEASE_SAFETY_MS) - now

inductive Thrown where
  /-- A call that was killed, or one that was not begun for want of time. -/
  | remoteTimeout (message : JsString)
  | ambiguousRemote (message : JsString)
  | other (message : JsString)

/-- The timeout of a remote call that begins at an instant. -/
def RemoteBudget.claim (budget : RemoteBudget) (what : JsString) (now : ℤ) : Except Thrown ℤ :=
  if budget.remaining now ≤ 0 then
    .error (.remoteTimeout (js "refusing to start " ++ what ++
      js ": no remote budget left within this lease"))
  else .ok (budget.remaining now)

structure Handler where
  timeoutIsRetryable : Bool

inductive HandlerResult where
  | done (evidence : Option Json)
  | progress (evidence : Json)
  | waiting (evidence : Option Json)
  | retry (reason : JsString) (evidence : Option Json)
  | ambiguous (reason : JsString) (evidence : Option Json)
  | fatal (reason : JsString) (evidence : Option Json)

def HandlerResult.evidence : HandlerResult → Option Json
  | done evidence => evidence
  | progress evidence => some evidence
  | waiting evidence => evidence
  | retry _ evidence => evidence
  | ambiguous _ evidence => evidence
  | fatal _ evidence => evidence

def HandlerResult.terminal : HandlerResult → Bool
  | done _ => true
  | fatal _ _ => true
  | _ => false

def HandlerResult.failed : HandlerResult → Bool
  | retry _ _ => true
  | ambiguous _ _ => true
  | fatal _ _ => true
  | _ => false

/-- What a throw out of a handler comes to. -/
def classifyThrow (err : Thrown) (handler : Handler) : HandlerResult :=
  match err with
  | .remoteTimeout message =>
    if handler.timeoutIsRetryable then .retry (js "remote timeout: " ++ message) none
    else .ambiguous (js "remote timeout: " ++ message) none
  | .ambiguousRemote message => .ambiguous message none
  | .other message => .retry message none

/-! ## Recording a result -/

/-- `JSON.stringify(evidence ?? {})`. -/
def stringifyEvidence : Json → JsString
  | .null => js "\x7b\x7d"
  | evidence => evidence.text

def members : Json → List (JsString × Json)
  | .object fields => fields
  | _ => []

/-- `{ ...evidence, failure }`. -/
def withFailure (evidence failure : Json) : Json :=
  let fields := members evidence
  if fields.any (·.1 = js "failure") then
    .object (fields.map fun field => if field.1 = js "failure" then (field.1, failure) else field)
  else .object (fields ++ [(js "failure", failure)])

/-- `ownFailure ?? failure`. -/
def ownFailureOr (ownFailure : Option Json) (failure : Json) : Json :=
  match ownFailure with
  | none => failure
  | some .null => failure
  | some own => own

/-- What a result changes of its operation, but for the failure that the handler noted. -/
def resultPatch (d : Deadlines) (op : ControlStore.OperationRow) (result : HandlerResult) (now : ℤ) :
    OperationPatch :=
  let patch : OperationPatch :=
    { leaseUntil := some none, leaseHolder := some none
      evidence := result.evidence.map stringifyEvidence
      evidenceAt := result.evidence.map fun _ => now }
  match result with
  | .done _ =>
    { patch with
      status := some .succeeded, inactivityFlagged := some 0, absoluteFlagged := some 0 }
  | .progress _ =>
    { patch with
      inactivityDeadlineAt := some (now + d.inactivityMs)
      nextAttemptAt := some (now + HANDLER_STEP_RETRY_MS), inactivityFlagged := some 0 }
  | .waiting _ => { patch with nextAttemptAt := some (now + HANDLER_STEP_RETRY_MS) }
  | .retry _ _ =>
    { patch with
      attempt := some (op.attempt + 1), nextAttemptAt := some (now + backoffMs op.attempt) }
  | .ambiguous _ _ =>
    { patch with
      status := some .ambiguous, attempt := some (op.attempt + 1)
      nextAttemptAt := some (now + backoffMs op.attempt) }
  | .fatal _ _ => { patch with status := some .failed }

variable (op : ControlStore.OperationRow)

/-- The patch with the failure that the handler noted, if the attempt failed. -/
def withNotedFailure (result : HandlerResult)
    (failure : Option Json) (current : Option ControlStore.OperationRow) (now : ℤ)
    (patch : OperationPatch) : Except Failure OperationPatch :=
  match failure with
  | none => .ok patch
  | some failure =>
    if result.failed then
      let stored := Json.parse ((current.map (·.evidence)).getD op.evidence)
      let base := match result.evidence with
        | none => stored
        | some .null => stored
        | some evidence => some evidence
      match base with
      | none => .error (.error (js "Unexpected token in JSON"))
      | some evidence =>
        let ownFailure := result.evidence.bind fun evidence => evidence.field "failure"
        .ok { patch with
          evidence := some (stringifyEvidence (withFailure evidence
            (ownFailureOr ownFailure failure)))
          evidenceAt := some now }
    else .ok patch

/-- What else the transaction of a result does. -/
structure Others where
  attention : Except Failure (List AuditRow)
  service : Except Failure (List AuditRow)
  goal : Option Goal

def appendAudits (db : Database) : List AuditRow → Except Failure Database
  | [] => .ok db
  | row :: rows => do
    let (_, db') ← appendAudit db row
    appendAudits db' rows

/-- A row of the audit about an operation that is concluded. -/
def concludedAudit (outcome : JsString) (detail : Option JsString) (ts : ℤ) : AuditRow :=
  { seq := 0, ts, actor := js "control-plane", instanceId := some op.instanceId, action := op.kind
    target := op.id, outcome, detail }

/-- Open what follows an operation that is done. -/
def enqueueSuccessor (goal : Option Goal) (now clock : ℤ)
    (db : Database) : Except Failure (Option ControlStore.OperationRow × Database) :=
  match (kindOf op.kind).bind fun kind => nextKind kind (goal.getD .live) with
  | none => .ok (none, db)
  | some next => do
    let (seq, db') ← nextAuditSeq db
    let (row, db'') ← enqueue db' (newOperationId next.name seq) op.instanceId next.name none none
      (now + (DEADLINES next).inactivityMs) (now + (DEADLINES next).absoluteMs) none clock
    return (some row, db'')

/-- What the transaction of a result does once the result is written. -/
def finishOthers (result : HandlerResult) (others : Others) (now clock : ℤ) (db : Database) :
    Except Failure (Option ControlStore.OperationRow × Database) := do
  let db₁ ← appendAudits db (← others.attention)
  match result with
  | .done _ => do
    let (_, db₂) ← appendAudit db₁ (concludedAudit op (js "succeeded") none clock)
    let db₃ ← appendAudits db₂ (← others.service)
    enqueueSuccessor op others.goal now clock db₃
  | .fatal reason _ => do
    let (_, db₂) ← appendAudit db₁ (concludedAudit op (js "failed") (some reason) clock)
    return (none, db₂)
  | _ => return (none, db₁)

/-- The transaction of a result from its write on. `current` is the row that was read in it before;
the write is fenced by the version of that row. The row that follows the operation is returned. -/
def finishBody (d : Deadlines) (fence : Fence) (op : ControlStore.OperationRow)
    (result : HandlerResult) (failure : Option Json) (current : Option ControlStore.OperationRow)
    (others : Others) (now clock : ℤ) (db : Database) :
    Except Failure (Option ControlStore.OperationRow × Database) := do
  let patch ← withNotedFailure op result failure current now (resultPatch d op result now)
  let live : Fence := { fence with version := (current.map (·.version)).getD fence.version }
  match ← casOperation db live patch clock with
  | (none, _) => .error (.error (js "lost the fence on " ++ fence.id ++
      js " while recording a result"))
  | (some _, written) => finishOthers op result others now clock written

/-! ## Tickers -/

inductive Phase where
  | idle
  | leased (op : ControlStore.OperationRow)
  | renewed (op renewed : ControlStore.OperationRow)
  | ready (fence : Fence) (op : ControlStore.OperationRow) (leaseUntil : ℤ)
  | acting (fence : Fence) (op : ControlStore.OperationRow) (budget : RemoteBudget)
  | settled (fence : Fence) (op : ControlStore.OperationRow) (result : HandlerResult)
      (failure : Option Json)
  /-- The transaction of the result has read the operation. -/
  | recording (fence : Fence) (op : ControlStore.OperationRow) (result : HandlerResult)
      (failure : Option Json) (current : Option ControlStore.OperationRow)
  | dead

structure TickerState where
  candidates : List ControlStore.OperationRow
  live : List ControlStore.OperationRow
  phase : Phase

structure RemoteCall where
  holder : JsString
  op : JsString
  start : ℤ
  timeout : ℤ
  ended : Option ℤ
  deriving DecidableEq

inductive Act where
  | opened
  | leased (holder : JsString)
  | renewed (holder : JsString)
  | wrote (holder : JsString)
  /-- A result, with the operation that it opened. -/
  | recorded (holder : JsString) (result : HandlerResult) (successor : Option JsString)
  | flagged (which : Deadline)
  | superseded

/-- A line of the history of the operations. -/
structure Entry where
  op : JsString
  act : Act

/-- The database, the tickers under their names, the remote calls and the history so far. -/
structure World where
  clock : ℤ
  db : Database
  tickers : JsString → TickerState
  calls : List RemoteCall
  log : List Entry

def start (clock : ℤ) (auditSequence : Option ℕ) : World :=
  { clock
    db :=
      { operations := .empty, oneActive := List.Pairwise.nil, createIntents := .empty
        auditEvents := .empty, auditSequence }
    tickers := fun _ => { candidates := [], live := [], phase := .idle }
    calls := []
    log := [] }

namespace World

def phase (w : World) (h : JsString) : Phase := (w.tickers h).phase

variable (w : World)

/-- The world with another state of a ticker. -/
def put (h : JsString) (ticker : TickerState) : World :=
  { w with tickers := Function.update w.tickers h ticker }

def move (h : JsString) (phase : Phase) : World := w.put h { w.tickers h with phase }

/-- A tick of a ticker is over: what was left of it goes. -/
def giveUp (h : JsString) : World :=
  w.put h { candidates := [], live := [], phase := .idle }

def note (db : Database) (op : JsString) (act : Act) : World :=
  { w with db, log := w.log ++ [{ op, act }] }

lemma put_self (h : JsString) (ticker : TickerState) :
    (w.put h ticker).tickers h = ticker := Function.update_self ..

lemma put_of_ne {h k : JsString} (ticker : TickerState) (hk : k ≠ h) :
    (w.put h ticker).tickers k = w.tickers k := Function.update_of_ne hk ..

/-! ### Other parts of the control plane -/

def enqueue (w : World) (id instanceId kind : JsString) (status : Option OperationStatus)
    (nextAttemptAt : Option ℤ) (inactivityDeadlineAt absoluteDeadlineAt : ℤ)
    (evidence : Option JsString) : World :=
  match ControlStore.enqueue w.db id instanceId kind status nextAttemptAt inactivityDeadlineAt
      absoluteDeadlineAt evidence w.clock with
  | .ok (_, db) => w.note db id .opened
  | .error _ => w

def supersedeReboot (w : World) (id evidence : JsString) : World :=
  match ControlStore.supersedeReboot w.db id evidence w.clock with
  | .ok (some _, db) => w.note db id .superseded
  | _ => w

/-! ### The operations that are due -/

def due (now : ℤ) (row : ControlStore.OperationRow) : Bool :=
  row.active && decide (row.nextAttemptAt ≤ now) && row.unleased now

/-- The operations that are due, the longest due first. -/
def dueOperations (db : Database) (now : ℤ) (limit : ℕ) : List ControlStore.OperationRow :=
  ((db.operations.rows.filter (due now)).insertionSort
    fun row row' => row.nextAttemptAt ≤ row'.nextAttemptAt).take limit

def readDue (h : JsString) (lag : ℕ) : World :=
  match w.phase h with
  | .idle =>
    w.put h { w.tickers h with
      candidates := dueOperations w.db (w.clock - lag) MAX_OPS_PER_TICK }
  | _ => w

/-- The next operation that is due is leased. The answer may be lost. -/
def lease (h : JsString) (lag : ℕ) (answered : Bool) : World :=
  match w.phase h, (w.tickers h).candidates with
  | .idle, candidate :: rest =>
    let w₁ := w.put h { w.tickers h with candidates := rest }
    match tryLease w.db candidate.id candidate.version h (w.clock - lag + LEASE_MS)
        (w.clock - lag) with
    | .ok (some op, db) =>
      let w₂ := w₁.note db candidate.id (.leased h)
      if answered then w₂.move h (.leased op) else w₂.giveUp h
    | .ok (none, _) => w₁
    | .error _ => w₁.giveUp h
  | _, _ => w

/-! ### The lease is long enough -/

def need (d : Deadlines) : ℤ := d.maxRemoteMs + LEASE_SAFETY_MS

/-- The fence of an operation that is leased. -/
def fenceOf (h : JsString) : Fence :=
  { id := op.id, version := op.version, holder := h }

variable (handlers : JsString → JsString → Option Handler) (w : World)

/-- A lease that is not long enough is renewed; the answer may be lost. Without a handler the
operation fails. -/
def headroom (h : JsString) (lag lagOfRenewal : ℕ) (answered : Bool) : World :=
  match w.phase h with
  | .leased op =>
    match handlers h op.kind with
    | none =>
      w.move h (.settled (fenceOf op h) op
        (.fatal (js "no handler registered for kind " ++ op.kind) none) none)
    | some _ =>
      match deadlinesFor op.kind with
      | .error _ => w.giveUp h
      | .ok d =>
        if need d ≤ op.leaseUntil.getD 0 - (w.clock - lag) then
          w.move h (.ready (fenceOf op h) op (op.leaseUntil.getD 0))
        else
          match renewLease w.db (fenceOf op h) (w.clock - lagOfRenewal + LEASE_MS) w.clock with
          | .ok (some renewed, db) =>
            let w₁ := w.note db op.id (.renewed h)
            if answered then w₁.move h (.renewed op renewed) else w₁.giveUp h
          | .ok (none, _) => w.move h .idle
          | .error _ => w.giveUp h
  | _ => w

/-- A lease that was renewed is long enough, or the ticker does not act. -/
def recheck (h : JsString) (lag : ℕ) : World :=
  match w.phase h with
  | .renewed op renewed =>
    match deadlinesFor op.kind with
    | .error _ => w.giveUp h
    | .ok d =>
      if renewed.leaseUntil.getD 0 - (w.clock - lag) < need d then w.move h .idle
      else w.move h (.ready (fenceOf renewed h) op (renewed.leaseUntil.getD 0))
  | _ => w

/-- The handler begins, unless there is no row of the instance. -/
def begin (h : JsString) (lag : ℕ) (hasInstance : Bool) : World :=
  match w.phase h with
  | .ready fence op leaseUntil =>
    if hasInstance then
      match deadlinesFor op.kind with
      | .error failure =>
        match handlers h op.kind with
        | some handler =>
          w.move h (.settled fence op (classifyThrow (.other failure.messageOf) handler) none)
        | none => w
      | .ok d =>
        w.move h (.acting fence op { deadlineAt := w.clock - lag + d.maxRemoteMs, leaseUntil })
    else
      w.move h (.settled fence op
        (.fatal (js "operation " ++ op.id ++ js " has no instance row") none) none)
  | _ => w

/-! ### The handler -/

/-- The handler begins a remote call, if there is time for it. -/
def remote (h what : JsString) : World :=
  match w.phase h with
  | .acting fence _ budget =>
    match budget.claim what w.clock with
    | .ok timeout =>
      { w with calls := w.calls ++
          [{ holder := h, op := fence.id, start := w.clock, timeout, ended := none }] }
    | .error _ => w
  | _ => w

def callEnds (n : ℕ) : World :=
  { w with calls := w.calls.modify n fun call => { call with ended := call.ended.or (some w.clock) } }

/-- What a handler writes to its operation: the phase of a create, or the mark of an invite. -/
structure HandlerWrite where
  status : Option { status : OperationStatus //
    status = .running ∨ status = .failed ∨ status = .ambiguous }
  evidence : Json
  evidenceAt : ℤ

def HandlerWrite.patch (write : HandlerWrite) : OperationPatch :=
  { status := write.status.map Subtype.val, evidence := some (stringifyEvidence write.evidence)
    evidenceAt := some write.evidenceAt }

/-- The handler writes to its operation, fenced by a version that it knows. -/
def handlerWrites (h : JsString) (version : ℕ) (write : HandlerWrite) : World :=
  match w.phase h with
  | .acting fence _ _ =>
    match casOperation w.db { fence with version } write.patch w.clock with
    | .ok (some _, db) => w.note db fence.id (.wrote h)
    | _ => w
  | _ => w

def openCalls (h : JsString) : List RemoteCall :=
  w.calls.filter fun call => call.holder = h && call.ended.isNone

/-- The handler returns, or throws, once its calls have ended. -/
def handlerEnds (h : JsString) (outcome : Except Thrown HandlerResult)
    (failure : Option Json) : World :=
  match w.phase h with
  | .acting fence op _ =>
    if w.openCalls h = [] then
      match outcome with
      | .ok result => w.move h (.settled fence op result failure)
      | .error err =>
        match handlers h op.kind with
        | some handler => w.move h (.settled fence op (classifyThrow err handler) failure)
        | none => w
    else w
  | _ => w

/-! ### The result -/

/-- The transaction of a result reads the operation. -/
def reread (h : JsString) : World :=
  match w.phase h with
  | .settled fence op result failure =>
    match deadlinesFor op.kind with
    | .error _ => w.giveUp h
    | .ok _ => w.move h (.recording fence op result failure (getOperation w.db fence.id))
  | _ => w

/-- A result was recorded, with the operation that follows. -/
def noteResult (db : Database) (op h : JsString) (result : HandlerResult)
    (successor : Option JsString) : World :=
  { w with
    db
    log := w.log ++ { op, act := .recorded h result successor } ::
      (successor.map fun id => { op := id, act := .opened : Entry }).toList }

/-- The transaction of a result writes it and does the rest, or is rolled back. -/
def record (h : JsString) (lag : ℕ) (others : Others) : World :=
  match w.phase h with
  | .recording fence op result failure current =>
    match deadlinesFor op.kind with
    | .error _ => w.giveUp h
    | .ok d =>
      match tx (finishBody d fence op result failure current others (w.clock - lag) w.clock) w.db with
      | (.ok successor, db) =>
        (w.noteResult db fence.id h result (successor.map (·.id))).move h .idle
      | (.error _, _) => w.move h .idle
  | _ => w

/-- The database fails a ticker, which goes on with its next tick. A handler hears of it itself. -/
def abandon (h : JsString) : World :=
  match w.phase h with
  | .acting _ _ _ => w
  | .dead => w
  | _ => w.giveUp h

/-- A process dies. Its remote calls stay open. -/
def crash (h : JsString) : World := w.move h .dead

/-! ### Deadlines -/

def liveOperations (db : Database) : List ControlStore.OperationRow :=
  db.operations.rows.filter fun row => row.active

def readLive (h : JsString) : World :=
  match w.phase h with
  | .idle =>
    w.put h { w.tickers h with live := liveOperations w.db }
  | _ => w

/-- A row is past a deadline that it is not flagged for, and nobody holds it. -/
def overdue (row : ControlStore.OperationRow) (which : Deadline) (now : ℤ) : Bool :=
  decide (row.leaseUntil.getD 0 ≤ now) &&
    match which with
    | .absolute => row.absoluteFlagged = 0 && decide (row.absoluteDeadlineAt < now)
    | .inactivity => row.inactivityFlagged = 0 && decide (row.inactivityDeadlineAt < now)

/-- The transaction that flags an operation: `version` is the one that it has read. -/
def flagBody (id : JsString) (version : ℕ) (which : Deadline)
    (raised : Except Failure (List AuditRow)) (now : ℤ) (db : Database) :
    Except Failure (Bool × Database) := do
  match ← flagDeadline db id version which now with
  | (none, db₁) => return (false, db₁)
  | (some _, db₁) => do
    let db₂ ← appendAudits db₁ (← raised)
    return (true, db₂)

/-- A ticker flags the `n`-th of the operations it looks at. -/
def flag (h : JsString) (n version : ℕ) (which : Deadline)
    (raised : Except Failure (List AuditRow)) (lag : ℕ) : World :=
  match w.phase h, (w.tickers h).live[n]? with
  | .idle, some row =>
    if overdue row which (w.clock - lag) then
      match tx (flagBody row.id version which raised (w.clock - lag)) w.db with
      | (.ok true, db) => w.note db row.id (.flagged which)
      | _ => w
    else w
  | _, _ => w

end World

/-! ## Runs -/

inductive Event where
  | advance (ms : ℕ)
  | enqueue (id instanceId kind : JsString) (status : Option OperationStatus)
      (nextAttemptAt : Option ℤ) (inactivityDeadlineAt absoluteDeadlineAt : ℤ)
      (evidence : Option JsString)
  | supersedeReboot (id evidence : JsString)
  | readDue (h : JsString) (lag : ℕ)
  | lease (h : JsString) (lag : ℕ) (answered : Bool)
  | headroom (h : JsString) (lag lagOfRenewal : ℕ) (answered : Bool)
  | recheck (h : JsString) (lag : ℕ)
  | begin (h : JsString) (lag : ℕ) (hasInstance : Bool)
  | remote (h what : JsString)
  | callEnds (n : ℕ)
  | handlerWrites (h : JsString) (version : ℕ) (write : World.HandlerWrite)
  | handlerEnds (h : JsString) (outcome : Except Thrown HandlerResult) (failure : Option Json)
  | reread (h : JsString)
  | record (h : JsString) (lag : ℕ) (others : Others)
  | abandon (h : JsString)
  | crash (h : JsString)
  | readLive (h : JsString)
  | flag (h : JsString) (n version : ℕ) (which : Deadline) (raised : Except Failure (List AuditRow))
      (lag : ℕ)

def RemoteCall.deadline (call : RemoteCall) : ℤ := call.start + call.timeout

/-- Time passes, unless a call that is open would outlast its timeout. -/
def World.advance (w : World) (ms : ℕ) : World :=
  if ∀ call ∈ w.calls, call.ended = none → w.clock + ms ≤ call.deadline then
    { w with clock := w.clock + ms }
  else w

/-- What an event does. An event that cannot happen does nothing. -/
def step (handlers : JsString → JsString → Option Handler) (w : World) : Event → World
  | .advance ms => w.advance ms
  | .enqueue id instanceId kind status nextAttemptAt inactivity absolute evidence =>
    w.enqueue id instanceId kind status nextAttemptAt inactivity absolute evidence
  | .supersedeReboot id evidence => w.supersedeReboot id evidence
  | .readDue h lag => w.readDue h lag
  | .lease h lag answered => w.lease h lag answered
  | .headroom h lag lagOfRenewal answered => w.headroom handlers h lag lagOfRenewal answered
  | .recheck h lag => w.recheck h lag
  | .begin h lag hasInstance => w.begin handlers h lag hasInstance
  | .remote h what => w.remote h what
  | .callEnds n => w.callEnds n
  | .handlerWrites h version write => w.handlerWrites h version write
  | .handlerEnds h outcome failure => w.handlerEnds handlers h outcome failure
  | .reread h => w.reread h
  | .record h lag others => w.record h lag others
  | .abandon h => w.abandon h
  | .crash h => w.crash h
  | .readLive h => w.readLive h
  | .flag h n version which raised lag => w.flag h n version which raised lag

abbrev run (handlers : JsString → JsString → Option Handler) (w : World) (events : List Event) :
    World :=
  Machine.run (step handlers) w events

end Isomux.Ticker
