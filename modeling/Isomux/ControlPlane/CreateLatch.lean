import Isomux.ControlPlane.OperationStore
import Isomux.Foundations.Machine

set_option autoImplicit false

/-!
# The latch of the creates

A create costs money, so a create is armed before it is sent: one transaction inserts the intent and
writes into the operation that a call is about to be made. When the commit has returned, and only
then, a permit is made on the stack of the caller. A permit is spent before the provider is called.

Several workers arm creates at one time, on one database. A worker may die anywhere, and takes its
calls and its permits with it. The database may fail a transaction, and it may lose the answer to a
commit. A run is a list of such events.

## Main definitions

* `Isomux.CreateLatch.armBody` — the body of the transaction of `armOnce`.
* `Isomux.CreateLatch.CreatePermit` — a permit.
* `Isomux.CreateLatch.step` — what an event does to the workers and the database.
-/

namespace Isomux.CreateLatch

open ControlStore

/-! ## The legacy journal -/

/-- What `readFileSync` gives. -/
inductive FileRead where
  /-- A text, with what `JSON.parse` makes of it, if it does. -/
  | text (parsed : Option JsValue)
  | failed (code : JsString)

/-- The journal of the intents from before the database: the files of its directory. -/
structure IntentJournal where
  readFile : JsString → FileRead

/-- A letter of an id that is safe in a file name. -/
def isSafeLetter (c : CodeUnit) : Bool :=
  (65 ≤ c && c ≤ 90) || (97 ≤ c && c ≤ 122) || (48 ≤ c && c ≤ 57) || c = 95 || c = 45

variable (intentId : JsString)

def IntentJournal.file : Except Failure JsString :=
  if intentId ≠ [] ∧ intentId.all isSafeLetter then .ok (intentId ++ js ".json")
  else .error (.error (js "unsafe intent id: " ++ intentId))

/-- Read a record; `null` when there is none. Only a file that is not there counts as none. -/
def IntentJournal.read (journal : IntentJournal) (intentId : JsString) :
    Except Failure JsValue := do
  let file ← IntentJournal.file intentId
  match journal.readFile file with
  | .failed code =>
    if code = js "ENOENT" then .ok .null
    else .error (.error (js "intent journal for " ++ intentId ++ js " is unreadable (" ++ code ++
      js "); refusing to treat that as \"no record\". Fix the journal by hand."))
  | .text none => .error (.error (js "intent journal for " ++ intentId ++
      js " is corrupt; refusing to treat that as \"no record\"."))
  | .text (some value) => .ok value

/-! ## Arming -/

structure ArmRequest where
  intentId : JsString
  plan : JsString
  region : JsString
  deriving DecidableEq

/-- What the clock says each time it is read while a create is armed. -/
structure ArmClock where
  latchedAt : ℤ
  evidenceAt : ℤ
  updatedAt : ℤ
  auditedAt : ℤ

/-- The phase in the evidence of an operation whose create is armed. -/
def CREATE_ARMED_PHASE : JsString := js "create_call_armed"

/-- The evidence of an operation whose create is armed, as JSON. -/
def armedEvidence : JsString :=
  js "\x7b\"phase\":" ++ jsonQuote CREATE_ARMED_PHASE ++ js ",\"intentId\":" ++
    jsonQuote intentId ++ js "\x7d"

def latchedIntent (req : ArmRequest) (now : ℤ) : IntentRow :=
  { intentId := req.intentId, state := .intended, latchedAt := now, plan := req.plan
    region := req.region, providerId := none, reason := none, version := 1 }

def vetoed (journal : Option IntentJournal) (req : ArmRequest) : Except Failure Unit :=
  match journal with
  | none => .ok ()
  | some journal => do
    match ← journal.read req.intentId with
    | .null => .ok ()
    | _ => .error (.latchRefused (js "intent " ++ req.intentId ++
        js " is latched in the legacy journal; create is permanently forbidden for it. " ++
        js "Resolve it with find."))

/-- Insert the intent; whatever the database says against it refuses the latch. -/
def latchIntent (db : Database) (req : ArmRequest) (now : ℤ) : Except Failure Database :=
  match insertIntent db (latchedIntent req now) with
  | .ok db' => .ok db'
  | .error failure => .error (.latchRefused (js "intent " ++ req.intentId ++
      js " could not be latched (" ++ failure.messageOf ++ js "); create is forbidden. " ++
      js "A latch that did not commit is never a licence to spend."))

/-- The body of the transaction of `armOnce`. -/
def armBody (journal : Option IntentJournal) (clock : ArmClock) (req : ArmRequest) (fence : Fence)
    (db : Database) : Except Failure (ControlStore.OperationRow × Database) := do
  vetoed journal req
  let latched ← latchIntent db req clock.latchedAt
  match ← casOperation latched fence
      { status := some .running, evidence := some (armedEvidence req.intentId)
        evidenceAt := some clock.evidenceAt } clock.updatedAt with
  | (none, _) => .error (.fenceLost (js "operation " ++ fence.id ++
      js " moved while arming intent " ++ req.intentId ++ js "; nothing was sent and nothing is latched"))
  | (some op, armed) => do
    let (_, audited) ← appendAudit armed
      { seq := 0, ts := clock.auditedAt, actor := js "control-plane"
        instanceId := some op.instanceId, action := js "arm_create", target := req.intentId
        outcome := js "started", detail := none }
    return (op, audited)

/-! ## Permits -/

/-- Permission to issue one create. Only the latch makes one, for the call that latched. -/
structure CreatePermit where
  intentId : JsString
  spent : Bool
  deriving DecidableEq

def CreatePermit.mint : CreatePermit := { intentId, spent := false }

def CreatePermit.consume (permit : CreatePermit) : Except Failure CreatePermit :=
  if permit.spent then
    .error (.latchRefused (js "create permit for " ++ permit.intentId ++
      js " has already been spent"))
  else .ok { permit with spent := true }

/-! ## Workers -/

/-- How far a call of `armOnce` is. -/
inductive Phase where
  | arming
  /-- The database has made the commit; the call has not heard of it. -/
  | committed (armed : ControlStore.OperationRow)
  /-- The call has returned: its caller has the permit and the operation. -/
  | returned (permit : CreatePermit) (armed : ControlStore.OperationRow)
  | refused (failure : Failure)
  | lost
  deriving DecidableEq

/-- A call of `armOnce` by a worker. -/
structure Call where
  worker : ℕ
  journal : Option IntentJournal
  req : ArmRequest
  fence : Fence
  phase : Phase

structure Grant where
  call : ℕ
  intentId : JsString
  deriving DecidableEq

/-- The database and the calls of all workers, with the permits that were minted and those that were
consumed so far. -/
structure System where
  db : Database
  calls : ℕ → Option Call
  minted : List Grant
  consumed : List Grant

def start (db : Database) : System :=
  { db, calls := fun _ => none, minted := [], consumed := [] }

/-- A transaction of some other part of the control plane. -/
inductive Write where
  | enqueue (id instanceId kind : JsString) (status : Option OperationStatus)
      (nextAttemptAt : Option ℤ) (inactivityDeadlineAt absoluteDeadlineAt : ℤ)
      (evidence : Option JsString) (now : ℤ)
  | tryLease (id : JsString) (expectedVersion : ℕ) (holder : JsString) (leaseUntil now : ℤ)
  | renewLease (fence : Fence) (leaseUntil now : ℤ)
  | casOperation (fence : Fence) (patch : OperationPatch) (now : ℤ)
  | flagDeadline (id : JsString) (expectedVersion : ℕ) (which : Deadline) (now : ℤ)
  | supersedeReboot (id evidence : JsString) (now : ℤ)
  | casIntent (intentId : JsString) (expectedVersion : ℕ) (patch : IntentPatch)
  | importIntent (row : IntentRow)
  | appendAudit (row : AuditRow)

/-- What a transaction of another part leaves. -/
def Write.apply (db : Database) : Write → Except Failure Database
  | enqueue id instanceId kind status nextAttemptAt inactivity absolute evidence now =>
    Prod.snd <$> ControlStore.enqueue db id instanceId kind status nextAttemptAt inactivity absolute
      evidence now
  | tryLease id expectedVersion holder leaseUntil now =>
    Prod.snd <$> ControlStore.tryLease db id expectedVersion holder leaseUntil now
  | renewLease fence leaseUntil now => Prod.snd <$> ControlStore.renewLease db fence leaseUntil now
  | casOperation fence patch now => Prod.snd <$> ControlStore.casOperation db fence patch now
  | flagDeadline id expectedVersion which now =>
    Prod.snd <$> ControlStore.flagDeadline db id expectedVersion which now
  | supersedeReboot id evidence now => Prod.snd <$> ControlStore.supersedeReboot db id evidence now
  | casIntent intentId expectedVersion patch =>
    Prod.snd <$> ControlStore.casIntent db intentId expectedVersion patch
  | importIntent row => insertIntent db row
  | appendAudit row => Prod.snd <$> ControlStore.appendAudit db row

inductive Event where
  | armOnce (call worker : ℕ) (journal : Option IntentJournal) (req : ArmRequest) (fence : Fence)
  /-- The transaction of a call runs to its end. -/
  | transact (call : ℕ) (clock : ArmClock)
  /-- The database fails the transaction of a call, which is rolled back. -/
  | databaseFails (call : ℕ) (message : JsString)
  /-- The commit of a call was made, and its answer is lost. -/
  | commitUnheard (call : ℕ) (message : JsString)
  /-- The commit of a call returns, and the permit is minted. -/
  | commitReturns (call : ℕ)
  | consume (call : ℕ)
  | crash (worker : ℕ)
  | write (write : Write)

variable (s : System)

def System.move (n : ℕ) (call : Call) (phase : Phase) : System :=
  { s with calls := Function.update s.calls n (some { call with phase }) }

@[simp] lemma System.move_self (n : ℕ) (call : Call) (phase : Phase) :
    (s.move n call phase).calls n = some { call with phase } := Function.update_self ..

lemma System.move_of_ne {n m : ℕ} (call : Call) (phase : Phase) (h : m ≠ n) :
    (s.move n call phase).calls m = s.calls m := Function.update_of_ne h ..

def System.begin (n worker : ℕ) (journal : Option IntentJournal) (req : ArmRequest)
    (fence : Fence) : System :=
  s.move n { worker, journal, req, fence, phase := .arming } .arming

/-- What an event does. An event that cannot happen does nothing. -/
def step : Event → System
  | .armOnce n worker journal req fence =>
    match s.calls n with
    | none => s.begin n worker journal req fence
    | some _ => s
  | .transact n clock =>
    match s.calls n with
    | some call =>
      if call.phase = .arming then
        match tx (armBody call.journal clock call.req call.fence) s.db with
        | (.ok armed, db) => { s.move n call (.committed armed) with db }
        | (.error failure, db) => { s.move n call (.refused failure) with db }
      else s
    | none => s
  | .databaseFails n message =>
    match s.calls n with
    | some call => if call.phase = .arming then s.move n call (.refused (.error message)) else s
    | none => s
  | .commitUnheard n message =>
    match s.calls n with
    | some call =>
      match call.phase with
      | .committed _ => s.move n call (.refused (.error message))
      | _ => s
    | none => s
  | .commitReturns n =>
    match s.calls n with
    | some call =>
      match call.phase with
      | .committed armed =>
        { s.move n call (.returned (.mint call.req.intentId) armed) with
          minted := s.minted ++ [{ call := n, intentId := call.req.intentId }] }
      | _ => s
    | none => s
  | .consume n =>
    match s.calls n with
    | some call =>
      match call.phase with
      | .returned permit armed =>
        match permit.consume with
        | .ok spent =>
          { s.move n call (.returned spent armed) with
            consumed := s.consumed ++ [{ call := n, intentId := permit.intentId }] }
        | .error _ => s
      | _ => s
    | none => s
  | .crash worker =>
    { s with calls := fun n => (s.calls n).map fun call =>
        if call.worker = worker then { call with phase := .lost } else call }
  | .write write =>
    match write.apply s.db with
    | .ok db => { s with db }
    | .error _ => s

end Isomux.CreateLatch
