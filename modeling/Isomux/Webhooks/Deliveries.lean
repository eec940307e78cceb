import Isomux.Foundations.IndexedLog
import Isomux.Foundations.Machine
import Isomux.Runtime.Maps
import Isomux.Runtime.Text

set_option autoImplicit false

/-!
# The delivery log of a webhook

A delivery whose signature was checked claims the hash of its body. When the log has no recent row of
that hash the claim adds one, and the delivery is dispatched; a row whose outcome invites a retry is
claimed again; any other recent row makes the delivery a duplicate. The dispatch settles its claim
later. The log is on disk, keeps a limited number of rows, and has the newest row of every hash in an
index.

This is the log of one hook; the hooks share nothing but the clock. A claim settles once. The random
ids of a new row are the draws of the event, and whether a write succeeds is up to the event too.
Rows are compared as values: the ids in a log are distinct, so a value stands for its object.

## Main definitions

* `Isomux.WebhookDelivery`, `Isomux.WebhookDeliveryLog` — the rows, and the log with its index.
* `Isomux.WebhookDeliveryLog.claim`, `Isomux.WebhookDeliveryLog.settle` — the two operations in
  memory.
* `Isomux.WebhookDeliveryStore` — the log, its file and the claims under way.
-/

namespace Isomux

def WEBHOOK_DELIVERY_LOG_MAX : ℕ := 500

def WEBHOOK_DEDUP_WINDOW_MS : ℤ := 24 * 60 * 60 * 1000

/-- The detail of a row that a restart left pending. -/
def WEBHOOK_RESTART_DETAIL : JsString := js "server restarted"

/-! ## Rows -/

inductive WebhookDeliveryOutcome where
  | pending
  | ping
  | badPayload
  | noMatch
  | dispatchLimited
  | targetUnavailable
  | dispatched
  deriving DecidableEq

/-- `RETRYABLE`: a later copy of the same body may retry. -/
def WebhookDeliveryOutcome.retryable : WebhookDeliveryOutcome → Bool
  | .dispatchLimited | .targetUnavailable => true
  | _ => false

/-- The dispatch is over, and invites no retry. -/
def WebhookDeliveryOutcome.final (outcome : WebhookDeliveryOutcome) : Prop :=
  outcome ≠ .pending ∧ outcome.retryable = false

inductive WebhookRowTarget where
  | agent (agentId : JsString)
  | cronjob (cronjobId : JsString) (runId : Option JsString)
  deriving DecidableEq

structure WebhookDelivery where
  id : JsString
  receivedAt : ℤ
  event : JsString
  deliveryId : JsString
  bodyHash : JsString
  bodySize : ℕ
  outcome : WebhookDeliveryOutcome
  attempts : ℕ
  duplicates : ℕ
  lastSeenAt : ℤ
  status : ℕ
  ruleIndex : Option ℕ
  args : Option (JsMap JsString JsString)
  target : Option WebhookRowTarget
  detail : Option JsString
  deriving DecidableEq

structure ClaimInput where
  bodyHash : JsString
  bodySize : ℕ
  event : JsString
  deliveryId : JsString

inductive ClaimResult where
  | new (row : WebhookDelivery)
  | retry (row previous : WebhookDelivery)
  | duplicate (row : WebhookDelivery)

structure SettlePatch where
  outcome : WebhookDeliveryOutcome
  status : ℕ
  ruleIndex : Option ℕ
  args : Option (JsMap JsString JsString)
  target : Option WebhookRowTarget
  detail : Option JsString

/-- `{ ...before, ...patch }`. -/
def SettlePatch.apply (patch : SettlePatch) (before : WebhookDelivery) : WebhookDelivery :=
  { before with
    outcome := patch.outcome
    status := patch.status
    ruleIndex := patch.ruleIndex
    args := patch.args
    target := patch.target
    detail := patch.detail }

/-! ## The log in memory -/

structure WebhookDeliveryLog where
  rows : List WebhookDelivery
  index : JsMap JsString WebhookDelivery

/-- `newRowId`: the first draw that is not the id of a row. -/
def newRowId (rows : List WebhookDelivery) (draws : List JsString) : Option JsString :=
  draws.find? fun id => !rows.any fun row => row.id = id

def replaced (rows : List WebhookDelivery) (before after : WebhookDelivery) :
    List WebhookDelivery :=
  rows.map fun row => if row = before then after else row

def overCap (rows : List WebhookDelivery) : ℕ := rows.length - WEBHOOK_DELIVERY_LOG_MAX

/-- A trimmed row leaves the index, unless a newer row of its hash is there. -/
def untrack (index : JsMap JsString WebhookDelivery) (old : WebhookDelivery) :
    JsMap JsString WebhookDelivery :=
  if JsMap.get index old.bodyHash = some old then JsMap.delete index old.bodyHash else index

def ClaimInput.row (input : ClaimInput) (id : JsString) (t : ℤ) : WebhookDelivery where
  id := id
  receivedAt := t
  event := input.event
  deliveryId := input.deliveryId
  bodyHash := input.bodyHash
  bodySize := input.bodySize
  outcome := .pending
  attempts := 1
  duplicates := 0
  lastSeenAt := t
  status := 0
  ruleIndex := none
  args := none
  target := none
  detail := none

namespace WebhookDeliveryLog

/-- `indexOf`: the newest row of a hash wins. -/
def indexOf (rows : List WebhookDelivery) : JsMap JsString WebhookDelivery :=
  rows.foldl (fun index row => JsMap.set index row.bodyHash row) []

variable (log : WebhookDeliveryLog)

/-- A row is rewritten, and the index points to it. -/
def rewrite (before after : WebhookDelivery) : WebhookDeliveryLog where
  rows := replaced log.rows before after
  index := JsMap.set log.index after.bodyHash after

/-- A row is added, and the oldest rows above the cap are dropped. -/
def append (row : WebhookDelivery) : WebhookDeliveryLog :=
  let rows := log.rows ++ [row]
  { rows := rows.drop (overCap rows)
    index := JsMap.set ((rows.take (overCap rows)).foldl untrack log.index) row.bodyHash row }

/-- The row of a hash that counts at a time. -/
def hit (t : ℤ) (bodyHash : JsString) : Option WebhookDelivery :=
  (JsMap.get log.index bodyHash).filter fun row => t - row.receivedAt < WEBHOOK_DEDUP_WINDOW_MS

/-- `claim`: the answer and the log it commits. There is none while no id is drawn that is free. -/
def claim (t : ℤ) (input : ClaimInput) (draws : List JsString) :
    Option (ClaimResult × WebhookDeliveryLog) :=
  match log.hit t input.bodyHash with
  | some hit =>
    if hit.outcome.retryable then
      let row := { hit with
        outcome := .pending
        attempts := hit.attempts + 1
        lastSeenAt := t }
      some (.retry row hit, log.rewrite hit row)
    else
      let row := { hit with
        duplicates := hit.duplicates + 1
        lastSeenAt := t }
      some (.duplicate row, log.rewrite hit row)
  | none =>
    (newRowId log.rows draws).map fun id =>
      (.new (input.row id t), log.append (input.row id t))

/-- `settle`. A row that was trimmed meanwhile is let be. -/
def settle (rowId : JsString) (patch : SettlePatch) : Option WebhookDeliveryLog :=
  (log.rows.find? fun row => row.id = rowId).map fun before =>
    let after := patch.apply before
    { rows := replaced log.rows before after
      index :=
        if JsMap.get log.index after.bodyHash = some before then
          JsMap.set log.index after.bodyHash after
        else log.index }

end WebhookDeliveryLog

/-! ## The store -/

structure DeliveryClaim where
  rowId : JsString
  bodyHash : JsString
  deriving DecidableEq

def ClaimResult.opened : ClaimResult → List DeliveryClaim
  | .new row => [⟨row.id, row.bodyHash⟩]
  | .retry row _ => [⟨row.id, row.bodyHash⟩]
  | .duplicate _ => []

/-- The file, the log once it is loaded, and the claims under way. -/
structure WebhookDeliveryStore where
  clock : ℤ
  file : List WebhookDelivery
  log : Option WebhookDeliveryLog
  claims : List DeliveryClaim

inductive WebhookDeliveryEvent where
  | elapse (ms : ℕ)
  /-- A delivery claims. `loads` and `writes`: the two writes that it may make succeed. -/
  | claim (input : ClaimInput) (draws : List JsString) (loads writes : Bool)
  /-- A claim under way is settled. `writes`: the write succeeds. -/
  | settle (claim : ℕ) (patch : SettlePatch) (writes : Bool)
  | restart

namespace WebhookDeliveryStore

def start (clock : ℤ) : WebhookDeliveryStore := ⟨clock, [], none, []⟩

def recovered (row : WebhookDelivery) : WebhookDelivery :=
  if row.outcome = .pending then
    { row with
      outcome := .targetUnavailable
      status := 503
      detail := some WEBHOOK_RESTART_DETAIL }
  else row

variable (s : WebhookDeliveryStore)

/-- `load`: memory holds the conversion even when it cannot be written. -/
def load (writes : Bool) : WebhookDeliveryStore × WebhookDeliveryLog :=
  let rows := s.file.map recovered
  let log := ⟨rows, WebhookDeliveryLog.indexOf rows⟩
  let restarted := s.file.any fun row => row.outcome = .pending
  ({ s with
      file := if restarted && writes then rows else s.file
      log := some log }, log)

def logFor (loads : Bool) : WebhookDeliveryStore × WebhookDeliveryLog :=
  match s.log with
  | some log => (s, log)
  | none => s.load loads

/-- `claim`. It throws when the write fails, and the log is as before. -/
def claim (s : WebhookDeliveryStore) (input : ClaimInput) (draws : List JsString)
    (loads writes : Bool) : WebhookDeliveryStore × Option ClaimResult :=
  let (s, log) := s.logFor loads
  match log.claim s.clock input draws with
  | some (result, log') =>
    if writes then
      ({ s with
          file := log'.rows
          log := some log'
          claims := s.claims ++ result.opened }, some result)
    else (s, none)
  | none => (s, none)

/-- `settle`, of a claim under way. The outcome stays in memory when the write fails. -/
def settle (s : WebhookDeliveryStore) (claim : ℕ) (patch : SettlePatch) (writes : Bool) :
    WebhookDeliveryStore :=
  match s.claims[claim]? with
  | none => s
  | some c =>
    let s := { s with claims := s.claims.eraseIdx claim }
    match s.log.bind fun log => log.settle c.rowId patch with
    | none => s
    | some log =>
      { s with
        file := if writes then log.rows else s.file
        log := some log }

def step : WebhookDeliveryEvent → WebhookDeliveryStore
  | .elapse ms => { s with clock := s.clock + ms }
  | .claim input draws loads writes => (s.claim input draws loads writes).1
  | .settle claim patch writes => s.settle claim patch writes
  | .restart =>
    { s with
      log := none
      claims := [] }

def rows (s : WebhookDeliveryStore) : List WebhookDelivery :=
  match s.log with
  | some log => log.rows
  | none => []

end WebhookDeliveryStore

end Isomux
