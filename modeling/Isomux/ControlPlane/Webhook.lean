import Isomux.ControlPlane.Dunning
import Isomux.ControlPlane.Lifecycle
import Isomux.Foundations.KeyedTable
import Isomux.Foundations.PromiseChains

set_option autoImplicit false

/-!
# Webhooks of Stripe (`src/control-plane/stripe/webhook.ts`, `reconcile.ts`)

A signed delivery names an event. The object that the event is about is fetched, with no transaction
open, and what was fetched is applied in one transaction that claims the id of the event. Deliveries
are serialised under a key that their payload gives. A transaction is split where it can be
overtaken: it reads the ledger, it reads or makes the row of the subscription, and what it writes is
there with the commit, unless somebody was faster. From its first write on nobody else comes to that
row.

The tables that the transaction only reads are what a step says they hold. Accounts, metadata and the
texts of the log are left out.

## Main definitions

* `Isomux.StripeWebhook.classify` — what `handle` makes of a body, `Isomux.StripeWebhook.queueKeyFor`
  — the key of a delivery.
* `Isomux.StripeWebhook.eventWrites` — what `applyEvent` writes.
* `Isomux.StripeWebhook.Store`, `Isomux.StripeWebhook.World` — the database, and the process with it.
* `Isomux.StripeWebhook.step` — one step of a delivery, or what happens around it.
-/

namespace Isomux.StripeWebhook

/-! ## Bodies -/

inductive StripeMode where
  | test
  | live
  deriving DecidableEq

/-- `WebhookOutcomeKind`. -/
inductive OutcomeKind where
  | applied
  | duplicate
  | ignored
  | refused
  | retry
  deriving DecidableEq

/-- `WebhookOutcome`. -/
structure Outcome where
  status : ℕ
  kind : OutcomeKind
  detail : JsString
  subscriptionId : Option JsString := none
  suspensionOpId : Option JsString := none
  deriving DecidableEq

/-- What `handle` ends with. -/
inductive Answer where
  | outcome (outcome : Outcome)
  | thrown
  deriving DecidableEq

structure Delivery where
  id : JsString
  type : JsString
  created : Option ℤ
  object : JsValue

def HANDLED_EVENT_TYPES : List JsString :=
  [js "checkout.session.completed", js "customer.subscription.created",
    js "customer.subscription.updated", js "customer.subscription.deleted",
    js "invoice.payment_failed"]

def nonEmptyString : JsValue → Option JsString
  | .string (c :: s) => some (c :: s)
  | _ => none

def stringField (o : JsValue) (field : String) : Option JsString := nonEmptyString (o.field field)

def idOf (v : JsValue) : Option JsString := (nonEmptyString v).or (nonEmptyString (v.field "id"))

def queueKeyFor (type : JsString) (object : JsValue) : Option JsString :=
  if type = js "checkout.session.completed" then
    (idOf (object.field "subscription")).or (stringField object "id")
  else if type = js "invoice.payment_failed" then
    let parent := object.field "parent"
    ((idOf ((parent.field "subscription_details").field "subscription")).or
      (idOf (object.field "subscription"))).or (stringField object "id")
  else stringField object "id"

def objectOf (event : JsValue) : Option JsValue :=
  match (event.field "data").field "object" with
  | .object fields => some (.object fields)
  | _ => none

/-- A number of seconds in milliseconds, when these are whole. -/
def wholeMilliseconds (seconds : ℚ) : Option ℤ :=
  if (seconds * 1000).den = 1 then some (seconds * 1000).num else none

/-- `event.created`: a number, and its milliseconds. -/
def createdOf (event : JsValue) : Option (Option ℤ) :=
  match event.field "created" with
  | .number seconds => some (wholeMilliseconds seconds)
  | .notFinite => some none
  | _ => none

/-- What `handle` makes of a body. -/
inductive Handled where
  | answered (answer : Answer)
  /-- It records the event, outside of the chains. -/
  | unhandled (delivery : Delivery)
  | queued (key : JsString) (delivery : Delivery)

def refused (detail : JsString) : Answer := .outcome { status := 400, kind := .refused, detail }

def retry (reason : JsString) : Answer :=
  .outcome { status := 500, kind := .retry, detail := reason }

/-- The text of an event of the other mode. -/
def modeText : StripeMode → JsString
  | .test => js "test"
  | .live => js "live"

/-- The checks of `handle`, up to the chains: the failure of the signature, and what `JSON.parse`
makes of the body. -/
def classify (mode : StripeMode) (failure : Option JsString) (body : Option JsValue) : Handled :=
  match failure, body with
  | some failure, _ => .answered (refused (js "signature " ++ failure))
  | none, none => .answered (refused (js "body is not JSON"))
  -- A property of `null` is read.
  | none, some .null => .answered .thrown
  | none, some .undefined => .answered .thrown
  | none, some event =>
    match event.field "livemode" with
    | .bool livemode =>
      if livemode ≠ decide (mode = .live) then
        .answered (refused (js "the event does not match configured " ++ modeText mode ++
          js " mode; refusing it before any effect"))
      else
        match nonEmptyString (event.field "id"), nonEmptyString (event.field "type"),
            createdOf event, objectOf event with
        | some id, some type, some created, some object =>
          let delivery : Delivery := ⟨id, type, created, object⟩
          if type ∈ HANDLED_EVENT_TYPES then
            .queued ((queueKeyFor type object).getD id) delivery
          else .unhandled delivery
        | _, _, _, _ => .answered (refused
            (js "the event is missing id, type, created or data.object"))
    | _ => .answered (refused (js "the event has no boolean livemode field; " ++
        js "refusing to guess which mode it belongs to"))

/-! ## Rows -/

inductive LedgerOutcome where
  | applied
  | ignored
  deriving DecidableEq

/-- A row of `stripe_events`. -/
structure EventRow where
  id : JsString
  type : JsString
  created : ℤ
  subscriptionId : Option JsString
  outcome : LedgerOutcome
  detail : JsString
  deriving DecidableEq

/-- A row of `subscriptions`. -/
structure CachedSubscription where
  id : JsString
  accountId : JsString
  instanceId : Option JsString
  customerId : JsString
  cancellationPolicy : CancellationPolicy
  columns : Dunning.SubscriptionRow
  version : ℕ
  deriving DecidableEq

structure SubscriptionSnapshot where
  id : JsString
  customerId : JsString
  facts : Dunning.SubscriptionSnapshot

structure SessionSnapshot where
  subscriptionId : Option JsString
  status : Option JsString
  paymentStatus : Option JsString

structure InvoiceSnapshot where
  subscriptionId : Option JsString
  facts : Dunning.InvoiceSnapshot

inductive ReadResult (α : Type) where
  | ok (object : α)
  | absent
  | unavailable (reason : JsString)
  | otherMode
  | malformed (message : JsString)
  | failed (message : JsString)

/-- What was fetched for a delivery. Two instants are counts of the commits there were. -/
structure Fetched where
  subscription : SubscriptionSnapshot
  session : Option SessionSnapshot
  invoice : Option InvoiceSnapshot
  requestedAt : ℕ
  answeredAt : ℕ

/-! ## The transaction -/

/-- What the tables say that the transaction only reads, and what it asks for. -/
structure Facts where
  accountId : JsString
  policy : CancellationPolicy
  instanceId : Option JsString
  blockedInstanceId : Option JsString
  reinstatementAttemptId : Option JsString
  refusedAttemptId : Option JsString
  mirrors : Bool
  suspensionOpId : Option JsString
  resumeOpId : Option JsString
  powerOnOpId : Option JsString

inductive Write where
  | subscription (row : CachedSubscription)
  | blocked (instanceId subscriptionId : JsString)
  | acceptance (attemptId subscriptionId : JsString)
  | mirror (instanceId status : JsString)
  | suspension (episodeId : JsString) (operationId : Option JsString)
  | resume (operationId : JsString)
  /-- The machine of a reinstatement is turned on. -/
  | powerOn (operationId : JsString)
  | refundRequired (attemptId : JsString)
  | refundCleared (attemptId : JsString)
  | attention (attention : Dunning.Attention)
  | provisioning (subscriptionId : JsString)
  | audit (action target detail : JsString)
  deriving DecidableEq

/-- The row that is inserted for a subscription that was not known. -/
def firstRow (snapshot : SubscriptionSnapshot) (facts : Facts) : CachedSubscription where
  id := snapshot.id
  accountId := facts.accountId
  instanceId := none
  customerId := snapshot.customerId
  cancellationPolicy := facts.policy
  columns := Dunning.firstRow
  version := 1

variable (delivery : Delivery)

/-- What `decide` is given. -/
def ladderInputs (created : ℤ) (fetched : Fetched) (row : CachedSubscription)
    (now : ℤ) : Dunning.LadderInputs where
  row := some row.columns
  subscription := fetched.subscription.facts
  invoice := fetched.invoice.map (·.facts)
  eventId := delivery.id
  eventType := delivery.type
  eventCreated := created
  now := now

variable (row : CachedSubscription)

/-- The row with what Stripe says, and its office. -/
def ownedRow (patch : Dunning.StripeOwnedPatch) (facts : Facts) : CachedSubscription :=
  { row with
    columns := row.columns.own patch
    instanceId := row.instanceId.or facts.instanceId
    version := row.version + 1 }

def uncancelled (snapshot : SubscriptionSnapshot) : Bool :=
  row.columns.cancelAtPeriodEnd = 1 && !snapshot.facts.cancelAtPeriodEnd &&
    snapshot.facts.endedAt.isNone

/-- The promise of a row is that of the launch again. -/
def launched : CachedSubscription :=
  { row with cancellationPolicy := .launch, version := row.version + 1 }

def keptRow (episode : Dunning.EpisodePatch) : CachedSubscription :=
  { row with columns := row.columns.keep episode, version := row.version + 1 }

def noEpisode (episode : Dunning.EpisodePatch) : Bool :=
  episode.episodeState.isNone && episode.episodeId.isNone && episode.paymentFailures.isNone &&
    episode.exhaustionObservedAt.isNone && episode.couponGraceUntil.isNone

/-- The rows of the subscription that `applyEvent` writes, the last one last. -/
def rowsWritten (fetched : Fetched) (decision : Dunning.LadderDecision)
    (facts : Facts) : List CachedSubscription :=
  let owned := ownedRow row decision.stripeOwned facts
  let reset := if uncancelled row fetched.subscription then launched owned else owned
  [owned] ++ (if uncancelled row fetched.subscription then [reset] else []) ++
    (if noEpisode decision.episode then [] else [keptRow reset decision.episode])

/-- The row behind `applyEvent`. -/
def lastRow (fetched : Fetched) (decision : Dunning.LadderDecision)
    (facts : Facts) : CachedSubscription :=
  (rowsWritten row fetched decision facts).getLastD row

/-- What `linkageFrom` writes and what follows from it at once. A row that has an office is not
linked. -/
def linkageWrites (facts : Facts) : List Write :=
  if row.instanceId.isSome then []
  else
    (facts.blockedInstanceId.map (Write.blocked · row.id)).toList ++
      (facts.refusedAttemptId.map .refundRequired).toList ++
      (match facts.reinstatementAttemptId with
        | none => []
        | some id => [.refundCleared id, .acceptance id row.id])

/-- What `applyEvent` writes, but for the ledger. -/
def eventWrites (fetched : Fetched)
    (decision : Dunning.LadderDecision) (facts : Facts) : List Write :=
  let current := lastRow row fetched decision facts
  let attemptId := if row.instanceId.isSome then none else facts.reinstatementAttemptId
  linkageWrites row facts ++ (rowsWritten row fetched decision facts).map .subscription ++
    (if facts.mirrors then
      (current.instanceId.map (Write.mirror · current.columns.status)).toList else []) ++
    (decision.suspension.map (Write.suspension · facts.suspensionOpId)).toList ++
    (if decision.resume then (facts.resumeOpId.map .resume).toList else []) ++
    (match attemptId with
      | none => []
      | some id => [(facts.powerOnOpId.map .powerOn).getD (.refundRequired id)]) ++
    (if decision.attention = .none then [] else [.attention decision.attention]) ++
    (if delivery.type = js "checkout.session.completed" ∧ fetched.session.any (fun session =>
        session.status = some (js "complete") && session.paymentStatus = some (js "paid")) then
      [.provisioning current.id] else []) ++
    [.audit delivery.type current.id decision.note]

/-! ## The database -/

structure Commit where
  delivery : ℕ
  key : Option JsString
  event : EventRow
  fetched : Option Fetched
  writes : List Write

structure Store where
  ledger : KeyedTable EventRow.id
  subscriptions : KeyedTable CachedSubscription.id
  written : List (JsString × Write)
  commits : List Commit

def putWrite (subscriptions : KeyedTable CachedSubscription.id) :
    Write → KeyedTable CachedSubscription.id
  | .subscription row => subscriptions.put row
  | _ => subscriptions

/-- The database with one more transaction. -/
def Store.commit (s : Store) (ledger : KeyedTable EventRow.id) (commit : Commit) : Store where
  ledger := ledger
  subscriptions := commit.writes.foldl putWrite s.subscriptions
  written := s.written ++ commit.writes.map fun write => (commit.event.id, write)
  commits := s.commits ++ [commit]

/-! ## The process -/

inductive Stage where
  | ignoring (note : JsString)
  | readingSession
  | readingInvoice
  | readingSubscription (subscriptionId : JsString) (session : Option SessionSnapshot)
    (invoice : Option InvoiceSnapshot) (requestedAt : ℕ)
  /-- Stripe does not know the subscription; the cached row is read. -/
  | readingCached (subscriptionId : JsString) (session : Option SessionSnapshot)
    (invoice : Option InvoiceSnapshot) (requestedAt answeredAt : ℕ)
  | fetched (fetched : Fetched)
  | unseen (fetched : Fetched)
  /-- The row of the subscription was read, or there was none. -/
  | ready (fetched : Fetched) (row : Option CachedSubscription)

abbrev Deliveries := PromiseChains JsString Delivery Stage Answer

abbrev Task := ChainTask JsString Delivery Stage Answer

structure World where
  mode : StripeMode
  chains : Deliveries
  store : Store

def start (mode : StripeMode) (subscriptions : KeyedTable CachedSubscription.id) : World where
  mode := mode
  chains := PromiseChains.empty
  store := ⟨KeyedTable.empty, subscriptions, [], []⟩

/-- The beginning of `fetchAndApply`. -/
def beginStage (now : ℕ) (delivery : Delivery) : Stage :=
  let id := stringField delivery.object "id"
  if delivery.type = js "checkout.session.completed" then
    if id.isNone then .ignoring (js "session has no id") else .readingSession
  else if delivery.type = js "invoice.payment_failed" then
    if id.isNone then .ignoring (js "invoice has no id") else .readingInvoice
  else
    match id with
    | none => .ignoring (js "subscription has no id")
    | some id => .readingSubscription id none none now

/-- How `fetchAndApply` goes on behind a read. -/
inductive Next where
  | goOn (stage : Stage)
  | answer (answer : Answer)

/-- How it goes on when there is no object. -/
def ReadResult.next {α : Type} (absent : Stage) (ok : α → Stage) : ReadResult α → Next
  | .ok object => .goOn (ok object)
  | .absent => .goOn absent
  | .unavailable reason => .answer (retry reason)
  | .otherMode => .answer (refused (js "a fetched Stripe object is live mode"))
  | .malformed message => .answer (refused message)
  | .failed message => .answer (retry message)

def sessionNext (now : ℕ) (read : ReadResult SessionSnapshot) : Next :=
  read.next (.ignoring (js "session no longer exists")) fun session =>
    match session.subscriptionId with
    | some (c :: id) => .readingSubscription (c :: id) (some session) none now
    | _ => .ignoring (js "completed session names no subscription")

def invoiceNext (now : ℕ) (read : ReadResult InvoiceSnapshot) : Next :=
  read.next (.ignoring (js "invoice no longer exists")) fun invoice =>
    match invoice.subscriptionId with
    | some (c :: id) => .readingSubscription (c :: id) none (some invoice) now
    | _ => .ignoring (js "failed invoice belongs to no subscription")

def subscriptionNext (subscriptionId : JsString) (session : Option SessionSnapshot)
    (invoice : Option InvoiceSnapshot) (requestedAt now : ℕ)
    (read : ReadResult SubscriptionSnapshot) : Next :=
  read.next (.readingCached subscriptionId session invoice requestedAt now) fun subscription =>
    .fetched ⟨subscription, session, invoice, requestedAt, now⟩

/-- A subscription that Stripe does not know is one that was cancelled. -/
def inferredSnapshot : SubscriptionSnapshot where
  id := row.id
  customerId := row.customerId
  facts :=
    { status := js "canceled"
      currentPeriodEnd := none
      cancelAtPeriodEnd := false
      endedAt := row.columns.endedAt
      canceledAt := row.columns.canceledAt
      cancellationReason := row.columns.cancellationReason
      discount := none
      latestInvoiceId := none
      currency := row.columns.currency }

/-- What comes from Stripe, or from the database. -/
inductive Event where
  | handle (failure : Option JsString) (body : Option JsValue)
  | start (i : ℕ)
  | session (i : ℕ) (read : ReadResult SessionSnapshot)
  | invoice (i : ℕ) (read : ReadResult InvoiceSnapshot)
  | subscription (i : ℕ) (read : ReadResult SubscriptionSnapshot)
  | cached (i : ℕ)
  | eventSeen (i : ℕ)
  /-- The row of the subscription is read, or made. -/
  | ensureRow (i : ℕ)
  /-- The transaction writes and commits; what the database throws when a column or a key does not
  take a value. -/
  | commit (i : ℕ) (facts : Facts) (now : ℤ) (thrown : JsString)
  | recordIgnored (i : ℕ) (thrown : JsString)
  | fail (i : ℕ) (message : JsString)
  | crash
  | otherWrite (row : CachedSubscription)

namespace World

variable (w : World) (i : ℕ) (task : Task)

def now : ℕ := w.store.commits.length

def advance (stage : Stage) : World := { w with chains := w.chains.advance i task stage }

def answer (answer : Answer) : World := { w with chains := w.chains.settle i task answer }

def goOn : Next → World
  | .goOn stage => w.advance i task stage
  | .answer answer => w.answer i task answer

/-- A transaction is committed, and its delivery is answered. -/
def commitAnd (ledger : KeyedTable EventRow.id) (commit : Commit) (answer : Answer) : World :=
  { w with
    chains := w.chains.settle i task answer
    store := w.store.commit ledger commit }

/-- The transaction throws: `recordIgnored` outside of the chains is not caught. -/
def throws (message : JsString) : World :=
  w.answer i task (if task.key.isNone then .thrown else retry message)

/-- `handle`, up to the chains. -/
def handle (failure : Option JsString) (body : Option JsValue) : World :=
  match classify w.mode failure body with
  | .answered _ => w
  | .unhandled delivery =>
    { w with
      chains := w.chains.add delivery
        (.running (.ignoring (js "unhandled type " ++ delivery.type))) }
  | .queued key delivery => { w with chains := w.chains.serialise key delivery }

def cached (subscriptionId : JsString) (session : Option SessionSnapshot)
    (invoice : Option InvoiceSnapshot) (requestedAt answeredAt : ℕ) : World :=
  w.advance i task
    (match w.store.subscriptions.find subscriptionId with
    | none => .ignoring (js "subscription no longer exists and nothing is cached for it")
    | some row => .fetched ⟨inferredSnapshot row, session, invoice, requestedAt, answeredAt⟩)

def eventSeen (fetched : Fetched) : World :=
  match w.store.ledger.find task.job.id with
  | some row => w.answer i task (.outcome
      { status := 200, kind := .duplicate, detail := js "already applied"
        subscriptionId := row.subscriptionId })
  | none => w.advance i task (.unseen fetched)

/-- The row of the ledger for an event that is applied. -/
def appliedRow (created : ℤ) (subscriptionId note : JsString) : EventRow :=
  ⟨delivery.id, delivery.type, created, some subscriptionId, .applied, note⟩

/-- The row of the ledger for an event that is ignored. -/
def ignoredRow (created : ℤ) (note : JsString) : EventRow :=
  ⟨delivery.id, delivery.type, created, none, .ignored, note⟩

/-- The end of `applyEvent`. A row of one version is one row; another row, or none any more, is a
`cas` that misses, and a key that is taken is an insert that throws. -/
def commit (fetched : Fetched) (read : Option CachedSubscription) (facts : Facts) (now : ℤ)
    (thrown : JsString) : World :=
  match task.job.created with
  | none => w.throws i task thrown
  | some created =>
    if w.store.subscriptions.find fetched.subscription.id ≠ read then
      w.throws i task (js "subscription " ++ fetched.subscription.id ++
        js " moved while its Stripe snapshot was being applied")
    else
      let row := read.getD (firstRow fetched.subscription facts)
      let decision := Dunning.decide (ladderInputs task.job created fetched row now)
      let current := lastRow row fetched decision facts
      let event := appliedRow task.job created current.id decision.note
      match w.store.ledger.insert event with
      | none => w.throws i task thrown
      | some ledger =>
        w.commitAnd i task ledger
          { delivery := i, key := task.key, event, fetched := some fetched
            writes := eventWrites task.job row fetched decision facts }
          (.outcome
            { status := 200, kind := .applied, detail := decision.note
              subscriptionId := some current.id
              suspensionOpId := if decision.suspension.isSome then facts.suspensionOpId else none })

/-- `recordIgnored`. The primary key settles which of two deliveries records the event. -/
def recordIgnored (note thrown : JsString) : World :=
  match task.job.created with
  | none => w.throws i task thrown
  | some created =>
    let event := ignoredRow task.job created note
    match w.store.ledger.insert event with
    | none => w.answer i task (.outcome { status := 200, kind := .duplicate, detail := note })
    | some ledger =>
      w.commitAnd i task ledger
        { delivery := i, key := task.key, event, fetched := none, writes := [] }
        (.outcome { status := 200, kind := .ignored, detail := note })

def stageStep (stage : Stage) : Event → World
  | .session _ read =>
    match stage with
    | .readingSession => w.goOn i task (sessionNext w.now read)
    | _ => w
  | .invoice _ read =>
    match stage with
    | .readingInvoice => w.goOn i task (invoiceNext w.now read)
    | _ => w
  | .subscription _ read =>
    match stage with
    | .readingSubscription id session invoice requestedAt =>
      w.goOn i task (subscriptionNext id session invoice requestedAt w.now read)
    | _ => w
  | .cached _ =>
    match stage with
    | .readingCached id session invoice requestedAt answeredAt =>
      w.cached i task id session invoice requestedAt answeredAt
    | _ => w
  | .eventSeen _ =>
    match stage with
    | .fetched fetched => w.eventSeen i task fetched
    | _ => w
  | .ensureRow _ =>
    match stage with
    | .unseen fetched =>
      w.advance i task (.ready fetched (w.store.subscriptions.find fetched.subscription.id))
    | _ => w
  | .commit _ facts now thrown =>
    match stage with
    | .ready fetched row => w.commit i task fetched row facts now thrown
    | _ => w
  | .recordIgnored _ thrown =>
    match stage with
    | .ignoring note => w.recordIgnored i task note thrown
    | _ => w
  | .fail _ message => w.throws i task message
  | _ => w

def onTask (event : Event) : World :=
  match w.chains.tasks[i]? with
  | none => w
  | some task =>
    match task.state with
    | .running stage => w.stageStep i task stage event
    | _ => w

def step (event : Event) : World :=
  match event with
  | .handle failure body => w.handle failure body
  | .start i => { w with chains := w.chains.start i (beginStage w.now) }
  | .session i _ => w.onTask i event
  | .invoice i _ => w.onTask i event
  | .subscription i _ => w.onTask i event
  | .cached i => w.onTask i event
  | .eventSeen i => w.onTask i event
  | .ensureRow i => w.onTask i event
  | .commit i _ _ _ => w.onTask i event
  | .recordIgnored i _ => w.onTask i event
  | .fail i _ => w.onTask i event
  | .crash => { w with chains := w.chains.crash }
  | .otherWrite row =>
    { w with store := { w.store with subscriptions := w.store.subscriptions.put row } }

def run (events : List Event) : World := Machine.run step w events

end World

end Isomux.StripeWebhook
