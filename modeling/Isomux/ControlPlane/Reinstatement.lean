import Isomux.ControlPlane.Lifecycle
import Isomux.Foundations.KeyedTable
import Isomux.Foundations.Machine

set_option autoImplicit false

/-!
# Reinstatement of a retained office (`src/control-plane/reinstatement.ts`)

A customer who comes back opens a Checkout; the attempt row follows it until a paid subscription is
linked. The calls run in transactions of the default isolation of the database: each statement sees
what was committed before it, an update waits for the lock on its row, and what its `where` clause
names is what is there then. A transaction is split where it can be overtaken, between its reads and
in front of its write; from the write of a row to the commit nobody else comes to that row.

The tables that these calls only read are what an event says they hold, so that whatever else writes
them may do so at any time. Audit rows and attention rows are left out.

## Main definitions

* `Isomux.Reinstatement.AttemptRow`, `Isomux.Reinstatement.SubscriptionRow` — the rows.
* `Isomux.Reinstatement.checkReinstatementEligibility` — whether the office may come back.
* `Isomux.Reinstatement.terminalRefusal` — why a paid subscription is not linked.
* `Isomux.Reinstatement.Office` — the tables, and the transactions that are running.
* `Isomux.Reinstatement.step` — one statement of one of the calls.
-/

namespace Isomux.Reinstatement

/-! ## Rows -/

inductive AttemptState where
  | opening
  | pending
  | accepted
  | expired
  | attention
  deriving DecidableEq

/-- A row of `reinstatement_attempts`. -/
structure AttemptRow where
  id : JsString
  accountId : JsString
  reservationId : JsString
  instanceId : JsString
  closedSubscriptionId : JsString
  closedEndedAt : ℤ
  newSubscriptionId : Option JsString
  checkoutSessionId : Option JsString
  checkoutGeneration : ℕ
  acceptedAt : ℤ
  fenceExpiresAt : ℤ
  stripeExpiresAt : ℤ
  state : AttemptState
  version : ℕ
  createdAt : ℤ
  updatedAt : ℤ
  deriving DecidableEq

/-- A row of `subscriptions`, as far as it is read here. -/
structure SubscriptionRow where
  id : JsString
  accountId : JsString
  instanceId : Option JsString
  status : JsString
  endedAt : Option ℤ
  cancellationReason : Option JsString
  version : ℕ
  createdAt : ℤ
  deriving DecidableEq

/-- A row of `name_reservations`, as far as it is read here. -/
structure ReservationRow where
  id : JsString
  instanceId : JsString
  accountId : JsString
  plan : JsString
  deriving DecidableEq

/-- A row of `accounts`, as far as it is read here. -/
structure AccountRow where
  id : JsString
  stripeCustomerId : Option JsString
  deriving DecidableEq

/-- `reinstatementAttemptId(closedSubscriptionId)`. -/
def reinstatementAttemptId (closedSubscriptionId : JsString) : JsString :=
  js "reinstate-" ++ closedSubscriptionId

def REINSTATEMENT_CHECKOUT_MS : ℤ := 30 * 60000

/-! ## Eligibility -/

inductive ReinstatementRefusal where
  | notCancelled
  | tooLate
  | powerOffNotProven
  | notSuspended
  | deletionStarted
  | assetNotRetainable
  | ownershipMismatch
  | noCustomerAccess
  | officeNotFound
  | subscriptionNotFound
  | alreadyReinstated
  deriving DecidableEq

/-- `REINSTATEMENT_REFUSAL_WORDS`. -/
def ReinstatementRefusal.words : ReinstatementRefusal → JsString
  | .notCancelled => js "This office is not in retained cancellation."
  | .tooLate => js "The retention period has ended, so we cannot open a reinstatement payment."
  | .powerOffNotProven =>
    js "The office has not finished powering off safely. Contact support before paying."
  | .notSuspended =>
    js "The retained office is not safely suspended. Contact support before paying."
  | .deletionStarted =>
    js "Permanent deletion has already started, so this office cannot be reinstated."
  | .assetNotRetainable => js "The retained server is no longer available for reinstatement."
  | .ownershipMismatch => js "We could not prove that every subscription for this office belongs " ++
    js "to your account."
  | .noCustomerAccess => js "We cannot prove that you can enter this office after it starts. " ++
    js "Contact support before paying."
  | .officeNotFound => js "We could not find that office."
  | .subscriptionNotFound => js "We could not find that subscription."
  | .alreadyReinstated => js "This office is already reinstated."

/-- `ReinstatementRefused`: the code, and what the customer reads. -/
structure ReinstatementRefused where
  code : ReinstatementRefusal
  reason : JsString
  deriving DecidableEq

def refusal (code : ReinstatementRefusal) : ReinstatementRefused := ⟨code, code.words⟩

/-- What the tables hold that are only read. -/
structure Facts where
  instanceRow : Option (InstanceRow × Option JsString)
  asset : Option AssetRow
  operations : List OperationRow
  expiryStarted : Bool

/-- The operations that turn the machine on or off and are not over. -/
def activePower (operations : List OperationRow) : Bool :=
  operations.any fun op =>
    (op.kind = OperationKind.powerOn.name || op.kind = OperationKind.powerOff.name) &&
      (op.status = .pending || op.status = .running || op.status = .ambiguous)

/-- The power-off of the cancellation is proven. -/
def poweredOff (operations : List OperationRow) (closedId : JsString) (endedAt : ℤ) : Bool :=
  ((operations.find? fun op => op.id = lifecycleOperationId .powerOff closedId endedAt).any
    fun op => op.status = .succeeded) && (poweredOffAtFrom operations closedId endedAt).isSome

def checkReinstatementEligibility (facts : Facts) (subscriptions : List SubscriptionRow)
    (reservation : ReservationRow) (closed : SubscriptionRow) (now : ℤ) :
    Except ReinstatementRefused Unit :=
  match closed.endedAt with
  | none => .error (refusal .notCancelled)
  | some endedAt =>
    if closed.instanceId ≠ some reservation.instanceId ∨
        closed.cancellationReason ≠ some CUSTOMER_CANCELLATION_REASON then .error (refusal .notCancelled)
    else if endedAt + RETENTION_MS ≤ now then .error (refusal .tooLate)
    else
      match facts.instanceRow with
      | none => .error (refusal .notSuspended)
      | some (row, fingerprint) =>
        if row.serviceState ≠ .suspended then .error (refusal .notSuspended)
        else if !facts.asset.any fun asset => asset.assetState = js "active" then
          .error (refusal .assetNotRetainable)
        else if facts.operations.any fun op =>
            op.kind = OperationKind.cancelAsset.name || op.kind = OperationKind.removeDns.name then
          .error (refusal .deletionStarted)
        else if !poweredOff facts.operations closed.id endedAt then .error (refusal .powerOffNotProven)
        else if closed.accountId ≠ reservation.accountId ∨ subscriptions.any (fun row =>
            row.instanceId = some reservation.instanceId && row.accountId ≠ reservation.accountId) then
          .error (refusal .ownershipMismatch)
        else if (!facts.operations.any fun op =>
            op.kind = OperationKind.revokeAccess.name && op.status = .succeeded) &&
              fingerprint.isNone then .error (refusal .noCustomerAccess)
        else .ok ()

/-! ## The office -/

/-- How far the transaction of `prepareReinstatementCheckout` is. -/
inductive PrepareStage where
  /-- The reservation, the plan and the account were read. -/
  | begun
  /-- The accepted attempt was selected: the subscription it names. -/
  | selected (newSubscriptionId : Option JsString)
  /-- The subscription that governs the office was read. -/
  | closing (closed : SubscriptionRow)
  | eligible (closed : SubscriptionRow) (endedAt now : ℤ)
  | read (closed : SubscriptionRow) (endedAt now : ℤ) (existing : Option AttemptRow)
  deriving DecidableEq

/-- A transaction of `prepareReinstatementCheckout`. -/
structure Prepare where
  reservation : ReservationRow
  account : AccountRow
  stripeCallPreparedAt : ℤ
  stage : PrepareStage
  deriving DecidableEq

/-- `PreparedReinstatement`. -/
structure Prepared where
  reservation : ReservationRow
  account : AccountRow
  attemptId : JsString
  generation : ℕ
  stripeExpiresAt : ℤ
  existingSessionId : Option JsString
  deriving DecidableEq

/-- What `applyEvent` fetched: a subscription, with the office and the attempt its metadata names. -/
structure Fetched where
  id : JsString
  accountId : JsString
  status : JsString
  endedAt : Option ℤ
  cancellationReason : Option JsString
  instanceId : JsString
  attemptId : JsString
  deriving DecidableEq

/-- A transaction of `applyEvent` that holds the lock on the row of an attempt. -/
structure Apply where
  fetched : Fetched
  row : Option SubscriptionRow
  attempt : AttemptRow
  deriving DecidableEq

/-- One retained office: the tables that are written, and the transactions that are running. -/
structure Office where
  instanceId : JsString
  attempts : KeyedTable AttemptRow.id
  subscriptions : KeyedTable SubscriptionRow.id
  preparing : List Prepare
  prepared : List Prepared
  sessions : List (JsString × ℕ × JsString)
  applying : List Apply

/-- `order by … desc limit 1`. -/
def newest {α : Type} (time : α → ℤ) : List α → Option α
  | [] => none
  | row :: rows =>
    match newest time rows with
    | none => some row
    | some other => if time row < time other then some other else some row

lemma newest_eq_some {α : Type} {time : α → ℤ} {rows : List α} {row : α}
    (h : newest time rows = some row) : row ∈ rows ∧ ∀ other ∈ rows, time other ≤ time row := by
  induction rows generalizing row with
  | nil => cases h
  | cons first rows ih =>
    rw [newest] at h
    split at h
    · rename_i hnone
      obtain rfl := Option.some.inj h
      cases rows with
      | nil => simp
      | cons second rows =>
        rw [newest] at hnone
        split at hnone
        · cases hnone
        · split_ifs at hnone
    · rename_i other hother
      obtain ⟨hmem, hall⟩ := ih hother
      split_ifs at h with hlt
      · obtain rfl := Option.some.inj h
        refine ⟨List.mem_cons_of_mem _ hmem, fun x hx => ?_⟩
        rcases List.mem_cons.1 hx with rfl | hx
        · exact hlt.le
        · exact hall x hx
      · obtain rfl := Option.some.inj h
        refine ⟨List.mem_cons_self, fun x hx => ?_⟩
        rcases List.mem_cons.1 hx with rfl | hx
        · exact le_rfl
        · exact (hall x hx).trans (not_lt.1 hlt)

lemma exists_newest {α : Type} {time : α → ℤ} {rows : List α} {row : α} (h : row ∈ rows) :
    ∃ other, newest time rows = some other := by
  cases rows with
  | nil => cases h
  | cons first rows =>
    rw [newest]
    split
    · exact ⟨_, rfl⟩
    · split_ifs
      · exact ⟨_, rfl⟩
      · exact ⟨_, rfl⟩

namespace Office

def start (instanceId : JsString) (subscriptions : KeyedTable SubscriptionRow.id) : Office where
  instanceId := instanceId
  attempts := KeyedTable.empty
  subscriptions := subscriptions
  preparing := []
  prepared := []
  sessions := []
  applying := []

variable (s : Office)

/-- The newest accepted attempt, by the time its Checkout was begun. -/
def acceptedAttempt : Option AttemptRow :=
  newest (·.acceptedAt)
    (s.attempts.rows.filter fun row => row.instanceId = s.instanceId ∧ row.state = .accepted)

/-- The subscription that an accepted attempt names, or the newest one of the office. -/
def selectSubscription : Option JsString → Option SubscriptionRow
  | some id => s.subscriptions.find id
  | none =>
    newest (·.createdAt) (s.subscriptions.rows.filter fun row => row.instanceId = some s.instanceId)

def currentSubscriptionForInstance : Option SubscriptionRow :=
  s.selectSubscription (s.acceptedAttempt.bind (·.newSubscriptionId))

def locked (attemptId : JsString) : Bool :=
  s.applying.any fun t => t.attempt.id = attemptId

/-! ## The calls -/

variable (i : ℕ) (t : Prepare)

def advance (stage : PrepareStage) : Office :=
  { s with preparing := s.preparing.set i { t with stage } }

def endPrepare : Office := { s with preparing := s.preparing.eraseIdx i }

/-- The generation a Checkout is prepared for. -/
def nextGeneration : Option AttemptRow → ℕ
  | none => 1
  | some existing => existing.checkoutGeneration + if existing.state = .expired then 1 else 0

/-- When its session is to expire. Five seconds are for the way. -/
def nextStripeExpiry (existing : Option AttemptRow) (stripeCallPreparedAt : ℤ) : ℤ :=
  match existing.filter fun row => row.state ≠ .expired with
  | some row => row.stripeExpiresAt
  | none => stripeCallPreparedAt + REINSTATEMENT_CHECKOUT_MS + 5000

def firstAttempt (closed : SubscriptionRow) (endedAt now : ℤ) : AttemptRow where
  id := reinstatementAttemptId closed.id
  accountId := t.account.id
  reservationId := t.reservation.id
  instanceId := s.instanceId
  closedSubscriptionId := closed.id
  closedEndedAt := endedAt
  newSubscriptionId := none
  checkoutSessionId := none
  checkoutGeneration := nextGeneration none
  acceptedAt := now
  fenceExpiresAt := endedAt + RETENTION_MS
  stripeExpiresAt := nextStripeExpiry none t.stripeCallPreparedAt
  state := .opening
  version := 1
  createdAt := now
  updatedAt := now

/-- The row is set to a generation. The statement names the row by its id alone. -/
def reopened (generation : ℕ) (now stripeExpiresAt : ℤ) (row : AttemptRow) : AttemptRow :=
  { row with
    checkoutGeneration := generation
    checkoutSessionId := none
    acceptedAt := now
    stripeExpiresAt := stripeExpiresAt
    state := .opening
    updatedAt := now
    version := row.version + 1 }

def preparedOf (closed : SubscriptionRow) (existing : Option AttemptRow) : Prepared where
  reservation := t.reservation
  account := t.account
  attemptId := reinstatementAttemptId closed.id
  generation := nextGeneration existing
  stripeExpiresAt := nextStripeExpiry existing t.stripeCallPreparedAt
  existingSessionId :=
    (existing.filter fun row => row.state ≠ .expired).bind (·.checkoutSessionId)

/-- The end of `prepareReinstatementCheckout`: its write, and the commit. -/
def writeAttempt (closed : SubscriptionRow) (endedAt now : ℤ)
    (existing : Option AttemptRow) : Office :=
  let id := reinstatementAttemptId closed.id
  let returned := { s.endPrepare i with prepared := preparedOf t closed existing :: s.prepared }
  match existing with
  | none =>
    -- The id and the subscription that ended are unique.
    if s.attempts.rows.any fun row => row.closedSubscriptionId = closed.id then s.endPrepare i
    else
      match s.attempts.insert (s.firstAttempt t closed endedAt now) with
      | none => s.endPrepare i
      | some attempts => { returned with attempts }
  | some row =>
    if row.state ≠ .expired then returned
    else if s.locked id then s
    else
      { returned with
        attempts := s.attempts.update id
          (reopened (nextGeneration existing) now
            (nextStripeExpiry existing t.stripeCallPreparedAt)) fun _ => rfl }

/-- The rows of an attempt that meet a condition are changed, when nobody holds the lock. -/
def updateWhere (attemptId : JsString) (where_ : AttemptRow → Bool)
    (change : AttemptRow → AttemptRow) (hchange : ∀ row, (change row).id = row.id) : Office :=
  if s.locked attemptId then s
  else
    { s with
      attempts := s.attempts.update attemptId (fun row => if where_ row then change row else row)
        fun row => by split_ifs <;> simp [hchange] }

/-- The row of an attempt is in another state. -/
def inState (state : AttemptState) (now : ℤ) (row : AttemptRow) : AttemptRow :=
  { row with state := state, updatedAt := now, version := row.version + 1 }

/-- `recordFetchedExpiredReinstatementSession`. -/
def recordFetchedExpired (attemptId sessionId : JsString) (now : ℤ) : Office :=
  s.updateWhere attemptId
    (fun row => row.checkoutSessionId = some sessionId &&
      (row.state = .opening || row.state = .pending))
    (inState .expired now) fun _ => rfl

variable (prepared : Prepared)

/-- `recordReinstatementCheckoutFailure`. -/
def recordCheckoutFailure (now : ℤ) : Office :=
  s.updateWhere prepared.attemptId
    (fun row => row.checkoutGeneration = prepared.generation && row.state = .opening &&
      row.checkoutSessionId.isNone)
    (inState .expired now) fun _ => rfl

/-- `recordReinstatementSession`. -/
def recordSession (sessionId : JsString) (now : ℤ) : Office :=
  s.updateWhere prepared.attemptId (fun row => row.checkoutGeneration = prepared.generation)
    (fun row => { inState .pending now row with checkoutSessionId := some sessionId }) fun _ => rfl

/-! ## The event of a paid subscription -/

def terminalRefusal (t : Apply) (facts : Facts) (reservation : Option ReservationRow)
    (now : ℤ) : Bool :=
  match reservation, s.subscriptions.find t.attempt.closedSubscriptionId with
  | some reservation, some closed =>
    t.attempt.state ≠ .pending || t.attempt.instanceId ≠ t.fetched.instanceId ||
      t.attempt.accountId ≠ ((t.row.map (·.accountId)).getD t.fetched.accountId) ||
      facts.expiryStarted || t.attempt.fenceExpiresAt ≤ now ||
      !(checkReinstatementEligibility facts s.subscriptions.rows reservation closed now).isOk
  | _, _ => true

/-- The subscription is linked: `linkageFrom` names the attempt. -/
def links (t : Apply) (facts : Facts) (reservation : Option ReservationRow) (now : ℤ) : Bool :=
  !s.terminalRefusal t facts reservation now &&
    (t.fetched.status = js "active" || t.fetched.status = js "trialing") &&
    !activePower facts.operations

/-- The row of the subscription with what was fetched. -/
def fetchedRow (t : Apply) (instanceId : Option JsString) (now : ℤ) : SubscriptionRow :=
  match t.row with
  | none =>
    { id := t.fetched.id
      accountId := t.fetched.accountId
      instanceId
      status := t.fetched.status
      endedAt := t.fetched.endedAt
      cancellationReason := t.fetched.cancellationReason
      version := 2
      createdAt := now }
  | some row =>
    { row with
      instanceId
      status := t.fetched.status
      endedAt := t.fetched.endedAt
      cancellationReason := t.fetched.cancellationReason
      version := row.version + 1 }

def accept (subscriptionId : JsString) (now : ℤ) (row : AttemptRow) : AttemptRow :=
  { inState .accepted now row with newSubscriptionId := some subscriptionId }

def endApply : Office := { s with applying := s.applying.eraseIdx i }

/-- The writes of `applyEvent`, and the commit. A row of one version is one row, so the write of the
subscription finds what was read. No subscription takes the place of two. -/
def commitEvent (t : Apply) (facts : Facts)
    (reservation : Option ReservationRow) (now : ℤ) : Office :=
  if s.subscriptions.find t.fetched.id ≠ t.row then s.endApply i
  else if s.links t facts reservation now then
    if s.attempts.rows.any fun row => row.newSubscriptionId = some t.fetched.id then s.endApply i
    else
      { s.endApply i with
        subscriptions := s.subscriptions.put (fetchedRow t (some t.fetched.instanceId) now)
        attempts := s.attempts.update t.attempt.id (accept t.fetched.id now) fun _ => rfl }
  else { s.endApply i with subscriptions := s.subscriptions.put (fetchedRow t none now) }

/-! ## Steps -/

/-- A statement of one of the calls, or what happens around them. -/
inductive Event where
  /-- `prepareReinstatementCheckout` begins: what it reads of the account. -/
  | beginPrepare (accountId : JsString) (reservation : ReservationRow) (account : AccountRow)
    (planKnown : Bool) (stripeCallPreparedAt : ℤ)
  | selectAccepted (i : ℕ)
  | selectClosed (i : ℕ)
  /-- It checks whether the office may come back. -/
  | checkEligible (i : ℕ) (facts : Facts) (now : ℤ)
  | readAttempt (i : ℕ)
  | writeAttempt (i : ℕ)
  | abortPrepare (i : ℕ)
  /-- Stripe creates a session under the key of an attempt and a generation. -/
  | createSession (prepared : Prepared) (sessionId : JsString)
  | recordSession (prepared : Prepared) (sessionId : JsString) (now : ℤ)
  | recordCheckoutFailure (prepared : Prepared) (now : ℤ)
  /-- `recordFetchedExpiredReinstatementSession`. -/
  | recordFetchedExpired (attemptId sessionId : JsString) (now : ℤ)
  /-- `applyEvent` comes to an attempt and takes the lock on its row. -/
  | lockAttempt (fetched : Fetched)
  | commitEvent (i : ℕ) (facts : Facts) (reservation : Option ReservationRow) (now : ℤ)
  | abortEvent (i : ℕ)
  /-- Another event writes what was fetched of a subscription. -/
  | otherEvent (row : SubscriptionRow)

/-- `prepareReinstatementCheckout` begins unless it refuses at once. -/
def beginPrepare (accountId : JsString) (reservation : ReservationRow)
    (account : AccountRow) (planKnown : Bool) (stripeCallPreparedAt : ℤ) : Office :=
  if reservation.instanceId ≠ s.instanceId ∨ reservation.accountId ≠ accountId ∨
      account.id ≠ accountId ∨ planKnown = false ∨ account.stripeCustomerId = none then s
  else
    { s with
      preparing := s.preparing ++ [{ reservation, account, stripeCallPreparedAt, stage := .begun }] }

/-- The next statement of a transaction of `prepareReinstatementCheckout`. -/
def prepareStep : Event → Office
  | .selectAccepted _ =>
    match t.stage with
    | .begun => s.advance i t (.selected (s.acceptedAttempt.bind (·.newSubscriptionId)))
    | _ => s
  | .selectClosed _ =>
    match t.stage with
    | .selected newSubscriptionId =>
      match s.selectSubscription newSubscriptionId with
      | none => s.endPrepare i
      | some closed => s.advance i t (.closing closed)
    | _ => s
  | .checkEligible _ facts now =>
    match t.stage with
    | .closing closed =>
      match closed.endedAt,
          checkReinstatementEligibility facts s.subscriptions.rows t.reservation closed now with
      | some endedAt, .ok () => s.advance i t (.eligible closed endedAt now)
      | _, _ => s.endPrepare i
    | _ => s
  | .readAttempt _ =>
    match t.stage with
    | .eligible closed endedAt now =>
      let existing := s.attempts.find (reinstatementAttemptId closed.id)
      if existing.any fun row => row.state = .accepted then s.endPrepare i
      else s.advance i t (.read closed endedAt now existing)
    | _ => s
  | .writeAttempt _ =>
    match t.stage with
    | .read closed endedAt now existing => s.writeAttempt i t closed endedAt now existing
    | _ => s
  | _ => s

/-- The transaction of `prepareReinstatementCheckout` at a place takes a step. -/
def onPrepare (event : Event) : Office :=
  match s.preparing[i]? with
  | none => s
  | some t => s.prepareStep i t event

/-- Stripe creates a session. One key gives one session, and two keys give two. -/
def createSession (sessionId : JsString) : Office :=
  if prepared ∈ s.prepared ∧ ∀ entry ∈ s.sessions, entry.2.2 ≠ sessionId then
    { s with sessions := (prepared.attemptId, prepared.generation, sessionId) :: s.sessions }
  else s

/-- `applyEvent` takes the lock, when nobody holds it. A subscription that is linked has no linkage
to find. -/
def lockAttempt (fetched : Fetched) : Office :=
  match s.attempts.find fetched.attemptId with
  | none => s
  | some attempt =>
    let row := s.subscriptions.find fetched.id
    if s.locked attempt.id || (row.bind (·.instanceId)).isSome then s
    else { s with applying := s.applying ++ [{ fetched, row, attempt }] }

/-- Another event writes a subscription. Its account and its office stay. -/
def otherEvent (row : SubscriptionRow) : Office :=
  match s.subscriptions.find row.id with
  | none => { s with subscriptions := s.subscriptions.put row }
  | some old =>
    { s with
      subscriptions := s.subscriptions.put
        { row with
          accountId := old.accountId
          instanceId := old.instanceId.or row.instanceId
          version := old.version + 1
          createdAt := old.createdAt } }

def step (event : Event) : Office :=
  match event with
  | .beginPrepare accountId reservation account planKnown stripeCallPreparedAt =>
    s.beginPrepare accountId reservation account planKnown stripeCallPreparedAt
  | .selectAccepted i => s.onPrepare i event
  | .selectClosed i => s.onPrepare i event
  | .checkEligible i _ _ => s.onPrepare i event
  | .readAttempt i => s.onPrepare i event
  | .writeAttempt i => s.onPrepare i event
  | .abortPrepare i => s.endPrepare i
  | .createSession prepared sessionId => s.createSession prepared sessionId
  | .recordSession prepared sessionId now =>
    if prepared ∈ s.prepared ∧
        (prepared.attemptId, prepared.generation, sessionId) ∈ s.sessions then
      s.recordSession prepared sessionId now
    else s
  | .recordCheckoutFailure prepared now =>
    if prepared ∈ s.prepared then s.recordCheckoutFailure prepared now else s
  | .recordFetchedExpired attemptId sessionId now =>
    s.recordFetchedExpired attemptId sessionId now
  | .lockAttempt fetched => s.lockAttempt fetched
  | .commitEvent i facts reservation now =>
    match s.applying[i]? with
    | none => s
    | some t => s.commitEvent i t facts reservation now
  | .abortEvent i => s.endApply i
  | .otherEvent row => s.otherEvent row

def run (s : Office) (events : List Event) : Office := Machine.run step s events

end Office

end Isomux.Reinstatement
