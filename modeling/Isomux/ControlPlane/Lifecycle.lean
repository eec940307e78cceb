import Isomux.Runtime.Dates
import Isomux.Runtime.Values
import Mathlib.Data.List.Sort

set_option autoImplicit false

/-!
# The end of an office

What the control plane does about an office whose customer cancelled: it powers the machine off,
keeps it for the time that was promised, and then has it deleted. All of it is computed from the rows
of the store and the time.

Instants of the store are whole milliseconds in the range of `Date`. The evidence of an operation is
what `JSON.parse` makes of its text; the numbers in it are what they are. `Date.parse` is a
parameter.

## Main definitions

* `Isomux.phaseAt` — the phase of an office and its deadlines.
* `Isomux.poweredOffAtFrom`, `Isomux.repowerFacts` — what the operations say about the machine.
* `Isomux.decideLifecycle` — what to do about an office.
-/

namespace Isomux

/-! ## Rows -/

inductive OperationKind where
  | createInstance
  | waitForAddress
  | waitForSsh
  | waitForPackageManager
  | firstContact
  | installCustomerKey
  | armRevocation
  | setDns
  | runInstaller
  | verifyHttps
  | mintInvite
  | revokeAccess
  | powerOff
  | reboot
  | powerOn
  | expireCheckout
  | cancelAsset
  | removeDns
  deriving DecidableEq

def OperationKind.name : OperationKind → JsString
  | .createInstance => js "create_instance"
  | .waitForAddress => js "wait_for_address"
  | .waitForSsh => js "wait_for_ssh"
  | .waitForPackageManager => js "wait_for_package_manager"
  | .firstContact => js "first_contact"
  | .installCustomerKey => js "install_customer_key"
  | .armRevocation => js "arm_revocation"
  | .setDns => js "set_dns"
  | .runInstaller => js "run_installer"
  | .verifyHttps => js "verify_https"
  | .mintInvite => js "mint_invite"
  | .revokeAccess => js "revoke_access"
  | .powerOff => js "power_off"
  | .reboot => js "reboot"
  | .powerOn => js "power_on"
  | .expireCheckout => js "expire_checkout"
  | .cancelAsset => js "cancel_asset"
  | .removeDns => js "remove_dns"

inductive OperationStatus where
  | pending
  | running
  | succeeded
  | failed
  | ambiguous
  deriving DecidableEq

/-- A row of the operations. `evidence` is what its text parses to, if it does. -/
structure OperationRow where
  id : JsString
  kind : JsString
  status : OperationStatus
  evidence : Option JsValue

inductive ServiceState where
  | provisioning
  | live
  | suspended
  | deprovisioned
  deriving DecidableEq

structure InstanceRow where
  serviceState : ServiceState

/-- What is read of an asset of the provider. -/
structure AssetRow where
  id : JsString
  providerId : Option JsString
  assetState : JsString
  serviceEndsAt : Option JsString

inductive CancellationPolicy where
  | legacy
  | launch
  deriving DecidableEq

structure SubscriptionFacts where
  id : JsString
  endedAt : Option ℤ
  cancellationReason : Option JsString
  cancellationPolicy : Option CancellationPolicy

inductive ReinstatementState where
  | pending
  | accepted
  | expired
  | attention
  deriving DecidableEq

/-- A customer may come back while the machine is kept. -/
structure Reinstatement where
  state : ReinstatementState
  attemptId : JsString
  fenceExpiresAt : ℤ
  expiryProven : Bool

/-! ## The timeline -/

def GRACE_MS : ℤ := 7 * 24 * 60 * 60 * 1000

def RETENTION_MS : ℤ := 14 * 24 * 60 * 60 * 1000

/-- The reason of a cancellation by the customer. -/
def CUSTOMER_CANCELLATION_REASON : JsString := js "cancellation_requested"

/-- A month later; the last day of a shorter month stands for a day that it does not have. -/
def addUtcMonth (instant : ℤ) : ℤ :=
  let year := getUTCFullYear instant
  let month := getUTCMonth instant
  let day := getUTCDate instant
  let targetYear := if month = 11 then year + 1 else year
  let targetMonth := if month = 11 then 0 else month + 1
  let lastDay := getUTCDate (dateUTC targetYear (targetMonth + 1) 0 0 0 0 0)
  dateUTC targetYear targetMonth (min day lastDay) (getUTCHours instant) (getUTCMinutes instant)
    (getUTCSeconds instant) (getUTCMilliseconds instant)

/-- The instant that `new Date` makes of a number: its fraction is dropped. -/
def toInstant (n : ℚ) : ℤ := n.num.tdiv n.den

inductive LifecyclePhase where
  | serving
  | grace
  | powerOffDue
  | suspended
  | deprovisionDue
  | reinstatementPending
  | checkoutExpiryDue
  | reinstated
  | ended
  deriving DecidableEq

def LifecyclePhase.name : LifecyclePhase → JsString
  | .serving => js "serving"
  | .grace => js "grace"
  | .powerOffDue => js "power_off_due"
  | .suspended => js "suspended"
  | .deprovisionDue => js "deprovision_due"
  | .reinstatementPending => js "reinstatement_pending"
  | .checkoutExpiryDue => js "checkout_expiry_due"
  | .reinstated => js "reinstated"
  | .ended => js "ended"

structure TimelineFacts where
  endedAt : Option ℤ
  cancellationReason : Option JsString
  poweredOffAt : Option ℚ
  repoweredAt : Option ℚ
  cancellationPolicy : Option CancellationPolicy
  assetGone : Bool
  reinstatement : Option Reinstatement

structure Timeline where
  phase : LifecyclePhase
  graceEnd : Option ℤ
  retentionEnd : Option ℤ
  promisedUntil : Option ℤ

def isCustomerCancellation (endedAt : Option ℤ) (cancellationReason : Option JsString) : Bool :=
  endedAt.isSome && cancellationReason = some CUSTOMER_CANCELLATION_REASON

variable (policy : Option CancellationPolicy)

def graceEndOf (endedAt : ℤ) : ℤ :=
  endedAt + if policy = some .launch then 0 else GRACE_MS

/-- When the retention ends. Under the legacy policy it is not known before the machine is off. -/
def retentionEndOf (endedAt : ℤ) (poweredOffAt : Option ℚ) : Option ℤ :=
  if policy = some .launch then some (endedAt + RETENTION_MS)
  else poweredOffAt.map fun offAt => addUtcMonth (toInstant offAt)

/-- The earliest instant at which the data may be gone. -/
def promisedUntilOf (endedAt : ℤ) (poweredOffAt : Option ℚ) : ℤ :=
  if policy = some .launch then endedAt + RETENTION_MS
  else (retentionEndOf policy endedAt poweredOffAt).getD (addUtcMonth (graceEndOf policy endedAt))

variable (facts : TimelineFacts)

/-- The phase of an office whose asset is there and whose reinstatement does not hold it. -/
def powerPhase (endedAt now : ℤ) : LifecyclePhase :=
  let policy := facts.cancellationPolicy
  if facts.poweredOffAt.isSome && facts.repoweredAt.isNone then
    if (retentionEndOf policy endedAt facts.poweredOffAt).any fun retentionEnd =>
        retentionEnd ≤ now then
      .deprovisionDue
    else .suspended
  else if policy ≠ some .launch ∧ now < graceEndOf policy endedAt then .grace
  else .powerOffDue

/-- The phase of an office whose customer cancelled. -/
def cancelledPhase (endedAt now : ℤ) : LifecyclePhase :=
  if facts.assetGone then .ended
  else
    match facts.reinstatement with
    | some ⟨.accepted, _, _, _⟩ => .reinstated
    | some ⟨.pending, _, fenceExpiresAt, expiryProven⟩ =>
      if now < fenceExpiresAt then .reinstatementPending
      else if !expiryProven then .checkoutExpiryDue
      else powerPhase facts endedAt now
    | _ => powerPhase facts endedAt now

def phaseAt (now : ℤ) : Timeline :=
  match facts.endedAt with
  | some endedAt =>
    if isCustomerCancellation (some endedAt) facts.cancellationReason then
      { phase := cancelledPhase facts endedAt now
        graceEnd := some (graceEndOf facts.cancellationPolicy endedAt)
        retentionEnd := retentionEndOf facts.cancellationPolicy endedAt facts.poweredOffAt
        promisedUntil := some
          (promisedUntilOf facts.cancellationPolicy endedAt facts.poweredOffAt) }
    else ⟨.serving, none, none, none⟩
  | none => ⟨.serving, none, none, none⟩

/-! ## What the operations say -/

/-- The name of an operation of this lifecycle. -/
def lifecycleOperationId (kind : OperationKind) (subscriptionId : JsString) (endedAt : ℤ) :
    JsString :=
  js "op-" ++ kind.name ++ js "-cancel-" ++ subscriptionId ++ js "-" ++ js (toString endedAt)

/-- The name of a power-off that answers a reboot. -/
def correctivePowerOffId (subscriptionId rebootId : JsString) : JsString :=
  js "op-power_off-cancel-corrective-" ++ subscriptionId ++ js "-" ++ rebootId

/-- The stamp of an operation of this lifecycle. -/
def LIFECYCLE_REASON : JsString := js "cancellation"

variable (op : OperationRow)

def numberEvidence (key : String) : Option ℚ :=
  match op.evidence.map (JsValue.field · key) with
  | some (.number n) => some n
  | _ => none

def stringEvidence (key : String) : Option JsString :=
  match op.evidence.map (JsValue.field · key) with
  | some (.string s) => some s
  | _ => none

/-- The strings of an array in the evidence. -/
def stringArrayEvidence (key : String) : List JsString :=
  match op.evidence.map (JsValue.field · key) with
  | some (.array items) =>
    items.filterMap fun
      | .string s => some s
      | _ => none
  | _ => []

def isLifecycleRow : Bool :=
  stringEvidence op "reason" = some LIFECYCLE_REASON

variable (operations : List OperationRow) (subscriptionId : JsString)

/-- When the power-off of the cancellation succeeded, by its own evidence. -/
def poweredOffAtFrom (endedAt : ℤ) : Option ℚ :=
  let id := lifecycleOperationId .powerOff subscriptionId endedAt
  (operations.find? fun op => op.id = id ∧ op.status = .succeeded).bind fun row =>
    numberEvidence row "poweredOffAt"

structure RepowerFacts where
  repoweredAt : Option ℚ
  rebootId : Option JsString
  unknown : Bool

def correctionRows (endedAt : ℤ) : List OperationRow :=
  operations.filter fun op => op.kind = OperationKind.powerOff.name ∧ op.status = .succeeded ∧
    isLifecycleRow op ∧ op.id ≠ lifecycleOperationId .powerOff subscriptionId endedAt

def succeededReboots : List OperationRow :=
  operations.filter fun op => op.kind = OperationKind.reboot.name ∧ op.status = .succeeded

def lastPowerOff (corrections : List OperationRow) (firstPoweredOffAt : ℚ) : ℚ :=
  (corrections.filterMap fun op => numberEvidence op "poweredOffAt").foldl max firstPoweredOffAt

def explicitlyAnswered (corrections : List OperationRow) (reboot : OperationRow) : Bool :=
  corrections.any fun op => stringEvidence op "correctiveFor" = some reboot.id ||
    decide (reboot.id ∈ stringArrayEvidence op "answeredReboots")

/-- The reboots after an instant, the latest first. -/
def rebootsAfter (reboots : List OperationRow) (lastOff : ℚ) : List (OperationRow × ℚ) :=
  let timed := reboots.filterMap fun op =>
    (numberEvidence op "rebootedAt").map fun rebootedAt => (op, rebootedAt)
  (timed.filter fun entry => lastOff < entry.2).insertionSort fun a b => b.2 ≤ a.2

/-- `repowerFacts`. A reboot whose time is not known counts unless a later power-off names it. -/
def repowerFacts (endedAt : ℤ) (firstPoweredOffAt : Option ℚ) : RepowerFacts :=
  match firstPoweredOffAt with
  | none => ⟨none, none, false⟩
  | some first =>
    let corrections := correctionRows operations subscriptionId endedAt
    let reboots := succeededReboots operations
    let unanswered := reboots.find? fun reboot =>
      (numberEvidence reboot "rebootedAt").isNone && !explicitlyAnswered corrections reboot
    match unanswered with
    | some reboot => ⟨some first, some reboot.id, true⟩
    | none =>
      match rebootsAfter reboots (lastPowerOff corrections first) with
      | later :: _ => ⟨some later.2, some later.1.id, false⟩
      | [] => ⟨none, none, false⟩

def GONE_STATES : List JsString := [js "cancelled", js "absent"]

variable (asset : Option AssetRow)

def isAssetGone : Bool :=
  asset.any fun row => decide (row.assetState ∈ GONE_STATES)

structure CancellationState where
  timeline : Timeline
  poweredOffAt : Option ℚ
  repower : RepowerFacts

/-- `cancellationStateFrom`, of a cancellation by the customer. -/
def cancellationStateFrom (subscription : SubscriptionFacts) (endedAt : ℤ)
    (operations : List OperationRow) (asset : Option AssetRow) (now : ℤ)
    (reinstatement : Option Reinstatement) : CancellationState :=
  let poweredOffAt := poweredOffAtFrom operations subscription.id endedAt
  let repower := repowerFacts operations subscription.id endedAt poweredOffAt
  { poweredOffAt := poweredOffAt
    repower := repower
    timeline := phaseAt
      { endedAt := some endedAt
        cancellationReason := subscription.cancellationReason
        poweredOffAt := poweredOffAt
        repoweredAt := repower.repoweredAt
        cancellationPolicy :=
          if subscription.cancellationPolicy = some .launch then some .launch else some .legacy
        assetGone := isAssetGone asset
        reinstatement := reinstatement } now }

/-! ## Attention -/

inductive Severity where
  | info
  | warning
  | critical
  deriving DecidableEq

/-- A condition that a person has to look at is raised, or cleared. -/
inductive AttentionAction where
  | raise (key reason : JsString) (severity : Severity) (detail : Option JsString)
  | clear (key : JsString)

/-- The provider may end its service before the promise does. -/
def PROMISE_AT_RISK : JsString := js "lifecycle-promise-at-risk"

/-- The provider ended its service before the promise did. -/
def PROMISE_BROKEN : JsString := js "lifecycle-promise-broken"

/-- There are rows of the lifecycle that should not be there. -/
def LIFECYCLE_STRAY : JsString := js "lifecycle-stray-rows"

def LIFECYCLE_REPOWERED : JsString := js "lifecycle-repowered"

/-- The asset is gone and its office is not cancelled. -/
def LIFECYCLE_ASSET_GONE : JsString := js "lifecycle-asset-gone"

def ASSET_GONE_REASON : JsString :=
  js "the provider asset for this office is gone while its " ++
    js "subscription cancellation is not complete; billing and provider " ++
    js "state need operator review"

def iso (instant : Option ℤ) : JsString :=
  match instant with
  | some instant => toISOString instant
  | none => js "unknown"

def isDateOnly (raw : JsString) : Bool :=
  match raw with
  | [y1, y2, y3, y4, dash1, m1, m2, dash2, d1, d2] =>
    ([y1, y2, y3, y4, m1, m2, d1, d2].all fun c => 48 ≤ c && c ≤ 57) && dash1 = 45 && dash2 = 45
  | _ => false

section

variable (dateParse : JsString → Option ℤ)

/-- The date of the provider as an instant. -/
def parseServiceEndsAt (raw : Option JsString) : Option ℤ :=
  match raw with
  | none => none
  | some [] => none
  | some raw => dateParse (if isDateOnly raw then raw ++ js "T00:00:00Z" else raw)

/-- `promiseAtRisk`: the reason, if the promise is at risk. -/
def promiseAtRisk (asset : Option AssetRow) (promisedUntil : Option ℤ) : Option JsString :=
  match asset, promisedUntil with
  | some asset, some retentionEnd =>
    match parseServiceEndsAt dateParse asset.serviceEndsAt with
    | some endsAt =>
      if retentionEnd ≤ endsAt then none
      else some (js "the provider ends service for " ++ asset.providerId.getD asset.id ++
        js " BEFORE " ++ js "the retention deadline this office was promised; the term has to be " ++
        js "renewed or the promise is broken")
    | none => none
  | _, _ => none

end

def datedEvidence (asset : Option AssetRow) (promisedUntil : Option ℤ) (now : ℤ) : JsString :=
  js "service_ends_at=" ++ (asset.bind (·.serviceEndsAt)).getD (js "unknown") ++ js " " ++
    js "promisedUntil=" ++ iso promisedUntil ++ js " observed=" ++ iso (some now)

def assetGoneAction (instanceRow : InstanceRow) (asset : Option AssetRow) : AttentionAction :=
  if instanceRow.serviceState ≠ .deprovisioned ∧ isAssetGone asset then
    .raise LIFECYCLE_ASSET_GONE ASSET_GONE_REASON .critical none
  else .clear LIFECYCLE_ASSET_GONE

/-! ## Decisions -/

structure LifecycleInputs where
  instanceRow : InstanceRow
  asset : Option AssetRow
  operations : List OperationRow
  subscription : Option SubscriptionFacts
  reinstatement : Option Reinstatement
  now : ℤ

structure OpenedOperation where
  kind : OperationKind
  id : JsString
  evidence : JsValue

structure LifecycleDecision where
  opened : List OpenedOperation
  finish : Bool
  attention : List AttentionAction
  phase : LifecyclePhase
  note : JsString

/-- A condition for a person, of the worst kind. -/
def raiseCritical (key reason : JsString) (detail : Option JsString) : AttentionAction :=
  .raise key reason .critical detail

def truthy (s : Option JsString) : Option JsString := s.filter (· ≠ [])

def instantValue (instant : Option ℤ) : JsValue :=
  match instant with
  | some instant => .number instant
  | none => .null

/-- The evidence of an operation of this lifecycle. -/
def lifecycleEvidence (subscriptionId : JsString) (more : List (String × JsValue)) : JsValue :=
  .object ([("reason", .string LIFECYCLE_REASON), ("subscription", .string subscriptionId)] ++ more)

variable (inputs : LifecycleInputs)

/-- An office whose subscription did not end by a cancellation of the customer. -/
def decideServing : LifecycleDecision :=
  let gone := assetGoneAction inputs.instanceRow inputs.asset
  if inputs.operations.any isLifecycleRow then
    { opened := []
      finish := false
      attention := [gone, raiseCritical LIFECYCLE_STRAY
        (js "a cancellation lifecycle was started for this office and its " ++
          js "subscription is not terminal; nothing further will be opened " ++
          js "until a person looks") none]
      phase := .serving
      note := js "lifecycle rows exist without a terminal cancellation" }
  else
    { opened := []
      finish := false
      attention := [gone]
      phase := .serving
      note := js "not a customer cancellation" }

variable (dateParse : JsString → Option ℤ) (inputs : LifecycleInputs)

def decideEnded
    (subscriptionId : JsString) (endedAt : ℤ) (timeline : Timeline) : LifecycleDecision :=
  let provenEarly := (promiseAtRisk dateParse inputs.asset timeline.promisedUntil).isSome
  let early := provenEarly ||
    ((parseServiceEndsAt dateParse (inputs.asset.bind (·.serviceEndsAt))).isNone &&
      timeline.promisedUntil.any fun promisedUntil => decide (inputs.now < promisedUntil))
  let assetState := inputs.asset.map (·.assetState)
  { opened := [
      { kind := .removeDns
        id := lifecycleOperationId .removeDns subscriptionId endedAt
        evidence := lifecycleEvidence subscriptionId
          [("assetState", match assetState with
            | some state => .string state
            | none => .null)] }]
    finish := inputs.instanceRow.serviceState ≠ .deprovisioned
    attention := [.clear LIFECYCLE_REPOWERED, .clear LIFECYCLE_ASSET_GONE] ++
      if early then
        [.clear PROMISE_AT_RISK, raiseCritical PROMISE_BROKEN
          (js "the provider asset for this office ended BEFORE the " ++
            iso timeline.promisedUntil ++ js " the customer was promised; the " ++
            js "retention promise was broken and the data is already gone")
          (some (datedEvidence inputs.asset timeline.promisedUntil inputs.now))]
      else [.clear PROMISE_AT_RISK]
    phase := timeline.phase
    note :=
      if early then
        js "provider ended the asset EARLY (" ++ assetState.getD (js "undefined") ++
          js "); promise broken"
      else
        js "provider reports the asset " ++ assetState.getD (js "undefined") ++
          js "; data end recorded" }

def decideReinstated (subscriptionId : JsString) (endedAt : ℤ)
    (timeline : Timeline) : LifecycleDecision :=
  let allowed := lifecycleOperationId .powerOff subscriptionId endedAt
  let stray := inputs.operations.any fun op => isLifecycleRow op &&
    !(decide (op.id = allowed) && decide (op.kind = OperationKind.powerOff.name) &&
      decide (op.status = .succeeded))
  { opened := []
    finish := false
    attention := .clear PROMISE_AT_RISK ::
      if stray then
        [raiseCritical LIFECYCLE_STRAY (js ("a reinstated office has cancellation lifecycle " ++
          "rows beyond its exact succeeded suspension; a person must inspect them")) none]
      else []
    phase := timeline.phase
    note := js "the retained office was reinstated" }

/-- What is raised or cleared about the promise while the asset is there. -/
def riskAttention (timeline : Timeline) : AttentionAction :=
  match promiseAtRisk dateParse inputs.asset timeline.promisedUntil with
  | some reason => raiseCritical PROMISE_AT_RISK reason
      (some (datedEvidence inputs.asset timeline.promisedUntil inputs.now))
  | none => .clear PROMISE_AT_RISK

/-- The power-off that is due. One that answers a reboot and is under way is asked for again. -/
def openedPowerOff (subscriptionId : JsString) (endedAt : ℤ)
    (timeline : Timeline) (repower : RepowerFacts) : OpenedOperation :=
  let first := lifecycleOperationId .powerOff subscriptionId endedAt
  let activeCorrection := inputs.operations.find? fun op =>
    op.kind = OperationKind.powerOff.name ∧ op.status ∈ [.pending, .running, .ambiguous] ∧
      isLifecycleRow op ∧ op.id ≠ first
  { kind := .powerOff
    id :=
      match activeCorrection with
      | some op => op.id
      | none =>
        match truthy repower.rebootId with
        | some rebootId => correctivePowerOffId subscriptionId rebootId
        | none => first
    evidence := lifecycleEvidence subscriptionId
      (("graceEnd", instantValue timeline.graceEnd) ::
        match truthy repower.rebootId with
        | some rebootId =>
          [("correctiveFor", .string rebootId),
            ("answeredReboots",
              .array ((succeededReboots inputs.operations).map fun op => .string op.id))]
        | none => []) }

def openedDeletion (subscriptionId : JsString) (endedAt : ℤ) (timeline : Timeline)
    (kind : OperationKind) : OpenedOperation where
  kind := kind
  id := lifecycleOperationId kind subscriptionId endedAt
  evidence := lifecycleEvidence subscriptionId
    [("retentionEnd", instantValue timeline.retentionEnd)]

/-- What is raised or cleared about a machine that is on again. -/
def repowerAttention (repower : RepowerFacts) : AttentionAction :=
  match repower.repoweredAt with
  | some repoweredAt =>
    let rebooted := if repower.unknown then js "missing" else iso (some (toInstant repoweredAt))
    raiseCritical LIFECYCLE_REPOWERED
      (js ("a reboot succeeded after cancellation suspension; the office must be powered off " ++
        "again before deletion"))
      (some (js "reboot=" ++ repower.rebootId.getD (js "null") ++ js "; rebootedAt=" ++ rebooted ++
        js "; observed=" ++ iso (some inputs.now)))
  | none => .clear LIFECYCLE_REPOWERED

/-- An office in the course of its cancellation: what is opened depends on the phase. -/
def decideCourse
    (subscriptionId : JsString) (endedAt : ℤ) (state : CancellationState) : LifecycleDecision :=
  let timeline := state.timeline
  { opened :=
      match timeline.phase with
      | .powerOffDue => [openedPowerOff inputs subscriptionId endedAt timeline state.repower]
      | .deprovisionDue =>
        [.cancelAsset, .removeDns].map (openedDeletion subscriptionId endedAt timeline)
      | _ => []
    finish := false
    attention := [riskAttention dateParse inputs timeline, repowerAttention inputs state.repower]
    phase := timeline.phase
    note := timeline.phase.name ++ js " (grace ends " ++ iso timeline.graceEnd ++
      js ", retention ends " ++ iso timeline.retentionEnd ++ js ")" }

def decideCancelled (subscription : SubscriptionFacts) (endedAt : ℤ) : LifecycleDecision :=
  let state := cancellationStateFrom subscription endedAt inputs.operations inputs.asset inputs.now
    inputs.reinstatement
  let timeline := state.timeline
  match timeline.phase with
  | .ended => decideEnded dateParse inputs subscription.id endedAt timeline
  | .reinstated => decideReinstated inputs subscription.id endedAt timeline
  | .reinstatementPending =>
    { opened := []
      finish := false
      attention := [riskAttention dateParse inputs timeline]
      phase := timeline.phase
      note := js "reinstatement Checkout remains pending until the lifecycle tick runs" }
  | .checkoutExpiryDue =>
    { opened :=
        match truthy (inputs.reinstatement.map (·.attemptId)) with
        | some attemptId =>
          [{ kind := .expireCheckout
             id := js "op-checkout_expire-" ++ attemptId
             evidence := .object [("reason", .string (js "reinstatement")),
               ("attempt", .string attemptId)] }]
        | none => []
      finish := false
      attention := [riskAttention dateParse inputs timeline]
      phase := timeline.phase
      note := js "Checkout must be expired and fetched before deletion may open" }
  | _ => decideCourse dateParse inputs subscription.id endedAt state

def decideLifecycle : LifecycleDecision :=
  match inputs.subscription with
  | none => ⟨[], false, [], .serving, js "no subscription is linked to this office"⟩
  | some subscription =>
    match subscription.endedAt with
    | none => decideServing inputs
    | some endedAt =>
      if isCustomerCancellation subscription.endedAt subscription.cancellationReason then
        decideCancelled dateParse inputs subscription endedAt
      else decideServing inputs

end Isomux
