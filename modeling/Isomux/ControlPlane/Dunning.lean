import Isomux.Foundations.Machine
import Isomux.Runtime.Dates

set_option autoImplicit false

/-!
# The dunning ladder

What the control plane does about a subscription that is not paid. A sequence of failures is an
episode, named after the event that opened it. An episode ends in a recovery, or in a request to
suspend the office once Stripe has given up. A subscription that was once free is held for two weeks
first.

The decisions are functions of the cached row, of what was fetched from Stripe, and of the time. An
event is applied once: its id goes into a ledger with its effects.

Instants are whole milliseconds in the range of `Date`. Of a row and of the fetched objects there is
what the decisions read and write.

## Main definitions

* `Isomux.Dunning.decide` — what an event does.
* `Isomux.Dunning.decideHoldExpiry` — what the end of a hold does.
* `Isomux.Dunning.observe` — a decision applied to the row.
* `Isomux.Dunning.deliver` — the same behind the ledger of the events.
-/

namespace Isomux.Dunning

/-! ## Rows and snapshots -/

inductive EpisodeState where
  | none
  | open
  | couponHold
  | suspensionRequested
  deriving DecidableEq

structure SubscriptionRow where
  status : JsString
  currentPeriodEnd : Option ℤ
  cancelAtPeriodEnd : ℕ
  endedAt : Option ℤ
  canceledAt : Option ℤ
  cancellationReason : Option JsString
  discountPercentOff : Option ℚ
  discountCouponId : Option JsString
  discountEndsAt : Option ℤ
  everFullDiscount : ℕ
  latestInvoiceId : Option JsString
  currency : Option JsString
  paymentFailures : ℕ
  exhaustionObservedAt : Option ℤ
  couponGraceUntil : Option ℤ
  episodeId : Option JsString
  episodeState : EpisodeState
  lastEventId : Option JsString
  lastEventCreated : Option ℤ
  deriving DecidableEq

structure Discount where
  couponId : JsString
  percentOff : Option ℚ
  endsAt : Option ℤ

structure SubscriptionSnapshot where
  status : JsString
  currentPeriodEnd : Option ℤ
  cancelAtPeriodEnd : Bool
  endedAt : Option ℤ
  canceledAt : Option ℤ
  cancellationReason : Option JsString
  discount : Option Discount
  latestInvoiceId : Option JsString
  currency : Option JsString

structure InvoiceSnapshot where
  status : JsString
  nextPaymentAttempt : Option ℤ
  paid : Bool

/-- What Stripe says, for the row; a column that is left out stays. -/
structure StripeOwnedPatch where
  status : JsString
  currentPeriodEnd : Option ℤ
  cancelAtPeriodEnd : ℕ
  endedAt : Option ℤ
  canceledAt : Option ℤ
  cancellationReason : Option JsString
  discountPercentOff : Option ℚ
  discountCouponId : Option JsString
  discountEndsAt : Option ℤ
  everFullDiscount : ℕ
  latestInvoiceId : Option JsString
  currency : Option JsString
  lastEvent : Option (JsString × ℤ)

/-- What is written about the episode; a column that is left out stays. -/
structure EpisodePatch where
  episodeState : Option EpisodeState := none
  episodeId : Option (Option JsString) := none
  paymentFailures : Option ℕ := none
  exhaustionObservedAt : Option (Option ℤ) := none
  couponGraceUntil : Option (Option ℤ) := none

variable (row : SubscriptionRow)

def SubscriptionRow.own (patch : StripeOwnedPatch) : SubscriptionRow :=
  { row with
    status := patch.status
    currentPeriodEnd := patch.currentPeriodEnd
    cancelAtPeriodEnd := patch.cancelAtPeriodEnd
    endedAt := patch.endedAt
    canceledAt := patch.canceledAt
    cancellationReason := patch.cancellationReason
    discountPercentOff := patch.discountPercentOff
    discountCouponId := patch.discountCouponId
    discountEndsAt := patch.discountEndsAt
    everFullDiscount := patch.everFullDiscount
    latestInvoiceId := patch.latestInvoiceId
    currency := patch.currency.or row.currency
    lastEventId := (patch.lastEvent.map Prod.fst).or row.lastEventId
    lastEventCreated := (patch.lastEvent.map Prod.snd).or row.lastEventCreated }

/-- The row with what is written about the episode. -/
def SubscriptionRow.keep (patch : EpisodePatch) : SubscriptionRow :=
  { row with
    episodeState := patch.episodeState.getD row.episodeState
    episodeId := patch.episodeId.getD row.episodeId
    paymentFailures := patch.paymentFailures.getD row.paymentFailures
    exhaustionObservedAt := patch.exhaustionObservedAt.getD row.exhaustionObservedAt
    couponGraceUntil := patch.couponGraceUntil.getD row.couponGraceUntil }

/-- The row that is inserted for a subscription that was not known. -/
def firstRow : SubscriptionRow :=
  { status := js "unknown", currentPeriodEnd := none, cancelAtPeriodEnd := 0, endedAt := none
    canceledAt := none, cancellationReason := none, discountPercentOff := none
    discountCouponId := none, discountEndsAt := none, everFullDiscount := 0
    latestInvoiceId := none, currency := none, paymentFailures := 0
    exhaustionObservedAt := none, couponGraceUntil := none, episodeId := none
    episodeState := .none, lastEventId := none, lastEventCreated := none }

/-! ## The decision on an event -/

/-- How long a subscription that was once free is held. -/
def COUPON_HOLD_MS : ℤ := 14 * 24 * 60 * 60 * 1000

def healthy (status : JsString) : Bool := status = js "active" || status = js "trialing"

def unpaid (status : JsString) : Bool := status = js "past_due" || status = js "unpaid"

inductive Severity where
  | warning
  | critical
  deriving DecidableEq

inductive Attention where
  | raise (reason : JsString) (severity : Severity)
  | clear
  | none
  deriving DecidableEq

structure LadderInputs where
  row : Option SubscriptionRow
  subscription : SubscriptionSnapshot
  invoice : Option InvoiceSnapshot
  eventId : JsString
  eventType : JsString
  eventCreated : ℤ
  now : ℤ

structure LadderDecision where
  stripeOwned : StripeOwnedPatch
  episode : EpisodePatch
  suspension : Option JsString
  resume : Bool
  attention : Attention
  note : JsString

def observedExhaustion (invoice : Option InvoiceSnapshot) (subscription : SubscriptionSnapshot) :
    Bool :=
  match invoice with
  | none => false
  | some invoice =>
    !invoice.paid && invoice.nextPaymentAttempt.isNone && invoice.status ≠ js "draft" &&
      (unpaid subscription.status || invoice.status = js "uncollectible")

/-- The subscription is free of charge right now. -/
def fullDiscount (snapshot : SubscriptionSnapshot) : Bool :=
  snapshot.discount.bind Discount.percentOff = some 100

/-- The subscription was free of charge at some time. -/
def everFull (row : Option SubscriptionRow) (snapshot : SubscriptionSnapshot) : ℕ :=
  if row.any (·.everFullDiscount = 1) || fullDiscount snapshot then 1 else 0

/-- The subscription was free of charge and is not now. -/
def isLapsedComp (row : Option SubscriptionRow) (snapshot : SubscriptionSnapshot) : Bool :=
  everFull row snapshot = 1 && !fullDiscount snapshot

/-- What Stripe says, in the columns that cache it. -/
def ownedFrom (s : SubscriptionSnapshot) (row : Option SubscriptionRow) : StripeOwnedPatch :=
  { status := s.status
    currentPeriodEnd := s.currentPeriodEnd
    cancelAtPeriodEnd := if s.cancelAtPeriodEnd then 1 else 0
    endedAt := s.endedAt
    canceledAt := s.canceledAt
    cancellationReason := s.cancellationReason
    discountPercentOff := s.discount.bind Discount.percentOff
    discountCouponId := s.discount.map Discount.couponId
    discountEndsAt := s.discount.bind Discount.endsAt
    everFullDiscount := everFull row s
    latestInvoiceId := s.latestInvoiceId
    currency := s.currency.filter (· ≠ [])
    lastEvent := none }

/-- The name of the episode that an event opens. -/
def episodeIdOf (eventId : JsString) : JsString := js "dun-" ++ eventId

variable (inputs : LadderInputs)

def LadderInputs.state : EpisodeState :=
  (inputs.row.map SubscriptionRow.episodeState).getD .none

def LadderInputs.failures : ℕ :=
  (inputs.row.map SubscriptionRow.paymentFailures).getD 0

def LadderInputs.stripeOwned : StripeOwnedPatch :=
  { ownedFrom inputs.subscription inputs.row with
    lastEvent := some (inputs.eventId, inputs.eventCreated) }

def closedEpisode : EpisodePatch :=
  { episodeState := some .none, episodeId := some none, paymentFailures := some 0
    exhaustionObservedAt := some none, couponGraceUntil := some none }

def decideHealthy : LadderDecision :=
  if inputs.state = .none && inputs.failures = 0 then
    { stripeOwned := inputs.stripeOwned, episode := {}, suspension := none, resume := false
      attention := .none
      note := inputs.subscription.status ++ js " (no episode open)" }
  else
    { stripeOwned := inputs.stripeOwned, episode := closedEpisode, suspension := none
      resume := true, attention := .clear
      note := js "recovered to " ++ inputs.subscription.status ++ js "; dunning episode closed" }

def stoppedRetrying : JsString :=
  js "Stripe has stopped retrying an unpaid invoice; suspension requested"

def LadderInputs.failuresNow : ℕ :=
  if inputs.eventType = js "invoice.payment_failed" then inputs.failures + 1 else inputs.failures

/-- When Stripe was first seen to have given up. -/
def LadderInputs.exhaustionAt : Option ℤ :=
  let recorded := inputs.row.bind SubscriptionRow.exhaustionObservedAt
  if observedExhaustion inputs.invoice inputs.subscription then some (recorded.getD inputs.now)
  else recorded

def decideUnpaid : LadderDecision :=
  let failures := inputs.failuresNow
  let exhausted := observedExhaustion inputs.invoice inputs.subscription
  let exhaustionAt := inputs.exhaustionAt
  let status := inputs.subscription.status
  -- what goes on in the same state
  let stays (note : JsString) : LadderDecision :=
    { stripeOwned := inputs.stripeOwned
      episode := { paymentFailures := some failures, exhaustionObservedAt := some exhaustionAt }
      suspension := none, resume := false, attention := .none, note }
  match inputs.state with
  | .none =>
    if isLapsedComp inputs.row inputs.subscription then
      { stripeOwned := inputs.stripeOwned
        episode :=
          { episodeState := some .couponHold, episodeId := some (some (episodeIdOf inputs.eventId))
            paymentFailures := some failures, exhaustionObservedAt := some exhaustionAt
            couponGraceUntil := some (some (inputs.now + COUPON_HOLD_MS)) }
        suspension := none, resume := false
        attention := .raise (js "a 100%-off coupon has lapsed and the next invoice went unpaid (" ++
          status ++ js "); this account needs a human, and the ordinary dunning ladder resumes " ++
          js "in 14 days if nothing changes") .warning
        note := js "coupon lapse: hold opened until " ++ toISOString (inputs.now + COUPON_HOLD_MS) }
    else if exhausted then
      { stripeOwned := inputs.stripeOwned
        episode :=
          { episodeState := some .suspensionRequested
            episodeId := some (some (episodeIdOf inputs.eventId))
            paymentFailures := some failures, exhaustionObservedAt := some exhaustionAt }
        suspension := some (episodeIdOf inputs.eventId), resume := false
        attention := .raise stoppedRetrying .warning
        note := js "dunning exhausted on first observation; suspension requested" }
    else
      { stripeOwned := inputs.stripeOwned
        episode :=
          { episodeState := some .open, episodeId := some (some (episodeIdOf inputs.eventId))
            paymentFailures := some failures, exhaustionObservedAt := some exhaustionAt }
        suspension := none, resume := false, attention := .none
        note := js "dunning episode opened (" ++ status ++ js ")" }
  | .open =>
    match exhausted, inputs.row.bind SubscriptionRow.episodeId with
    | true, some (c :: id) =>
      { stripeOwned := inputs.stripeOwned
        episode :=
          { episodeState := some .suspensionRequested, paymentFailures := some failures
            exhaustionObservedAt := some exhaustionAt }
        suspension := some (c :: id), resume := false
        attention := .raise stoppedRetrying .warning
        note := js "dunning exhausted after " ++ js (toString failures) ++
          js " failure(s); suspension requested" }
    | _, _ => stays (js "dunning continues (" ++ js (toString failures) ++
        js " failure(s), Stripe still retrying)")
  | .couponHold =>
    stays (if exhausted then
        js "coupon-lapse hold stands; Stripe has stopped retrying (recorded)"
      else js "coupon-lapse hold stands")
  | .suspensionRequested => stays (js "suspension already requested for this episode")

def decide : LadderDecision :=
  let status := inputs.subscription.status
  if healthy status then decideHealthy inputs
  else if unpaid status then decideUnpaid inputs
  else if (status = js "canceled" || status = js "incomplete_expired") && inputs.state ≠ .none then
    { stripeOwned := inputs.stripeOwned, episode := {}, suspension := none, resume := false
      attention := .raise (js "this subscription ended as " ++ status ++
        js " with a dunning episode still open, so it went unpaid; the box is still running and " ++
        js "deprovisioning is not built yet, which makes this a human's call") .critical
      note := js "ended as " ++ status ++ js " with an open dunning episode" }
  else
    { stripeOwned := inputs.stripeOwned, episode := {}, suspension := none, resume := false
      attention := .none, note := js "status " ++ status ++ js "; no ladder transition" }

/-! ## The decision on the end of a hold -/

structure HoldExpiryDecision where
  episode : EpisodePatch
  suspension : Option JsString
  attention : Attention
  note : JsString

/-- The hold of a row is over at an instant. -/
def SubscriptionRow.holdOver (now : ℤ) : Bool :=
  row.couponGraceUntil.any (· ≤ now)

/-- What the end of a hold does: it never suspends on the strength of the calendar alone. -/
def decideHoldExpiry (now : ℤ) : HoldExpiryDecision :=
  if row.episodeState ≠ .couponHold then
    { episode := {}, suspension := none, attention := .none
      note := js "not on a coupon-lapse hold" }
  else if !row.holdOver now then
    { episode := {}, suspension := none, attention := .none, note := js "hold has not expired" }
  else
    match row.exhaustionObservedAt, unpaid row.status, row.episodeId with
    | some _, true, some (c :: id) =>
      { episode := { episodeState := some .suspensionRequested }
        suspension := some (c :: id)
        attention := .raise (js "the 14-day hold on a lapsed 100%-off account has expired, " ++
          js "Stripe has stopped retrying and the subscription is still " ++ row.status ++
          js "; suspension requested") .warning
        note := js "hold expired with exhaustion observed; suspension requested" }
    | _, false, _ =>
      { episode := closedEpisode, suspension := none, attention := .none
        note := js "hold expired but the subscription is " ++ row.status ++
          js "; episode closed" }
    | _, true, _ =>
      { episode := { episodeState := some .open, couponGraceUntil := some none }
        suspension := none
        attention := .raise (js "the 14-day hold on a lapsed 100%-off account has expired and " ++
          js "it is still " ++ row.status ++ js "; it is now in the ordinary dunning ladder, " ++
          js "waiting for Stripe to finish retrying") .warning
        note := js "hold expired without exhaustion evidence; ordinary ladder resumed" }

/-! ## Decisions applied -/

inductive Observation where
  | event (subscription : SubscriptionSnapshot) (invoice : Option InvoiceSnapshot)
      (eventId eventType : JsString) (eventCreated now : ℤ)
  | holdExpiry (now : ℤ)
  /-- A Checkout that was polled: what Stripe says is cached, and the ladder does not run. -/
  | polledCheckout (subscription : SubscriptionSnapshot)

/-- The row of a subscription, the events that were applied, and the episodes whose suspension was
requested. -/
structure Books where
  row : SubscriptionRow
  applied : List JsString
  requested : List JsString

def Books.start : Books := { row := firstRow, applied := [], requested := [] }

/-- An observation is decided and the decision is applied to the row. -/
def observe (books : Books) : Observation → Books
  | .event subscription invoice eventId eventType eventCreated now =>
    let decision := decide
      { row := some books.row, subscription, invoice, eventId, eventType, eventCreated, now }
    { books with
      row := (books.row.own decision.stripeOwned).keep decision.episode
      requested := books.requested ++ decision.suspension.toList }
  | .holdExpiry now =>
    let decision := decideHoldExpiry books.row now
    { books with
      row := books.row.keep decision.episode
      requested := books.requested ++ decision.suspension.toList }
  | .polledCheckout subscription =>
    { books with row := books.row.own (ownedFrom subscription (some books.row)) }

def Observation.eventId : Observation → Option JsString
  | .event _ _ eventId _ _ _ => some eventId
  | _ => none

/-- `applyEvent`: an event whose id is in the ledger changes nothing, any other one is claimed with
its effects. -/
def deliver (books : Books) (observation : Observation) : Books :=
  match observation.eventId with
  | some eventId =>
    if eventId ∈ books.applied then books
    else { observe books observation with applied := books.applied ++ [eventId] }
  | none => observe books observation

end Isomux.Dunning
