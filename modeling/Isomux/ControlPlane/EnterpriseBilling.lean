import Isomux.Runtime.Dates
import Isomux.Runtime.Json

set_option autoImplicit false

/-!
# The calendar and the prices of an enterprise contract

A contract runs in months that start on the day of the month on which the contract started, or on
the last day of a month that is shorter. A seat change is quoted before it is made, and what is due
is billed in periods: by the month, or by the year with the seats that were added in it.

Instants are whole milliseconds in the range of `Date`, and seats are counted in natural numbers.

## Main definitions

* `Isomux.EnterpriseBilling.addContractMonths`, `Isomux.EnterpriseBilling.contractMonthIndex` — the
  calendar.
* `Isomux.EnterpriseBilling.quoteSeatChange` — what a seat change costs.
* `Isomux.EnterpriseBilling.periodsUntil` — the periods that are issued by an instant.
* `Isomux.EnterpriseBilling.periodCharge` — what a period bills.
-/

namespace Isomux.EnterpriseBilling

inductive EnterprisePlan where
  | monthly
  | yearly
  deriving DecidableEq

def MONTHLY_SEAT_USD : ℕ := 25

def YEARLY_SEAT_USD : ℕ := 240

/-- The price of a month of a seat that is added during a year. -/
def ADDED_SEAT_MONTH_USD : ℕ := 20

/-! ## The calendar -/

def daysInMonth (year : ℤ) (month : ℕ) : ℤ :=
  getUTCDate (dateUTC year (month + 1) 1 0 0 0 0 - msPerDay)

variable (start : ℤ)

/-- The start of a contract moved by some months, the day clamped. -/
def addContractMonths (months : ℕ) : ℤ :=
  let total := getUTCMonth start + months
  let year := getUTCFullYear start + (total / 12 : ℕ)
  let month := total % 12
  let day := min (getUTCDate start) (daysInMonth year month)
  dateUTC year month day (getUTCHours start) (getUTCMinutes start) (getUTCSeconds start)
    (getUTCMilliseconds start)

/-- `while (k > 0 && addContractMonths(start, k) > now) k--`. -/
def stepDown (start now : ℤ) : ℕ → ℕ
  | 0 => 0
  | k + 1 => if now < addContractMonths start (k + 1) then stepDown start now k else k + 1

/-- `while (addContractMonths(start, k + 1) <= now) k++`, for some rounds. -/
def stepUp (start now : ℤ) : ℕ → ℕ → ℕ
  | 0, k => k
  | rounds + 1, k =>
    if addContractMonths start (k + 1) ≤ now then stepUp start now rounds (k + 1) else k

/-- The months between two instants by the calendar. -/
def monthsBetween (start now : ℤ) : ℤ :=
  (getUTCFullYear now - getUTCFullYear start) * 12 + ((getUTCMonth now : ℤ) - getUTCMonth start)

/-- The contract month of an instant; month 0 starts with the contract. -/
def contractMonthIndex (start now : ℤ) : ℕ :=
  if now ≤ start then 0
  -- the estimate is not negative behind the start, and the second loop does not turn behind it
  else stepUp start now 1 (stepDown start now (monthsBetween start now).toNat)

/-- The contract months that are left in the contract year, with the current one. -/
def monthsLeftInYear (start now : ℤ) : ℕ := 12 - contractMonthIndex start now % 12

/-- When the contract quarter of an instant ends. -/
def contractQuarterEnd (start now : ℤ) : ℤ :=
  let quarter := contractMonthIndex start now / 3
  addContractMonths start ((quarter + 1) * 3)

/-! ## Quotes -/

inductive SeatQuote where
  | monthly (from_ to_ monthTotalUsd : ℕ) (lowering : Bool)
  | yearly (from_ to_ added monthsLeft amountUsd : ℕ) (invoicedAt : ℤ)

variable (plan : EnterprisePlan)

/-- The quote for a seat change at an instant. -/
def quoteSeatChange (start now : ℤ) (from_ to_ : ℕ) : SeatQuote :=
  match plan with
  | .monthly => .monthly from_ to_ (to_ * MONTHLY_SEAT_USD) (decide (to_ < from_))
  | .yearly =>
    let added := to_ - from_
    let trial := decide (contractMonthIndex start now = 0)
    let monthsLeft := if trial then 11 else monthsLeftInYear start now
    .yearly from_ to_ added monthsLeft (added * ADDED_SEAT_MONTH_USD * monthsLeft)
      (if trial then addContractMonths start 1 else contractQuarterEnd start now)

/-! ## Seats -/

structure SeatChange where
  at_ : ℤ
  from_ : ℕ
  to_ : ℕ
  deriving DecidableEq

/-- The latest change at or before an instant. -/
def latestChange (history : List SeatChange) (t : ℤ) : Option ℤ :=
  history.foldl (fun last c => if c.at_ ≤ t ∧ last.all (· < c.at_) then some c.at_ else last) none

/-- The number of seats at an instant. Changes in one millisecond are a chain: the one counts that
no other one starts from. -/
def seatsAt (history : List SeatChange) (t : ℤ) : ℕ :=
  let tied := history.filter fun c => some c.at_ = latestChange history t
  let ends := tied.zipIdx.filter fun c => !tied.zipIdx.any fun d => d.2 ≠ c.2 && d.1.from_ = c.1.to_
  match ends with
  | [c] => c.1.to_
  | _ => (tied.getLast?.map (·.to_)).getD 0

/-! ## Periods -/

/-- The key of a period: `m5`, `y1` or `y1q2`. -/
inductive PeriodId where
  | month (k : ℕ)
  | year (y : ℕ)
  | quarter (y q : ℕ)
  deriving DecidableEq

structure BillingPeriod where
  id : PeriodId
  start : ℤ
  end_ : ℤ
  issuedAt : ℤ
  deriving DecidableEq

def monthPeriod (k : ℕ) : BillingPeriod :=
  { id := .month k, start := addContractMonths start k, end_ := addContractMonths start (k + 1)
    issuedAt := addContractMonths start (k + 1) }

/-- When a contract year is billed: at its start, and the first one at the end of the trial. -/
def yearIssued (y : ℕ) : ℤ :=
  if y = 0 then addContractMonths start 1 else addContractMonths start (12 * y)

def yearPeriod (y : ℕ) : BillingPeriod :=
  { id := .year y, start := yearIssued start y, end_ := addContractMonths start (12 * y + 12)
    issuedAt := yearIssued start y }

def quarterPeriod (y q : ℕ) : BillingPeriod :=
  { id := .quarter y q, start := addContractMonths start (12 * y + 3 * q)
    end_ := addContractMonths start (12 * y + 3 * q + 3)
    issuedAt := addContractMonths start (12 * y + 3 * q + 3) }

/-- The periods by the month from a month on, for some rounds. -/
def monthlyLoop (start until_ : ℤ) : ℕ → ℕ → List BillingPeriod
  | 0, _ => []
  | rounds + 1, k =>
    if addContractMonths start (k + 1) ≤ until_ then
      monthPeriod start k :: monthlyLoop start until_ rounds (k + 1)
    else []

/-- The periods by the year from a year on, for some rounds. -/
def yearlyLoop (start until_ : ℤ) : ℕ → ℕ → List BillingPeriod
  | 0, _ => []
  | rounds + 1, y =>
    if until_ < yearIssued start y then []
    else
      yearPeriod start y :: ((List.range 4).map (quarterPeriod start y)).takeWhile
        (fun p => p.end_ ≤ until_) ++ yearlyLoop start until_ rounds (y + 1)

/-- The order of the periods: by the issue, the older window first. -/
def issuedBefore (a b : BillingPeriod) : Bool :=
  a.issuedAt < b.issuedAt || (a.issuedAt = b.issuedAt && a.start ≤ b.start)

/-- Every period that is issued by an instant, the oldest first. A contract month is longer than a
millisecond, so the rounds suffice. -/
def periodsUntil (start until_ : ℤ) : List BillingPeriod :=
  let rounds := (until_ - start).toNat + 1
  match plan with
  | .monthly => monthlyLoop start until_ rounds 1
  | .yearly => (yearlyLoop start until_ rounds 0).mergeSort issuedBefore

/-- How long after its end a period is invoiced. -/
def INVOICE_GRACE_MS : ℤ := 10 * 60000

def billingPeriodsDue (start now : ℤ) : List BillingPeriod :=
  periodsUntil plan start (now - INVOICE_GRACE_MS)

/-! ## Charges -/

structure PeriodCharge where
  amountCents : ℕ
  lines : List JsString
  deriving DecidableEq

def day (t : ℤ) : JsString := (toISOString t).take 10

def seatWord (n : ℕ) : JsString := if n = 1 then js "1 seat" else decimalDigits n ++ js " seats"

def monthWord (n : ℕ) : JsString := if n = 1 then js "1 month" else decimalDigits n ++ js " months"

/-- An increase that a quarter bills: in its window, and behind what its year has billed. -/
def billedInQuarter (period : BillingPeriod) (y : ℕ) (c : SeatChange) : Bool :=
  let billedUpTo := yearIssued start y
  !(c.at_ < period.start || period.end_ ≤ c.at_ || c.at_ ≤ billedUpTo) && c.from_ < c.to_

/-- What an increase costs in the year in which it is made. -/
def increaseCents (c : SeatChange) : ℕ :=
  (c.to_ - c.from_) * ADDED_SEAT_MONTH_USD * monthsLeftInYear start c.at_ * 100

def increaseLine (c : SeatChange) : JsString :=
  seatWord (c.to_ - c.from_) ++ js " added on " ++ day c.at_ ++ js " x $" ++
    decimalDigits ADDED_SEAT_MONTH_USD ++ js " x " ++ monthWord (monthsLeftInYear start c.at_)

/-- What a period bills, or nothing: a quarter without an increase. -/
def periodCharge (start : ℤ) (history : List SeatChange)
    (period : BillingPeriod) : Option PeriodCharge :=
  let window := day period.start ++ js " to " ++ day period.end_
  match plan with
  | .monthly =>
    let highest := history.foldl
      (fun highest c =>
        if period.start < c.at_ ∧ c.at_ < period.end_ ∧ highest < c.to_ then c.to_ else highest)
      (seatsAt history period.start)
    some
      { amountCents := highest * MONTHLY_SEAT_USD * 100
        lines := [seatWord highest ++ js " x $" ++ decimalDigits MONTHLY_SEAT_USD ++
          js ", highest seat count of " ++ window] }
  | .yearly =>
    match period.id with
    | .quarter y _ =>
      let increases := (history.mergeSort fun a b => a.at_ ≤ b.at_).filter
        (billedInQuarter start period y)
      let cents := (increases.map (increaseCents start)).sum
      if 0 < cents then some { amountCents := cents, lines := increases.map (increaseLine start) }
      else none
    | id =>
      let n := seatsAt history period.start
      if id = .year 0 then
        let paid := 11
        some
          { amountCents := n * ADDED_SEAT_MONTH_USD * paid * 100
            lines := [seatWord n ++ js " x $" ++ decimalDigits ADDED_SEAT_MONTH_USD ++ js " x " ++
              monthWord paid ++ js ", " ++ window ++ js " (the first month was free)"] }
      else
        some
          { amountCents := n * YEARLY_SEAT_USD * 100
            lines := [seatWord n ++ js " x $" ++ decimalDigits YEARLY_SEAT_USD ++ js ", " ++ window] }

example : addContractMonths 1801353600000 1 = 1803772800000 := by decide +kernel

end Isomux.EnterpriseBilling
