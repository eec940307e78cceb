import Isomux.Foundations.Machine
import Isomux.Foundations.SlidingWindow
import Isomux.Runtime.Maps
import Isomux.Runtime.Text
import Mathlib.Algebra.Order.Group.Int

set_option autoImplicit false

/-!
# Rate limits for messages

An app may send some messages in a minute and have some delivered in a day. A send takes a slot of
the minute when it starts; it holds a slot of the day while it is delivered, and commits it when the
receiver accepted the message or releases it otherwise. The hooks are limited in the same way.

A caller takes and holds in one turn: neither of the callers in the source awaits anything between
the two. The delivery is awaited, so commits and releases come at any time and in any order.

## Main definitions

* `Isomux.AppCounters`, `Isomux.takeBurst`, `Isomux.holdDaily`, `Isomux.commitDaily`,
  `Isomux.releaseDaily` — the limiter.
* `Isomux.LimiterRun` — the limiter under its callers, with the record of what they took and
  committed.
-/

namespace Isomux

/-! ## The limiter -/

/-- How many messages may start in the window of the burst. -/
def APP_MESSAGE_BURST_LIMIT : ℕ := 10

def APP_MESSAGE_BURST_WINDOW_MS : ℤ := 60000

/-- How many messages may be delivered in the window of the day. -/
def APP_MESSAGE_DAILY_CAP : ℕ := 500

def APP_MESSAGE_DAILY_WINDOW_MS : ℤ := 86400000

inductive LimitKind where
  | burst
  | daily
  deriving DecidableEq

inductive AppMessageLimitOutcome where
  | ok
  | refused (kind : LimitKind) (retryAfterSec : ℤ)
  deriving DecidableEq

/-- What is counted of an app: times, oldest first, and the slots that are held. -/
structure AppCounters where
  burst : List ℤ
  daily : List ℤ
  held : ℕ
  deriving DecidableEq

def prune (times : List ℤ) (now windowMs : ℤ) : List ℤ := SlidingWindow.prune times now windowMs

/-- `waitSecs`: seconds, rounded up. -/
def waitSecs (oldest now windowMs : ℤ) : ℤ := (oldest + windowMs - now + 999) / 1000

def countersFor (counters : JsMap JsString AppCounters) (appName : JsString) : AppCounters :=
  (JsMap.get counters appName).getD ⟨[], [], 0⟩

def AppCounters.burstBlocked (c : AppCounters) : Bool := APP_MESSAGE_BURST_LIMIT ≤ c.burst.length

def AppCounters.dailyBlocked (c : AppCounters) : Bool :=
  APP_MESSAGE_DAILY_CAP ≤ c.daily.length + c.held

def AppCounters.burstWait (c : AppCounters) (now : ℤ) : ℤ :=
  if c.burstBlocked then waitSecs (c.burst.headD 0) now APP_MESSAGE_BURST_WINDOW_MS else 0

/-- When the day has room again. A cap that is reached through holds only frees up when a delivery
settles. -/
def AppCounters.dailyWait (c : AppCounters) (now : ℤ) : ℤ :=
  if c.dailyBlocked then
    if APP_MESSAGE_DAILY_CAP ≤ c.daily.length then
      waitSecs (c.daily.headD 0) now APP_MESSAGE_DAILY_WINDOW_MS
    else 1
  else 0

/-- The counters without what has left its window. -/
def AppCounters.pruned (c : AppCounters) (t : ℤ) : AppCounters :=
  { c with
    burst := prune c.burst t APP_MESSAGE_BURST_WINDOW_MS
    daily := prune c.daily t APP_MESSAGE_DAILY_WINDOW_MS }

/-- `takeBurst` at a time. -/
def takeBurst (counters : JsMap JsString AppCounters) (t : ℤ) (appName : JsString) :
    JsMap JsString AppCounters × AppMessageLimitOutcome :=
  let c := (countersFor counters appName).pruned t
  if c.burstBlocked || c.dailyBlocked then
    (JsMap.set counters appName c,
      if c.burstWait t < c.dailyWait t then .refused .daily (c.dailyWait t)
      else .refused .burst (c.burstWait t))
  else (JsMap.set counters appName { c with burst := c.burst ++ [t] }, .ok)

def holdDaily (counters : JsMap JsString AppCounters) (appName : JsString) :
    JsMap JsString AppCounters :=
  let c := countersFor counters appName
  JsMap.set counters appName { c with held := c.held + 1 }

/-- `commitDaily` at a time. -/
def commitDaily (counters : JsMap JsString AppCounters) (t : ℤ) (appName : JsString) :
    JsMap JsString AppCounters :=
  let c := countersFor counters appName
  JsMap.set counters appName { c with
    daily := prune c.daily t APP_MESSAGE_DAILY_WINDOW_MS ++ [t]
    held := c.held - 1 }

def releaseDaily (counters : JsMap JsString AppCounters) (appName : JsString) :
    JsMap JsString AppCounters :=
  match JsMap.get counters appName with
  | some c => JsMap.set counters appName { c with held := c.held - 1 }
  | none => counters

/-! ## The callers -/

/-- A delivery that took a hold, and whether it still has it. -/
structure HeldDelivery where
  appName : JsString
  inFlight : Bool

/-- The limiter, the deliveries, and what was taken and committed when. -/
structure LimiterRun where
  clock : ℤ
  counters : JsMap JsString AppCounters
  deliveries : List HeldDelivery
  takes : List (JsString × ℤ)
  commits : List (JsString × ℤ)

inductive LimiterEvent where
  | elapse (ms : ℕ)
  /-- A caller takes a slot, and holds one in the same turn if it gets as far as that. -/
  | send (appName : JsString) (holds : Bool)
  | commit (delivery : ℕ)
  | release (delivery : ℕ)

namespace LimiterRun

def start (clock : ℤ) : LimiterRun := ⟨clock, [], [], [], []⟩

def send (s : LimiterRun) (appName : JsString) (holds : Bool) : LimiterRun :=
  match takeBurst s.counters s.clock appName with
  | (counters, .refused _ _) => { s with counters := counters }
  | (counters, .ok) =>
    let s := { s with
      counters := counters
      takes := s.takes ++ [(appName, s.clock)] }
    if holds then
      { s with
        counters := holdDaily s.counters appName
        deliveries := s.deliveries ++ [⟨appName, true⟩] }
    else s

/-- A delivery that is under way settles: it commits, or it releases. -/
def settle (s : LimiterRun) (delivery : ℕ) (accepted : Bool) : LimiterRun :=
  match s.deliveries[delivery]? with
  | some ⟨appName, true⟩ =>
    let s := { s with deliveries := s.deliveries.set delivery ⟨appName, false⟩ }
    if accepted then
      { s with
        counters := commitDaily s.counters s.clock appName
        commits := s.commits ++ [(appName, s.clock)] }
    else { s with counters := releaseDaily s.counters appName }
  | _ => s

def step (s : LimiterRun) : LimiterEvent → LimiterRun
  | .elapse ms => { s with clock := s.clock + ms }
  | .send appName holds => s.send appName holds
  | .commit delivery => s.settle delivery true
  | .release delivery => s.settle delivery false

def takesOf (s : LimiterRun) (appName : JsString) : List ℤ :=
  (s.takes.filter fun take => take.1 = appName).map Prod.snd

def commitsOf (s : LimiterRun) (appName : JsString) : List ℤ :=
  (s.commits.filter fun commit => commit.1 = appName).map Prod.snd

/-- How many deliveries of an app are under way. -/
def holdsOf (s : LimiterRun) (appName : JsString) : ℕ :=
  s.deliveries.countP fun delivery => delivery.appName = appName ∧ delivery.inFlight

end LimiterRun

end Isomux
