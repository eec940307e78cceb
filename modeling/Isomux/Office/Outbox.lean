import Mathlib.Algebra.GroupWithZero.Nat
import Mathlib.Order.Nat
import Isomux.Foundations.Machine
import Isomux.Runtime.Text

set_option autoImplicit false

/-!
# The outbox of an office socket

Frames to a browser go through an ordered queue, which keeps the socket's own buffer low and holds
the rest until the socket drains. The replay of a connect is a producer that gives one frame at a
time. A drain only schedules the pump, which runs on a later turn.

What the socket answers is a parameter: how much it has buffered at the `n`-th question, and what
`send` gives for the `n`-th frame. A producer is the list of the frames it is going to give, and how
it ends.

## Main definitions

* `Isomux.OutboxItem`, `Isomux.OfficeOutbox` — the queue.
* `Isomux.OfficeOutbox.send`, `sendLazy`, `drain`, `dispose`, `pump` — what can be done with it.
* `Isomux.OutboxEvent`, `Isomux.OfficeOutbox.step` — an outbox in use.
-/

namespace Isomux

/-- What the socket may hold before the pump waits for a drain. -/
def OUTBOX_HIGH_WATER_BYTES : ℕ := 256 * 1024

def OUTBOX_PUMP_BUDGET_BYTES : ℤ := 4 * 1024 * 1024

def OUTBOX_MAX_QUEUED_BYTES : ℤ := 64 * 1024 * 1024

/-- What `ws.send` gives: a number, or an exception. -/
inductive SendAnswer where
  | returned (written : ℤ)
  | threw
  deriving DecidableEq, Repr

structure OutboxSocket where
  bufferedAmount : ℕ → ℕ
  send : ℕ → SendAnswer

inductive ReplayEnd where
  | done
  | throws
  deriving DecidableEq, Repr

inductive OutboxItem where
  | frame (data : JsString)
  /-- A producer, by the frames that are still to come. -/
  | replay (next : List JsString) (ends : ReplayEnd)
  deriving DecidableEq

inductive OutboxFailure where
  | dropped | threw | overflow
  deriving DecidableEq, Repr

/-- The queue, and what it has done to its surroundings. -/
structure OfficeOutbox where
  items : List OutboxItem
  queuedBytes : ℤ
  scheduled : Bool
  disposed : Bool
  pending : ℕ
  asked : ℕ
  wire : List JsString
  failures : List OutboxFailure
  terminated : ℕ
  deriving DecidableEq

def OfficeOutbox.fresh : OfficeOutbox where
  items := []
  queuedBytes := 0
  scheduled := false
  disposed := false
  pending := 0
  asked := 0
  wire := []
  failures := []
  terminated := 0

/-- What `take` finds. -/
inductive Taken where
  | data (data : JsString)
  /-- A producer was at its end and was removed. -/
  | finished
  | threw

/-- How many rounds of the pump the items can take. -/
def outboxWork (items : List OutboxItem) : ℕ :=
  (items.map fun
    | .frame _ => 1
    | .replay next _ => next.length + 1).sum

namespace OfficeOutbox

variable (s : OfficeOutbox)

/-- `dispose`: the socket is closed, the queue is released. -/
def dispose : OfficeOutbox :=
  { s with
    disposed := true
    items := []
    queuedBytes := 0 }

def fail (reason : OutboxFailure) : OfficeOutbox :=
  if s.disposed then s
  else
    { s.dispose with
      failures := s.failures ++ [reason]
      terminated := s.terminated + 1 }

variable (ws : OutboxSocket)

/-- `room`: whether the socket takes more before it drains. -/
def room (s : OfficeOutbox) : Bool :=
  ws.bufferedAmount s.asked < OUTBOX_HIGH_WATER_BYTES

/-- The socket was asked what it has buffered. -/
def ask : OfficeOutbox := { s with asked := s.asked + 1 }

/-- `later`: a run of the pump on a later turn, unless one is scheduled. -/
def later : OfficeOutbox :=
  if s.scheduled || s.disposed then s
  else
    { s with
      scheduled := true
      pending := s.pending + 1 }

/-- `write`: nothing written of a frame that is not empty is a drop. -/
def write (s : OfficeOutbox) (data : JsString) : OfficeOutbox :=
  let answer := ws.send s.wire.length
  let s := { s with wire := s.wire ++ [data] }
  match answer with
  | .threw => s.fail .threw
  | .returned written => if written = 0 ∧ 0 < data.length then s.fail .dropped else s

/-- `take`: the next frame, in order. -/
def take : Taken × OfficeOutbox :=
  match s.items with
  | [] => (.finished, s)
  | .frame data :: rest =>
    (.data data, { s with items := rest, queuedBytes := s.queuedBytes - data.length })
  | .replay [] .done :: rest => (.finished, { s with items := rest })
  | .replay [] .throws :: _ => (.threw, s)
  | .replay (data :: next) ends :: rest =>
    (.data data, { s with items := .replay next ends :: rest })

lemma outboxWork_fail (reason : OutboxFailure) :
    outboxWork (s.fail reason).items ≤ outboxWork s.items := by
  unfold fail
  split_ifs
  · exact le_rfl
  · exact Nat.zero_le _

lemma outboxWork_write (s : OfficeOutbox) (data : JsString) :
    outboxWork (s.write ws data).items ≤ outboxWork s.items := by
  unfold write
  dsimp only
  split
  · exact outboxWork_fail _ _
  · split_ifs
    · exact outboxWork_fail _ _
    · exact le_rfl

lemma outboxWork_take {s s' : OfficeOutbox} {taken : Taken} (h : s.items ≠ [])
    (htake : s.take = (taken, s')) (hthrew : taken ≠ .threw) :
    outboxWork s'.items < outboxWork s.items := by
  unfold take at htake
  split at htake
  · next heq => exact absurd heq h
  · next data rest heq =>
    obtain ⟨-, rfl⟩ := Prod.mk.inj htake
    simp [heq, outboxWork]
  · next rest heq =>
    obtain ⟨-, rfl⟩ := Prod.mk.inj htake
    simp [heq, outboxWork]
  · next heq => exact absurd (Prod.mk.inj htake).1.symm hthrew
  · next data next ends rest heq =>
    obtain ⟨-, rfl⟩ := Prod.mk.inj htake
    simp [heq, outboxWork]

set_option linter.unusedVariables false in
/-- The loop of the pump: until the queue is empty or the socket is full, and no longer than the
budget. -/
def pumpLoop (ws : OutboxSocket) (s : OfficeOutbox) (budget : ℤ) : OfficeOutbox :=
  if h : s.disposed ∨ s.items = [] then s
  else if !s.room ws then s.ask
  else if budget ≤ 0 then s.ask.later
  else
    match htake : s.ask.take with
    | (.threw, s') => s'.fail .threw
    | (.finished, s') => pumpLoop ws s' budget
    | (.data data, s') => pumpLoop ws (s'.write ws data) (budget - data.length)
  termination_by outboxWork s.items
  decreasing_by
    · exact outboxWork_take (s := s.ask) (fun hnil => h (Or.inr hnil)) htake nofun
    · exact (outboxWork_write ws _ data).trans_lt
        (outboxWork_take (s := s.ask) (fun hnil => h (Or.inr hnil)) htake nofun)

def pump (s : OfficeOutbox) : OfficeOutbox :=
  s.pumpLoop ws OUTBOX_PUMP_BUDGET_BYTES

/-- A frame behind what waits, as long as it does not go over the bound. -/
def enqueue (data : JsString) : OfficeOutbox :=
  let s := { s with queuedBytes := s.queuedBytes + data.length }
  if OUTBOX_MAX_QUEUED_BYTES < s.queuedBytes then s.fail .overflow
  else later { s with items := s.items ++ [OutboxItem.frame data] }

/-- `send`: at once when nothing waits and the socket has room, or behind what waits. The socket is
asked only when nothing waits. -/
def send (s : OfficeOutbox) (data : JsString) : OfficeOutbox :=
  if s.disposed then s
  else if s.items = [] then
    if s.room ws then s.ask.write ws data else s.ask.enqueue data
  else s.enqueue data

/-- `sendLazy`: a producer behind what waits. -/
def sendLazy (s : OfficeOutbox) (frames : List JsString) (ends : ReplayEnd) : OfficeOutbox :=
  if s.disposed then s
  else
    let s := { s with items := s.items ++ [OutboxItem.replay frames ends] }
    if s.items.length = 1 then s.pump ws else s.later

/-- `drain`: never sends from inside the callback. -/
def drain : OfficeOutbox := s.later

def runScheduled (s : OfficeOutbox) : OfficeOutbox :=
  match s.pending with
  | 0 => s
  | pending + 1 =>
    ({ s with
      pending := pending
      scheduled := false }).pump ws

end OfficeOutbox

inductive OutboxEvent where
  | send (data : JsString)
  | sendLazy (frames : List JsString) (ends : ReplayEnd)
  | drain
  | dispose
  | turn
  deriving DecidableEq

def OfficeOutbox.step (ws : OutboxSocket) (s : OfficeOutbox) : OutboxEvent → OfficeOutbox
  | .send data => s.send ws data
  | .sendLazy frames ends => s.sendLazy ws frames ends
  | .drain => s.drain
  | .dispose => s.dispose
  | .turn => s.runScheduled ws

/-- The frames that an event submits, a producer expanded in its place. -/
def OutboxEvent.submits : OutboxEvent → List JsString
  | .send data => [data]
  | .sendLazy frames _ => frames
  | .drain => []
  | .dispose => []
  | .turn => []

end Isomux
