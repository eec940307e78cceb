import Isomux.Foundations.Machine
import Isomux.Runtime.Maps
import Isomux.Runtime.Text
import Mathlib.Data.Int.Notation

set_option autoImplicit false

/-!
# The duplicate check of member sends (`src/server/user-send-dedupe.ts`)

A member's send may carry the id of its first attempt. The check holds a slot for every id of an
agent: an attempt that is in flight, with the later attempts that wait for its outcome, or one that
was accepted. A claim first prunes the slots of its agent from the oldest on.

The slots of an agent are in a `Map`. An agent that was forgotten gets a new one with its next
claim, while the attempts in flight go on with the old one. The map of an agent is named by how often
the agent had been forgotten, and one that no claim has used is empty. A claim is named by its
number.

## Main definitions

* `Isomux.UserSendAcceptance`, `Isomux.SendSlot`, `Isomux.SendClaim` — the outcomes, the slots and
  the claims.
* `Isomux.UserSendDedupe` — the slots of all agents, and what became of the claims.
* `Isomux.UserSendDedupe.prune`, `Isomux.UserSendDedupe.claim`, `Isomux.UserSendDedupe.settle`,
  `Isomux.UserSendDedupe.forgetAgent` — the operations.
-/

namespace Isomux

inductive UserSendAcceptance where
  | ok
  | refused (status : ℕ) (code message : JsString)
  deriving DecidableEq

/-- What the map of an agent has under a key. -/
inductive SendSlot where
  | accepted (time : ℤ)
  | inFlight (time : ℤ) (claim : ℕ)
  deriving DecidableEq

/-- `slot.at`. -/
def SendSlot.time : SendSlot → ℤ
  | .accepted time => time
  | .inFlight time _ => time

/-- `slot.kind === "accepted"`. -/
def SendSlot.isAccepted : SendSlot → Bool
  | .accepted _ => true
  | .inFlight _ _ => false

structure SendOwner where
  agentId : JsString
  forgets : ℕ
  deriving DecidableEq

inductive DedupeClaim where
  | new
  | accepted
  | inFlight
  deriving DecidableEq

/-- A call of `claim`. -/
structure SendClaim where
  owner : SendOwner
  key : JsString
  now : ℤ
  answer : DedupeClaim
  deriving DecidableEq

/-- The slots, and what became of the claims so far. -/
structure UserSendDedupe where
  clock : ℤ
  forgets : JsString → ℕ
  slots : SendOwner → JsMap JsString SendSlot
  claims : List SendClaim
  waiters : ℕ → List ℕ
  settled : ℕ → Option (UserSendAcceptance × ℤ)
  outcome : ℕ → Option UserSendAcceptance

namespace UserSendDedupe

def USER_SEND_DEDUPE_MAX_PER_AGENT : ℕ := 500

def USER_SEND_DEDUPE_TTL_MS : ℤ := 24 * 60 * 60 * 1000

/-- `createUserSendDedupe`: no slots. -/
def start (clock : ℤ) : UserSendDedupe where
  clock := clock
  forgets _ := 0
  slots _ := []
  claims := []
  waiters _ := []
  settled _ := none
  outcome _ := none

/-- The rounds of `prune` over the slots that are left, where the map has a size. -/
def pruneFrom (maxPerAgent : ℕ) (cutoff : ℤ) : ℕ → JsMap JsString SendSlot → JsMap JsString SendSlot
  | _, [] => []
  | size, (key, slot) :: rest =>
    if size ≤ maxPerAgent ∧ cutoff ≤ slot.time then (key, slot) :: rest
    else if slot.isAccepted then pruneFrom maxPerAgent cutoff (size - 1) rest
    else (key, slot) :: pruneFrom maxPerAgent cutoff size rest

/-- `prune(slots)`. -/
def prune (maxPerAgent : ℕ) (ttlMs now : ℤ) (slots : JsMap JsString SendSlot) :
    JsMap JsString SendSlot :=
  pruneFrom maxPerAgent (now - ttlMs) slots.length slots

variable (s : UserSendDedupe)

def owner (agentId : JsString) : SendOwner := ⟨agentId, s.forgets agentId⟩

def setSlots (o : SendOwner) (slots : JsMap JsString SendSlot) : UserSendDedupe :=
  { s with slots := Function.update s.slots o slots }

def addClaim (o : SendOwner) (key : JsString) (answer : DedupeClaim) : UserSendDedupe :=
  { s with claims := s.claims ++ [⟨o, key, s.clock, answer⟩] }

/-- `waiters.push(resolve)`: the next claim waits for one before it. -/
def addWaiter (prior : ℕ) : UserSendDedupe :=
  { s with waiters := Function.update s.waiters prior (s.waiters prior ++ [s.claims.length]) }

/-- `claim(agentId, key)`. -/
def claim (maxPerAgent : ℕ) (ttlMs : ℤ) (s : UserSendDedupe) (agentId key : JsString) :
    UserSendDedupe :=
  let o := s.owner agentId
  let slots := prune maxPerAgent ttlMs s.clock (s.slots o)
  match JsMap.get slots key with
  | some (.accepted _) => (s.setSlots o slots).addClaim o key .accepted
  | some (.inFlight _ prior) => ((s.setSlots o slots).addWaiter prior).addClaim o key .inFlight
  | none =>
    (s.setSlots o (JsMap.set slots key (.inFlight s.clock s.claims.length))).addClaim o key .new

/-- The slots of its owner when a claim is settled: the slot of an accepted send stays in its place,
and a refused one is forgotten. -/
def settledSlots (o : SendOwner) (key : JsString) (claim : ℕ)
    (result : UserSendAcceptance) : JsMap JsString SendSlot :=
  match JsMap.get (s.slots o) key with
  | some (.inFlight _ current) =>
    if current = claim then
      match result with
      | .ok => JsMap.set (s.slots o) key (.accepted s.clock)
      | .refused _ _ _ => JsMap.delete (s.slots o) key
    else s.slots o
  | _ => s.slots o

/-- `resolve(result)` for every waiter of a claim. A promise resolves once. -/
def wake (claim : ℕ) (result : UserSendAcceptance) : UserSendDedupe :=
  { s with
    outcome := fun waiter => if waiter ∈ s.waiters claim then (s.outcome waiter).or (some result)
      else s.outcome waiter }

/-- `settle(result)` of a claim that owns its attempt; only the first one counts. -/
def settle (claim : ℕ) (result : UserSendAcceptance) : UserSendDedupe :=
  match s.claims[claim]?, s.settled claim with
  | some ⟨o, key, _, .new⟩, none =>
    { s.setSlots o (s.settledSlots o key claim result) with
      settled := Function.update s.settled claim (some (result, s.clock)) }.wake claim result
  | _, _ => s

/-- `forgetAgent(agentId)`. -/
def forgetAgent (agentId : JsString) : UserSendDedupe :=
  { s with forgets := Function.update s.forgets agentId (s.forgets agentId + 1) }

end UserSendDedupe

inductive SendDedupeEvent where
  | elapse (ms : ℕ)
  | claim (agentId key : JsString)
  | settle (claim : ℕ) (result : UserSendAcceptance)
  | forget (agentId : JsString)

namespace UserSendDedupe

def step (maxPerAgent : ℕ) (ttlMs : ℤ) (s : UserSendDedupe) : SendDedupeEvent → UserSendDedupe
  | .elapse ms => { s with clock := s.clock + ms }
  | .claim agentId key => s.claim maxPerAgent ttlMs agentId key
  | .settle claim result => s.settle claim result
  | .forget agentId => s.forgetAgent agentId

end UserSendDedupe

end Isomux
