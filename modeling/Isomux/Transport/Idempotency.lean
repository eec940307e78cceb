import Isomux.Foundations.Machine
import Isomux.Runtime.Maps
import Isomux.Runtime.Text
import Mathlib.Algebra.Order.Group.Int

set_option autoImplicit false

/-!
# The idempotency cache

A request may carry an idempotency key. The cache holds, under the stable identity, the method, the
operation and the key, the execution that is in flight or the response of one that completed, with
the hash of the body. A call finds an entry, waits for one that is in flight, or runs the handler.

The hash is a parameter. A handler throws at once or returns a promise, and the promise settles
later; the calls that await it go on at turns of their own, in any order.

## Main definitions

* `Isomux.Identity`, `Isomux.identitySubjectKey`, `Isomux.composeKey` — the keys of the cache.
* `Isomux.IdempotencyCache` — the store, the executions and the calls so far.
* `Isomux.IdempotencyCache.run` — the part of a call before it waits.
* `Isomux.IdempotencyCache.resume` — the part behind.
-/

namespace Isomux

/-! ## Keys -/

/-- The scope of a caller, with the ids that its subject is made of. -/
inductive Identity where
  | user (userId : Option JsString)
  | agent (agentId : Option JsString)
  | cronRun (cronjobId runId : Option JsString)
  | app (appName : Option JsString)
  | api (apiTokenId : Option JsString)
  deriving DecidableEq

/-- The stable subject of a caller. An id that is not there is empty. -/
def identitySubjectKey : Identity → JsString
  | .user userId => js "user:" ++ userId.getD []
  | .agent agentId => js "agent:" ++ agentId.getD []
  | .cronRun cronjobId runId => js "cron-run:" ++ cronjobId.getD [] ++ js ":" ++ runId.getD []
  | .app appName => js "app:" ++ appName.getD []
  | .api apiTokenId => js "api:" ++ apiTokenId.getD []

def composeKey (subject method opId key : JsString) : JsString :=
  subject ++ 0 :: (method ++ 0 :: (opId ++ 0 :: key))

structure RunArgs where
  identity : Identity
  method : JsString
  opId : JsString
  idempotencyKey : Option JsString
  bodyFingerprint : JsString
  deriving DecidableEq

/-- The key of a call under which the cache protects it; without one, or with an empty one, it just
runs. -/
def RunArgs.key (args : RunArgs) : Option JsString := args.idempotencyKey.filter (· ≠ [])

/-- The key of a protected call in the store. -/
def RunArgs.cacheKey (args : RunArgs) : Option JsString :=
  args.key.map (composeKey (identitySubjectKey args.identity) args.method args.opId)

/-! ## The cache -/

section

variable (R E : Type)

inductive IdempotencyEntry where
  | pending (bodyHash : JsString) (execution : ℕ)
  | done (bodyHash : JsString) (response : R) (expiresAt : ℤ)

inductive IdempotencyOutcome where
  | ran (response : R)
  | replayed (response : R)
  | conflict

inductive CallState where
  | running (execution : ℕ)
  /-- It awaits the handler that another call started. -/
  | waiting (execution : ℕ)
  | answered (outcome : IdempotencyOutcome R)
  | failed (error : E)

structure IdempotentCall where
  args : RunArgs
  state : CallState R E

/-- A run of a handler, and how its promise settled. -/
structure Execution where
  args : RunArgs
  result : Option (Except E R)

/-- The store, and what the calls have come to. -/
structure IdempotencyCache where
  store : JsMap JsString (IdempotencyEntry R)
  executions : List (Execution R E)
  calls : List (IdempotentCall R E)

inductive IdempotencyEvent where
  /-- A call at a time. If it starts its handler, the handler may throw at once. -/
  | call (args : RunArgs) (now : ℤ) (thrown : Option E)
  | settle (execution : ℕ) (result : Except E R)
  | resume (call : ℕ) (now : ℤ)

end

variable {R E : Type}

def IdempotencyEntry.bodyHash : IdempotencyEntry R → JsString
  | .pending bodyHash _ => bodyHash
  | .done bodyHash _ _ => bodyHash

def IdempotencyEntry.live (now : ℤ) : IdempotencyEntry R → Bool
  | .pending _ _ => true
  | .done _ _ expiresAt => !(expiresAt ≤ now)

namespace IdempotencyCache

def empty : IdempotencyCache R E := ⟨[], [], []⟩

def pruneExpired (store : JsMap JsString (IdempotencyEntry R)) (now : ℤ) :
    JsMap JsString (IdempotencyEntry R) :=
  store.filter fun e => e.2.live now

/-- A call that is answered, fails or waits. -/
def answer (s : IdempotencyCache R E) (args : RunArgs) (state : CallState R E) :
    IdempotencyCache R E :=
  { s with calls := s.calls ++ [⟨args, state⟩] }

/-- A handler is called. It throws at once, or the call awaits its promise. -/
def start (s : IdempotencyCache R E) (args : RunArgs) (thrown : Option E) :
    IdempotencyCache R E :=
  match thrown with
  | some error =>
    { s with
      executions := s.executions ++ [⟨args, some (.error error)⟩]
      calls := s.calls ++ [⟨args, .failed error⟩] }
  | none =>
    { s with
      executions := s.executions ++ [⟨args, none⟩]
      calls := s.calls ++ [⟨args, .running s.executions.length⟩] }

/-- `run`, up to the point where it waits. -/
def run (sha256 : JsString → JsString) (s : IdempotencyCache R E) (args : RunArgs) (now : ℤ)
    (thrown : Option E) : IdempotencyCache R E :=
  match args.cacheKey with
  | none => s.start args thrown
  | some cacheKey =>
    let s := { s with store := pruneExpired s.store now }
    let bodyHash := sha256 args.bodyFingerprint
    match JsMap.get s.store cacheKey with
    | some existing =>
      if existing.bodyHash ≠ bodyHash then s.answer args (.answered .conflict)
      else
        match existing with
        | .pending _ execution => s.answer args (.waiting execution)
        | .done _ response _ => s.answer args (.answered (.replayed response))
    | none =>
      match thrown with
      | some _ => s.start args thrown
      | none =>
        { s.start args thrown with
          store := JsMap.set s.store cacheKey (.pending bodyHash s.executions.length) }

/-- The promise of an execution settles, once. -/
def settle (s : IdempotencyCache R E) (execution : ℕ) (result : Except E R) :
    IdempotencyCache R E :=
  match s.executions[execution]? with
  | none => s
  | some x =>
    match x.result with
    | some _ => s
    | none => { s with executions := s.executions.set execution { x with result := some result } }

/-- The call that started the handler goes on: its entry holds the response, or leaves the store. -/
def complete (sha256 : JsString → JsString) (ttlMs : ℤ)
    (store : JsMap JsString (IdempotencyEntry R)) (args : RunArgs) (now : ℤ)
    (result : Except E R) : JsMap JsString (IdempotencyEntry R) :=
  match args.cacheKey with
  | none => store
  | some cacheKey =>
    match result with
    | .ok response =>
      JsMap.set store cacheKey (.done (sha256 args.bodyFingerprint) response (now + ttlMs))
    | .error _ =>
      match JsMap.get store cacheKey with
      | some (.pending _ _) => JsMap.delete store cacheKey
      | _ => store

/-- `run`, behind the point where it waits. -/
def resume (sha256 : JsString → JsString) (ttlMs : ℤ) (s : IdempotencyCache R E) (call : ℕ)
    (now : ℤ) : IdempotencyCache R E :=
  match s.calls[call]? with
  | none => s
  | some c =>
    match c.state with
    | .running execution =>
      match s.executions[execution]?.bind (·.result) with
      | none => s
      | some result =>
        { s with
          store := complete sha256 ttlMs s.store c.args now result
          calls := s.calls.set call ⟨c.args,
            match result with
            | .ok response => .answered (.ran response)
            | .error error => .failed error⟩ }
    | .waiting execution =>
      match s.executions[execution]?.bind (·.result) with
      | none => s
      | some result =>
        { s with
          calls := s.calls.set call ⟨c.args,
            match result with
            | .ok response => .answered (.replayed response)
            | .error error => .failed error⟩ }
    | .answered _ => s
    | .failed _ => s

def step (sha256 : JsString → JsString) (ttlMs : ℤ) (s : IdempotencyCache R E) :
    IdempotencyEvent R E → IdempotencyCache R E
  | .call args now thrown => s.run sha256 args now thrown
  | .settle execution result => s.settle execution result
  | .resume call now => s.resume sha256 ttlMs call now

end IdempotencyCache

end Isomux
