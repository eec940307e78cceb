import Isomux.Runtime.Maps
import Mathlib.Algebra.BigOperators.Group.List.Basic
import Mathlib.Algebra.Order.Ring.Rat

set_option autoImplicit false

/-!
# The usage of an agent's sessions

The sessions of an agent are kept in `sessions.json`, each with the usage of its current process
run, that of the runs before, and the usage that its parent had where it was forked. The report
adds up the sessions and subtracts the fork bases.

Costs are exact fractions, and the fields of a session that the accounting does not read are left
out.

## Main definitions

* `Isomux.accumulateSessionUsage`, `Isomux.rollSessionUsageOnResume`,
  `Isomux.appendSessionUsageSnapshot`, `Isomux.persistSessionFork` — what a session records.
* `Isomux.findUsageAtFork` — the usage of a parent at a fork point.
* `Isomux.readAgentUsage` — the report.
* `Isomux.AgentSessions` — an agent with its sessions, and what happens to it.
-/

namespace Isomux

/-! ## Usage -/

structure TurnTokens where
  inputTokens : ℕ
  outputTokens : ℕ
  cacheReadInputTokens : ℕ
  cacheCreationInputTokens : ℕ
  deriving DecidableEq

/-- Tokens and what they cost. -/
@[ext]
structure PersistedUsage extends TurnTokens where
  costUSD : ℚ
  deriving DecidableEq

namespace PersistedUsage

instance : Zero PersistedUsage := ⟨⟨0, 0, 0, 0⟩, 0⟩

instance : Add PersistedUsage where
  add u v :=
    { inputTokens := u.inputTokens + v.inputTokens
      outputTokens := u.outputTokens + v.outputTokens
      cacheReadInputTokens := u.cacheReadInputTokens + v.cacheReadInputTokens
      cacheCreationInputTokens := u.cacheCreationInputTokens + v.cacheCreationInputTokens
      costUSD := u.costUSD + v.costUSD }

end PersistedUsage

structure UsageSnapshot where
  entryId : String
  usage : PersistedUsage

/-- What `sessions.json` keeps of a session. -/
structure UsageSession where
  usage : Option PersistedUsage
  priorRunsUsage : Option PersistedUsage
  usageSnapshots : List UsageSnapshot
  forkBaseUsage : Option PersistedUsage
  forkedFrom : Option String
  forkMessageId : Option String
  lastAccountedUsageId : Option String

/-- The entry of a session that is not there. -/
def UsageSession.new : UsageSession := ⟨none, none, [], none, none, none, none⟩

abbrev UsageSessions := JsMap String UsageSession

structure TurnAccounting where
  turnCost : Bool
  usageId : Option String
  deriving DecidableEq

/-- The id of a turn with its own cost; an empty one is none. -/
def TurnAccounting.turnUsageId (accounting : TurnAccounting) : Option String :=
  if accounting.turnCost then accounting.usageId.filter (· ≠ "") else none

variable (map : UsageSessions)

/-- Adds the usage of a turn to the current run of a session. -/
def accumulateSessionUsage (sessionId : String) (turnTokens : TurnTokens)
    (runCostUSD : ℚ) (accounting : TurnAccounting) : UsageSessions × PersistedUsage :=
  let existing := (map.get sessionId).getD .new
  let prev := existing.usage
  let isTurnCost := accounting.turnCost
  if accounting.turnUsageId.isSome ∧ existing.lastAccountedUsageId = accounting.turnUsageId then
    (map, prev.getD 0)
  else
    let next : PersistedUsage :=
      { inputTokens := (prev.getD 0).inputTokens + turnTokens.inputTokens
        outputTokens := (prev.getD 0).outputTokens + turnTokens.outputTokens
        cacheReadInputTokens := (prev.getD 0).cacheReadInputTokens + turnTokens.cacheReadInputTokens
        cacheCreationInputTokens :=
          (prev.getD 0).cacheCreationInputTokens + turnTokens.cacheCreationInputTokens
        costUSD := if isTurnCost then (prev.getD 0).costUSD + runCostUSD else runCostUSD }
    (map.set sessionId
      { existing with
        usage := some next
        lastAccountedUsageId := accounting.turnUsageId <|> existing.lastAccountedUsageId }, next)

/-- Moves the usage of the current run to that of the runs before. -/
def rollSessionUsageOnResume (sessionId : String) : UsageSessions :=
  match map.get sessionId with
  | none => map
  | some existing =>
    match existing.usage with
    | none => map
    | some u =>
      if u = 0 then map
      else
        map.set sessionId
          { existing with
            priorRunsUsage := some (existing.priorRunsUsage.getD 0 + u)
            usage := none }

/-- Records the usage behind an entry; an entry that is recorded again in a row replaces it. -/
def appendSessionUsageSnapshot (sessionId entryId : String)
    (usage : PersistedUsage) : UsageSessions :=
  let existing := (map.get sessionId).getD .new
  let snapshots :=
    if existing.usageSnapshots.getLast?.any (·.entryId = entryId) then
      existing.usageSnapshots.dropLast ++ [⟨entryId, usage⟩]
    else existing.usageSnapshots ++ [⟨entryId, usage⟩]
  map.set sessionId { existing with usageSnapshots := snapshots }

def persistSessionFork (sessionId forkedFrom forkMessageId : String)
    (forkBaseUsage : Option PersistedUsage) : UsageSessions :=
  let existing := (map.get sessionId).getD .new
  map.set sessionId
    { existing with
      forkedFrom := some forkedFrom
      forkMessageId := some forkMessageId
      forkBaseUsage := forkBaseUsage <|> existing.forkBaseUsage }

/-! ## The report -/

/-- The usage that a report shows. -/
@[ext]
structure UsageBucket where
  totalIn : ℤ
  cacheRead : ℤ
  cacheCreation : ℤ
  totalOut : ℤ
  costUSD : ℚ
  deriving DecidableEq

def emptyBucket : UsageBucket := ⟨0, 0, 0, 0, 0⟩

/-- What the report adds for a session to the lifetime of the agent. -/
def addSession (lifetime : UsageBucket) (entry : UsageSession) : UsageBucket :=
  if entry.usage.isNone ∧ entry.priorRunsUsage.isNone then lifetime
  else
    let u := entry.usage.getD 0
    let p := entry.priorRunsUsage.getD 0
    let base := entry.forkBaseUsage.getD 0
    let inputTokens := u.inputTokens + p.inputTokens
    let outputTokens := u.outputTokens + p.outputTokens
    let cacheReadInputTokens := u.cacheReadInputTokens + p.cacheReadInputTokens
    let cacheCreationInputTokens := u.cacheCreationInputTokens + p.cacheCreationInputTokens
    let costUSD := u.costUSD + p.costUSD
    { totalIn := lifetime.totalIn +
        ((inputTokens + cacheReadInputTokens + cacheCreationInputTokens : ℕ) -
          (base.inputTokens + base.cacheReadInputTokens + base.cacheCreationInputTokens : ℕ))
      cacheRead := lifetime.cacheRead + (cacheReadInputTokens - base.cacheReadInputTokens)
      cacheCreation :=
        lifetime.cacheCreation + (cacheCreationInputTokens - base.cacheCreationInputTokens)
      totalOut := lifetime.totalOut + (outputTokens - base.outputTokens)
      costUSD := lifetime.costUSD + (costUSD - base.costUSD) }

def sessionBucket (entry : UsageSession) : UsageBucket :=
  let u := entry.usage.getD 0
  let p := entry.priorRunsUsage.getD 0
  { totalIn := (u.inputTokens + p.inputTokens + u.cacheReadInputTokens + p.cacheReadInputTokens +
      u.cacheCreationInputTokens + p.cacheCreationInputTokens : ℕ)
    cacheRead := (u.cacheReadInputTokens + p.cacheReadInputTokens : ℕ)
    cacheCreation := (u.cacheCreationInputTokens + p.cacheCreationInputTokens : ℕ)
    totalOut := (u.outputTokens + p.outputTokens : ℕ)
    costUSD := u.costUSD + p.costUSD }

/-- The report on an agent: the current session, and the lifetime. -/
def readAgentUsage (currentSessionId : Option String) : UsageBucket × UsageBucket :=
  let lifetime := (map.map Prod.snd).foldl addSession emptyBucket
  let session := (currentSessionId.bind map.get).elim emptyBucket sessionBucket
  (session, lifetime)

/-- The position of each entry of a log; an id that comes again has its last one. -/
def entryPositions (entries : List String) : JsMap String ℕ :=
  entries.zipIdx.foldl (fun positions e => positions.set e.1 e.2) []

/-- The last snapshot before a position: where it is, and what it holds. -/
def bestSnapshot (positions : JsMap String ℕ) (forkPos : ℕ) (snapshots : List UsageSnapshot) :
    Option (ℕ × PersistedUsage) :=
  snapshots.foldl (fun best snap =>
    match positions.get snap.entryId with
    | none => best
    | some p => if p < forkPos ∧ best.all (·.1 < p) then some (p, snap.usage) else best) none

def findUsageAtFork (log : String → List String)
    (parentSessionId forkMessageId : String) : Option PersistedUsage :=
  let positions := entryPositions (log parentSessionId)
  match positions.get forkMessageId with
  | none => none
  | some forkPos =>
    let parentMeta := (map.get parentSessionId).getD .new
    match bestSnapshot positions forkPos parentMeta.usageSnapshots with
    | some best => some best.2
    | none =>
      if parentMeta.usage.isNone ∧ parentMeta.priorRunsUsage.isNone then none
      else some (parentMeta.usage.getD 0 + parentMeta.priorRunsUsage.getD 0)

/-! ## The agent -/

/-- An agent: its sessions, the ids in their logs, the session that it runs, and the entry that it
has written last. -/
structure AgentSessions where
  map : UsageSessions
  log : String → List String
  sessionId : Option String
  lastWrittenEntryId : Option String

inductive UsageEvent where
  | start (sessionId : String)
  | resume (sessionId : String)
  | entry (entryId : String)
  | report (tokens : TurnTokens) (cost : ℚ) (accounting : TurnAccounting)
  /-- A message is edited, and the backend has forked the session before it. -/
  | edit (messageId forkedFrom newSessionId : String) (firstUserMessage : Bool)
  | restart

namespace AgentSessions

def empty : AgentSessions := ⟨[], fun _ => [], none, none⟩

/-- The walk up the forks of a session to one whose log has an entry, for some rounds. -/
def owningAncestor (agent : AgentSessions) (messageId : String) :
    ℕ → Option String → List String → Option String
  | 0, _, _ => none
  | _ + 1, none, _ => none
  | rounds + 1, some walk, visited =>
    if walk = "" ∨ walk ∈ visited then none
    else if messageId ∈ agent.log walk then some walk
    else
      agent.owningAncestor messageId rounds ((agent.map.get walk).bind (·.forkedFrom))
        (walk :: visited)

variable (agent : AgentSessions)

/-- The session that an edit forks from: the one whose log has the message. -/
def forkFromSession (messageId forkedFrom : String) : String :=
  if messageId ∈ agent.log forkedFrom then forkedFrom
  else
    (agent.owningAncestor messageId (agent.map.length + 1)
      ((agent.map.get forkedFrom).bind (·.forkedFrom)) [forkedFrom]).getD forkedFrom

def createSession (resumeSessionId : String) : AgentSessions :=
  { agent with
    map := rollSessionUsageOnResume agent.map resumeSessionId
    sessionId := some resumeSessionId }

/-- What a backend reports at the end of a turn. -/
def turnCompleted (tokens : TurnTokens) (cost : ℚ) (accounting : TurnAccounting) : AgentSessions :=
  match agent.sessionId with
  | none => agent
  | some sessionId =>
    let (map, cumulative) :=
      accumulateSessionUsage agent.map sessionId tokens cost accounting
    match agent.lastWrittenEntryId with
    | none => { agent with map := map }
    | some entryId =>
      { agent with map := appendSessionUsageSnapshot map sessionId entryId cumulative }

/-- An edit: the fork is recorded with its base, and a process takes it up. -/
def editMessage (messageId forkedFrom newSessionId : String)
    (firstUserMessage : Bool) : AgentSessions :=
  let forkFromSessionId := agent.forkFromSession messageId forkedFrom
  let parentBase :=
    if firstUserMessage then none
    else findUsageAtFork agent.map agent.log forkFromSessionId messageId
  createSession
    { agent with
      map := persistSessionFork agent.map newSessionId forkFromSessionId messageId parentBase }
    newSessionId

/-- What an event does. A backend names a new session for a conversation and for a fork. -/
def step : UsageEvent → AgentSessions
  | .start sessionId =>
    if agent.map.has sessionId then agent
    else
      { agent with map := agent.map.set sessionId .new, sessionId := some sessionId }
  | .resume sessionId => agent.createSession sessionId
  | .entry entryId =>
    match agent.sessionId with
    | none => agent
    | some sessionId =>
      { agent with
        log := fun s => if s = sessionId then agent.log s ++ [entryId] else agent.log s
        lastWrittenEntryId := some entryId }
  | .report tokens cost accounting => agent.turnCompleted tokens cost accounting
  | .edit messageId forkedFrom newSessionId firstUserMessage =>
    if agent.map.has newSessionId ∨ agent.sessionId.isNone then agent
    else agent.editMessage messageId forkedFrom newSessionId firstUserMessage
  | .restart => { agent with sessionId := none, lastWrittenEntryId := none }

def run (events : List UsageEvent) : AgentSessions := events.foldl step empty

end AgentSessions

end Isomux
