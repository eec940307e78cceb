import Isomux.Foundations.Machine
import Isomux.Foundations.ParentChain
import Isomux.Runtime.Maps
import Mathlib.Data.Rat.Defs

set_option autoImplicit false

/-!
# The transcripts of a cron run

A run has one log for each of its sessions. An edit of a message forks the session: a new session
starts, and the map of the sessions says from which one it was forked and at which entry. The
transcript of a session is what its ancestors logged before the fork, and its own log.

Sessions, entries and the other data of the map come from outside. The files are written, as they
are when the disk takes them. Between the check of the edited message and the fork an edit waits for
the engine; what is logged in this time is as good as logged before the edit.

## Main definitions

* `Isomux.RunLogs` — the sessions of a run and their logs, with `loadRunLogWithAncestors`,
  `persistRunSessionFork` and `editRunMessage`.
* `Isomux.RunLogOp`, `Isomux.RunLogs.step` — what happens to them.
-/

namespace Isomux

/-- An entry of a log. The type parameter is that of its content. -/
structure RunLogEntry (Content : Type) where
  id : String
  kind : String
  content : Content
  deriving DecidableEq

/-- What the map has for a session. The type parameters are those of the usage at the fork and of the
other fields. -/
structure RunSessionMeta (Usage Rest : Type) where
  claudeConfigDir : Option String
  topic : Option String
  lastModified : ℚ
  forkedFrom : Option String
  forkMessageId : Option String
  forkBaseUsage : Option Usage
  rest : Option Rest

section

variable {Content Usage Rest : Type} (map : JsMap String (RunSessionMeta Usage Rest))

variable (sessionId : String)

/-- `map[sessionId]?.forkedFrom`, where a loop over it goes on: with an id that is not empty. -/
def forkParent : Option String :=
  ((map.get sessionId).bind (·.forkedFrom)).filter (· ≠ "")

/-- `map[sessionId]?.forkMessageId`. -/
def forkCut : Option String :=
  (map.get sessionId).bind (·.forkMessageId)

/-- The entries before the one at which a session was forked. Without one these are all. -/
def entriesBefore (cutoffId : Option String) (entries : List (RunLogEntry Content)) :
    List (RunLogEntry Content) :=
  entries.takeWhile fun entry => some entry.id ≠ cutoffId

/-- The loop that builds the chain of a session: its ancestors before it, each with the entry at
which it was forked. -/
def chainLoop (map : JsMap String (RunSessionMeta Usage Rest)) :
    ℕ → Option String → List String → List (String × Option String) →
      Option (List (String × Option String))
  | 0, _, _, _ => none
  | _ + 1, none, _, chain => some chain
  | n + 1, some current, visited, chain =>
    if current ∈ visited then some chain
    else
      chainLoop map n (forkParent map current) (current :: visited)
        ((current, forkCut map current) :: chain)

/-- The entries of a chain: of each ancestor those before the fork of the next one. -/
def chainEntries (loadRunLog : String → List (RunLogEntry Content)) :
    List (String × Option String) → List (RunLogEntry Content)
  | [] => []
  | [(sessionId, _)] => loadRunLog sessionId
  | (sessionId, _) :: (next, cutoffId) :: chain =>
    entriesBefore cutoffId (loadRunLog sessionId) ++
      chainEntries loadRunLog ((next, cutoffId) :: chain)

/-- The steps that a walk over the map can take. -/
def walkBound : ℕ := map.length + 2

/-- The sessions of a run and their logs. A session without a log has the empty one. -/
structure RunLogs (Content Usage Rest : Type) where
  sessions : JsMap String (RunSessionMeta Usage Rest)
  loadRunLog : String → List (RunLogEntry Content)
  rootSessionId : String
  currentSessionId : Option String

namespace RunLogs

variable (w : RunLogs Content Usage Rest)

def leaf : String := w.currentSessionId.getD w.rootSessionId

def loadRunLogWithAncestors (sessionId : String) : List (RunLogEntry Content) :=
  chainEntries w.loadRunLog
    ((chainLoop w.sessions (walkBound w.sessions) ((some sessionId).filter (· ≠ "")) [] []).getD [])

/-- The log of a session has an entry under the id. -/
def logHas (logEntryId sessionId : String) : Bool :=
  (w.loadRunLog sessionId).any (·.id = logEntryId)

/-- The session to fork from: the first one up from the leaf whose log has the entry, or the leaf. -/
def forkFromSessionId (logEntryId : String) : String :=
  if w.logHas logEntryId w.leaf then w.leaf
  else
    ((ParentChain.search (forkParent w.sessions) (w.logHas logEntryId) (walkBound w.sessions)
      (forkParent w.sessions w.leaf) [w.leaf]).join).getD w.leaf

def appendRunLog (sessionId : String) (entry : RunLogEntry Content) : RunLogs Content Usage Rest :=
  { w with
    loadRunLog := Function.update w.loadRunLog sessionId (w.loadRunLog sessionId ++ [entry]) }

/-- `ensureRunSessionClaudeConfigDir`: the folder of the engine that runs in one. -/
def ensureRunSessionClaudeConfigDir (root : Option String) (now : ℚ) :
    JsMap String (RunSessionMeta Usage Rest) :=
  match root with
  | none => map
  | some root =>
    match map.get sessionId with
    | some existing =>
      if (existing.claudeConfigDir.filter (· ≠ "")).isSome then map
      else map.set sessionId { existing with claudeConfigDir := some root }
    | none => map.set sessionId ⟨some root, none, now, none, none, none, none⟩

def persistRunSessionFork
    (sessionId forkedFrom forkMessageId : String) (forkBaseUsage : Option Usage) (now : ℚ) :
    JsMap String (RunSessionMeta Usage Rest) :=
  let existing := (map.get sessionId).getD ⟨none, none, 0, none, none, none, none⟩
  map.set sessionId
    { existing with
      lastModified := now
      forkedFrom := some forkedFrom
      forkMessageId := some forkMessageId
      forkBaseUsage := forkBaseUsage.or existing.forkBaseUsage }

/-- `editRunMessage`, where the engine made a new session: the run goes on in that, forked from the
session whose log has the message. Without such a message nothing happens. -/
def editRunMessage (logEntryId newSessionId : String)
    (claudeConfigRoot : Option String) (parentBase : Option Usage) (now : ℚ) :
    RunLogs Content Usage Rest :=
  match (w.loadRunLogWithAncestors w.leaf).find? (·.id = logEntryId) with
  | none => w
  | some target =>
    if target.kind ≠ "user_message" then w
    else
      { w with
        sessions :=
          persistRunSessionFork
            (ensureRunSessionClaudeConfigDir w.sessions newSessionId claudeConfigRoot now)
            newSessionId (w.forkFromSessionId logEntryId) logEntryId parentBase now
        currentSessionId := some newSessionId }

def known : List String :=
  w.rootSessionId :: w.sessions.map Prod.fst

def start (rootSessionId : String) : RunLogs Content Usage Rest :=
  ⟨[], fun _ => [], rootSessionId, none⟩

end RunLogs

/-- What happens to the sessions and logs of a run. -/
inductive RunLogOp (Content Usage Rest : Type) where
  | append (entry : RunLogEntry Content)
  /-- Other data of the session is put into the map. -/
  | record (rest : Rest) (now : ℚ)
  /-- A message is edited. The engine gave the new session its id. -/
  | edit (logEntryId newSessionId : String) (claudeConfigRoot : Option String)
    (parentBase : Option Usage) (now : ℚ)

namespace RunLogs

def step (w : RunLogs Content Usage Rest) : RunLogOp Content Usage Rest →
    RunLogs Content Usage Rest
  | .append entry => w.appendRunLog w.leaf entry
  | .record rest now =>
    let existing := (w.sessions.get w.leaf).getD ⟨none, none, now, none, none, none, none⟩
    { w with sessions := w.sessions.set w.leaf { existing with rest := some rest } }
  | .edit logEntryId newSessionId claudeConfigRoot parentBase now =>
    w.editRunMessage logEntryId newSessionId claudeConfigRoot parentBase now

end RunLogs

end

end Isomux
