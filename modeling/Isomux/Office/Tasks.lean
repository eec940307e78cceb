import Isomux.Foundations.Machine
import Isomux.Office.State

set_option autoImplicit false

/-!
# The task board

The office state holds the tasks of the board. A mutation goes to the store before the board changes,
and is reported as one change. Every socket hears one delta about the change, or nothing, by the
rooms its user can access. The page of the user applies the deltas to the tasks it holds.

The hash of a version is a parameter. An operation that draws an id takes the list of its draws, and
one that may fail in the store takes whether it does.

## Main definitions

* `Isomux.TaskItem`, `Isomux.taskVersion` — a task and the version of its fields.
* `Isomux.TaskBoard` — the tasks, with `addTask`, `updateTask`, `deleteTask` and `restoreTask`.
* `Isomux.taskVisibleTo`, `Isomux.taskDeltaFor` — who sees a task, and what a socket hears.
* `Isomux.applyTaskDelta` — what a page does with a delta.
* `Isomux.TaskSession` — a board and a page of a viewer, and their steps.
-/

namespace Isomux

/-! ## Tasks -/

inductive TaskStatus where
  | «open» | inProgress | done | obsolete
  deriving DecidableEq, Repr

inductive TaskPriority where
  | P0 | P1 | P2 | P3 | P4
  deriving DecidableEq, Repr

inductive GithubIssueState where
  | «open» | closed
  deriving DecidableEq, Repr

inductive GithubStateReason where
  | completed | notPlanned | duplicate | reopened
  deriving DecidableEq, Repr

/-- The imported issue of a task. Its provider is always GitHub. -/
structure TaskExternal where
  repo : JsString
  number : ℕ
  url : JsString
  state : GithubIssueState
  stateReason : Option GithubStateReason
  deriving DecidableEq, Repr

/-- A task as it is stored: all but its version. -/
structure TaskRecord where
  id : String
  title : JsString
  description : Option JsString
  priority : Option TaskPriority
  status : TaskStatus
  assignee : Option JsString
  assigneeAgentId : Option String
  createdBy : JsString
  createdByAgentId : Option String
  limited : Bool
  username : Option JsString
  createdAt : ℕ
  roomId : Option String
  external : Option TaskExternal
  deriving DecidableEq

structure TaskItem extends TaskRecord where
  version : String
  deriving DecidableEq

/-- A value that is not an object, as JSON has it. -/
inductive JsonScalar where
  | null
  | text (s : JsString)
  | number (n : ℕ)
  deriving DecidableEq, Repr

def TaskStatus.text : TaskStatus → JsString
  | .open => js "open"
  | .inProgress => js "in_progress"
  | .done => js "done"
  | .obsolete => js "obsolete"

def TaskPriority.text : TaskPriority → JsString
  | .P0 => js "P0"
  | .P1 => js "P1"
  | .P2 => js "P2"
  | .P3 => js "P3"
  | .P4 => js "P4"

def GithubIssueState.text : GithubIssueState → JsString
  | .open => js "open"
  | .closed => js "closed"

def GithubStateReason.text : GithubStateReason → JsString
  | .completed => js "completed"
  | .notPlanned => js "not_planned"
  | .duplicate => js "duplicate"
  | .reopened => js "reopened"

/-- `value ?? null`. -/
def JsonScalar.ofOption (value : Option JsString) : JsonScalar :=
  match value with
  | none => .null
  | some s => .text s

/-- The fields a version is made of, in their order. The ids of agents and the issue join only where
a task has them. -/
def taskVersionFields (task : TaskRecord) : List JsonScalar :=
  let ids := (task.assigneeAgentId.filter (· ≠ ""), task.createdByAgentId.filter (· ≠ ""))
  [.text (js task.id), .text task.title, .ofOption task.description,
    .ofOption (task.priority.map (·.text)), .text task.status.text, .ofOption task.assignee,
    .text task.createdBy, .ofOption task.username, .number task.createdAt,
    .ofOption (task.roomId.map js)] ++
  (if ids.1.isSome || ids.2.isSome then
    [.ofOption (task.assigneeAgentId.map js), .ofOption (task.createdByAgentId.map js)] else []) ++
  match task.external with
  | none => []
  | some e =>
    [.text (js "github"), .text e.repo, .number e.number, .text e.url, .text e.state.text,
      .ofOption (e.stateReason.map (·.text))]

/-- The functions of the runtime that the board calls. -/
structure TaskRuntime where
  toLowerCase : JsString → JsString
  versionOf : List JsonScalar → String

variable (rt : TaskRuntime)

def taskVersion (task : TaskRecord) : String :=
  rt.versionOf (taskVersionFields task)

def TaskRecord.stamp (task : TaskRecord) : TaskItem :=
  { task with version := taskVersion rt task }

/-- The live agent that a name names, by its trimmed name in lower case. -/
def agentIdForName (name : Option JsString) (agents : List (String × JsString)) : Option String :=
  match (name.map fun n => rt.toLowerCase n.trim).filter (· ≠ []) with
  | none => none
  | some wanted => (agents.find? fun a => rt.toLowerCase a.2.trim = wanted).map (·.1)

/-! ## The board -/

inductive TaskChange where
  | created (task : TaskItem)
  /-- A task changed. It was in `prevRoomId` before. -/
  | updated (task : TaskItem) (prevRoomId : Option String)
  | deleted (task : TaskItem)
  deriving DecidableEq

inductive TaskError where
  | store
  | exists
  deriving DecidableEq, Repr

/-- `tasks_changed`. -/
structure TasksChanged where
  tasks : List TaskItem
  change : TaskChange

/-- The tasks of the office, in the order they came. -/
abbrev TaskBoard := List TaskItem

structure AddTaskOptions where
  description : Option JsString
  priority : Option TaskPriority
  assignee : Option JsString
  username : Option JsString
  roomId : Option String
  createdByAgentId : Option String
  limited : Bool
  external : Option TaskExternal

/-- The changes of a task. A field that may be absent changes to a value or to none. -/
structure TaskEdit where
  title : Option JsString
  description : Option (Option JsString)
  priority : Option (Option TaskPriority)
  status : Option TaskStatus
  assignee : Option (Option JsString)
  roomId : Option (Option String)
  external : Option (Option TaskExternal)
  limited : Option Bool

variable (agents : List (String × JsString))

/-- The task with an edit. A room or an assignee that is cleared is absent. The agent of the
assignee follows the name only when the name changes. -/
def TaskRecord.edit (task : TaskRecord) (changes : TaskEdit) : TaskRecord :=
  let assignee := changes.assignee.getD task.assignee
  let assigneeAgentId :=
    match changes.assignee with
    | none => task.assigneeAgentId
    | some name =>
      if name ≠ task.assignee then (agentIdForName rt name agents).filter (· ≠ "")
      else task.assigneeAgentId
  let cleared := changes.assignee.isSome && (assignee.filter (· ≠ [])).isNone
  { task with
    title := changes.title.getD task.title
    description := changes.description.getD task.description
    priority := changes.priority.getD task.priority
    status := changes.status.getD task.status
    assignee := if cleared then none else assignee
    assigneeAgentId := if cleared then none else assigneeAgentId
    roomId :=
      match changes.roomId with
      | none => task.roomId
      | some roomId => roomId.filter (· ≠ "")
    external := changes.external.getD task.external
    limited := changes.limited.getD task.limited }

namespace TaskBoard

/-- `setTasksDirect`: the stored tasks with fresh versions. -/
def setTasksDirect (records : List TaskRecord) : TaskBoard :=
  records.map (·.stamp rt)

/-- The board behind a change that the store takes, or the error of the store. -/
def commit (commitFails : Bool) (tasks : TaskBoard) (change : TaskChange) :
    Except TaskError (TaskBoard × List TasksChanged) :=
  if commitFails then .error .store else .ok (tasks, [⟨tasks, change⟩])

variable (tasks : TaskBoard)

/-- `addTask`. With no unused draw, the loop for the id has not come to an end. -/
def addTask (title createdBy : JsString) (opts : AddTaskOptions) (draws : List String) (now : ℕ)
    (commitFails : Bool) : Except TaskError (TaskBoard × List TasksChanged) :=
  match firstUnused (tasks.map (·.id)) draws with
  | none => .ok (tasks, [])
  | some id =>
    let record : TaskRecord :=
      { id := id
        title := title.trim
        description := opts.description
        priority := opts.priority
        status := .open
        assignee := opts.assignee
        assigneeAgentId := (agentIdForName rt opts.assignee agents).filter (· ≠ "")
        createdBy := createdBy
        createdByAgentId := opts.createdByAgentId.filter (· ≠ "")
        limited := opts.limited
        username := opts.username
        createdAt := now
        roomId := opts.roomId.filter (· ≠ "")
        external := opts.external }
    let task := record.stamp rt
    commit commitFails (tasks ++ [task]) (.created task)

def updateTask (id : String) (changes : TaskEdit) (commitFails : Bool) :
    Except TaskError (TaskBoard × List TasksChanged) :=
  match tasks.find? (·.id = id) with
  | none => .ok (tasks, [])
  | some task =>
    let next := (task.toTaskRecord.edit rt agents changes).stamp rt
    commit commitFails (tasks.map fun t => if t.id = id then next else t)
      (.updated next task.roomId)

def deleteTask (id : String) (commitFails : Bool) :
    Except TaskError (TaskBoard × List TasksChanged) :=
  match tasks.find? (·.id = id) with
  | none => .ok (tasks, [])
  | some task => commit commitFails (tasks.filter fun t => t.id ≠ id) (.deleted task)

def restoreTask (record : TaskRecord)
    (commitFails : Bool) : Except TaskError (TaskBoard × List TasksChanged) :=
  if tasks.any (·.id = record.id) then .error .exists
  else
    let task := record.stamp rt
    commit commitFails (tasks ++ [task]) (.created task)

end TaskBoard

/-! ## Viewers and deltas -/

/-- Whose board it is: the rooms the caller can access, the rooms that are there, and whether the
caller is an office owner. -/
structure TaskViewer where
  accessibleRoomIds : List String
  liveRoomIds : List String
  seesClosedRooms : Bool

/-- Whether the tasks of a room are on the board of the viewer. -/
def taskVisibleTo (roomId : Option String) (viewer : TaskViewer) : Bool :=
  match roomId.filter (· ≠ "") with
  | none => true
  | some roomId =>
    viewer.accessibleRoomIds.contains roomId ||
      (viewer.seesClosedRooms && !viewer.liveRoomIds.contains roomId)

inductive TaskDelta where
  | upserted (task : TaskItem)
  | deleted (taskId : String)
  deriving DecidableEq

def TaskDelta.taskId : TaskDelta → String
  | .upserted task => task.id
  | .deleted taskId => taskId

/-- The one message for a viewer, or nothing: a task that is visible now is put, one that was visible
before is dropped, and of one that was never visible nothing is said. -/
def taskDeltaFor (change : TaskChange) (viewer : TaskViewer) : Option TaskDelta :=
  match change with
  | .created task => if taskVisibleTo task.roomId viewer then some (.upserted task) else none
  | .updated task prevRoomId =>
    if taskVisibleTo task.roomId viewer then some (.upserted task)
    else if taskVisibleTo prevRoomId viewer then some (.deleted task.id)
    else none
  | .deleted task => if taskVisibleTo task.roomId viewer then some (.deleted task.id) else none

/-- What a page does with a delta to the tasks it holds. -/
def applyTaskDelta (tasks : List TaskItem) (delta : TaskDelta) : List TaskItem :=
  match delta with
  | .upserted task =>
    if tasks.any (·.id = task.id) then tasks.map fun t => if t.id = task.id then task else t
    else tasks ++ [task]
  | .deleted taskId =>
    if tasks.any (·.id = taskId) then tasks.filter fun t => t.id ≠ taskId else tasks

/-- `projectTasksForSession`: the tasks that a viewer sees. -/
def projectTasks (tasks : TaskBoard) (viewer : TaskViewer) : List TaskItem :=
  tasks.filter fun t => taskVisibleTo t.roomId viewer

/-! ## A board and a page -/

inductive TaskOp where
  | add (agents : List (String × JsString)) (title createdBy : JsString) (opts : AddTaskOptions)
      (draws : List String) (now : ℕ) (commitFails : Bool)
  | update (agents : List (String × JsString)) (id : String) (changes : TaskEdit)
      (commitFails : Bool)
  | delete (id : String) (commitFails : Bool)
  | restore (record : TaskRecord) (commitFails : Bool)

/-- The board behind an operation and its events, or its error. -/
def TaskBoard.apply (tasks : TaskBoard) (op : TaskOp) :
    Except TaskError (TaskBoard × List TasksChanged) :=
  match op with
  | .add agents title createdBy opts draws now commitFails =>
    tasks.addTask rt agents title createdBy opts draws now commitFails
  | .update agents id changes commitFails => tasks.updateTask rt agents id changes commitFails
  | .delete id commitFails => tasks.deleteTask id commitFails
  | .restore record commitFails => tasks.restoreTask rt record commitFails

/-- A board, the page of a viewer, and the deltas the page got. -/
structure TaskSession where
  tasks : TaskBoard
  replica : List TaskItem
  heard : List TaskDelta

namespace TaskSession

def hear (viewer : TaskViewer) (s : TaskSession) (event : TasksChanged) : TaskSession :=
  match taskDeltaFor event.change viewer with
  | none => s
  | some delta =>
    { s with replica := applyTaskDelta s.replica delta, heard := s.heard ++ [delta] }

/-- An operation on the board, and what the page hears of it. -/
def step (viewer : TaskViewer) (s : TaskSession) (op : TaskOp) : TaskSession :=
  match s.tasks.apply rt op with
  | .error _ => s
  | .ok (tasks, events) => events.foldl (hear viewer) { s with tasks := tasks }

def start (viewer : TaskViewer) (tasks : TaskBoard) : TaskSession where
  tasks := tasks
  replica := projectTasks tasks viewer
  heard := []

end TaskSession

end Isomux
