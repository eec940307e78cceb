import Isomux.Office.Placement
import Mathlib.Data.Rat.Defs

set_option autoImplicit false

/-!
# Agents as objects

On the wire an agent is an object: fields with values, of which some are `undefined`. The operations
of the office write fields of such an object and report them as changes, and which fields they
report is seen here only. The agents of `OfficeState` have typed fields instead, where `undefined`
and absent are one.

The recent folders are no data of an agent and are left out. The id of an agent is its key, as no
caller changes one. A value other than a text, a number or a truth value is JSON data.

## Main definitions

* `Isomux.ObjectOffice` — the office with its agents as objects.
-/

namespace Isomux

/-! ## Objects -/

inductive FieldValue (δ : Type) where
  | undefined
  | null
  | bool (b : Bool)
  | number (q : ℚ)
  | text (s : JsString)
  | data (d : δ)
  deriving DecidableEq

abbrev AgentObject (δ : Type) := String → FieldValue δ

/-- `Partial<AgentInfo>`: the fields that change. -/
abbrev FieldChanges (δ : Type) := JsMap String (FieldValue δ)

inductive ObjectEvent (δ : Type) where
  | agentAdded (agentId : String) (agent : AgentObject δ)
  | agentRemoved (agentId : String) (roomId : FieldValue δ)
  | agentUpdated (agentId : String) (changes : FieldChanges δ)

section

variable {δ : Type}

/-- `value ?? other`. -/
def FieldValue.orElse (value other : FieldValue δ) : FieldValue δ :=
  match value with
  | .undefined => other
  | .null => other
  | _ => value

def FieldValue.integer? : FieldValue δ → Option ℤ
  | .number q => if q.den = 1 then some q.num else none
  | _ => none

/-- An optional text, or `undefined`. -/
def optionalText (text : Option JsString) : FieldValue δ :=
  match text with
  | some s => .text s
  | none => .undefined

/-- `Object.assign(agent, changes)`. -/
def AgentObject.assign (agent : AgentObject δ) (changes : FieldChanges δ) : AgentObject δ :=
  fun field => (changes.get field).getD (agent field)

/-- An agent as it is edited, with the changes that are reported so far. -/
structure Draft (δ : Type) where
  agent : AgentObject δ
  changes : FieldChanges δ

namespace Draft

/-- `agent.field = value`. -/
def write (d : Draft δ) (field : String) (value : FieldValue δ) : Draft δ :=
  { d with agent := Function.update d.agent field value }

/-- `updated.field = value`. -/
def report (d : Draft δ) (field : String) (value : FieldValue δ) : Draft δ :=
  { d with changes := d.changes.set field value }

/-- `agent.field = value; updated.field = value`. -/
def put (d : Draft δ) (field : String) (value : FieldValue δ) : Draft δ :=
  (d.write field value).report field value

variable [DecidableEq δ]

/-- `if (changes.field && changes.field !== agent.field)`, and then both. -/
def editText (d : Draft δ) (field : String) (given : Option JsString) : Draft δ :=
  match given with
  | some text => if text ≠ [] ∧ .text text ≠ d.agent field then d.put field (.text text) else d
  | none => d

/-- A truth value that reads as true where it is absent. -/
def editFlag (d : Draft δ) (field : String) (given : Option Bool) : Draft δ :=
  match given with
  | some flag =>
    if .bool flag ≠ (d.agent field).orElse (.bool true) then d.put field (.bool flag) else d
  | none => d

/-- A gone model is cleared, with a `null`. -/
def clearGoneModel (d : Draft δ) : Draft δ :=
  if (d.agent "goneModel").orElse .null = .null then d else d.put "goneModel" .null

def setOfficeFreeModel (d : Draft δ) (model : Option JsString) : Draft δ :=
  d.write "officeFreeModel" (optionalText model)

end Draft

/-! ## Options -/

/-- The options of `spawn`. The defaults that the caller does not choose are data: the outfit that is
drawn, the capabilities and the empty list. -/
structure ObjectSpawn (δ : Type) where
  name : JsString
  cwd : JsString
  permissionMode : JsString
  desk : DeskRequest
  roomId : Option String
  customInstructions : Option JsString
  outfit : Option δ
  modelFamily : Option JsString
  effort : Option JsString
  agentType : Option JsString
  codexSandbox : Option JsString
  userId : Option JsString
  manager : Option JsString
  spawnedByAgentId : Option JsString
  spawnRootAgentId : Option JsString
  capabilities : Option δ
  limitedClaudeFamilies : Option δ
  claudeFamilyModels : Option δ

/-- The data that `spawn` puts in by itself. -/
structure SpawnData (δ : Type) where
  randomOutfit : δ
  defaultCapabilities : δ
  emptyList : δ

/-- The changes of `editAgent`. -/
structure ObjectEdit (δ : Type) where
  name : Option JsString := none
  cwd : Option JsString := none
  outfit : Option δ := none
  customInstructions : Option JsString := none
  permissionMode : Option JsString := none
  modelFamily : Option JsString := none
  effort : Option JsString := none
  codexSandbox : Option JsString := none
  autoHandoff : Option Bool := none
  autoHandoffTokens : Option ℚ := none
  limitResume : Option Bool := none
  officeFreeModel : Option JsString := none

/-- The desk an agent gets in a room, from whether it is in the room, whether it is on a back seat
and the desks that the others have. -/
def placeDesk (sameRoom onBackSeat : Bool) (taken : List ℤ) (target : RoomWire)
    (desk : DeskRequest) : Except PlaceRefusal ℤ :=
  let full : PlaceRefusal := if hasBackRoom (some target) then .backRoomFull else .noFreeDesk
  match desk with
  | .desk .notInteger => .error .invalidDesk
  | .desk (.integer n) =>
    if isValidDesk (.integer n) (some target) = false then .error .invalidDesk
    else if n ∈ taken then .error .deskTaken
    else .ok n
  | .backRoom =>
    if isLobby (some target) then .error .invalidDesk
    else if sameRoom ∧ onBackSeat then .error .samePlace
    else
      match firstFreeBackSeat taken with
      | some n => .ok n
      | none => .error full
  | .omitted =>
    if sameRoom then .error .samePlace
    else
      match OfficeState.freePlacement (some target) taken onBackSeat with
      | some n => .ok n
      | none => .error full

/-! ## The office -/

structure ObjectOffice (δ : Type) where
  agents : JsMap String (AgentObject δ)
  rooms : List RoomWire

/-- Whether a text is the name of one of the agents, trimmed and in lower case. With a name that is
no text the comparison throws. -/
def nameTaken (rt : OfficeRuntime) (nameLower : JsString) :
    JsMap String (AgentObject δ) → Option Bool
  | [] => some false
  | (_, agent) :: rest =>
    match agent "name" with
    | .text name => if rt.toLowerCase name = nameLower then some true else nameTaken rt nameLower rest
    | _ => none

namespace ObjectOffice

variable [DecidableEq δ]

/-- `_rooms.find((r) => r.id === roomId)`. -/
def room (s : ObjectOffice δ) (roomId : String) : Option RoomWire :=
  s.rooms.find? fun r => r.id = roomId

/-- The desks in use in a room, but for those of agent `but`. -/
def takenDesks (s : ObjectOffice δ) (roomId : String) (but : Option String) : List ℤ :=
  (s.agents.filter fun a => a.2 "roomId" = .text (js roomId) ∧ some a.1 ≠ but).filterMap
    fun a => (a.2 "desk").integer?

/-- The room of a new agent: the one that is named, or the first ordinary room. -/
def spawnRoomId (s : ObjectOffice δ) (roomId : Option String) : Option String :=
  match roomId with
  | some id => if s.rooms.any (·.id = id) ∧ id ≠ "" then some id else none
  | none => ((ordinaryRooms s.rooms).head?.map (·.id)).filter (· ≠ "")

def newAgent (rt : OfficeRuntime) (defaults : SpawnData δ) (opts : ObjectSpawn δ) (id : String)
    (roomId : String) (desk : ℤ) : AgentObject δ
  | "id" => .text (js id)
  | "name" => .text opts.name
  | "desk" => .number desk
  | "roomId" => .text (js roomId)
  | "cwd" => .text opts.cwd
  | "outfit" => .data (opts.outfit.getD defaults.randomOutfit)
  | "permissionMode" => .text opts.permissionMode
  | "modelFamily" => .text (opts.modelFamily.getD (js "opus"))
  | "effort" => .text (opts.effort.getD (js "high"))
  | "state" => .text (js "idle")
  | "topic" => .null
  | "topicGenerating" => .bool false
  | "customInstructions" =>
    match opts.customInstructions.filter (· ≠ []) with
    | some text => .text text
    | none => .null
  | "customInstructionsVersion" => .text (js (rt.versionOf (opts.customInstructions.getD [])))
  | "agentType" => .text (opts.agentType.getD (js "claude"))
  | "capabilities" => .data (opts.capabilities.getD defaults.defaultCapabilities)
  | "limitedClaudeFamilies" => (opts.limitedClaudeFamilies.map .data).getD .undefined
  | "claudeFamilyModels" => (opts.claudeFamilyModels.map .data).getD .undefined
  | "codexSandbox" => optionalText (opts.codexSandbox.filter (· ≠ []))
  | "userId" => (opts.userId.map .text).getD .null
  | "manager" => (opts.manager.map .text).getD .null
  | "spawnedByAgentId" => optionalText (opts.spawnedByAgentId.filter (· ≠ []))
  | "spawnRootAgentId" => optionalText (opts.spawnRootAgentId.filter (· ≠ []))
  | "privileged" => .bool false
  | "queue" => .data defaults.emptyList
  | "sessionSwapping" => .bool false
  | "turnMemberIds" => .data defaults.emptyList
  | _ => .undefined

/-- `spawn`: a new agent under a name that no agent has, or nothing. -/
def spawn (rt : OfficeRuntime) (s : ObjectOffice δ) (defaults : SpawnData δ) (opts : ObjectSpawn δ)
    (draws : List String) : ObjectOffice δ × List (ObjectEvent δ) :=
  if nameTaken rt (rt.toLowerCase opts.name.trim) s.agents ≠ some false then (s, [])
  else
    match s.spawnRoomId opts.roomId with
    | none => (s, [])
    | some roomId =>
      match OfficeState.spawnDesk (s.room roomId) (s.takenDesks roomId none) opts.desk with
      | none => (s, [])
      | some desk =>
        match firstUnused (s.agents.map Prod.fst) draws with
        | none => (s, [])
        | some id =>
          let agent := newAgent rt defaults opts id roomId desk
          ({ s with agents := s.agents.set id agent }, [.agentAdded id agent])

def kill (s : ObjectOffice δ) (agentId : String) : ObjectOffice δ × List (ObjectEvent δ) :=
  match s.agents.get agentId with
  | none => (s, [])
  | some agent =>
    ({ s with agents := s.agents.delete agentId }, [.agentRemoved agentId (agent "roomId")])

/-- A new name, where no other agent has it. With a comparison that throws nothing is edited. -/
def editName (rt : OfficeRuntime) (s : ObjectOffice δ) (agentId : String) (d : Draft δ)
    (given : Option JsString) : Option (Draft δ) :=
  match given with
  | none => some d
  | some name =>
    if name ≠ [] ∧ .text name ≠ d.agent "name" then
      (nameTaken rt (rt.toLowerCase name.trim) (s.agents.filter (·.1 ≠ agentId))).map fun duplicate =>
        if duplicate then d else d.put "name" (.text name)
    else some d

end ObjectOffice

namespace Draft

variable [DecidableEq δ]

def editOutfit (d : Draft δ) (given : Option δ) : Draft δ :=
  match given with
  | some outfit => d.put "outfit" (.data outfit)
  | none => d

/-- Other instructions, and their version with them. An empty text is stored as `null`. -/
def editInstructions (rt : OfficeRuntime) (d : Draft δ) (given : Option JsString) : Draft δ :=
  match given with
  | some text =>
    if .text text ≠ d.agent "customInstructions" then
      (d.put "customInstructions" (if text = [] then .null else .text text)).put
        "customInstructionsVersion" (.text (js (rt.versionOf text)))
    else d
  | none => d

/-- Another trigger of the handoff. The default is stored as absent. -/
def editTokens (d : Draft δ) (given : Option ℚ) : Draft δ :=
  match given with
  | some tokens =>
    if .number tokens ≠ (d.agent "autoHandoffTokens").orElse (.number AUTO_HANDOFF_DEFAULT_TOKENS)
    then
      (d.write "autoHandoffTokens"
        (if tokens = AUTO_HANDOFF_DEFAULT_TOKENS then .undefined else .number tokens)).report
          "autoHandoffTokens" (.number tokens)
    else d
  | none => d

/-- Another model clears the mark of a gone one, and the office chose it or did not. -/
def followModel (d : Draft δ) (officeFreeModel : Option JsString) : Draft δ :=
  if d.changes.has "modelFamily" then d.clearGoneModel.setOfficeFreeModel officeFreeModel else d

/-- The fields of an edit behind the name, in their order. -/
def editFields (rt : OfficeRuntime) (d : Draft δ) (edit : ObjectEdit δ) : Draft δ :=
  let d := d.editText "cwd" edit.cwd
  let d := d.editOutfit edit.outfit
  let d := d.editInstructions rt edit.customInstructions
  let d := d.editText "permissionMode" edit.permissionMode
  let d := d.editText "modelFamily" edit.modelFamily
  let d := d.editText "effort" edit.effort
  let d := d.editText "codexSandbox" edit.codexSandbox
  let d := d.editFlag "autoHandoff" edit.autoHandoff
  let d := d.editTokens edit.autoHandoffTokens
  d.editFlag "limitResume" edit.limitResume

end Draft

namespace ObjectOffice

variable [DecidableEq δ]

def editAgent (rt : OfficeRuntime) (s : ObjectOffice δ) (agentId : String) (edit : ObjectEdit δ) :
    ObjectOffice δ × List (ObjectEvent δ) :=
  match s.agents.get agentId with
  | none => (s, [])
  | some agent =>
    match s.editName rt agentId ⟨agent, []⟩ edit.name with
    | none => (s, [])
    | some named =>
      let d := (named.editFields rt edit).followModel edit.officeFreeModel
      ({ s with agents := s.agents.set agentId d.agent },
        if d.changes.isEmpty then [] else [.agentUpdated agentId d.changes])

/-- The changes name another model or another engine. -/
def modelChanged (agent : AgentObject δ) (changes : FieldChanges δ) : Bool :=
  let other (field : String) : Bool :=
    (changes.get field).any fun value => value ≠ .undefined ∧ value ≠ agent field
  other "modelFamily" || other "agentType"

/-- The agent behind an update and the changes that are reported. -/
def updated (agent : AgentObject δ) (changes : FieldChanges δ) : Draft δ :=
  let d : Draft δ := ⟨agent.assign changes, changes⟩
  if modelChanged agent changes then
    let d := d.clearGoneModel
    if changes.has "officeFreeModel" then d else d.setOfficeFreeModel none
  else d

def updateAgent (s : ObjectOffice δ) (agentId : String) (changes : FieldChanges δ) :
    ObjectOffice δ × List (ObjectEvent δ) :=
  match s.agents.get agentId with
  | none => (s, [])
  | some agent =>
    let d := updated agent changes
    ({ s with agents := s.agents.set agentId d.agent }, [.agentUpdated agentId d.changes])

def agentAt (s : ObjectOffice δ) (desk : ℤ) (roomId : String) : Option String :=
  (s.agents.find? fun a => a.2 "desk" = .number desk ∧ a.2 "roomId" = .text (js roomId)).map
    Prod.fst

/-- Fields of an agent are written and reported. -/
def put (s : ObjectOffice δ) (agentId : String) (changes : FieldChanges δ) :
    ObjectOffice δ × List (ObjectEvent δ) :=
  match s.agents.get agentId with
  | none => (s, [])
  | some agent =>
    ({ s with agents := s.agents.set agentId (agent.assign changes) },
      [.agentUpdated agentId changes])

/-- The agent gets another desk, if there is one. -/
def setDesk (s : ObjectOffice δ) (agentId : Option String) (desk : ℤ) :
    ObjectOffice δ × List (ObjectEvent δ) :=
  match agentId with
  | none => (s, [])
  | some id => s.put id [("desk", .number desk)]

/-- `swapDesks`: the agents at two front desks of a room change places. One of the desks may be
free. -/
def swapDesks (s : ObjectOffice δ) (deskA deskB : JsNumber) (roomId : String) :
    ObjectOffice δ × List (ObjectEvent δ) :=
  match deskA, deskB with
  | .integer a, .integer b =>
    if a = b ∨ isValidDesk (.integer a) (s.room roomId) = false ∨
        isValidDesk (.integer b) (s.room roomId) = false then (s, [])
    else if (s.room roomId).isNone then (s, [])
    else
      let agentA := s.agentAt a roomId
      let agentB := s.agentAt b roomId
      let (sA, eventsA) := s.setDesk agentA b
      let (sB, eventsB) := sA.setDesk agentB a
      (sB, eventsA ++ eventsB)
  | _, _ => (s, [])

/-- `placeAgent`: the agent moves to a room and a free place in it. A taken desk is refused. -/
def placeAgent (s : ObjectOffice δ) (agentId targetRoomId : String) (desk : DeskRequest) :
    ObjectOffice δ × Except PlaceRefusal (List (ObjectEvent δ)) :=
  match s.agents.get agentId with
  | none => (s, .error .agentNotFound)
  | some agent =>
    match s.room targetRoomId with
    | none => (s, .error .roomNotFound)
    | some target =>
      let sameRoom : Bool := agent "roomId" = .text (js targetRoomId)
      let onBackSeat : Bool := (agent "desk").integer?.any isBackSeat
      match placeDesk sameRoom onBackSeat (s.takenDesks targetRoomId (some agentId)) target desk with
      | .error reason => (s, .error reason)
      | .ok n =>
        if sameRoom ∧ agent "desk" = .number n then (s, .error .samePlace)
        else
          let agent' : AgentObject δ :=
            agent.assign [("roomId", .text (js targetRoomId)), ("desk", .number n)]
          let changes : FieldChanges δ :=
            if sameRoom then [("desk", .number n)]
            else [("roomId", .text (js targetRoomId)), ("desk", .number n)]
          ({ s with agents := s.agents.set agentId agent' },
            .ok [.agentUpdated agentId changes])

/-- `r.ok ? r.events : []`. -/
def eventsOf (result : Except PlaceRefusal (List (ObjectEvent δ))) : List (ObjectEvent δ) :=
  match result with
  | .ok events => events
  | .error _ => []

def moveAgent (s : ObjectOffice δ) (agentId targetRoomId : String) :
    ObjectOffice δ × List (ObjectEvent δ) :=
  let (s', result) := s.placeAgent agentId targetRoomId .omitted
  (s', eventsOf result)

end ObjectOffice

end

end Isomux
