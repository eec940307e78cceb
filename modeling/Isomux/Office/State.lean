import Isomux.Office.Desks
import Isomux.Runtime.Maps

set_option autoImplicit false

/-!
# The office state: agents and rooms

`OfficeState` holds the agents and the rooms of an office. Its operations change the state and
report what they changed as events.

The lower case of a name and the version of a text are parameters of the runtime. An operation that
draws an id takes the list of its draws. The fields of an agent that no operation here reads are one
field. A change never carries another id, as no caller changes one.

## Main definitions

* `Isomux.AgentInfo`, `Isomux.AgentChanges`, `Isomux.OfficeEvent` — agents, changes and events.
* `Isomux.OfficeState` — the state, with `spawn`, `kill`, `editAgent`, `updateAgent`, `swapDesks`,
  `placeAgent`, `moveAgent`, `createRoom`, `closeRoom`, `renameRoom` and `ensureLobby`.
* `Isomux.OfficeState.freePlacement` — the first free place of a room.
-/

namespace Isomux

/-! ## Agents -/

inductive AgentPermissionMode where
  | default | acceptEdits | bypassPermissions | auto | untrusted | onRequest | onFailure | never
  deriving DecidableEq, Repr

inductive EffortLevel where
  | minimal | low | medium | high | xhigh | max | ultra
  deriving DecidableEq, Repr

inductive AgentBackendType where
  | claude | codex | opencode
  deriving DecidableEq, Repr

inductive CodexSandboxMode where
  | readOnly | workspaceWrite | dangerFullAccess
  deriving DecidableEq, Repr

def DEFAULT_EFFORT : EffortLevel := .high

def AUTO_HANDOFF_DEFAULT_TOKENS : ℕ := 500000

/-- An agent. The type parameters are those of its outfit and of its other fields. -/
structure AgentInfo (Outfit Rest : Type) where
  id : String
  name : JsString
  desk : ℤ
  roomId : String
  cwd : JsString
  outfit : Outfit
  permissionMode : AgentPermissionMode
  modelFamily : String
  effort : EffortLevel
  customInstructions : Option JsString
  customInstructionsVersion : String
  agentType : AgentBackendType
  codexSandbox : Option CodexSandboxMode
  autoHandoff : Option Bool
  autoHandoffTokens : Option ℕ
  limitResume : Option Bool
  officeFreeModel : Option String
  goneModel : Option String
  rest : Rest

/-- `Partial<AgentInfo>`: the fields that change. A field that is itself optional changes to a value
or to none. -/
structure AgentChanges (Outfit Rest : Type) where
  name : Option JsString := none
  desk : Option ℤ := none
  roomId : Option String := none
  cwd : Option JsString := none
  outfit : Option Outfit := none
  permissionMode : Option AgentPermissionMode := none
  modelFamily : Option String := none
  effort : Option EffortLevel := none
  customInstructions : Option (Option JsString) := none
  customInstructionsVersion : Option String := none
  agentType : Option AgentBackendType := none
  codexSandbox : Option CodexSandboxMode := none
  autoHandoff : Option Bool := none
  autoHandoffTokens : Option ℕ := none
  limitResume : Option Bool := none
  officeFreeModel : Option (Option String) := none
  goneModel : Option (Option String) := none
  rest : Option Rest := none

/-- What changed, for the callers to send on. -/
inductive OfficeEvent (Outfit Rest : Type) where
  | agentAdded (agent : AgentInfo Outfit Rest)
  | agentRemoved (agentId roomId : String)
  | agentUpdated (agentId : String) (changes : AgentChanges Outfit Rest)
  | roomCreated (room : RoomWire)
  | roomClosed (roomId : String)
  | roomRenamed (roomId : String) (name : JsString)

/-- The functions of the runtime that the state calls. -/
structure OfficeRuntime where
  toLowerCase : JsString → JsString
  versionOf : JsString → String

inductive DeskRequest where
  | omitted
  | backRoom
  | desk (number : JsNumber)
  deriving DecidableEq, Repr

/-- The options of `spawn`. -/
structure SpawnOptions (Outfit Rest : Type) where
  name : JsString
  cwd : JsString
  permissionMode : AgentPermissionMode
  desk : DeskRequest
  roomId : Option String
  customInstructions : Option JsString
  outfit : Option Outfit
  modelFamily : Option String
  effort : Option EffortLevel
  agentType : Option AgentBackendType
  codexSandbox : Option CodexSandboxMode
  rest : Rest

/-- The changes of `editAgent`. -/
structure AgentEdit (Outfit : Type) where
  name : Option JsString
  cwd : Option JsString
  outfit : Option Outfit
  customInstructions : Option JsString
  permissionMode : Option AgentPermissionMode
  modelFamily : Option String
  effort : Option EffortLevel
  codexSandbox : Option CodexSandboxMode
  autoHandoff : Option Bool
  autoHandoffTokens : Option ℕ
  limitResume : Option Bool
  officeFreeModel : Option String

/-- Why `placeAgent` does nothing. -/
inductive PlaceRefusal where
  | agentNotFound | roomNotFound | samePlace | invalidDesk | deskTaken | noFreeDesk | backRoomFull
  deriving DecidableEq, Repr

/-- The first draw that is not in use. With none, the loop has not come to an end. -/
def firstUnused (existing draws : List String) : Option String := draws.find? (· ∉ existing)

def LOBBY_ROOM : RoomWire where
  type := some .lobby
  id := "lobby"
  name := js "Lobby"
  canCloseWhenEmpty := false
  skin := none

def ordinaryRooms (rooms : List RoomWire) : List RoomWire :=
  rooms.filter fun room => room.type ≠ some .lobby

structure OfficeState (Outfit Rest : Type) where
  agents : JsMap String (AgentInfo Outfit Rest)
  rooms : List RoomWire
  recentCwds : List JsString

section

variable {Outfit Rest : Type}

/-! ## Changes of one agent -/

/-- `Object.assign(agent, changes)`. -/
def AgentInfo.assign (agent : AgentInfo Outfit Rest) (changes : AgentChanges Outfit Rest) :
    AgentInfo Outfit Rest where
  id := agent.id
  name := changes.name.getD agent.name
  desk := changes.desk.getD agent.desk
  roomId := changes.roomId.getD agent.roomId
  cwd := changes.cwd.getD agent.cwd
  outfit := changes.outfit.getD agent.outfit
  permissionMode := changes.permissionMode.getD agent.permissionMode
  modelFamily := changes.modelFamily.getD agent.modelFamily
  effort := changes.effort.getD agent.effort
  customInstructions := changes.customInstructions.getD agent.customInstructions
  customInstructionsVersion :=
    changes.customInstructionsVersion.getD agent.customInstructionsVersion
  agentType := changes.agentType.getD agent.agentType
  codexSandbox := changes.codexSandbox.or agent.codexSandbox
  autoHandoff := changes.autoHandoff.or agent.autoHandoff
  autoHandoffTokens := changes.autoHandoffTokens.or agent.autoHandoffTokens
  limitResume := changes.limitResume.or agent.limitResume
  officeFreeModel := changes.officeFreeModel.getD agent.officeFreeModel
  goneModel := changes.goneModel.getD agent.goneModel
  rest := changes.rest.getD agent.rest

/-- `Object.keys(changes).length === 0`. -/
def AgentChanges.isEmpty (changes : AgentChanges Outfit Rest) : Bool :=
  changes.name.isNone && changes.desk.isNone && changes.roomId.isNone && changes.cwd.isNone &&
    changes.outfit.isNone && changes.permissionMode.isNone && changes.modelFamily.isNone &&
    changes.effort.isNone && changes.customInstructions.isNone &&
    changes.customInstructionsVersion.isNone && changes.agentType.isNone &&
    changes.codexSandbox.isNone && changes.autoHandoff.isNone &&
    changes.autoHandoffTokens.isNone && changes.limitResume.isNone &&
    changes.officeFreeModel.isNone && changes.goneModel.isNone && changes.rest.isNone

/-- The changes leave name, desk and room alone. -/
def AgentChanges.LeavesPlace (changes : AgentChanges Outfit Rest) : Prop :=
  changes.name = none ∧ changes.desk = none ∧ changes.roomId = none

/-- The agent without the mark of a gone model, and the change of that field. -/
def clearGoneModel (agent : AgentInfo Outfit Rest) :
    AgentInfo Outfit Rest × Option (Option String) :=
  match agent.goneModel with
  | none => (agent, none)
  | some _ => ({ agent with goneModel := none }, some none)

/-- A field of an edit that differs from the field of the agent. -/
def changed {α : Type} [DecidableEq α] (edit : Option α) (old : Option α) : Option α :=
  edit.filter fun value => some value ≠ old

namespace OfficeState

/-! ## Reading the state -/

def getAgent (s : OfficeState Outfit Rest) (agentId : String) : Option (AgentInfo Outfit Rest) :=
  s.agents.get agentId

def getAllAgents (s : OfficeState Outfit Rest) : List (AgentInfo Outfit Rest) :=
  s.agents.map Prod.snd

/-- `_rooms.find((r) => r.id === roomId)`. -/
def room (s : OfficeState Outfit Rest) (roomId : String) : Option RoomWire :=
  s.rooms.find? fun r => r.id = roomId

/-- The desks in use in a room, but for those of agent `but`. -/
def takenDesks (s : OfficeState Outfit Rest) (roomId : String) (but : Option String) : List ℤ :=
  (s.getAllAgents.filter fun a => a.roomId = roomId ∧ some a.id ≠ but).map (·.desk)

/-! ## Agents -/

def addRecentCwd (s : OfficeState Outfit Rest) (cwd : JsString) : OfficeState Outfit Rest :=
  if cwd = [] then s
  else { s with recentCwds := (cwd :: s.recentCwds.filter (· ≠ cwd)).take 20 }

/-- The first free place in a room: a front desk and then a back seat, or a back seat only. In the
lobby both mean its first free desk. -/
def freePlacement (room : Option RoomWire) (taken : List ℤ) (backOnly : Bool) : Option ℤ :=
  let back := hasBackRoom room
  let front : Option ℤ :=
    if !backOnly || !back then
      ((List.range (roomSlotCount room)).map Int.ofNat).find? (· ∉ taken)
    else none
  match front with
  | some desk => some desk
  | none => if back then firstFreeBackSeat taken else none

/-- The room of a new agent: the one that is named, or the first ordinary room. -/
def spawnRoomId (s : OfficeState Outfit Rest) (roomId : Option String) : Option String :=
  match roomId with
  | some id => if s.rooms.any (·.id = id) ∧ id ≠ "" then some id else none
  | none => ((ordinaryRooms s.rooms).head?.map (·.id)).filter (· ≠ "")

/-- The place of a new agent. A front desk that is taken falls through to the first free place. -/
def spawnDesk (room : Option RoomWire) (taken : List ℤ) (desk : DeskRequest) : Option ℤ :=
  match desk with
  | .desk number =>
    match number with
    | .integer n =>
      if isValidDesk (.integer n) room then
        if n ∉ taken then some n else freePlacement room taken false
      else none
    | .notInteger => none
  | .backRoom => if hasBackRoom room then freePlacement room taken true else none
  | .omitted => freePlacement room taken false

/-- `spawn`: a new agent under a name that no agent has, or nothing. -/
def spawn (rt : OfficeRuntime) (s : OfficeState Outfit Rest) (opts : SpawnOptions Outfit Rest)
    (randomOutfit : Outfit) (draws : List String) :
    OfficeState Outfit Rest × Option (AgentInfo Outfit Rest × List (OfficeEvent Outfit Rest)) :=
  let nameLower := rt.toLowerCase opts.name.trim
  if s.getAllAgents.any fun a => rt.toLowerCase a.name = nameLower then (s, none)
  else
    match s.spawnRoomId opts.roomId with
    | none => (s, none)
    | some roomId =>
      match spawnDesk (s.room roomId) (s.takenDesks roomId none) opts.desk with
      | none => (s, none)
      | some desk =>
        match firstUnused (s.agents.map Prod.fst) draws with
        | none => (s, none)
        | some id =>
          let agent : AgentInfo Outfit Rest :=
            { id := id
              name := opts.name
              desk := desk
              roomId := roomId
              cwd := opts.cwd
              outfit := opts.outfit.getD randomOutfit
              permissionMode := opts.permissionMode
              modelFamily := opts.modelFamily.getD "opus"
              effort := opts.effort.getD DEFAULT_EFFORT
              customInstructions := opts.customInstructions.filter (· ≠ [])
              customInstructionsVersion := rt.versionOf (opts.customInstructions.getD [])
              agentType := opts.agentType.getD .claude
              codexSandbox := opts.codexSandbox
              autoHandoff := none
              autoHandoffTokens := none
              limitResume := none
              officeFreeModel := none
              goneModel := none
              rest := opts.rest }
          (({ s with agents := s.agents.set id agent }).addRecentCwd opts.cwd,
            some (agent, [.agentAdded agent]))

def kill (s : OfficeState Outfit Rest) (agentId : String) :
    OfficeState Outfit Rest × List (OfficeEvent Outfit Rest) :=
  match s.getAgent agentId with
  | none => (s, [])
  | some agent =>
    ({ s with agents := s.agents.delete agentId }, [.agentRemoved agentId agent.roomId])

/-- The changes of an edit that are made: the fields that differ, and a name that no other agent
has. -/
def editChanges (rt : OfficeRuntime) (s : OfficeState Outfit Rest) (agentId : String)
    (agent : AgentInfo Outfit Rest) (edit : AgentEdit Outfit) : AgentChanges Outfit Rest :=
  let duplicate (name : JsString) : Bool :=
    s.getAllAgents.any fun a =>
      a.id ≠ agentId ∧ rt.toLowerCase a.name = rt.toLowerCase name.trim
  -- An empty text is stored as none.
  let customInstructions :=
    (changed edit.customInstructions agent.customInstructions).map fun text =>
      if text = [] then none else some text
  let modelFamily := (changed edit.modelFamily (some agent.modelFamily)).filter (· ≠ "")
  { name := (changed edit.name (some agent.name)).filter fun name => name ≠ [] ∧ !duplicate name
    cwd := (changed edit.cwd (some agent.cwd)).filter (· ≠ [])
    outfit := edit.outfit
    customInstructions := customInstructions
    customInstructionsVersion := customInstructions.map fun text => rt.versionOf (text.getD [])
    permissionMode := changed edit.permissionMode (some agent.permissionMode)
    modelFamily := modelFamily
    effort := changed edit.effort (some agent.effort)
    codexSandbox := changed edit.codexSandbox agent.codexSandbox
    autoHandoff := changed edit.autoHandoff (some (agent.autoHandoff.getD true))
    autoHandoffTokens := changed edit.autoHandoffTokens
      (some (agent.autoHandoffTokens.getD AUTO_HANDOFF_DEFAULT_TOKENS))
    limitResume := changed edit.limitResume (some (agent.limitResume.getD true))
    -- Another model clears the mark of a gone one.
    goneModel := if modelFamily.isSome then (clearGoneModel agent).2 else none }

def editAgent (rt : OfficeRuntime) (s : OfficeState Outfit Rest) (agentId : String)
    (edit : AgentEdit Outfit) : OfficeState Outfit Rest × List (OfficeEvent Outfit Rest) :=
  match s.getAgent agentId with
  | none => (s, [])
  | some agent =>
    let updated := s.editChanges rt agentId agent edit
    let edited := agent.assign updated
    let agent' : AgentInfo Outfit Rest :=
      { edited with
        -- The default is stored as absent.
        autoHandoffTokens :=
          if updated.autoHandoffTokens = some AUTO_HANDOFF_DEFAULT_TOKENS then none
          else edited.autoHandoffTokens
        officeFreeModel :=
          if updated.modelFamily.isSome then edit.officeFreeModel else edited.officeFreeModel }
    let s' := { s with agents := s.agents.set agentId agent' }
    let s' := match updated.cwd with
      | some cwd => s'.addRecentCwd cwd
      | none => s'
    if updated.isEmpty then (s, []) else (s', [.agentUpdated agentId updated])

def updateAgent (s : OfficeState Outfit Rest) (agentId : String)
    (changes : AgentChanges Outfit Rest) :
    OfficeState Outfit Rest × List (OfficeEvent Outfit Rest) :=
  match s.getAgent agentId with
  | none => (s, [])
  | some agent =>
    let modelChanged : Bool :=
      (changed changes.modelFamily (some agent.modelFamily)).isSome ||
        (changed changes.agentType (some agent.agentType)).isSome
    let assigned := agent.assign changes
    if modelChanged then
      let (cleared, goneModel) := clearGoneModel assigned
      let agent' : AgentInfo Outfit Rest :=
        { cleared with
          officeFreeModel :=
            if changes.officeFreeModel.isSome then cleared.officeFreeModel else none }
      let changes' : AgentChanges Outfit Rest :=
        { changes with goneModel := goneModel.or changes.goneModel }
      ({ s with agents := s.agents.set agentId agent' }, [.agentUpdated agentId changes'])
    else ({ s with agents := s.agents.set agentId assigned }, [.agentUpdated agentId changes])

/-! ## Places -/

def agentAt (s : OfficeState Outfit Rest) (desk : ℤ) (roomId : String) :
    Option (AgentInfo Outfit Rest) :=
  s.getAllAgents.find? fun a => a.desk = desk ∧ a.roomId = roomId

/-- The agent at another desk, and the event of it. -/
def setDesk (s : OfficeState Outfit Rest) (agent : Option (AgentInfo Outfit Rest)) (desk : ℤ) :
    OfficeState Outfit Rest × List (OfficeEvent Outfit Rest) :=
  match agent with
  | none => (s, [])
  | some a =>
    ({ s with agents := s.agents.set a.id { a with desk := desk } },
      [.agentUpdated a.id { desk := some desk }])

/-- `swapDesks`: the agents at two front desks of a room change places. One of the desks may be
free. -/
def swapDesks (s : OfficeState Outfit Rest) (deskA deskB : JsNumber) (roomId : String) :
    OfficeState Outfit Rest × List (OfficeEvent Outfit Rest) :=
  match deskA, deskB with
  | .integer a, .integer b =>
    if a = b ∨ isValidDesk (.integer a) (s.room roomId) = false ∨
        isValidDesk (.integer b) (s.room roomId) = false then (s, [])
    else if (s.room roomId).isNone then (s, [])
    else
      let agentA := s.agentAt a roomId
      let agentB := s.agentAt b roomId
      let (sA, eventsA) := s.setDesk agentA b
      let (sB, eventsB) := sA.setDesk agentB a
      (sB, eventsA ++ eventsB)
  | _, _ => (s, [])

/-- The desk an agent gets in a room, or why it gets none. -/
def newDesk (s : OfficeState Outfit Rest) (agent : AgentInfo Outfit Rest) (agentId : String)
    (target : RoomWire) (targetRoomId : String) (desk : DeskRequest) : Except PlaceRefusal ℤ :=
  let sameRoom := agent.roomId = targetRoomId
  let taken := s.takenDesks targetRoomId (some agentId)
  let full : PlaceRefusal := if hasBackRoom (some target) then .backRoomFull else .noFreeDesk
  match desk with
  | .desk .notInteger => .error .invalidDesk
  | .desk (.integer n) =>
    if isValidDesk (.integer n) (some target) = false then .error .invalidDesk
    else if n ∈ taken then .error .deskTaken
    else .ok n
  | .backRoom =>
    if isLobby (some target) then .error .invalidDesk
    else if sameRoom ∧ isBackSeat agent.desk then .error .samePlace
    else
      match firstFreeBackSeat taken with
      | some n => .ok n
      | none => .error full
  | .omitted =>
    if sameRoom then .error .samePlace
    else
      match freePlacement (some target) taken (isBackSeat agent.desk) with
      | some n => .ok n
      | none => .error full

/-- `placeAgent`: the agent moves to a room and a free place in it. A taken desk is refused. -/
def placeAgent (s : OfficeState Outfit Rest) (agentId targetRoomId : String)
    (desk : DeskRequest) :
    OfficeState Outfit Rest × Except PlaceRefusal (List (OfficeEvent Outfit Rest)) :=
  match s.getAgent agentId with
  | none => (s, .error .agentNotFound)
  | some agent =>
    match s.room targetRoomId with
    | none => (s, .error .roomNotFound)
    | some target =>
      match s.newDesk agent agentId target targetRoomId desk with
      | .error reason => (s, .error reason)
      | .ok n =>
        if agent.roomId = targetRoomId ∧ n = agent.desk then (s, .error .samePlace)
        else
          let agent' := { agent with roomId := targetRoomId, desk := n }
          let changes : AgentChanges Outfit Rest :=
            if agent.roomId = targetRoomId then { desk := some n }
            else { roomId := some targetRoomId, desk := some n }
          ({ s with agents := s.agents.set agentId agent' },
            .ok [.agentUpdated agentId changes])

def moveAgent (s : OfficeState Outfit Rest) (agentId targetRoomId : String) :
    OfficeState Outfit Rest × List (OfficeEvent Outfit Rest) :=
  let (s', result) := s.placeAgent agentId targetRoomId .omitted
  match result with
  | .ok events => (s', events)
  | .error _ => (s', [])

/-! ## Rooms -/

def createRoom (s : OfficeState Outfit Rest) (name : Option JsString) (skin : Option RoomSkin)
    (draws : List String) : OfficeState Outfit Rest × List (OfficeEvent Outfit Rest) :=
  let number := js ("Room " ++ toString ((ordinaryRooms s.rooms).length + 1))
  let displayName := (JsString.trim ((name.filter (· ≠ [])).getD number)).take 40
  match firstUnused (s.rooms.map (·.id)) draws with
  | none => (s, [])
  | some id =>
    let room : RoomWire :=
      { type := none, id := id, name := displayName, canCloseWhenEmpty := true, skin := skin }
    ({ s with rooms := s.rooms ++ [room] }, [.roomCreated room])

/-- `closeRoom`: only an empty room closes, and never the only one. -/
def closeRoom (s : OfficeState Outfit Rest) (roomId : String) :
    OfficeState Outfit Rest × List (OfficeEvent Outfit Rest) :=
  match s.room roomId with
  | none => (s, [])
  | some room =>
    if !room.canCloseWhenEmpty then (s, [])
    else if s.getAllAgents.any (·.roomId = roomId) then (s, [])
    else if s.rooms.length = 1 then (s, [])
    else ({ s with rooms := s.rooms.eraseP (·.id = roomId) }, [.roomClosed roomId])

/-- The first room under an id gets another name. -/
def setRoomName (rooms : List RoomWire) (roomId : String) (name : JsString) : List RoomWire :=
  match rooms with
  | [] => []
  | room :: rest =>
    if room.id = roomId then { room with name := name } :: rest
    else room :: setRoomName rest roomId name

def renameRoom (s : OfficeState Outfit Rest) (roomId : String) (name : JsString) :
    OfficeState Outfit Rest × List (OfficeEvent Outfit Rest) :=
  let trimmed := name.trim.take 40
  if (s.room roomId).isNone then (s, [])
  else if trimmed = [] then (s, [])
  else ({ s with rooms := setRoomName s.rooms roomId trimmed }, [.roomRenamed roomId trimmed])

def ensureLobby (s : OfficeState Outfit Rest) :
    OfficeState Outfit Rest × List (OfficeEvent Outfit Rest) :=
  match s.room LOBBY_ROOM.id with
  | some _ => (s, [])
  | none => ({ s with rooms := s.rooms ++ [LOBBY_ROOM] }, [.roomCreated LOBBY_ROOM])

/-- The constructor: an office without agents, with the given rooms or with one room. The flag of a
room comes from its type. -/
def create (initial : List RoomWire) (firstId : String) : OfficeState Outfit Rest where
  agents := []
  rooms :=
    if initial ≠ [] then
      initial.map fun r => { r with canCloseWhenEmpty := r.type ≠ some .lobby }
    else
      [{ type := none, id := firstId, name := js "Room 1", canCloseWhenEmpty := true, skin := none }]
  recentCwds := []

end OfficeState

end

end Isomux
