import Mathlib.Data.List.Basic

set_option autoImplicit false

/-!
# The messaging rule of permission packs

A sender with a pack writes only to agents whose access fits inside that pack. The sender side of an
agent comes from the limits on its token and from the live pack of its manager. The target side
comes from the record of the agent and from the rooms its manager reaches.

Room ids are strings. The axis `repliesOnly` of the limits is left out, as the rule does not read
it.

## Main definitions

* `Isomux.AgentAccess`, `Isomux.stopIncludes` — the stops of the access slider.
* `Isomux.ApiTokenAreaLevels`, `Isomux.intersectAreas` — the areas of the office at their levels.
* `Isomux.fitsInside` — whether a target fits inside a sender.
* `Isomux.agentPackSender` — the sender side of an agent.
* `Isomux.senderOf`, `Isomux.agentFitTarget`, `Isomux.packFits` — both sides and the rule, for the
  records of two agents.
-/

namespace Isomux

/-! ## Stops -/

/-- What an agent may use: one stop on the access slider. -/
inductive AgentAccess where
  | chat
  | office
  /-- Plus the file tools, inside the folder of the agent. -/
  | folder
  | web
  | standard
  /-- Standard plus some capabilities of the manager. -/
  | privileged
  deriving DecidableEq, Repr

/-- The stops from the lowest to the highest. -/
def AGENT_ACCESS_STOPS : List AgentAccess :=
  [.chat, .office, .folder, .web, .standard, .privileged]

variable (access : AgentAccess)

def belowStandard : Bool :=
  AGENT_ACCESS_STOPS.idxOf access < AGENT_ACCESS_STOPS.idxOf AgentAccess.standard

def stopHasPack : Bool :=
  access = .office ∨ access = .folder ∨ access = .web

/-- Whether the stop has the file tools, inside the folder of the agent only. -/
def stopHasFolder : Bool := access = .folder ∨ access = .web

/-- Whether the stop `upper` has everything the stop `lower` has. -/
def stopIncludes (upper lower : AgentAccess) : Bool :=
  AGENT_ACCESS_STOPS.idxOf lower ≤ AGENT_ACCESS_STOPS.idxOf upper

/-! ## Areas -/

inductive ApiTokenArea where
  | office | rooms | agents | agentManagement | logs | files | tasks | asks | membersChat | memory
  | skills | schedules | apps | webhooks | pager | environment | voice
  deriving DecidableEq, Repr

def API_TOKEN_AREAS : List ApiTokenArea :=
  [.office, .rooms, .agents, .agentManagement, .logs, .files, .tasks, .asks, .membersChat, .memory,
    .skills, .schedules, .apps, .webhooks, .pager, .environment, .voice]

/-- The level of an area. Write includes read. -/
inductive ApiTokenAccess where
  | read
  | write
  deriving DecidableEq, Repr

/-- `LEVEL_RANK`. -/
def ApiTokenAccess.rank : ApiTokenAccess → Nat
  | .read => 1
  | .write => 2

/-- The areas at their levels. An absent area is no access. -/
abbrev ApiTokenAreaLevels := ApiTokenArea → Option ApiTokenAccess

/-- The limits on a token. An absent axis does not limit. -/
structure ApiTokenLimits where
  areas : Option ApiTokenAreaLevels := none
  rooms : Option (List String) := none

/-- The areas both grant, at the lower level of the two. -/
def intersectAreas (a b : ApiTokenAreaLevels) : ApiTokenAreaLevels := fun area =>
  match a area, b area with
  | some level, some other => some (if level = .write then other else .read)
  | _, _ => none

/-- The areas in which write lets the holder reach everything. -/
def FULL_ACCESS_WRITE_AREAS : List ApiTokenArea :=
  [.office, .rooms, .files, .memory, .skills, .schedules, .apps, .webhooks, .environment]

/-- Whether write access to `area` lets the holder reach everything. -/
def writesEqualFullAccess (area : ApiTokenArea) : Bool := FULL_ACCESS_WRITE_AREAS.contains area

/-- Whether the rule applies to a sender with these areas. A pack with write in such an area reaches
everything already and counts as no pack. -/
def packCountsForRule (areas : ApiTokenAreaLevels) : Bool :=
  !API_TOKEN_AREAS.any fun area => areas area = some .write ∧ writesEqualFullAccess area

/-! ## Senders and targets -/

structure MemberPack where
  areas : ApiTokenAreaLevels
  agentCeiling : AgentAccess

structure PackSender where
  agent : Bool
  areas : ApiTokenAreaLevels
  rooms : Option (List String)
  ceiling : AgentAccess

structure FitTarget where
  access : AgentAccess
  pack : Option ApiTokenLimits
  roomId : String
  managerRooms : Option (List String)

/-- The rooms the target reaches: those of its pack that its manager reaches too. -/
def FitTarget.reach (target : FitTarget) : Option (List String) :=
  match target.pack.bind (·.rooms), target.managerRooms with
  | some packRooms, some managerRooms => some (packRooms.filter (managerRooms.contains ·))
  | some packRooms, none => some packRooms
  | none, managerRooms => managerRooms

/-- Whether each area of `target` is an area of `sender` at no lower level. -/
def areasCover (sender target : ApiTokenAreaLevels) : Bool :=
  API_TOKEN_AREAS.all fun area =>
    match target area with
    | none => true
    | some level =>
      match sender area with
      | none => false
      | some own => decide (level.rank ≤ own.rank)

/-- Whether the room and the reach of the target are inside the rooms of the sender. -/
def roomsCover (rooms : Option (List String)) (target : FitTarget) : Bool :=
  match rooms with
  | none => true
  | some rooms =>
    rooms.contains target.roomId &&
      match target.reach with
      | none => false
      | some reach => reach.all (rooms.contains ·)

/-- Whether `target` fits inside `sender`. An agent at chat has no tools and fits every sender. -/
def fitsInside (sender : PackSender) (target : FitTarget) : Bool :=
  if target.access = .chat then true
  else
    match target.pack.bind (·.areas) with
    | none => false
    | some areas =>
      stopHasPack target.access && stopIncludes sender.ceiling target.access &&
        !(sender.agent && stopHasFolder target.access) && areasCover sender.areas areas &&
        roomsCover sender.rooms target

/-- The rooms inside both limits, absent when neither limits. -/
def bothRooms (a b : Option (List String)) : Option (List String) :=
  match a, b with
  | some a, some b => some (a.filter (b.contains ·))
  | some a, none => some a
  | none, b => b

/-- The live pack and rooms of a member with a pack. -/
structure MemberPackOfIdentity where
  pack : MemberPack
  rooms : Option (List String)

/-- The sender side of an agent at `access` with the token limits `limits`, under the live pack of
its manager when that member has one. No sender: the rule does not apply. -/
def agentPackSender (limits : Option ApiTokenLimits)
    (member : Option MemberPackOfIdentity) : Option PackSender :=
  let areas :=
    match member with
    | some m =>
      match limits.bind (·.areas) with
      | some own => some (intersectAreas own m.pack.areas)
      | none => some m.pack.areas
    | none => limits.bind (·.areas)
  match areas with
  | none => none
  | some areas =>
    if packCountsForRule areas then
      some
        { agent := true
          areas := areas
          rooms := bothRooms (limits.bind (·.rooms)) (member.bind (·.rooms))
          ceiling :=
            match member with
            | some m => if stopIncludes m.pack.agentCeiling access then access
                else m.pack.agentCeiling
            | none => access }
    else none

/-! ## Records -/

inductive UserRole where
  | owner
  | member
  deriving DecidableEq, Repr

/-- The record of a user, as far as the rule reads it. -/
structure UserRecord where
  role : UserRole
  pack : Option MemberPack
  allowedRooms : List String

/-- The record of an agent, as far as the rule reads it. -/
structure PackAgentInfo where
  access : Option AgentAccess
  privileged : Bool
  pack : Option ApiTokenLimits
  roomId : String
  userId : Option String

variable (info : PackAgentInfo)

def agentAccessOf : AgentAccess :=
  match info.access with
  | some access => access
  | none => if info.privileged then .privileged else .standard

/-- The pack of an agent record, as its token is minted with it. -/
def grantedPack : Option ApiTokenLimits :=
  if stopHasPack (agentAccessOf info) then info.pack else none

/-- The limits of the token of an agent: its pack, or no area at all. No limits from standard on. -/
def agentTokenLimits : Option ApiTokenLimits :=
  if belowStandard (agentAccessOf info) then
    some ((grantedPack info).getD { areas := some fun _ => none })
  else none

/-- The rooms the agents of a manager reach. -/
def managerRoomsOf (user : Option UserRecord) : Option (List String) :=
  match user with
  | some user => if user.role = .member then some user.allowedRooms else none
  | none => none

/-- The live pack and rooms of a manager that is a member with a pack. -/
def memberPackOf (user : Option UserRecord) : Option MemberPackOfIdentity :=
  match user with
  | some user =>
    match user.pack with
    | some pack =>
      if user.role = .member then some { pack := pack, rooms := some user.allowedRooms } else none
    | none => none
  | none => none

section

variable (getUserById : String → Option UserRecord)

/-- The record of the manager of an agent. The parameter is the lookup of a user record. -/
def managerOf (info : PackAgentInfo) : Option UserRecord := info.userId.bind getUserById

/-- The sender side of an agent whose token is live. -/
def senderOf (info : PackAgentInfo) : Option PackSender :=
  agentPackSender (agentAccessOf info) (agentTokenLimits info)
    (memberPackOf (managerOf getUserById info))

def agentFitTarget (info : PackAgentInfo) : FitTarget where
  access := agentAccessOf info
  pack := grantedPack info
  roomId := info.roomId
  managerRooms := managerRoomsOf (managerOf getUserById info)

/-- Whether agent `b` fits the pack sender of agent `a`. An agent with no such sender writes to
every agent. -/
def packFits (a b : PackAgentInfo) : Bool :=
  match senderOf getUserById a with
  | none => true
  | some sender => fitsInside sender (agentFitTarget getUserById b)

end

end Isomux
