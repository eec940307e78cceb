import Isomux.Identity.PackFit
import Mathlib.Data.Set.Finite.Basic

set_option autoImplicit false

/-!
# Relays under the messaging rule

An agent may reach a third agent through a second one. A pack is a point of a product of orders: the
level of each area, the set of rooms and the stop. The rule compares the reach of the sender with
the footprint of the target, and a relay escapes exactly where the reach of the second agent exceeds
the footprint it was measured by. Areas and stop never exceed it. Rooms may, for an agent whose
manager is a member without a pack.

## Main results

* `Isomux.fitsInside_iff` — the rule is the order of reaches.
* `Isomux.senderOf_attenuates` — areas and stop of a sender stay below its own footprint.
* `Isomux.packFits_relay` — what a relay cannot widen, and when it widens nothing.
* `Isomux.relay_escapes` — a relay into a room outside the limits of the first agent.
-/

namespace Isomux

/-! ## Reaches -/

/-- The level of each area, the rooms, and the place of the stop. -/
abbrev Reach := (ApiTokenArea → ℕ) × Set String × ℕ

/-- The level of each area, zero for no access. -/
def areaRanks (levels : ApiTokenAreaLevels) : ApiTokenArea → ℕ :=
  fun area => (levels area).elim 0 ApiTokenAccess.rank

def roomSet (rooms : Option (List String)) : Set String :=
  {room | ∀ allowed ∈ rooms, room ∈ allowed}

def PackSender.toReach (sender : PackSender) : Reach :=
  (areaRanks sender.areas, roomSet sender.rooms, AGENT_ACCESS_STOPS.idxOf sender.ceiling)

/-- What a target with these areas is measured by. -/
def FitTarget.footprint (target : FitTarget) (areas : ApiTokenAreaLevels) : Reach :=
  (areaRanks areas, insert target.roomId (roomSet target.reach),
    AGENT_ACCESS_STOPS.idxOf target.access)

@[simp] lemma roomSet_none : roomSet none = Set.univ := by
  simp [roomSet]

@[simp] lemma mem_roomSet_some {rooms : List String} {room : String} :
    room ∈ roomSet (some rooms) ↔ room ∈ rooms := by
  simp [roomSet]

lemma not_univ_subset_roomSet (rooms : List String) : ¬Set.univ ⊆ roomSet (some rooms) := by
  intro h
  have hfinite : (roomSet (some rooms)).Finite :=
    rooms.finite_toSet.subset fun room hroom => mem_roomSet_some.1 hroom
  exact Set.infinite_univ (hfinite.subset h)

lemma roomSet_bothRooms (a b : Option (List String)) :
    roomSet (bothRooms a b) = roomSet a ∩ roomSet b := by
  ext room
  rcases a with _ | a <;> rcases b with _ | b <;> simp [bothRooms]

lemma FitTarget.reach_eq (target : FitTarget) :
    target.reach = bothRooms (target.pack.bind (·.rooms)) target.managerRooms := rfl

@[simp] lemma mem_API_TOKEN_AREAS (area : ApiTokenArea) : area ∈ API_TOKEN_AREAS := by
  cases area <;> decide

lemma areaRanks_intersectAreas (a b : ApiTokenAreaLevels) :
    areaRanks (intersectAreas a b) = areaRanks a ⊓ areaRanks b := by
  funext area
  simp only [areaRanks, intersectAreas, Pi.inf_apply]
  rcases a area with _ | ⟨_ | _⟩ <;> rcases b area with _ | ⟨_ | _⟩ <;> rfl

lemma areasCover_iff {sender target : ApiTokenAreaLevels} :
    areasCover sender target = true ↔ areaRanks target ≤ areaRanks sender := by
  simp only [areasCover, List.all_eq_true, mem_API_TOKEN_AREAS, true_implies, Pi.le_def,
    areaRanks]
  refine forall_congr' fun area => ?_
  rcases target area with _ | ⟨_ | _⟩ <;> rcases sender area with _ | ⟨_ | _⟩ <;> decide

variable {limits : Option ApiTokenLimits} {access : AgentAccess} {sender : PackSender}
  {target : FitTarget}

lemma roomsCover_iff {rooms : Option (List String)} :
    roomsCover rooms target = true ↔
      insert target.roomId (roomSet target.reach) ⊆ roomSet rooms := by
  cases rooms with
  | none => simp [roomsCover]
  | some rooms =>
    rw [Set.insert_subset_iff]
    cases hreach : target.reach with
    | none =>
      have hnot := not_univ_subset_roomSet rooms
      simp [roomsCover, hreach, hnot]
    | some reach =>
      simp [roomsCover, hreach, Set.subset_def]

lemma packCountsForRule_iff {areas : ApiTokenAreaLevels} :
    packCountsForRule areas = true ↔
      ∀ area, writesEqualFullAccess area = true → areaRanks areas area < 2 := by
  simp only [packCountsForRule, Bool.not_eq_true', List.any_eq_false, mem_API_TOKEN_AREAS,
    true_implies, decide_eq_true_eq, not_and]
  refine forall_congr' fun area => ?_
  rcases h : areas area with _ | ⟨_ | _⟩ <;> simp [areaRanks, h, ApiTokenAccess.rank]

lemma packCountsForRule_mono {a b : ApiTokenAreaLevels} (h : areaRanks a ≤ areaRanks b)
    (hb : packCountsForRule b = true) : packCountsForRule a = true :=
  packCountsForRule_iff.2 fun area hfull =>
    lt_of_le_of_lt (h area) (packCountsForRule_iff.1 hb area hfull)

/-- **The rule is the order of reaches**, for a target that has a pack and, under an agent, no
folder. An agent at chat fits every sender. -/
theorem fitsInside_iff :
    fitsInside sender target = true ↔
      target.access = .chat ∨ ∃ areas, target.pack.bind (·.areas) = some areas ∧
        stopHasPack target.access = true ∧
        (sender.agent = true → stopHasFolder target.access = false) ∧
        target.footprint areas ≤ sender.toReach := by
  unfold fitsInside
  by_cases hchat : target.access = .chat
  · simp [hchat]
  · rcases hareas : target.pack.bind (·.areas) with _ | areas
    · simp [hchat]
    · simp only [hchat, if_false, false_or, Bool.and_eq_true, areasCover_iff, roomsCover_iff,
        Option.some.injEq, exists_eq_left', stopIncludes, decide_eq_true_eq, FitTarget.footprint,
        PackSender.toReach, Prod.mk_le_mk, Bool.not_eq_true', Bool.and_eq_false_iff]
      constructor
      · rintro ⟨⟨⟨⟨hpack, hstop⟩, hfolder⟩, hcover⟩, hrooms⟩
        refine ⟨hpack, fun hagent => ?_, hcover, hrooms, hstop⟩
        simpa [hagent] using hfolder
      · rintro ⟨hpack, hfolder, hcover, hrooms, hstop⟩
        refine ⟨⟨⟨⟨hpack, hstop⟩, ?_⟩, hcover⟩, hrooms⟩
        cases hagent : sender.agent with
        | true => exact Or.inr (hfolder hagent)
        | false => exact Or.inl rfl

lemma fitsInside_mono {wide narrow : PackSender}
    (hagent : wide.agent = true → narrow.agent = true) (hreach : narrow.toReach ≤ wide.toReach)
    (h : fitsInside narrow target = true) : fitsInside wide target = true := by
  rcases fitsInside_iff.1 h with hchat | ⟨areas, hareas, hpack, hfolder, hle⟩
  · exact fitsInside_iff.2 (Or.inl hchat)
  · exact fitsInside_iff.2 (Or.inr ⟨areas, hareas, hpack, fun h => hfolder (hagent h),
      hle.trans hreach⟩)

/-! ## The sender side of an agent -/

/-- The parts of the sender of an agent. -/
lemma agentPackSender_spec
    {member : Option MemberPackOfIdentity}
    (h : agentPackSender access limits member = some sender) :
    sender.agent = true ∧
      sender.rooms = bothRooms (limits.bind (·.rooms)) (member.bind (·.rooms)) ∧
      AGENT_ACCESS_STOPS.idxOf sender.ceiling ≤ AGENT_ACCESS_STOPS.idxOf access ∧
      ∀ own, limits.bind (·.areas) = some own → areaRanks sender.areas ≤ areaRanks own := by
  cases member with
  | none =>
    rcases hareas : limits.bind (·.areas) with _ | own
    · simp [agentPackSender, hareas] at h
    · simp only [agentPackSender, hareas, Option.ite_none_right_eq_some, Option.some.injEq] at h
      obtain ⟨-, rfl⟩ := h
      refine ⟨rfl, rfl, le_refl _, ?_⟩
      rintro _ ⟨⟩
      exact le_refl _
  | some m =>
    -- The ceiling is the lower of the two stops.
    have hceiling : AGENT_ACCESS_STOPS.idxOf
        (if stopIncludes m.pack.agentCeiling access then access else m.pack.agentCeiling) ≤
          AGENT_ACCESS_STOPS.idxOf access := by
      split
      · exact le_refl _
      · rename_i hbelow
        simp only [stopIncludes, decide_eq_true_eq, not_le] at hbelow
        exact le_of_lt hbelow
    rcases hareas : limits.bind (·.areas) with _ | own
    · simp only [agentPackSender, hareas, Option.ite_none_right_eq_some, Option.some.injEq] at h
      obtain ⟨-, rfl⟩ := h
      exact ⟨rfl, rfl, hceiling, by simp⟩
    · simp only [agentPackSender, hareas, Option.ite_none_right_eq_some, Option.some.injEq] at h
      obtain ⟨-, rfl⟩ := h
      refine ⟨rfl, rfl, hceiling, ?_⟩
      rintro _ ⟨⟩
      simp only [areaRanks_intersectAreas]
      exact inf_le_left

lemma packCountsForRule_of_agentPackSender
    {member : Option MemberPackOfIdentity}
    (h : agentPackSender access limits member = some sender) :
    packCountsForRule sender.areas = true := by
  simp only [agentPackSender] at h
  split at h
  · cases h
  · simp only [Option.ite_none_right_eq_some, Option.some.injEq] at h
    obtain ⟨hcounts, rfl⟩ := h
    exact hcounts

lemma exists_agentPackSender
    {own : ApiTokenAreaLevels} (member : Option MemberPackOfIdentity)
    (hown : limits.bind (·.areas) = some own) (hcounts : packCountsForRule own = true) :
    ∃ sender, agentPackSender access limits member = some sender := by
  cases member with
  | none => simp [agentPackSender, hown, hcounts]
  | some m =>
    have hcut : packCountsForRule (intersectAreas own m.pack.areas) = true := by
      refine packCountsForRule_mono ?_ hcounts
      rw [areaRanks_intersectAreas]
      exact inf_le_left
    simp [agentPackSender, hown, hcut]

lemma agentTokenLimits_eq {info : PackAgentInfo} {areas : ApiTokenAreaLevels}
    (hareas : (grantedPack info).bind (·.areas) = some areas) :
    agentTokenLimits info = grantedPack info := by
  obtain ⟨pack, hpack, -⟩ := Option.bind_eq_some_iff.1 hareas
  have hstop : stopHasPack (agentAccessOf info) = true := by
    by_contra hno
    simp [grantedPack, hno] at hpack
  have hbelow : belowStandard (agentAccessOf info) = true := by
    revert hstop
    cases agentAccessOf info <;> decide
  simp [agentTokenLimits, hbelow, hpack]

section

variable (getUserById : String → Option UserRecord)

/-- **An agent with a pack never sends above the areas and the stop it is measured by.** Its rooms
are those of its pack, cut to the grants of a manager that has a pack. -/
theorem senderOf_attenuates {b : PackAgentInfo} {areas : ApiTokenAreaLevels} {sender : PackSender}
    (hareas : (grantedPack b).bind (·.areas) = some areas)
    (hsender : senderOf getUserById b = some sender) :
    sender.agent = true ∧ areaRanks sender.areas ≤ areaRanks areas ∧
      AGENT_ACCESS_STOPS.idxOf sender.ceiling ≤ AGENT_ACCESS_STOPS.idxOf (agentAccessOf b) ∧
      sender.rooms = bothRooms ((grantedPack b).bind (·.rooms))
        ((memberPackOf (managerOf getUserById b)).bind (·.rooms)) := by
  unfold senderOf at hsender
  rw [agentTokenLimits_eq hareas] at hsender
  obtain ⟨hagent, hrooms, hceiling, hown⟩ := agentPackSender_spec hsender
  exact ⟨hagent, hown areas hareas, hceiling, hrooms⟩

/-- The agent sends only to rooms it was measured by: its manager is nobody, an owner or a member
with a pack, or its own pack names no room beyond the grants of its manager. -/
def SendsInsideReach (b : PackAgentInfo) : Prop :=
  ∀ user, managerOf getUserById b = some user → user.role = .member → user.pack = none →
    ∃ rooms, (grantedPack b).bind (·.rooms) = some rooms ∧ ∀ room ∈ rooms, room ∈ user.allowedRooms

lemma roomSet_subset_of_sendsInsideReach {b : PackAgentInfo} (h : SendsInsideReach getUserById b) :
    roomSet (bothRooms ((grantedPack b).bind (·.rooms))
        ((memberPackOf (managerOf getUserById b)).bind (·.rooms))) ⊆
      roomSet (agentFitTarget getUserById b).reach := by
  rw [FitTarget.reach_eq, roomSet_bothRooms, roomSet_bothRooms]
  change _ ⊆ roomSet ((grantedPack b).bind (·.rooms)) ∩
    roomSet (managerRoomsOf (managerOf getUserById b))
  refine fun room ⟨hpack, hmember⟩ => ⟨hpack, ?_⟩
  cases huser : managerOf getUserById b with
  | none => simp [managerRoomsOf]
  | some user =>
    cases hrole : user.role with
    | owner => simp [managerRoomsOf, hrole]
    | member =>
      cases hmpack : user.pack with
      | some pack => simpa [memberPackOf, managerRoomsOf, huser, hrole, hmpack] using hmember
      | none =>
        obtain ⟨rooms, hrooms, hinside⟩ := h user huser hrole hmpack
        rw [hrooms, mem_roomSet_some] at hpack
        simpa [managerRoomsOf, hrole] using hinside room hpack

/-! ## Relays -/

/-- The rule without the rooms of the sender. -/
def packFitsBesidesRooms (a c : PackAgentInfo) : Bool :=
  match senderOf getUserById a with
  | none => true
  | some sender => fitsInside { sender with rooms := none } (agentFitTarget getUserById c)

/-- The pack sender of the agent has no room limit. -/
def NoRoomLimit (a : PackAgentInfo) : Prop :=
  ∀ sender, senderOf getUserById a = some sender → sender.rooms = none

/-- An agent below another sender is a sender itself, below it in areas and stop. What is left is
the comparison of their rooms. -/
lemma exists_sender_below {a b : PackAgentInfo} {sa : PackSender}
    (hb : stopHasPack (agentAccessOf b) = true) (ha : senderOf getUserById a = some sa)
    (hab : packFits getUserById a b = true) :
    ∃ sb, senderOf getUserById b = some sb ∧ sb.agent = true ∧
      areaRanks sb.areas ≤ areaRanks sa.areas ∧
      AGENT_ACCESS_STOPS.idxOf sb.ceiling ≤ AGENT_ACCESS_STOPS.idxOf sa.ceiling ∧
      sb.rooms = bothRooms ((grantedPack b).bind (·.rooms))
        ((memberPackOf (managerOf getUserById b)).bind (·.rooms)) ∧
      roomSet (agentFitTarget getUserById b).reach ⊆ roomSet sa.rooms := by
  have hfit : fitsInside sa (agentFitTarget getUserById b) = true := by
    simpa [packFits, ha] using hab
  rcases fitsInside_iff.1 hfit with hchat | ⟨areas, hareas, -, -, hle⟩
  · change agentAccessOf b = .chat at hchat
    rw [hchat] at hb
    exact absurd hb (by decide)
  · obtain ⟨hleAreas, hleRooms, hleStop⟩ :
        areaRanks areas ≤ areaRanks sa.areas ∧
          insert b.roomId (roomSet (agentFitTarget getUserById b).reach) ⊆ roomSet sa.rooms ∧
          AGENT_ACCESS_STOPS.idxOf (agentAccessOf b) ≤ AGENT_ACCESS_STOPS.idxOf sa.ceiling := hle
    have hcounts : packCountsForRule areas = true :=
      packCountsForRule_mono hleAreas (packCountsForRule_of_agentPackSender ha)
    obtain ⟨sb, hsb⟩ : ∃ sb, senderOf getUserById b = some sb := by
      unfold senderOf
      rw [agentTokenLimits_eq hareas]
      exact exists_agentPackSender _ hareas hcounts
    obtain ⟨hagent, hbelow, hstop, hrooms⟩ := senderOf_attenuates getUserById hareas hsb
    exact ⟨sb, hsb, hagent, hbelow.trans hleAreas, hstop.trans hleStop, hrooms,
      (Set.subset_insert _ _).trans hleRooms⟩

lemma packFits_of_reach_le {a b c : PackAgentInfo} {sa sb : PackSender}
    (ha : senderOf getUserById a = some sa) (hb : senderOf getUserById b = some sb)
    (hagent : sb.agent = true) (hreach : sb.toReach ≤ sa.toReach)
    (hbc : packFits getUserById b c = true) : packFits getUserById a c = true := by
  have hfit : fitsInside sb (agentFitTarget getUserById c) = true := by
    simpa [packFits, hb] using hbc
  simpa [packFits, ha] using fitsInside_mono (fun _ => hagent) hreach hfit

/-- **What a relay cannot widen.** Agent `b` has a pack and fits the pack sender of agent `a`. Then
every agent that fits the pack sender of `b` fits that of `a` in stop, folder and areas. It fits
in rooms too when `a` has no room limit, or when `b` sends only to rooms it was measured by.

**Proof sketch.** The footprint of `b` lies below the reach of `a`, and the sender of `b` below that
footprint in areas and stop (`senderOf_attenuates`). Its rooms lie inside the footprint under the
condition on its manager (`roomSet_subset_of_sendsInsideReach`). The rule follows the order. -/
theorem packFits_relay {a b c : PackAgentInfo} (hb : stopHasPack (agentAccessOf b) = true)
    (hab : packFits getUserById a b = true) (hbc : packFits getUserById b c = true) :
    packFitsBesidesRooms getUserById a c = true ∧
      (NoRoomLimit getUserById a ∨ SendsInsideReach getUserById b →
        packFits getUserById a c = true) := by
  cases ha : senderOf getUserById a with
  | none => simp [packFitsBesidesRooms, packFits, ha]
  | some sa =>
    obtain ⟨sb, hsb, hagent, hareas, hstop, hrooms, hmeasured⟩ :=
      exists_sender_below getUserById hb ha hab
    have hfit : fitsInside sb (agentFitTarget getUserById c) = true := by
      simpa [packFits, hsb] using hbc
    constructor
    · have hreach : sb.toReach ≤ ({ sa with rooms := none } : PackSender).toReach :=
        ⟨hareas, by simp [PackSender.toReach], hstop⟩
      simpa [packFitsBesidesRooms, ha] using fitsInside_mono (fun _ => hagent) hreach hfit
    · intro hcond
      refine packFits_of_reach_le getUserById ha hsb hagent ⟨hareas, ?_, hstop⟩ hbc
      change roomSet sb.rooms ⊆ roomSet sa.rooms
      rcases hcond with hfree | hinside
      · simp [hfree sa ha]
      · rw [hrooms]
        exact (roomSet_subset_of_sendsInsideReach getUserById hinside).trans hmeasured

end

/-! ## The escape -/

/-- The areas of a pack that may write to agents. -/
def agentsWrite : ApiTokenAreaLevels := fun area => if area = .agents then some .write else none

/-- An office with one member, who has no pack and reaches one room. -/
def oneFullMember (id : String) : Option UserRecord :=
  if id = "member" then some { role := .member, pack := none, allowedRooms := ["r1"] } else none

/-- An agent at office that may write to agents. -/
def officeAgent (rooms : Option (List String)) (roomId : String) (userId : Option String) :
    PackAgentInfo where
  access := some .office
  privileged := false
  pack := some { areas := some agentsWrite, rooms := rooms }
  roomId := roomId
  userId := userId

theorem packFits_relay_inside :
    packFitsBesidesRooms oneFullMember (officeAgent (some ["r1"]) "r1" none)
        (officeAgent (some ["r1"]) "r1" none) = true ∧
      packFits oneFullMember (officeAgent (some ["r1"]) "r1" none)
        (officeAgent (some ["r1"]) "r1" none) = true := by
  have hrelay := packFits_relay oneFullMember (a := officeAgent (some ["r1"]) "r1" none)
    (b := officeAgent (some ["r1"]) "r1" (some "member"))
    (c := officeAgent (some ["r1"]) "r1" none) (by decide) (by decide) (by decide)
  refine ⟨hrelay.1, hrelay.2 (Or.inr fun user huser _ _ => ⟨["r1"], rfl, ?_⟩)⟩
  obtain rfl : { role := .member, pack := none, allowedRooms := ["r1"] } = user := by
    simpa [managerOf, officeAgent, oneFullMember] using huser
  simp

/-- **A relay that escapes.** The second agent is measured by the room its manager reaches, and
sends without a room limit, as that manager is a member without a pack. The third agent is in
another room, and the first agent may not write to it. -/
theorem relay_escapes :
    stopHasPack (agentAccessOf (officeAgent none "r1" (some "member"))) = true ∧
      packFits oneFullMember (officeAgent (some ["r1"]) "r1" none)
        (officeAgent none "r1" (some "member")) = true ∧
      packFits oneFullMember (officeAgent none "r1" (some "member"))
        (officeAgent (some ["r2"]) "r2" none) = true ∧
      packFits oneFullMember (officeAgent (some ["r1"]) "r1" none)
        (officeAgent (some ["r2"]) "r2" none) = false := by
  decide

end Isomux
