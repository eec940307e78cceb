import Isomux.Foundations.Machine
import Isomux.Foundations.Seating
import Isomux.Office.State

set_option autoImplicit false

/-!
# Places in the office

No two agents hold the same place, and every agent holds a place that its room has. The office is
a seating chart of its agents over the pairs of a room and a desk, and every operation on agents is
a move of that chart. The operations on rooms keep the places that are held.

## Main results

* `Isomux.OfficeState.Placed.step` — every operation keeps the invariant.
* `Isomux.OfficeState.placement` — where the agents are, behind every sequence of operations.
-/

namespace Isomux

section

variable {Outfit Rest : Type}

/-- The place of an agent: its room and its desk. -/
def AgentInfo.place (agent : AgentInfo Outfit Rest) : String × ℤ := (agent.roomId, agent.desk)

/-! ## Free places -/

variable {room : Option RoomWire} {desk : ℤ}

lemma isValidPlacement_of_isValidDesk
    (h : isValidDesk (.integer desk) room = true) : isValidPlacement desk room = true := by
  simp [isValidPlacement, h]

lemma isValidPlacement_of_isBackSeat
    (hroom : hasBackRoom room = true) (h : isBackSeat desk = true) :
    isValidPlacement desk room = true := by
  have hlobby : isLobby room = false := by
    simp only [hasBackRoom, Bool.and_eq_true, Bool.not_eq_true'] at hroom
    exact hroom.2
  simp [isValidPlacement, hlobby, h]

lemma isValidPlacement_congr {r r' : RoomWire} (h : r'.type = r.type) :
    isValidPlacement desk (some r') = isValidPlacement desk (some r) := by
  simp [isValidPlacement, isValidDesk, roomSlotCount, isLobby, h]

lemma freePlacement_spec {taken : List ℤ} {backOnly : Bool}
    (h : OfficeState.freePlacement room taken backOnly = some desk) :
    desk ∉ taken ∧ isValidPlacement desk room = true := by
  simp only [OfficeState.freePlacement] at h
  split at h
  · rename_i front hfront
    obtain rfl : front = desk := Option.some.inj h
    split_ifs at hfront with harea
    have hfree := List.find?_some hfront
    obtain ⟨n, hn, rfl⟩ := List.mem_map.1 (List.mem_of_find?_eq_some hfront)
    refine ⟨by simpa using hfree, isValidPlacement_of_isValidDesk ?_⟩
    have hlt := List.mem_range.1 hn
    simpa using hlt
  · split_ifs at h with hback
    obtain ⟨hseat, hfree⟩ := firstFreeBackSeat_spec h
    exact ⟨hfree, isValidPlacement_of_isBackSeat hback hseat⟩

lemma spawnDesk_spec {taken : List ℤ} {request : DeskRequest}
    (h : OfficeState.spawnDesk room taken request = some desk) :
    desk ∉ taken ∧ isValidPlacement desk room = true := by
  cases request with
  | omitted => exact freePlacement_spec h
  | backRoom =>
    simp only [OfficeState.spawnDesk] at h
    split_ifs at h
    exact freePlacement_spec h
  | desk number =>
    cases number with
    | notInteger => simp [OfficeState.spawnDesk] at h
    | integer n =>
      simp only [OfficeState.spawnDesk] at h
      split_ifs at h with hvalid htaken
      · exact freePlacement_spec h
      · obtain rfl : n = desk := Option.some.inj h
        exact ⟨htaken, isValidPlacement_of_isValidDesk hvalid⟩

namespace OfficeState

variable {s s' : OfficeState Outfit Rest} {rt : OfficeRuntime}

variable {agent : AgentInfo Outfit Rest} {id : String} {roomId : String} {rooms : List RoomWire}
  {desk : ℤ}

/-- The desk an agent gets is free of others, and a place of the room. -/
lemma newDesk_spec {agentId targetRoomId : String}
    {target : RoomWire} {request : DeskRequest}
    (h : s.newDesk agent agentId target targetRoomId request = .ok desk) :
    desk ∉ s.takenDesks targetRoomId (some agentId) ∧
      isValidPlacement desk (some target) = true := by
  cases request with
  | omitted =>
    by_cases hsame : agent.roomId = targetRoomId
    · simp [newDesk, hsame] at h
    · cases hplace : freePlacement (some target) (s.takenDesks targetRoomId (some agentId))
          (isBackSeat agent.desk) with
      | none => simp [newDesk, hsame, hplace] at h
      | some n =>
        obtain rfl : n = desk := by simpa [newDesk, hsame, hplace] using h
        exact freePlacement_spec hplace
  | backRoom =>
    simp only [newDesk] at h
    split at h
    · cases h
    · rename_i hlobby
      split at h
      · cases h
      · cases hseat : firstFreeBackSeat (s.takenDesks targetRoomId (some agentId)) with
        | none => simp [hseat] at h
        | some n =>
          obtain rfl : n = desk := by simpa [hseat] using h
          obtain ⟨hback, hfree⟩ := firstFreeBackSeat_spec hseat
          exact ⟨hfree, isValidPlacement_of_isBackSeat (by simp [hasBackRoom, hlobby]) hback⟩
  | desk number =>
    cases number with
    | notInteger => simp [newDesk] at h
    | integer n =>
      simp only [newDesk] at h
      split at h
      · cases h
      · rename_i hvalid
        split at h
        · cases h
        · rename_i hfree
          obtain rfl : n = desk := Except.ok.inj h
          exact ⟨hfree, isValidPlacement_of_isValidDesk (by simpa using hvalid)⟩

lemma exists_room_of_spawnRoomId {request : Option String}
    (h : s.spawnRoomId request = some roomId) : ∃ room, s.room roomId = some room := by
  have hmem : ∃ r ∈ s.rooms, r.id = roomId := by
    cases request with
    | some id =>
      simp only [spawnRoomId] at h
      split_ifs at h with hid
      obtain rfl : id = roomId := Option.some.inj h
      simpa using hid.1
    | none =>
      simp only [spawnRoomId, Option.filter_eq_some_iff, Option.map_eq_some_iff] at h
      obtain ⟨⟨r, hr, rfl⟩, -⟩ := h
      exact ⟨r, (List.mem_filter.1 (List.mem_of_head? hr)).1, rfl⟩
  obtain ⟨r, hr, hid⟩ := hmem
  exact Option.isSome_iff_exists.1 (List.find?_isSome.2 ⟨r, hr, by simpa using hid⟩)

/-! ## The chart -/

def chart (s : OfficeState Outfit Rest) : Seating.Chart String (String × ℤ) :=
  fun id => (s.getAgent id).map (·.place)

/-- The office has the room, and the room has the place. -/
def PlaceOk (s : OfficeState Outfit Rest) (place : String × ℤ) : Prop :=
  ∃ room, s.room place.1 = some room ∧ isValidPlacement place.2 (some room) = true

/-- Every agent is in the map once, under its id. -/
structure Keyed (s : OfficeState Outfit Rest) : Prop where
  nodup : (s.agents.map Prod.fst).Nodup
  ids : ∀ e ∈ s.agents, e.2.id = e.1

/-- The invariant: the agents are keyed, no place is held twice, and every place that is held is
there. -/
structure Placed (s : OfficeState Outfit Rest) : Prop where
  keyed : s.Keyed
  exclusive : Seating.Exclusive s.chart
  supported : Seating.Supported s.PlaceOk s.chart

/-- An operation on agents: the rooms stay, and the chart makes a move. -/
structure SeatMove (s s' : OfficeState Outfit Rest) : Prop where
  keyed : s'.Keyed
  rooms : s'.rooms = s.rooms
  move : Seating.Move s.PlaceOk s.chart s'.chart

/-- An operation on rooms: the agents stay, and the rooms they are in keep their type. -/
structure RoomMove (s s' : OfficeState Outfit Rest) : Prop where
  agents : s'.agents = s.agents
  rooms : ∀ agent ∈ s.getAllAgents, ∀ room, s.room agent.roomId = some room →
    ∃ room', s'.room agent.roomId = some room' ∧ room'.type = room.type

/-- **Moves of the chart keep the invariant.** -/
lemma Placed.seatMove (h : s.Placed) (hmove : s.SeatMove s') : s'.Placed where
  keyed := hmove.keyed
  exclusive := hmove.move.exclusive h.exclusive
  supported := by
    have hsame : s'.PlaceOk = s.PlaceOk := by
      funext place
      simp only [PlaceOk, room, hmove.rooms]
    rw [hsame]
    exact hmove.move.supported h.supported

lemma mem_getAllAgents_of_getAgent (h : s.Keyed)
    (hget : s.getAgent id = some agent) : agent ∈ s.getAllAgents ∧ agent.id = id := by
  have hmem : (id, agent) ∈ s.agents := (JsMap.mem_iff_get h.nodup).2 hget
  exact ⟨List.mem_map.2 ⟨_, hmem, rfl⟩, h.ids _ hmem⟩

lemma getAgent_of_mem_getAllAgents (h : s.Keyed)
    (hmem : agent ∈ s.getAllAgents) : s.getAgent agent.id = some agent := by
  obtain ⟨⟨key, value⟩, he, rfl⟩ := List.mem_map.1 hmem
  obtain rfl : value.id = key := h.ids _ he
  exact (JsMap.mem_iff_get h.nodup).1 he

lemma nodup_map_iff_exclusive {π : Type} (h : s.Keyed) (f : AgentInfo Outfit Rest → π) :
    (s.getAllAgents.map f).Nodup ↔ Seating.Exclusive fun id => (s.getAgent id).map f := by
  have hids : (s.getAllAgents.map (·.id)).Nodup := by
    have hkeys : s.getAllAgents.map (·.id) = s.agents.map Prod.fst := by
      rw [getAllAgents, List.map_map]
      exact List.map_congr_left fun e he => h.ids e he
    rw [hkeys]
    exact h.nodup
  constructor
  · intro hnodup a b p ha hb
    obtain ⟨agentA, hgetA, rfl⟩ := Option.map_eq_some_iff.1 ha
    obtain ⟨agentB, hgetB, hp⟩ := Option.map_eq_some_iff.1 hb
    obtain ⟨hmemA, rfl⟩ := mem_getAllAgents_of_getAgent h hgetA
    obtain ⟨hmemB, rfl⟩ := mem_getAllAgents_of_getAgent h hgetB
    rw [List.inj_on_of_nodup_map hnodup hmemB hmemA hp]
  · intro hexcl
    refine List.Nodup.map_on ?_ hids.of_map
    intro a ha b hb hp
    have hgetA := getAgent_of_mem_getAllAgents h ha
    have hgetB := getAgent_of_mem_getAllAgents h hb
    have hid : a.id = b.id := hexcl a.id b.id (f b) (by simp [hgetA, hp]) (by simp [hgetB])
    rw [hid, hgetB] at hgetA
    exact (Option.some.inj hgetA).symm

/-- **Moves of the rooms keep the invariant.** -/
lemma Placed.roomMove (h : s.Placed) (hmove : s.RoomMove s') : s'.Placed := by
  have hchart : s'.chart = s.chart := by
    funext id
    simp only [chart, getAgent, hmove.agents]
  refine ⟨⟨hmove.agents ▸ h.keyed.nodup, hmove.agents ▸ h.keyed.ids⟩, hchart ▸ h.exclusive, ?_⟩
  rw [hchart]
  refine h.supported.mono fun id place hplace => ?_
  obtain ⟨agent, hget, rfl⟩ := Option.map_eq_some_iff.1 hplace
  rintro ⟨room, hroom, hvalid⟩
  obtain ⟨room', hroom', htype⟩ :=
    hmove.rooms agent (mem_getAllAgents_of_getAgent h.keyed hget).1 room hroom
  exact ⟨room', hroom', (isValidPlacement_congr htype).trans hvalid⟩

lemma Keyed.set (h : s.Keyed) (hid : agent.id = id)
    (hagents : s'.agents = s.agents.set id agent) : s'.Keyed where
  nodup := hagents ▸ JsMap.nodup_keys_set h.nodup
  ids := by
    intro e he
    rw [hagents] at he
    rcases JsMap.mem_set he with hold | rfl
    · exact h.ids e hold
    · exact hid

lemma chart_set
    (hagents : s'.agents = s.agents.set id agent) :
    s'.chart = Function.update s.chart id (some agent.place) := by
  funext k
  simp only [chart, getAgent, hagents, JsMap.get_set, Function.update_apply]
  split_ifs <;> rfl

lemma chart_delete (hagents : s'.agents = s.agents.delete id) :
    s'.chart = Function.update s.chart id none := by
  funext k
  simp only [chart, getAgent, hagents, JsMap.get_delete, Function.update_apply]
  split_ifs <;> rfl

lemma free_of_not_mem_takenDesks (h : s.Keyed) {but : Option String}
    (hfree : desk ∉ s.takenDesks roomId but) (hid : some id ≠ but) :
    s.chart id ≠ some (roomId, desk) := by
  intro hplace
  obtain ⟨agent, hget, hagent⟩ := Option.map_eq_some_iff.1 hplace
  obtain ⟨hmem, rfl⟩ := mem_getAllAgents_of_getAgent h hget
  obtain ⟨rfl, rfl⟩ := Prod.mk.inj hagent
  exact hfree (List.mem_map.2 ⟨agent, List.mem_filter.2 ⟨hmem, by simpa using hid⟩, rfl⟩)

lemma SeatMove.of_take (h : s.Keyed)
    (hid : agent.id = id) (hagents : s'.agents = s.agents.set id agent)
    (hrooms : s'.rooms = s.rooms) (hok : s.PlaceOk agent.place)
    (hfree : ∀ b, b ≠ id → s.chart b ≠ some agent.place) : s.SeatMove s' :=
  ⟨h.set hid hagents, hrooms, chart_set hagents ▸ .take s.chart id agent.place hok hfree⟩

lemma SeatMove.of_keep (h : s.Keyed) {agent old : AgentInfo Outfit Rest}
    (hget : s.getAgent id = some old) (hid : agent.id = old.id) (hplace : agent.place = old.place)
    (hagents : s'.agents = s.agents.set id agent) (hrooms : s'.rooms = s.rooms) :
    s.SeatMove s' := by
  refine ⟨h.set (hid.trans (mem_getAllAgents_of_getAgent h hget).2) hagents, hrooms, ?_⟩
  have hsame : s'.chart = s.chart := by
    rw [chart_set hagents, hplace]
    refine Function.update_eq_self_iff.2 ?_
    simp [chart, hget]
  rw [hsame]
  exact .stay s.chart

lemma SeatMove.refl (h : s.Keyed) : s.SeatMove s := ⟨h, rfl, .stay _⟩

@[simp] lemma addRecentCwd_agents (cwd : JsString) : (s.addRecentCwd cwd).agents = s.agents := by
  unfold addRecentCwd
  split_ifs <;> rfl

@[simp] lemma addRecentCwd_rooms (cwd : JsString) : (s.addRecentCwd cwd).rooms = s.rooms := by
  unfold addRecentCwd
  split_ifs <;> rfl

/-! ## The operations on agents -/

lemma spawn_seatMove (h : s.Keyed) (opts : SpawnOptions Outfit Rest) (randomOutfit : Outfit)
    (draws : List String) : s.SeatMove (s.spawn rt opts randomOutfit draws).1 := by
  unfold spawn
  dsimp only
  split
  · exact .refl h
  · split
    · exact .refl h
    · rename_i roomId hroomId
      split
      · exact .refl h
      · rename_i desk hdesk
        split
        · exact .refl h
        · rename_i id hid
          obtain ⟨hfree, hvalid⟩ := spawnDesk_spec hdesk
          refine .of_take h ?_ (addRecentCwd_agents _) (addRecentCwd_rooms _) ?_ fun b _ => ?_
          · rfl
          · obtain ⟨room, hroom⟩ := exists_room_of_spawnRoomId hroomId
            exact ⟨room, hroom, hroom ▸ hvalid⟩
          · exact free_of_not_mem_takenDesks h hfree (by simp)

lemma kill_seatMove (h : s.Keyed) (agentId : String) : s.SeatMove (s.kill agentId).1 := by
  unfold kill
  split
  · exact .refl h
  · refine ⟨⟨JsMap.nodup_keys_delete h.nodup, fun e he => h.ids e ?_⟩, rfl, ?_⟩
    · exact (JsMap.mem_delete.1 he).1
    · have hchart : chart { s with agents := s.agents.delete agentId } =
          Function.update s.chart agentId none := chart_delete rfl
      rw [hchart]
      exact .leave s.chart agentId

lemma place_assign {changes : AgentChanges Outfit Rest}
    (h : changes.desk = none ∧ changes.roomId = none) :
    (agent.assign changes).place = agent.place := by
  simp [AgentInfo.place, AgentInfo.assign, h.1, h.2]

lemma editAgent_seatMove (h : s.Keyed) (agentId : String) (edit : AgentEdit Outfit) :
    s.SeatMove (s.editAgent rt agentId edit).1 := by
  unfold editAgent
  split
  · exact .refl h
  · rename_i agent hget
    dsimp only
    split
    · exact .refl h
    · have hplace : (agent.assign (s.editChanges rt agentId agent edit)).place = agent.place :=
        place_assign ⟨rfl, rfl⟩
      split
      · refine .of_keep h hget ?_ ?_ (addRecentCwd_agents _) (addRecentCwd_rooms _)
        · rfl
        · exact hplace
      · refine .of_keep h hget ?_ ?_ rfl rfl
        · rfl
        · exact hplace

lemma updateAgent_seatMove (h : s.Keyed) (agentId : String) {changes : AgentChanges Outfit Rest}
    (hchanges : changes.LeavesPlace) : s.SeatMove (s.updateAgent agentId changes).1 := by
  unfold updateAgent
  split
  · exact .refl h
  · rename_i agent hget
    have hplace : (agent.assign changes).place = agent.place := place_assign hchanges.2
    dsimp only
    split
    · refine .of_keep h hget ?_ ?_ rfl rfl
      · unfold clearGoneModel
        split <;> rfl
      · rw [← hplace]
        unfold clearGoneModel
        split <;> rfl
    · refine .of_keep h hget ?_ ?_ rfl rfl
      · rfl
      · exact hplace

lemma agentAt_spec (h : s.Keyed)
    (hat : s.agentAt desk roomId = some agent) :
    s.getAgent agent.id = some agent ∧ agent.place = (roomId, desk) := by
  have hmem := getAgent_of_mem_getAllAgents h (List.mem_of_find?_eq_some hat)
  have hplace := List.find?_some hat
  simp only [decide_eq_true_eq] at hplace
  exact ⟨hmem, Prod.ext hplace.2 hplace.1⟩

lemma free_of_agentAt_eq_none (h : s.Keyed)
    (hat : s.agentAt desk roomId = none) (id : String) : s.chart id ≠ some (roomId, desk) := by
  intro hplace
  obtain ⟨agent, hget, hagent⟩ := Option.map_eq_some_iff.1 hplace
  obtain ⟨hmem, -⟩ := mem_getAllAgents_of_getAgent h hget
  obtain ⟨rfl, rfl⟩ := Prod.mk.inj hagent
  simpa using List.find?_eq_none.1 hat agent hmem

lemma setDesk_seatMove (h : s.Keyed)
    {room : RoomWire} (hroom : s.room roomId = some room)
    (hagent : agent.roomId = roomId) (hvalid : isValidDesk (.integer desk) (some room) = true)
    (hfree : ∀ b, b ≠ agent.id → s.chart b ≠ some (roomId, desk)) :
    s.SeatMove (s.setDesk (some agent) desk).1 := by
  subst hagent
  refine .of_take h ?_ rfl rfl ?_ ?_
  · rfl
  · exact ⟨room, hroom, isValidPlacement_of_isValidDesk hvalid⟩
  · exact hfree

/-- Agents that swap desks exchange their places, or one of them takes the free one.

**Proof sketch.** Both desks are front desks of the room. With an agent at each, the two updates of
the map are an exchange. With one agent, the other desk is free. -/
lemma swapDesks_seatMove (h : s.Keyed) (deskA deskB : JsNumber) (roomId : String) :
    s.SeatMove (s.swapDesks deskA deskB roomId).1 := by
  unfold swapDesks
  split
  · rename_i a b
    split
    · exact .refl h
    · rename_i hdesks
      simp only [not_or, Bool.not_eq_false] at hdesks
      obtain ⟨hne, hvalidA, hvalidB⟩ := hdesks
      split
      · exact .refl h
      · rename_i hsome
        obtain ⟨room, hroom⟩ : ∃ room, s.room roomId = some room :=
          Option.ne_none_iff_exists'.1 (by simpa using hsome)
        rw [hroom] at hvalidA hvalidB
        cases hA : s.agentAt a roomId with
        | none =>
          cases hB : s.agentAt b roomId with
          | none => exact .refl h
          | some agentB =>
            have hplaceB := (agentAt_spec h hB).2
            exact setDesk_seatMove h hroom (congrArg Prod.fst hplaceB) hvalidA fun id _ =>
              free_of_agentAt_eq_none h hA id
        | some agentA =>
          obtain ⟨hgetA, hplaceA⟩ := agentAt_spec h hA
          cases hB : s.agentAt b roomId with
          | none =>
            exact setDesk_seatMove h hroom (congrArg Prod.fst hplaceA) hvalidB fun id _ =>
              free_of_agentAt_eq_none h hB id
          | some agentB =>
            obtain ⟨hgetB, hplaceB⟩ := agentAt_spec h hB
            have hroomA : agentA.roomId = roomId := congrArg Prod.fst hplaceA
            have hroomB : agentB.roomId = roomId := congrArg Prod.fst hplaceB
            have hkeyed : (s.setDesk (some agentA) b).1.Keyed := by
              refine h.set ?_ rfl
              rfl
            refine ⟨hkeyed.set ?_ rfl, rfl, ?_⟩
            · rfl
            have hchart : ((s.setDesk (some agentA) b).1.setDesk (some agentB) a).1.chart =
                Function.update (Function.update s.chart agentA.id (some (roomId, b))) agentB.id
                  (some (roomId, a)) := by
              rw [chart_set rfl, chart_set rfl]
              simp only [AgentInfo.place, hroomA, hroomB]
            change Seating.Move s.PlaceOk s.chart
              ((s.setDesk (some agentA) b).1.setDesk (some agentB) a).1.chart
            rw [hchart]
            refine .exchange s.chart agentA.id agentB.id (roomId, a) (roomId, b) ?_ ?_
            · simp [chart, hgetA, hplaceA]
            · simp [chart, hgetB, hplaceB]
  · exact .refl h

lemma placeAgent_seatMove (h : s.Keyed) (agentId targetRoomId : String) (request : DeskRequest) :
    s.SeatMove (s.placeAgent agentId targetRoomId request).1 := by
  unfold placeAgent
  split
  · exact .refl h
  · rename_i agent hget
    split
    · exact .refl h
    · rename_i target htarget
      split
      · exact .refl h
      · rename_i desk hdesk
        split
        · exact .refl h
        · obtain ⟨hfree, hvalid⟩ := newDesk_spec hdesk
          refine .of_take h ?_ rfl rfl ?_ fun b hb => ?_
          · exact (mem_getAllAgents_of_getAgent h hget).2
          · exact ⟨target, htarget, hvalid⟩
          · exact free_of_not_mem_takenDesks h hfree (by simpa using hb)

lemma moveAgent_seatMove (h : s.Keyed) (agentId targetRoomId : String) :
    s.SeatMove (s.moveAgent agentId targetRoomId).1 := by
  have hplace := placeAgent_seatMove h agentId targetRoomId .omitted
  unfold moveAgent
  split
  rename_i s' result heq
  rw [heq] at hplace
  split <;> exact hplace

/-! ## The operations on rooms -/

lemma roomMove_append (added : RoomWire) : s.RoomMove { s with rooms := s.rooms ++ [added] } where
  agents := rfl
  rooms := by
    intro agent _ r hr
    refine ⟨r, ?_, rfl⟩
    change (s.rooms ++ [added]).find? _ = some r
    rw [List.find?_append]
    exact Option.or_eq_some_iff.2 (Or.inl hr)

lemma RoomMove.refl : s.RoomMove s := ⟨rfl, fun _ _ room hroom => ⟨room, hroom, rfl⟩⟩

lemma createRoom_roomMove (name : Option JsString) (skin : Option RoomSkin)
    (draws : List String) : s.RoomMove (s.createRoom name skin draws).1 := by
  unfold createRoom
  dsimp only
  split
  · exact .refl
  · exact roomMove_append _

lemma ensureLobby_roomMove : s.RoomMove s.ensureLobby.1 := by
  unfold ensureLobby
  split
  · exact .refl
  · exact roomMove_append _

lemma find?_id_cons {r : RoomWire} :
    ((r :: rooms).find? fun r => r.id = id) =
      if r.id = id then some r else rooms.find? fun r => r.id = id := by
  by_cases h : r.id = id <;> simp [h]

lemma find?_eraseP_of_ne {closed id : String} (hne : id ≠ closed) :
    (rooms.eraseP (·.id = closed)).find? (fun r => r.id = id) =
      rooms.find? fun r => r.id = id := by
  induction rooms with
  | nil => rfl
  | cons r rooms ih =>
    by_cases hr : r.id = closed
    · have hother : ¬r.id = id := fun h => hne (h.symm.trans hr)
      rw [List.eraseP_cons_of_pos (by simpa using hr), find?_id_cons, if_neg hother]
    · rw [List.eraseP_cons_of_neg (by simpa using hr), find?_id_cons, find?_id_cons, ih]

lemma closeRoom_roomMove (roomId : String) : s.RoomMove (s.closeRoom roomId).1 := by
  unfold closeRoom
  split
  · exact .refl
  · split
    · exact .refl
    · split
      · exact .refl
      · rename_i hempty
        split
        · exact .refl
        · refine ⟨rfl, fun agent hagent r hr => ⟨r, ?_, rfl⟩⟩
          have hne : agent.roomId ≠ roomId := by
            simp only [List.any_eq_true, not_exists, not_and, decide_eq_true_eq] at hempty
            exact hempty agent hagent
          exact (find?_eraseP_of_ne hne).trans hr

lemma find?_setRoomName {roomId id : String} {name : JsString}
    {r : RoomWire} (hr : rooms.find? (fun r => r.id = id) = some r) :
    ∃ r', (setRoomName rooms roomId name).find? (fun r => r.id = id) = some r' ∧
      r'.type = r.type := by
  induction rooms with
  | nil => cases hr
  | cons first rooms ih =>
    rw [find?_id_cons] at hr
    unfold setRoomName
    by_cases hid : first.id = id
    · obtain rfl : first = r := by simpa [hid] using hr
      by_cases hroom : first.id = roomId
      · exact ⟨{ first with name := name }, by rw [if_pos hroom, find?_id_cons, if_pos hid], rfl⟩
      · exact ⟨first, by rw [if_neg hroom, find?_id_cons, if_pos hid], rfl⟩
    · rw [if_neg hid] at hr
      by_cases hroom : first.id = roomId
      · exact ⟨r, by rw [if_pos hroom, find?_id_cons, if_neg hid, hr], rfl⟩
      · obtain ⟨r', hr', htype⟩ := ih hr
        exact ⟨r', by rw [if_neg hroom, find?_id_cons, if_neg hid, hr'], htype⟩

lemma renameRoom_roomMove (roomId : String) (name : JsString) :
    s.RoomMove (s.renameRoom roomId name).1 := by
  unfold renameRoom
  dsimp only
  split
  · exact .refl
  · split
    · exact .refl
    · exact ⟨rfl, fun _ _ _ hr => find?_setRoomName hr⟩

end OfficeState

/-! ## Runs -/

/-- An operation of the office. An update leaves name, desk and room alone. -/
inductive OfficeOp (Outfit Rest : Type) where
  | spawn (opts : SpawnOptions Outfit Rest) (randomOutfit : Outfit) (draws : List String)
  | kill (agentId : String)
  | editAgent (agentId : String) (edit : AgentEdit Outfit)
  | updateAgent (agentId : String)
      (changes : { changes : AgentChanges Outfit Rest // changes.LeavesPlace })
  | swapDesks (deskA deskB : JsNumber) (roomId : String)
  | placeAgent (agentId targetRoomId : String) (desk : DeskRequest)
  | moveAgent (agentId targetRoomId : String)
  | createRoom (name : Option JsString) (skin : Option RoomSkin) (draws : List String)
  | closeRoom (roomId : String)
  | renameRoom (roomId : String) (name : JsString)
  | ensureLobby

namespace OfficeState

def step (rt : OfficeRuntime) (s : OfficeState Outfit Rest) :
    OfficeOp Outfit Rest → OfficeState Outfit Rest
  | .spawn opts randomOutfit draws => (s.spawn rt opts randomOutfit draws).1
  | .kill agentId => (s.kill agentId).1
  | .editAgent agentId edit => (s.editAgent rt agentId edit).1
  | .updateAgent agentId changes => (s.updateAgent agentId changes.1).1
  | .swapDesks deskA deskB roomId => (s.swapDesks deskA deskB roomId).1
  | .placeAgent agentId targetRoomId desk => (s.placeAgent agentId targetRoomId desk).1
  | .moveAgent agentId targetRoomId => (s.moveAgent agentId targetRoomId).1
  | .createRoom name skin draws => (s.createRoom name skin draws).1
  | .closeRoom roomId => (s.closeRoom roomId).1
  | .renameRoom roomId name => (s.renameRoom roomId name).1
  | .ensureLobby => s.ensureLobby.1

variable {s : OfficeState Outfit Rest} {rt : OfficeRuntime}

/-- **Every operation keeps the invariant**: one on agents is a move of the chart, one on rooms
keeps the places that are held. -/
theorem Placed.step (h : s.Placed) (op : OfficeOp Outfit Rest) : (s.step rt op).Placed := by
  cases op with
  | spawn opts randomOutfit draws => exact h.seatMove (spawn_seatMove h.keyed opts randomOutfit draws)
  | kill agentId => exact h.seatMove (kill_seatMove h.keyed agentId)
  | editAgent agentId edit => exact h.seatMove (editAgent_seatMove h.keyed agentId edit)
  | updateAgent agentId changes =>
    exact h.seatMove (updateAgent_seatMove h.keyed agentId changes.2)
  | swapDesks deskA deskB roomId => exact h.seatMove (swapDesks_seatMove h.keyed deskA deskB roomId)
  | placeAgent agentId targetRoomId desk =>
    exact h.seatMove (placeAgent_seatMove h.keyed agentId targetRoomId desk)
  | moveAgent agentId targetRoomId =>
    exact h.seatMove (moveAgent_seatMove h.keyed agentId targetRoomId)
  | createRoom name skin draws => exact h.roomMove (createRoom_roomMove name skin draws)
  | closeRoom roomId => exact h.roomMove (closeRoom_roomMove roomId)
  | renameRoom roomId name => exact h.roomMove (renameRoom_roomMove roomId name)
  | ensureLobby => exact h.roomMove ensureLobby_roomMove

lemma placed_create (initial : List RoomWire) (firstId : String) :
    (create initial firstId : OfficeState Outfit Rest).Placed where
  keyed := ⟨List.nodup_nil, fun _ he => by cases he⟩
  exclusive := fun _ _ _ hx => by cases hx
  supported := fun _ _ hx => by cases hx

lemma Placed.nodup_places (h : s.Placed) :
    (s.getAllAgents.map fun agent => (agent.roomId, agent.desk)).Nodup :=
  (nodup_map_iff_exclusive h.keyed fun agent => agent.place).2 h.exclusive

/-- **Where the agents are.** Take an office without agents and any sequence of operations, with
updates that leave name, desk and room alone. No two agents hold the same place, every agent is in a
room of the office, and its desk is a place of that room: a front desk the room has, or a back seat
in a room other than the lobby.

**Proof sketch.** The invariant holds at first and every operation keeps it (`Placed.step`). -/
theorem placement (rt : OfficeRuntime) (initial : List RoomWire) (firstId : String)
    (ops : List (OfficeOp Outfit Rest)) :
    let s := Machine.run (step rt) (create initial firstId) ops
    (s.getAllAgents.map fun agent => (agent.roomId, agent.desk)).Nodup ∧
      ∀ agent ∈ s.getAllAgents, ∃ room, s.room agent.roomId = some room ∧ room ∈ s.rooms ∧
        room.id = agent.roomId ∧ isValidPlacement agent.desk (some room) = true := by
  intro s
  have h : s.Placed :=
    Machine.run_invariant (fun _ op hs => hs.step op) (placed_create initial firstId)
  refine ⟨h.nodup_places, fun agent hagent => ?_⟩
  have hget := getAgent_of_mem_getAllAgents h.keyed hagent
  obtain ⟨room, hroom, hvalid⟩ := h.supported agent.id agent.place (by simp [chart, hget])
  have hid : room.id = agent.place.1 := by simpa using List.find?_some hroom
  exact ⟨room, hroom, List.mem_of_find?_eq_some hroom, hid, hvalid⟩

end OfficeState

end

end Isomux
