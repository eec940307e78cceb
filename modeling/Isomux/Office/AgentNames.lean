import Isomux.Office.Placement

set_option autoImplicit false

/-!
# Names in the office

`spawn` and `editAgent` refuse a name that an agent has. They trim the new name for the comparison
and take the names of the agents as they are stored, with the white space at their ends. A name that
is stored with such white space is not found again.

The names are a seating chart: an agent holds its name, trimmed and in lower case. The chart stays
exclusive in exactly the runs in which no new name passes the comparison though an agent holds it.

## Main results

* `Isomux.OfficeState.nodup_names_iff_along` — the runs in which names are unique.
-/

namespace Isomux

/-- A name as it is told from others: trimmed, in lower case. -/
def nameKey (rt : OfficeRuntime) (name : JsString) : JsString := rt.toLowerCase name.trim

namespace OfficeState

section

variable {Outfit Rest : Type} {s s' : OfficeState Outfit Rest} {rt : OfficeRuntime}

/-! ## The chart of names -/

def nameChart (rt : OfficeRuntime) (s : OfficeState Outfit Rest) : Seating.Chart String JsString :=
  fun id => (s.getAgent id).map fun a => nameKey rt a.name

/-- Where an agent other than `but` has the name, trimmed and in lower case, the comparison of the
names as they are stored finds an agent. -/
def NameSeen (rt : OfficeRuntime) (s : OfficeState Outfit Rest) (but : Option String)
    (name : JsString) : Prop :=
  (∃ a ∈ s.getAllAgents, some a.id ≠ but ∧ nameKey rt a.name = nameKey rt name) →
    ∃ a ∈ s.getAllAgents, some a.id ≠ but ∧ rt.toLowerCase a.name = nameKey rt name

/-- There is a room, a desk and an id for the new agent. -/
def HasSeat (s : OfficeState Outfit Rest) (opts : SpawnOptions Outfit Rest) (draws : List String) :
    Prop :=
  ∃ roomId, s.spawnRoomId opts.roomId = some roomId ∧
    (spawnDesk (s.room roomId) (s.takenDesks roomId none) opts.desk).isSome ∧
      (firstUnused (s.agents.map Prod.fst) draws).isSome

/-- The names that the operation gives, if it can, are found where an agent has them. -/
def NamesSeen (rt : OfficeRuntime) (s : OfficeState Outfit Rest) : OfficeOp Outfit Rest → Prop
  | .spawn opts _ draws => s.HasSeat opts draws → s.NameSeen rt none opts.name
  | .editAgent agentId edit => (s.getAgent agentId).isSome →
      ∀ name, edit.name = some name → name ≠ [] → s.NameSeen rt (some agentId) name
  | _ => True

/-- The agents are in the map under their ids, and no name is held twice. -/
structure Named (rt : OfficeRuntime) (s : OfficeState Outfit Rest) : Prop where
  keyed : s.Keyed
  exclusive : Seating.Exclusive (s.nameChart rt)

lemma exists_agent_iff_nameChart (h : s.Keyed) {but : Option String} {key : JsString} :
    (∃ a ∈ s.getAllAgents, some a.id ≠ but ∧ nameKey rt a.name = key) ↔
      ∃ id, some id ≠ but ∧ s.nameChart rt id = some key := by
  constructor
  · rintro ⟨a, ha, hbut, rfl⟩
    exact ⟨a.id, hbut, by simp [nameChart, getAgent_of_mem_getAllAgents h ha]⟩
  · rintro ⟨id, hbut, hkey⟩
    obtain ⟨a, hget, hname⟩ := Option.map_eq_some_iff.1 hkey
    obtain ⟨hmem, rfl⟩ := mem_getAllAgents_of_getAgent h hget
    exact ⟨a, hmem, hbut, hname⟩

variable {agent : AgentInfo Outfit Rest} {edit : AgentEdit Outfit} {agentId : String}
  {name : JsString}

/-- Where the comparison finds no agent, a name is found where it is held exactly when it is
free. -/
lemma nameSeen_iff_free (h : s.Keyed) {but : Option String}
    (hunseen : ¬∃ a ∈ s.getAllAgents, some a.id ≠ but ∧ rt.toLowerCase a.name = nameKey rt name) :
    s.NameSeen rt but name ↔
      ∀ id, some id ≠ but → s.nameChart rt id ≠ some (nameKey rt name) := by
  unfold NameSeen
  rw [exists_agent_iff_nameChart h]
  constructor
  · intro hseen id hbut hkey
    exact hunseen (hseen ⟨id, hbut, hkey⟩)
  · rintro hfree ⟨id, hbut, hkey⟩
    exact absurd hkey (hfree id hbut)

/-! ## What an operation does to the chart -/

lemma nameChart_set {id : String}
    (hagents : s'.agents = s.agents.set id agent) :
    s'.nameChart rt = Function.update (s.nameChart rt) id (some (nameKey rt agent.name)) := by
  funext k
  simp only [nameChart, getAgent, hagents, JsMap.get_set, Function.update_apply]
  split_ifs <;> rfl

lemma nameChart_set_of_name_eq {id : String} {agent old : AgentInfo Outfit Rest}
    (hget : s.getAgent id = some old) (hname : agent.name = old.name)
    (hagents : s'.agents = s.agents.set id agent) : s'.nameChart rt = s.nameChart rt := by
  rw [nameChart_set hagents, hname]
  refine Function.update_eq_self_iff.2 ?_
  simp [nameChart, hget]

lemma nameChart_of_agents_eq (hagents : s'.agents = s.agents) :
    s'.nameChart rt = s.nameChart rt := by
  funext id
  simp only [nameChart, getAgent, hagents]

lemma kill_nameChart (s : OfficeState Outfit Rest) (rt : OfficeRuntime) (agentId : String) :
    (s.kill agentId).1.nameChart rt = s.nameChart rt ∨
      (s.kill agentId).1.nameChart rt = Function.update (s.nameChart rt) agentId none := by
  unfold kill
  split
  · exact .inl rfl
  · refine .inr ?_
    funext k
    simp only [nameChart, getAgent, JsMap.get_delete, Function.update_apply]
    split_ifs <;> rfl

lemma updateAgent_nameChart (agentId : String) {changes : AgentChanges Outfit Rest}
    (hchanges : changes.LeavesPlace) :
    (s.updateAgent agentId changes).1.nameChart rt = s.nameChart rt := by
  unfold updateAgent
  split
  · rfl
  · rename_i agent hget
    have hname : (agent.assign changes).name = agent.name := by
      simp [AgentInfo.assign, hchanges.1]
    dsimp only
    split
    · refine nameChart_set_of_name_eq hget ?_ rfl
      rw [← hname]
      unfold clearGoneModel
      split <;> rfl
    · exact nameChart_set_of_name_eq hget hname rfl

lemma setDesk_nameChart {agent : Option (AgentInfo Outfit Rest)} {desk : ℤ}
    (hagent : ∀ a, agent = some a → (s.getAgent a.id).map (·.name) = some a.name) :
    (s.setDesk agent desk).1.nameChart rt = s.nameChart rt := by
  cases agent with
  | none => rfl
  | some a =>
    obtain ⟨old, hget, hname⟩ := Option.map_eq_some_iff.1 (hagent a rfl)
    refine nameChart_set_of_name_eq hget ?_ rfl
    exact hname.symm

lemma swapDesks_nameChart (h : s.Keyed) (deskA deskB : JsNumber) (roomId : String) :
    (s.swapDesks deskA deskB roomId).1.nameChart rt = s.nameChart rt := by
  have hat : ∀ {desk : ℤ} {a : AgentInfo Outfit Rest}, s.agentAt desk roomId = some a →
      s.getAgent a.id = some a := fun hdesk => (agentAt_spec h hdesk).1
  unfold swapDesks
  split
  · rename_i a b
    split_ifs
    · rfl
    · rfl
    · refine (setDesk_nameChart fun agentB hB => ?_).trans (setDesk_nameChart fun agentA hA => ?_)
      · -- The first agent that moved is the second one, or another.
        cases hA : s.agentAt a roomId with
        | none => simp [setDesk, hat hB]
        | some agentA =>
          simp only [setDesk, getAgent, JsMap.get_set]
          split_ifs with hid
          · have hsame : agentA = agentB := by
              have hgetB := hat hB
              rw [hid, hat hA] at hgetB
              exact Option.some.inj hgetB
            simp [hsame]
          · exact congrArg (Option.map (·.name)) (hat hB)
      · simp [hat hA]
  · rfl

lemma placeAgent_nameChart (agentId targetRoomId : String) (request : DeskRequest) :
    (s.placeAgent agentId targetRoomId request).1.nameChart rt = s.nameChart rt := by
  unfold placeAgent
  split
  · rfl
  · rename_i agent hget
    split
    · rfl
    · split
      · rfl
      · split
        · rfl
        · refine nameChart_set_of_name_eq hget ?_ rfl
          rfl

lemma moveAgent_nameChart (agentId targetRoomId : String) :
    (s.moveAgent agentId targetRoomId).1.nameChart rt = s.nameChart rt := by
  have hplace : (s.placeAgent agentId targetRoomId .omitted).1.nameChart rt = s.nameChart rt :=
    placeAgent_nameChart agentId targetRoomId .omitted
  unfold moveAgent
  split
  rename_i s' result heq
  rw [heq] at hplace
  split <;> exact hplace

/-! ## New names -/

lemma nameChart_of_firstUnused {draws : List String} {id : String}
    (hid : firstUnused (s.agents.map Prod.fst) draws = some id) : s.nameChart rt id = none := by
  have hunused := List.find?_some hid
  cases hget : s.getAgent id with
  | none => simp [nameChart, hget]
  | some agent =>
    have hmem := List.mem_map_of_mem (f := Prod.fst) (JsMap.mem_of_get hget)
    simp only [decide_eq_true_eq] at hunused
    exact absurd hmem hunused

/-- A spawn that is made gives its name to a new agent: names stay unique exactly when a name that
is held is found. -/
lemma spawn_exclusive_iff (h : s.Named rt) (opts : SpawnOptions Outfit Rest)
    (randomOutfit : Outfit) (draws : List String) :
    Seating.Exclusive ((s.spawn rt opts randomOutfit draws).1.nameChart rt) ↔
      (s.HasSeat opts draws → s.NameSeen rt none opts.name) := by
  unfold spawn
  dsimp only
  split
  · -- The comparison finds an agent.
    rename_i hduplicate
    refine iff_of_true h.exclusive fun _ _ => ?_
    obtain ⟨a, ha, hname⟩ := List.any_eq_true.1 hduplicate
    exact ⟨a, ha, nofun, by simpa [nameKey] using hname⟩
  · rename_i hunseen
    have hunseen : ¬∃ a ∈ s.getAllAgents, some a.id ≠ none ∧
        rt.toLowerCase a.name = nameKey rt opts.name := by
      rintro ⟨a, ha, -, hname⟩
      exact hunseen (List.any_eq_true.2 ⟨a, ha, by simpa [nameKey] using hname⟩)
    split
    · rename_i hroom
      refine iff_of_true h.exclusive ?_
      rintro ⟨roomId, hroomId, -⟩
      cases hroom.symm.trans hroomId
    · rename_i roomId hroomId
      split
      · rename_i hdesk
        refine iff_of_true h.exclusive ?_
        rintro ⟨roomId', hroomId', hdesk', -⟩
        cases hroomId.symm.trans hroomId'
        simp [hdesk] at hdesk'
      · rename_i desk hdesk
        split
        · rename_i hid
          refine iff_of_true h.exclusive ?_
          rintro ⟨-, -, -, hid'⟩
          simp [hid] at hid'
        · rename_i id hid
          have hseat : s.HasSeat opts draws := ⟨roomId, hroomId, by simp [hdesk], by simp [hid]⟩
          have hfresh : s.nameChart rt id = none := nameChart_of_firstUnused hid
          rw [nameChart_set (addRecentCwd_agents _), Seating.exclusive_update_iff h.exclusive,
            forall_prop_of_true hseat, nameSeen_iff_free h.keyed hunseen]
          refine ⟨fun hfree b _ hb => ?_, fun hfree b _ => hfree b nofun⟩
          refine hfree b ?_ hb
          rintro rfl
          cases hfresh.symm.trans hb

lemma name_of_isEmpty {changes : AgentChanges Outfit Rest} (h : changes.isEmpty = true) :
    changes.name = none := by
  simp only [AgentChanges.isEmpty, Bool.and_eq_true, Option.isNone_iff_eq_none] at h
  exact h.1.1.1.1.1.1.1.1.1.1.1.1.1.1.1.1.1

lemma editAgent_nameChart (agentId : String) (edit : AgentEdit Outfit)
    (hget : s.getAgent agentId = some agent) :
    (s.editAgent rt agentId edit).1.nameChart rt = Function.update (s.nameChart rt) agentId
      (some (nameKey rt ((s.editChanges rt agentId agent edit).name.getD agent.name))) := by
  unfold editAgent
  rw [hget]
  dsimp only
  split
  · rename_i hempty
    rw [name_of_isEmpty hempty]
    refine (Function.update_eq_self_iff.2 ?_).symm
    simp [nameChart, hget]
  · split
    · rw [nameChart_set (addRecentCwd_agents _)]
      rfl
    · rw [nameChart_set rfl]
      rfl

lemma editChanges_name_of_not_given
    (h : ¬∃ name, edit.name = some name ∧ name ≠ [] ∧ name ≠ agent.name) :
    (s.editChanges rt agentId agent edit).name = none := by
  simp only [not_exists, not_and, not_not] at h
  simp only [editChanges, changed, Option.filter_filter, Option.filter_eq_none_iff]
  intro name hname
  by_cases hne : name = []
  · simp [hne]
  · simp [h name hname hne]

lemma editChanges_name_of_seen
    (hedit : edit.name = some name)
    (h : ∃ a ∈ s.getAllAgents, some a.id ≠ some agentId ∧
      rt.toLowerCase a.name = nameKey rt name) :
    (s.editChanges rt agentId agent edit).name = none := by
  obtain ⟨a, ha, hid, hname⟩ := h
  simp only [editChanges, changed, hedit, Option.filter_filter, Option.filter_eq_none_iff]
  rintro _ ⟨⟩
  simp only [decide_eq_true_eq, Bool.and_eq_true, not_and, Bool.not_eq_true']
  intro _ _ hunique
  exact List.any_eq_false.1 hunique a ha (by simpa [nameKey] using And.intro hid hname)

lemma editChanges_name_of_unseen
    (hedit : edit.name = some name) (hne : name ≠ [])
    (hother : name ≠ agent.name)
    (h : ¬∃ a ∈ s.getAllAgents, some a.id ≠ some agentId ∧
      rt.toLowerCase a.name = nameKey rt name) :
    (s.editChanges rt agentId agent edit).name = some name := by
  have hunique : ∀ a ∈ s.getAllAgents, a.id ≠ agentId →
      rt.toLowerCase a.name ≠ rt.toLowerCase name.trim :=
    fun a ha hid hname => h ⟨a, ha, by simpa using hid, hname⟩
  simp only [editChanges, changed, hedit, Option.filter_filter, Option.filter_eq_some_iff]
  refine ⟨trivial, ?_⟩
  simpa [hne, hother] using hunique

/-- An edit gives its name to the agent: names stay unique exactly when a name that another agent
holds is found. -/
lemma editAgent_exclusive_iff (h : s.Named rt) (agentId : String) (edit : AgentEdit Outfit) :
    Seating.Exclusive ((s.editAgent rt agentId edit).1.nameChart rt) ↔
      ((s.getAgent agentId).isSome → ∀ name, edit.name = some name → name ≠ [] →
        s.NameSeen rt (some agentId) name) := by
  cases hget : s.getAgent agentId with
  | none =>
    refine iff_of_true ?_ (by simp)
    simp only [editAgent, hget]
    exact h.exclusive
  | some agent =>
    have hown : s.nameChart rt agentId = some (nameKey rt agent.name) := by simp [nameChart, hget]
    -- The own name is free of others.
    have hfree : ∀ id, id ≠ agentId → s.nameChart rt id ≠ some (nameKey rt agent.name) :=
      fun id hid hkey => hid (h.exclusive id agentId _ hkey hown)
    rw [editAgent_nameChart agentId edit hget, Seating.exclusive_update_iff h.exclusive,
      forall_prop_of_true (by simp)]
    by_cases hgiven : ∃ name, edit.name = some name ∧ name ≠ [] ∧ name ≠ agent.name
    · obtain ⟨name, hedit, hne, hother⟩ := hgiven
      have hasked : (∀ name', edit.name = some name' → name' ≠ [] →
          s.NameSeen rt (some agentId) name') ↔ s.NameSeen rt (some agentId) name := by
        simp [hedit, hne]
      rw [hasked]
      by_cases hseen : ∃ a ∈ s.getAllAgents, some a.id ≠ some agentId ∧
          rt.toLowerCase a.name = nameKey rt name
      · rw [editChanges_name_of_seen hedit hseen]
        exact iff_of_true hfree fun _ => hseen
      · rw [editChanges_name_of_unseen hedit hne hother hseen, nameSeen_iff_free h.keyed hseen]
        simp
    · rw [editChanges_name_of_not_given hgiven]
      refine iff_of_true hfree ?_
      intro name hedit hne hheld
      obtain rfl : name = agent.name := by
        by_contra hother
        exact hgiven ⟨name, hedit, hne, hother⟩
      obtain ⟨id, hid, hkey⟩ := (exists_agent_iff_nameChart h.keyed).1 hheld
      exact absurd hkey (hfree id fun heq => hid (congrArg some heq))

/-! ## Runs -/

lemma Keyed.step (h : s.Keyed) (op : OfficeOp Outfit Rest) : (s.step rt op).Keyed := by
  have of_agents_eq : ∀ {s' : OfficeState Outfit Rest}, s'.agents = s.agents → s'.Keyed :=
    fun hagents => ⟨hagents ▸ h.nodup, hagents ▸ h.ids⟩
  cases op with
  | spawn opts randomOutfit draws => exact (spawn_seatMove h opts randomOutfit draws).keyed
  | kill agentId => exact (kill_seatMove h agentId).keyed
  | editAgent agentId edit => exact (editAgent_seatMove h agentId edit).keyed
  | updateAgent agentId changes => exact (updateAgent_seatMove h agentId changes.2).keyed
  | swapDesks deskA deskB roomId => exact (swapDesks_seatMove h deskA deskB roomId).keyed
  | placeAgent agentId targetRoomId desk =>
    exact (placeAgent_seatMove h agentId targetRoomId desk).keyed
  | moveAgent agentId targetRoomId => exact (moveAgent_seatMove h agentId targetRoomId).keyed
  | createRoom name skin draws => exact of_agents_eq (createRoom_roomMove name skin draws).agents
  | closeRoom roomId => exact of_agents_eq (closeRoom_roomMove roomId).agents
  | renameRoom roomId name => exact of_agents_eq (renameRoom_roomMove roomId name).agents
  | ensureLobby => exact of_agents_eq ensureLobby_roomMove.agents

/-- **One operation**: names that are unique stay so exactly when the names it gives are found where
an agent has them. -/
theorem Named.step_iff (h : s.Named rt) (op : OfficeOp Outfit Rest) :
    (s.step rt op).Named rt ↔ s.NamesSeen rt op := by
  have of_chart_eq : ∀ {s' : OfficeState Outfit Rest}, s'.nameChart rt = s.nameChart rt →
      Seating.Exclusive (s'.nameChart rt) := fun hchart => hchart ▸ h.exclusive
  have hexcl : (s.step rt op).Named rt ↔ Seating.Exclusive ((s.step rt op).nameChart rt) :=
    ⟨fun hnamed => hnamed.exclusive, fun hex => ⟨h.keyed.step op, hex⟩⟩
  rw [hexcl]
  cases op with
  | spawn opts randomOutfit draws => exact spawn_exclusive_iff h opts randomOutfit draws
  | kill agentId =>
    refine iff_of_true ?_ trivial
    rcases kill_nameChart s rt agentId with hchart | hchart
    · exact of_chart_eq hchart
    · simp only [step, hchart]
      have hleave : Seating.Move (fun _ => True) (s.nameChart rt)
          (Function.update (s.nameChart rt) agentId none) := .leave _ agentId
      exact hleave.exclusive h.exclusive
  | editAgent agentId edit => exact editAgent_exclusive_iff h agentId edit
  | updateAgent agentId changes =>
    exact iff_of_true (of_chart_eq (updateAgent_nameChart agentId changes.2)) trivial
  | swapDesks deskA deskB roomId =>
    exact iff_of_true (of_chart_eq (swapDesks_nameChart h.keyed deskA deskB roomId)) trivial
  | placeAgent agentId targetRoomId desk =>
    exact iff_of_true (of_chart_eq (placeAgent_nameChart agentId targetRoomId desk)) trivial
  | moveAgent agentId targetRoomId =>
    exact iff_of_true (of_chart_eq (moveAgent_nameChart agentId targetRoomId)) trivial
  | createRoom name skin draws =>
    have hagents := (createRoom_roomMove (s := s) name skin draws).agents
    exact iff_of_true (of_chart_eq (nameChart_of_agents_eq hagents)) trivial
  | closeRoom roomId =>
    have hagents := (closeRoom_roomMove (s := s) roomId).agents
    exact iff_of_true (of_chart_eq (nameChart_of_agents_eq hagents)) trivial
  | renameRoom roomId name =>
    have hagents := (renameRoom_roomMove (s := s) roomId name).agents
    exact iff_of_true (of_chart_eq (nameChart_of_agents_eq hagents)) trivial
  | ensureLobby =>
    have hagents := (ensureLobby_roomMove (s := s)).agents
    exact iff_of_true (of_chart_eq (nameChart_of_agents_eq hagents)) trivial

lemma keyed_run (rt : OfficeRuntime) (initial : List RoomWire) (firstId : String)
    (ops : List (OfficeOp Outfit Rest)) :
    (Machine.run (step rt) (create initial firstId) ops).Keyed :=
  Machine.run_invariant (fun _ op hs => hs.step op) (placed_create initial firstId).keyed

/-- **The runs in which names are unique.** Take an office without agents and any sequence of
operations. In every state of the run the names of the agents are distinct, trimmed and in lower
case, exactly when every name that is given along the run is found where an agent has it.

**Proof sketch.** Behind each operation names are unique exactly when the names it gives are found
(`Named.step_iff`), and the runs follow (`Machine.forall_take_iff_along`). -/
theorem nodup_names_iff_along (rt : OfficeRuntime) (initial : List RoomWire) (firstId : String)
    (ops : List (OfficeOp Outfit Rest)) :
    (∀ n, ((Machine.run (step rt) (create initial firstId) (ops.take n)).getAllAgents.map
      fun a => nameKey rt a.name).Nodup) ↔
      Machine.Along (step rt) (NamesSeen rt) (create initial firstId) ops := by
  have hstart : (create initial firstId : OfficeState Outfit Rest).Named rt :=
    ⟨(placed_create initial firstId).keyed, fun _ _ _ hx => by cases hx⟩
  have hruns : (∀ n, (Machine.run (step rt) (create initial firstId) (ops.take n)).Named rt) ↔
      Machine.Along (step rt) (NamesSeen rt) (create initial firstId) ops :=
    Machine.forall_take_iff_along (fun s op (hs : s.Named rt) => hs.step_iff op) hstart
  refine Iff.trans (forall_congr' fun n => ?_) hruns
  have hkeyed := keyed_run rt initial firstId (ops.take n)
  rw [nodup_map_iff_exclusive hkeyed fun a => nameKey rt a.name]
  exact ⟨fun hex => ⟨hkeyed, hex⟩, fun hnamed => hnamed.exclusive⟩

end

/-- The version of the empty text, and the lower case of plain text. -/
def plainRuntime : OfficeRuntime where
  toLowerCase := JsString.toLowerCase
  versionOf _ := "e3b0c44298fc"

/-- A new agent with a blank before its name. -/
def spawnBob : SpawnOptions Unit Unit where
  name := js " Bob"
  cwd := js "/home/isomux"
  permissionMode := .default
  desk := .omitted
  roomId := none
  customInstructions := none
  outfit := none
  modelFamily := none
  effort := none
  agentType := none
  codexSandbox := none
  rest := ()

theorem spawn_bob_twice :
    ¬((Machine.run (step plainRuntime) (create [] "room-1")
      [.spawn spawnBob () ["agent-1"], .spawn spawnBob () ["agent-2"]]).getAllAgents.map
        fun a => nameKey plainRuntime a.name).Nodup := by
  decide

end OfficeState

end Isomux
