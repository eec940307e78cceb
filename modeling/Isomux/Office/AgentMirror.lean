import Isomux.Office.AgentNames
import Isomux.Office.AgentObjects

set_option autoImplicit false

/-!
# The agents a client holds

A client starts from `agent_added` and assigns the changes of every `agent_updated`, which came to it
over JSON. JSON drops a field that is `undefined`. So a client does not learn of a field that an
update sets to `undefined`, nor of the free model of the office that a change of the model sets on
the side. Every other field reads the same on both sides.

A draft of an agent is faithful when its changes tell what was written. Every step of an edit keeps
a draft faithful.

## Main results

* `Isomux.Draft.Faithful.editFields` — an edit is faithful but for the free model of the office.
* `Isomux.MirrorWorld.client_agrees` — what a client holds behind every run.
-/

namespace Isomux

section

variable {δ : Type}

/-! ## Clients -/

/-- The default that is documented for an absent field. -/
def documentedDefault : String → FieldValue δ
  | "autoHandoff" => .bool true
  | "autoHandoffTokens" => .number AUTO_HANDOFF_DEFAULT_TOKENS
  | "limitResume" => .bool true
  | "privileged" => .bool false
  | "dormant" => .bool false
  | "goneModel" => .null
  | "pendingPrompt" => .null
  | "backgroundTasks" => .null
  | "contextUsage" => .null
  | "subscriptionUsage" => .null
  | _ => .undefined

/-- A value, where absent is the default of the field. -/
def effective (field : String) : FieldValue δ → FieldValue δ
  | .undefined => documentedDefault field
  | value => value

variable [DecidableEq δ]

/-- `JSON.parse(JSON.stringify(changes))`: a field that is `undefined` is dropped. -/
def overJson (changes : FieldChanges δ) : FieldChanges δ := changes.filter fun e => e.2 ≠ .undefined

def receive (client : JsMap String (AgentObject δ)) :
    ObjectEvent δ → JsMap String (AgentObject δ)
  | .agentAdded id agent => client.set id agent
  | .agentRemoved id _ => client.delete id
  | .agentUpdated id changes =>
    match client.get id with
    | none => client
    | some agent => client.set id (agent.assign (overJson changes))

/-- The event tells what the field of the agent is. -/
def ObjectEvent.tells (id field : String) : ObjectEvent δ → Bool
  | .agentAdded id' _ => id' = id
  | .agentRemoved id' _ => id' = id
  | .agentUpdated id' changes => id' = id ∧ (overJson changes).has field

/-- The event is an update that names the field of the agent. -/
def ObjectEvent.names (id field : String) : ObjectEvent δ → Bool
  | .agentUpdated id' changes => id' = id ∧ changes.has field
  | _ => false

/-- An operation on the agents. An object has each field once. -/
inductive ObjectOp (δ : Type) where
  | spawn (opts : ObjectSpawn δ) (draws : List String)
  | kill (agentId : String)
  | editAgent (agentId : String) (edit : ObjectEdit δ)
  | updateAgent (agentId : String)
      (changes : { c : FieldChanges δ // (c.map Prod.fst).Nodup ∧ c.has "id" = false })
  | swapDesks (deskA deskB : JsNumber) (roomId : String)
  | placeAgent (agentId targetRoomId : String) (desk : DeskRequest)
  | moveAgent (agentId targetRoomId : String)

/-- The office behind an operation, and the events of it. -/
def ObjectOffice.perform (rt : OfficeRuntime) (defaults : SpawnData δ) (s : ObjectOffice δ) :
    ObjectOp δ → ObjectOffice δ × List (ObjectEvent δ)
  | .spawn opts draws => s.spawn rt defaults opts draws
  | .kill agentId => s.kill agentId
  | .editAgent agentId edit => s.editAgent rt agentId edit
  | .updateAgent agentId changes => s.updateAgent agentId changes.1
  | .swapDesks deskA deskB roomId => s.swapDesks deskA deskB roomId
  | .placeAgent agentId targetRoomId desk =>
    let (s', result) := s.placeAgent agentId targetRoomId desk
    (s', eventsOf result)
  | .moveAgent agentId targetRoomId => s.moveAgent agentId targetRoomId

/-- The fields of an update that are set to `undefined`, and the free model of the office where
another model or engine comes without it. -/
def untoldByUpdate (agent : AgentObject δ) (changes : FieldChanges δ) : List String :=
  (changes.filter fun e => e.2 = .undefined).map Prod.fst ++
    if ObjectOffice.modelChanged agent changes && !changes.has "officeFreeModel" then
      ["officeFreeModel"] else []

/-- What an operation writes and does not tell: the fields that an update sets to `undefined`, and
the free model of the office behind a change of the model. -/
def untold (s : ObjectOffice δ) (events : List (ObjectEvent δ)) :
    ObjectOp δ → List (String × String)
  | .editAgent agentId _ =>
    if events.any (·.names agentId "modelFamily") then [(agentId, "officeFreeModel")] else []
  | .updateAgent agentId changes =>
    match s.agents.get agentId with
    | none => []
    | some agent => (untoldByUpdate agent changes.1).map fun field => (agentId, field)
  | _ => []

/-- The office, a client, and the fields of agents that the client was not told of. -/
structure MirrorWorld (δ : Type) where
  office : ObjectOffice δ
  client : JsMap String (AgentObject δ)
  unseen : List (String × String)

namespace MirrorWorld

/-- An operation: the client takes its events. A field that is told is told of again. -/
def step (rt : OfficeRuntime) (defaults : SpawnData δ) (w : MirrorWorld δ) (op : ObjectOp δ) :
    MirrorWorld δ where
  office := (w.office.perform rt defaults op).1
  client := (w.office.perform rt defaults op).2.foldl receive w.client
  unseen :=
    (w.unseen.filter fun p => !(w.office.perform rt defaults op).2.any (·.tells p.1 p.2)) ++
      untold w.office (w.office.perform rt defaults op).2 op

/-- An office without agents, and a client of it. -/
def start (rooms : List RoomWire) : MirrorWorld δ := ⟨⟨[], rooms⟩, [], []⟩

end MirrorWorld

/-! ## Faithful drafts -/

lemma get_overJson {changes : FieldChanges δ} (h : (changes.map Prod.fst).Nodup) (field : String) :
    (overJson changes).get field = (changes.get field).filter fun v => v ≠ .undefined :=
  JsMap.get_filter h _ field

/-- The changes tell what was written to the fields, but for some of them: the value of a field that
they name, and that the other fields stayed. -/
structure Draft.Faithful (old : AgentObject δ) (but : List String) (d : Draft δ) : Prop where
  nodup : (d.changes.map Prod.fst).Nodup
  told : ∀ field, field ∉ but → ∀ v, (overJson d.changes).get field = some v →
    effective field v = effective field (d.agent field)
  kept : ∀ field, field ∉ but → (overJson d.changes).get field = none →
    effective field (d.agent field) = effective field (old field)

namespace Draft.Faithful

variable {old : AgentObject δ} {but : List String} {d : Draft δ} {rt : OfficeRuntime}

lemma start (old : AgentObject δ) : Faithful old [] ⟨old, []⟩ where
  nodup := List.nodup_nil
  told := by
    intro field _ v hv
    cases hv
  kept := fun _ _ _ => rfl

lemma write_report (h : d.Faithful old but) {field : String} {value told : FieldValue δ}
    (htold : told ≠ .undefined) (hsame : effective field told = effective field value) :
    ((d.write field value).report field told).Faithful old but where
  nodup := JsMap.nodup_keys_set h.nodup
  told := by
    intro f hf v hv
    replace hv := (get_overJson (JsMap.nodup_keys_set h.nodup) f).symm.trans hv
    simp only [report, write, JsMap.get_set, Function.update_apply] at hv ⊢
    by_cases hfield : f = field
    · subst hfield
      simp only [if_true, Option.filter_eq_some_iff, Option.some.injEq] at hv ⊢
      exact hv.1 ▸ hsame
    · simp only [if_neg hfield] at hv ⊢
      exact h.told f hf v ((get_overJson h.nodup f).trans hv)
  kept := by
    intro f hf hv
    replace hv := (get_overJson (JsMap.nodup_keys_set h.nodup) f).symm.trans hv
    simp only [report, write, JsMap.get_set, Function.update_apply] at hv ⊢
    by_cases hfield : f = field
    · simp [hfield, htold] at hv
    · simp only [if_neg hfield] at hv ⊢
      exact h.kept f hf ((get_overJson h.nodup f).trans hv)

lemma put (h : d.Faithful old but) (field : String) {value : FieldValue δ}
    (hvalue : value ≠ .undefined) : (d.put field value).Faithful old but :=
  h.write_report hvalue rfl

lemma write (h : d.Faithful old but) (field : String) (value : FieldValue δ) :
    (d.write field value).Faithful old (field :: but) where
  nodup := h.nodup
  told := by
    intro f hf v hv
    rw [List.mem_cons, not_or] at hf
    simp only [Draft.write, Function.update_of_ne hf.1]
    exact h.told f hf.2 v hv
  kept := by
    intro f hf hv
    rw [List.mem_cons, not_or] at hf
    simp only [Draft.write, Function.update_of_ne hf.1]
    exact h.kept f hf.2 hv

lemma mono (h : d.Faithful old but) {but' : List String} (hbut : but ⊆ but') :
    d.Faithful old but' :=
  ⟨h.nodup, fun f hf => h.told f fun hmem => hf (hbut hmem),
    fun f hf => h.kept f fun hmem => hf (hbut hmem)⟩

lemma editText (h : d.Faithful old but) (field : String) (given : Option JsString) :
    (d.editText field given).Faithful old but := by
  unfold Draft.editText
  split
  · split_ifs
    · exact h.put field nofun
    · exact h
  · exact h

lemma editFlag (h : d.Faithful old but) (field : String) (given : Option Bool) :
    (d.editFlag field given).Faithful old but := by
  unfold Draft.editFlag
  split
  · split_ifs
    · exact h.put field nofun
    · exact h
  · exact h

lemma editOutfit (h : d.Faithful old but) (given : Option δ) :
    (d.editOutfit given).Faithful old but := by
  unfold Draft.editOutfit
  split
  · exact h.put "outfit" nofun
  · exact h

lemma editInstructions (h : d.Faithful old but) (given : Option JsString) :
    (d.editInstructions rt given).Faithful old but := by
  unfold Draft.editInstructions
  split
  · split_ifs
    · refine (h.put "customInstructions" ?_).put "customInstructionsVersion" ?_ <;> nofun
    · refine (h.put "customInstructions" ?_).put "customInstructionsVersion" ?_ <;> nofun
    · exact h
  · exact h

lemma editTokens (h : d.Faithful old but) (given : Option ℚ) :
    (d.editTokens given).Faithful old but := by
  unfold Draft.editTokens
  split
  · rename_i tokens
    split_ifs with hchanged hdefault
    · exact h.write_report nofun (by rw [hdefault]; rfl)
    · exact h.write_report nofun rfl
    · exact h
  · exact h

lemma clearGoneModel (h : d.Faithful old but) : d.clearGoneModel.Faithful old but := by
  unfold Draft.clearGoneModel
  split_ifs
  · exact h
  · exact h.put "goneModel" nofun

lemma setOfficeFreeModel (h : d.Faithful old but) (model : Option JsString) :
    (d.setOfficeFreeModel model).Faithful old ("officeFreeModel" :: but) :=
  h.write "officeFreeModel" _

lemma editFields (h : d.Faithful old but) (edit : ObjectEdit δ) :
    (d.editFields rt edit).Faithful old but :=
  (((((((((h.editText "cwd" edit.cwd).editOutfit edit.outfit).editInstructions
    edit.customInstructions).editText "permissionMode" edit.permissionMode).editText "modelFamily"
    edit.modelFamily).editText "effort" edit.effort).editText "codexSandbox"
    edit.codexSandbox).editFlag "autoHandoff" edit.autoHandoff).editTokens
    edit.autoHandoffTokens).editFlag "limitResume" edit.limitResume

lemma followModel (h : d.Faithful old []) (officeFreeModel : Option JsString) :
    (d.followModel officeFreeModel).Faithful old
      (if (d.followModel officeFreeModel).changes.has "modelFamily" then ["officeFreeModel"]
        else []) := by
  by_cases hmodel : d.changes.has "modelFamily" = true
  · have hfollow : d.followModel officeFreeModel =
        d.clearGoneModel.setOfficeFreeModel officeFreeModel := if_pos hmodel
    have hkept : d.clearGoneModel.changes.has "modelFamily" = true := by
      unfold Draft.clearGoneModel
      split_ifs
      · exact hmodel
      · simp only [Draft.put, Draft.report, Draft.write, JsMap.has_eq_isSome, JsMap.get_set]
        simpa [JsMap.has_eq_isSome] using hmodel
    have hstill : (d.followModel officeFreeModel).changes.has "modelFamily" = true := by
      rw [hfollow]
      exact hkept
    rw [if_pos hstill, hfollow]
    exact h.clearGoneModel.setOfficeFreeModel officeFreeModel
  · have hfollow : d.followModel officeFreeModel = d := if_neg hmodel
    rw [hfollow]
    exact h.mono (List.nil_subset _)

lemma assign {changes : FieldChanges δ} (h : (changes.map Prod.fst).Nodup) :
    Draft.Faithful old ((changes.filter fun e => e.2 = .undefined).map Prod.fst)
      ⟨AgentObject.assign old changes, changes⟩ := by
  refine ⟨h, fun f _ v hv => ?_, fun f hf hv => ?_⟩
  · have hget := (Option.filter_eq_some_iff.1 ((get_overJson h f).symm.trans hv)).1
    simp only [AgentObject.assign, hget, Option.getD_some]
  · cases hget : changes.get f with
    | none => simp only [AgentObject.assign, hget, Option.getD_none]
    | some value =>
      have hundefined : value = .undefined := by
        have hnone := (get_overJson h f).symm.trans hv
        simpa [hget, Option.filter_eq_none_iff] using hnone
      refine absurd (List.mem_map.2 ⟨(f, value), ?_, rfl⟩) hf
      exact List.mem_filter.2 ⟨JsMap.mem_of_get hget, by simpa using hundefined⟩

lemma assign_values {changes : FieldChanges δ} (h : (changes.map Prod.fst).Nodup)
    (hvalues : ∀ e ∈ changes, e.2 ≠ .undefined) :
    Draft.Faithful old [] ⟨AgentObject.assign old changes, changes⟩ := by
  have hnone : (changes.filter fun e => e.2 = .undefined) = [] :=
    List.filter_eq_nil_iff.2 fun e he => by simpa using hvalues e he
  have hassign : Draft.Faithful old _ ⟨AgentObject.assign old changes, changes⟩ := assign h
  rwa [hnone] at hassign

/-- **An update is faithful** but for the fields it sets to `undefined`, and for the free model of
the office where another model comes without it. -/
lemma updated {changes : FieldChanges δ} (h : (changes.map Prod.fst).Nodup) :
    (ObjectOffice.updated old changes).Faithful old (untoldByUpdate old changes) := by
  have hassign : Draft.Faithful old _ ⟨AgentObject.assign old changes, changes⟩ := assign h
  unfold ObjectOffice.updated untoldByUpdate
  dsimp only
  by_cases hmodel : ObjectOffice.modelChanged old changes = true
  · rw [if_pos hmodel]
    by_cases hfree : changes.has "officeFreeModel" = true
    · rw [if_pos hfree]
      exact hassign.clearGoneModel.mono (List.subset_append_left _ _)
    · rw [if_neg hfree, if_pos (by simp [hmodel, hfree])]
      refine (hassign.clearGoneModel.setOfficeFreeModel none).mono ?_
      exact List.cons_subset.2 ⟨by simp, List.subset_append_left _ _⟩
  · rw [if_neg hmodel]
    exact hassign.mono (List.subset_append_left _ _)

end Draft.Faithful

/-! ## One event -/

/-- What is left of the fields that were not told, behind events. -/
def stillUntold (unseen : List (String × String)) (events : List (ObjectEvent δ)) :
    List (String × String) :=
  unseen.filter fun p => !events.any (·.tells p.1 p.2)

/-- The client has the agents of the office, and every field that it was told of reads the same. -/
structure Agrees (agents client : JsMap String (AgentObject δ)) (unseen : List (String × String)) :
    Prop where
  present : ∀ id, (client.get id).isSome = (agents.get id).isSome
  fields : ∀ id agent held, agents.get id = some agent → client.get id = some held →
    ∀ field, (id, field) ∉ unseen → effective field (held field) = effective field (agent field)

namespace Agrees

variable {agents client : JsMap String (AgentObject δ)} {unseen : List (String × String)}

omit [DecidableEq δ] in
lemma mono (h : Agrees agents client unseen) {unseen' : List (String × String)}
    (hsub : unseen ⊆ unseen') : Agrees agents client unseen' :=
  ⟨h.present, fun id agent held hagent hheld field hfield =>
    h.fields id agent held hagent hheld field fun hmem => hfield (hsub hmem)⟩

@[simp] lemma stillUntold_nil : stillUntold unseen ([] : List (ObjectEvent δ)) = unseen := by
  simp [stillUntold]

lemma stillUntold_append (events rest : List (ObjectEvent δ)) :
    stillUntold unseen (events ++ rest) = stillUntold (stillUntold unseen events) rest := by
  simp only [stillUntold, List.filter_filter, List.any_append, Bool.not_or]
  exact List.filter_congr fun p _ => Bool.and_comm _ _

lemma added (h : Agrees agents client unseen) (id : String) (agent : AgentObject δ) :
    Agrees (agents.set id agent) (receive client (.agentAdded id agent))
      (stillUntold unseen [.agentAdded id agent]) where
  present := by
    intro k
    simp only [receive, JsMap.get_set]
    split_ifs
    · rfl
    · exact h.present k
  fields := by
    intro k a b ha hb field hfield
    simp only [receive, JsMap.get_set] at ha hb
    by_cases hk : k = id
    · rw [if_pos hk] at ha hb
      rw [← Option.some.inj ha, ← Option.some.inj hb]
    · rw [if_neg hk] at ha hb
      refine h.fields k a b ha hb field fun hmem => hfield ?_
      exact List.mem_filter.2 ⟨hmem, by simpa [ObjectEvent.tells] using Ne.symm hk⟩

lemma removed (h : Agrees agents client unseen) (id : String) (roomId : FieldValue δ) :
    Agrees (agents.delete id) (receive client (.agentRemoved id roomId))
      (stillUntold unseen [.agentRemoved id roomId]) where
  present := by
    intro k
    simp only [receive, JsMap.get_delete]
    split_ifs
    · rfl
    · exact h.present k
  fields := by
    intro k a b ha hb field hfield
    simp only [receive, JsMap.get_delete] at ha hb
    by_cases hk : k = id
    · rw [if_pos hk] at ha
      cases ha
    · rw [if_neg hk] at ha hb
      refine h.fields k a b ha hb field fun hmem => hfield ?_
      exact List.mem_filter.2 ⟨hmem, by simpa [ObjectEvent.tells] using Ne.symm hk⟩

/-- An agent that is updated faithfully, but for some fields. -/
lemma updated (h : Agrees agents client unseen) {id : String} {agent : AgentObject δ}
    (hget : agents.get id = some agent) {but : List String} {d : Draft δ}
    (hfaithful : d.Faithful agent but) :
    Agrees (agents.set id d.agent) (receive client (.agentUpdated id d.changes))
      (stillUntold unseen [.agentUpdated id d.changes] ++ but.map fun field => (id, field)) := by
  obtain ⟨held, hheld⟩ : ∃ held, client.get id = some held := by
    rw [← Option.isSome_iff_exists, h.present, hget]
    rfl
  have hreceive : receive client (.agentUpdated id d.changes) =
      client.set id (held.assign (overJson d.changes)) := by
    simp only [receive, hheld]
  rw [hreceive]
  refine ⟨fun k => ?_, fun k a b ha hb field hfield => ?_⟩
  · simp only [JsMap.get_set]
    split_ifs
    · rfl
    · exact h.present k
  · rw [List.mem_append, not_or] at hfield
    rw [JsMap.get_set] at ha hb
    by_cases hk : k = id
    · subst hk
      rw [if_pos rfl] at ha hb
      obtain rfl := Option.some.inj ha
      obtain rfl := Option.some.inj hb
      have hbut : field ∉ but := fun hmem => hfield.2 (List.mem_map.2 ⟨field, hmem, rfl⟩)
      cases htold : (overJson d.changes).get field with
      | some v =>
        rw [AgentObject.assign, htold]
        exact hfaithful.told field hbut v htold
      | none =>
        rw [AgentObject.assign, htold, hfaithful.kept field hbut htold]
        refine h.fields k agent held hget hheld field fun hmem => hfield.1 ?_
        refine List.mem_filter.2 ⟨hmem, ?_⟩
        simp [ObjectEvent.tells, JsMap.has_eq_isSome, htold]
    · rw [if_neg hk] at ha hb
      refine h.fields k a b ha hb field fun hmem => hfield.1 ?_
      exact List.mem_filter.2 ⟨hmem, by simp [ObjectEvent.tells, Ne.symm hk]⟩

lemma silent (h : Agrees agents client unseen) {id : String} {agent : AgentObject δ}
    (hget : agents.get id = some agent) {d : Draft δ} (hfaithful : d.Faithful agent [])
    (hchanges : d.changes = []) : Agrees (agents.set id d.agent) client unseen := by
  have hkept : ∀ field, effective field (d.agent field) = effective field (agent field) :=
    fun field => hfaithful.kept field (List.not_mem_nil) (by rw [hchanges]; rfl)
  refine ⟨fun k => ?_, fun k a b ha hb field hfield => ?_⟩
  · rw [h.present, JsMap.get_set]
    split_ifs with hk
    · rw [hk, hget]
      rfl
    · rfl
  · rw [JsMap.get_set] at ha
    by_cases hk : k = id
    · subst hk
      rw [if_pos rfl] at ha
      obtain rfl := Option.some.inj ha
      rw [hkept]
      exact h.fields k agent b hget hb field hfield
    · rw [if_neg hk] at ha
      exact h.fields k a b ha hb field hfield

end Agrees

/-! ## One operation -/

namespace ObjectOffice

variable {s : ObjectOffice δ} {client : JsMap String (AgentObject δ)}
  {unseen : List (String × String)} {rt : OfficeRuntime} {defaults : SpawnData δ}

/-- The office and the client behind an operation agree. -/
def Tells (s : ObjectOffice δ) (client : JsMap String (AgentObject δ))
    (unseen : List (String × String)) (result : ObjectOffice δ × List (ObjectEvent δ))
    (untold : List (String × String)) : Prop :=
  Agrees s.agents client unseen →
    Agrees result.1.agents (result.2.foldl receive client) (stillUntold unseen result.2 ++ untold)

lemma tells_nothing (untold : List (String × String)) : s.Tells client unseen (s, []) untold := by
  intro h
  simpa using h.mono (List.subset_append_left _ _)

lemma spawn_tells (opts : ObjectSpawn δ) (draws : List String) :
    s.Tells client unseen (s.spawn rt defaults opts draws) [] := by
  unfold spawn
  split_ifs
  · exact tells_nothing []
  · split
    · exact tells_nothing []
    · split
      · exact tells_nothing []
      · split
        · exact tells_nothing []
        · rename_i id _
          intro h
          simpa using h.added id _

variable (agentId : String)

lemma kill_tells : s.Tells client unseen (s.kill agentId) [] := by
  unfold kill
  split
  · exact tells_nothing []
  · intro h
    simpa using h.removed agentId _

lemma faithful_editName {old : AgentObject δ} {agentId : String} {given : Option JsString}
    {d d' : Draft δ} (h : d.Faithful old []) (hname : s.editName rt agentId d given = some d') :
    d'.Faithful old [] := by
  unfold editName at hname
  split at hname
  · exact Option.some.inj hname ▸ h
  · split_ifs at hname
    · obtain ⟨duplicate, -, rfl⟩ := Option.map_eq_some_iff.1 hname
      split_ifs
      · exact h
      · exact h.put "name" nofun
    · exact Option.some.inj hname ▸ h

/-- An edit with no change that is told leaves the agent as it reads. -/
lemma editAgent_tells (edit : ObjectEdit δ) : s.Tells client unseen (s.editAgent rt agentId edit)
      (untold s (s.editAgent rt agentId edit).2 (.editAgent agentId edit)) := by
  unfold editAgent
  split
  · exact tells_nothing _
  · rename_i agent hget
    split
    · exact tells_nothing _
    · rename_i named hname
      have hnamed : named.Faithful agent [] := faithful_editName (.start agent) hname
      have hedited : (named.editFields rt edit).Faithful agent [] := hnamed.editFields edit
      have hfaithful := hedited.followModel edit.officeFreeModel
      generalize (named.editFields rt edit).followModel edit.officeFreeModel = d at hfaithful
      intro h
      by_cases hempty : d.changes = []
      · rw [hempty] at hfaithful
        have hsilent := h.silent hget hfaithful hempty
        simpa [hempty] using hsilent.mono (List.subset_append_left _ _)
      · have hevents : (if d.changes.isEmpty then [] else
            [ObjectEvent.agentUpdated agentId d.changes]) = [.agentUpdated agentId d.changes] := by
          simp [hempty]
        dsimp only
        rw [hevents]
        have hbut : ((if d.changes.has "modelFamily" then ["officeFreeModel"] else []).map
            fun field => (agentId, field)) = untold s [.agentUpdated agentId d.changes]
              (.editAgent agentId edit) := by
          by_cases hmodel : d.changes.has "modelFamily" = true <;>
            simp [untold, ObjectEvent.names, hmodel]
        rw [← hbut]
        exact h.updated hget hfaithful

lemma updateAgent_tells
    (changes : { c : FieldChanges δ // (c.map Prod.fst).Nodup ∧ c.has "id" = false }) :
    s.Tells client unseen (s.updateAgent agentId changes.1)
      (untold s (s.updateAgent agentId changes.1).2 (.updateAgent agentId changes)) := by
  unfold updateAgent
  split
  · exact tells_nothing _
  · rename_i agent hget
    intro h
    simpa [untold, hget] using h.updated hget (.updated changes.2.1)

lemma put_tells {changes : FieldChanges δ}
    (hnodup : (changes.map Prod.fst).Nodup) (hvalues : ∀ e ∈ changes, e.2 ≠ .undefined) :
    s.Tells client unseen (s.put agentId changes) [] := by
  unfold put
  split
  · exact tells_nothing []
  · rename_i agent hget
    intro h
    simpa using h.updated hget (.assign_values hnodup hvalues)

lemma setDesk_tells (agentId : Option String) (desk : ℤ) :
    s.Tells client unseen (s.setDesk agentId desk) [] := by
  unfold setDesk
  split
  · exact tells_nothing []
  · exact put_tells _ (by simp) (by simp)

lemma Tells.trans {s' : ObjectOffice δ} {events : List (ObjectEvent δ)}
    {result : ObjectOffice δ × List (ObjectEvent δ)} (h : s.Tells client unseen (s', events) [])
    (h' : s'.Tells (events.foldl receive client) (stillUntold unseen events) result []) :
    s.Tells client unseen (result.1, events ++ result.2) [] := by
  intro hagrees
  have hfirst := h hagrees
  simp only [List.append_nil] at hfirst ⊢
  rw [List.foldl_append, Agrees.stillUntold_append]
  simpa using h' hfirst

lemma swapDesks_tells (deskA deskB : JsNumber) (roomId : String) :
    s.Tells client unseen (s.swapDesks deskA deskB roomId) [] := by
  unfold swapDesks
  split
  · split_ifs
    · exact tells_nothing []
    · exact tells_nothing []
    · exact (setDesk_tells _ _).trans (setDesk_tells _ _)
  · exact tells_nothing []

/-- Within its room an agent changes its desk only. -/
lemma placeAgent_tells (agentId targetRoomId : String) (desk : DeskRequest) :
    s.Tells client unseen ((s.placeAgent agentId targetRoomId desk).1,
      eventsOf (s.placeAgent agentId targetRoomId desk).2) [] := by
  unfold placeAgent
  split
  · exact tells_nothing []
  · rename_i agent hget
    split
    · exact tells_nothing []
    · dsimp only
      split
      · exact tells_nothing []
      · rename_i n _
        split
        · exact tells_nothing []
        · have hdesk : ∀ changes : FieldChanges δ, (changes.map Prod.fst).Nodup →
              (∀ e ∈ changes, e.2 ≠ .undefined) →
              s.Tells client unseen ({ s with agents := s.agents.set agentId (agent.assign changes) },
                [.agentUpdated agentId changes]) [] := by
            intro changes hnodup hvalues h
            simpa using h.updated hget (.assign_values hnodup hvalues)
          by_cases hroom : agent "roomId" = .text (js targetRoomId)
          · -- The room is the same, so that writing it writes nothing.
            have hsame : agent.assign [("roomId", .text (js targetRoomId)), ("desk", .number n)] =
                agent.assign [("desk", .number n)] := by
              funext field
              simp only [AgentObject.assign, JsMap.get_cons]
              split_ifs with h₁ h₂
              · simp [← h₁] at h₂
              · simp [← h₁, hroom, JsMap.get]
              · rfl
              · rfl
            simp only [hroom, decide_true, if_true, hsame]
            exact hdesk _ (by simp) (by simp)
          · simp only [hroom, decide_false, Bool.false_eq_true, if_false]
            exact hdesk _ (by simp) (by simp)

/-- **Every operation tells the client what it did**, but for the fields that it does not tell. -/
theorem perform_tells (op : ObjectOp δ) :
    s.Tells client unseen (s.perform rt defaults op)
      (untold s (s.perform rt defaults op).2 op) := by
  cases op with
  | spawn opts draws => exact spawn_tells opts draws
  | kill agentId => exact kill_tells agentId
  | editAgent agentId edit => exact editAgent_tells agentId edit
  | updateAgent agentId changes => exact updateAgent_tells agentId changes
  | swapDesks deskA deskB roomId => exact swapDesks_tells deskA deskB roomId
  | placeAgent agentId targetRoomId desk => exact placeAgent_tells agentId targetRoomId desk
  | moveAgent agentId targetRoomId => exact placeAgent_tells agentId targetRoomId .omitted

end ObjectOffice

/-! ## Runs -/

namespace MirrorWorld

/-- **What a client holds.** Take an office without agents, a client of it and any sequence of
operations. The client has the same agents. Every field of an agent reads the same on both sides, but
for a field whose last writing was not told: an update set it to `undefined`, or it is the free model
of the office and a change of the model or of the engine set it on the side. A later event that tells
the field ends this.

**Proof sketch.** Every operation tells the client what it did (`ObjectOffice.perform_tells`), and the
run follows by induction. -/
theorem client_agrees (rt : OfficeRuntime) (defaults : SpawnData δ) (rooms : List RoomWire)
    (ops : List (ObjectOp δ)) :
    let w := Machine.run (step rt defaults) (start rooms) ops
    (∀ id, (w.client.get id).isSome = (w.office.agents.get id).isSome) ∧
      ∀ id agent held, w.office.agents.get id = some agent → w.client.get id = some held →
        ∀ field, (id, field) ∉ w.unseen →
          effective field (held field) = effective field (agent field) := by
  intro w
  have hstart : Agrees (start (δ := δ) rooms).office.agents (start rooms).client
      (start (δ := δ) rooms).unseen :=
    ⟨fun _ => rfl, fun _ _ _ ha => by cases ha⟩
  have h : Agrees w.office.agents w.client w.unseen :=
    Machine.run_invariant (P := fun w : MirrorWorld δ => Agrees w.office.agents w.client w.unseen)
      (fun w op hw => ObjectOffice.perform_tells op hw) hstart
  exact ⟨h.present, h.fields⟩

end MirrorWorld

end

/-- An agent that moves to a stop with a pack, and then to one without. -/
def packMoves : List (ObjectOp String) :=
  let opts : ObjectSpawn String :=
    { name := js "Bob", cwd := js "/home/isomux", permissionMode := js "default", desk := .omitted,
      roomId := none, customInstructions := none, outfit := none, modelFamily := none,
      effort := none, agentType := none, codexSandbox := none, userId := none, manager := none,
      spawnedByAgentId := none, spawnRootAgentId := none, capabilities := none,
      limitedClaudeFamilies := none, claudeFamilyModels := none }
  [.spawn opts ["agent-1"],
    .updateAgent "agent-1" ⟨[("access", .text (js "office")), ("pack", .data "limits"),
      ("privileged", .bool false)], by decide⟩,
    .updateAgent "agent-1" ⟨[("access", .text (js "privileged")), ("pack", .undefined),
      ("privileged", .bool true)], by decide⟩]

theorem pack_is_kept :
    let room : RoomWire :=
      { type := none, id := "room-1", name := js "Room 1", canCloseWhenEmpty := true, skin := none }
    let w := Machine.run (MirrorWorld.step OfficeState.plainRuntime ⟨"outfit", "capabilities", "[]"⟩)
      (MirrorWorld.start [room]) packMoves
    (w.client.get "agent-1").map (fun agent => effective "pack" (agent "pack")) ≠
      (w.office.agents.get "agent-1").map fun agent => effective "pack" (agent "pack") := by
  decide

end Isomux
