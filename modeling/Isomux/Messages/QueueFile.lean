import Isomux.Messages.Queue
import Isomux.Runtime.JsonIndent

set_option autoImplicit false

/-!
# The file of the message queues

The queues of all agents are one JSON file, which is rewritten with every change. What is read is
the parsed text: an item that is read is the object that the text has, if it passes a check.

An item in memory is an object, too. It is given by its defined fields here; a field that holds
`undefined` and one that is not there are the same to its readers, and to JSON. The ids of agents are
made by the office, and none of them is a name that every object has.

## Main results

* `Isomux.QueueFile.isValidQueuedMessage_toJson` — which items pass the check.
* `Isomux.QueueFile.readPersistedQueueRecord_text` — what is read of a file that was written.
-/

namespace Isomux

/-! ## Objects -/

/-- An object with these fields, of which some are `undefined`. -/
def objectOf (fields : List (String × Option Json)) : Json :=
  .object (fields.filterMap fun f => f.2.map fun v => (js f.1, v))

def flag (b : Bool) : Option Json := if b then some (.bool true) else none

def stringsJson (list : List JsString) : Json := .array (list.map .string)

def Sender.fields : Sender → List (String × Option Json)
  | .user username device => [("kind", some (.string (js "user"))),
      ("username", username.map .string), ("device", device.map .string)]
  | .agent agentId agentName roomName => [("kind", some (.string (js "agent"))),
      ("agentId", some (.string agentId)), ("agentName", some (.string agentName)),
      ("roomName", some (.string roomName))]
  | .cronjob cronjobId cronjobName => [("kind", some (.string (js "cronjob"))),
      ("cronjobId", some (.string cronjobId)), ("cronjobName", some (.string cronjobName))]
  | .app appName => [("kind", some (.string (js "app"))), ("appName", some (.string appName))]
  | .webhook webhookId webhookName => [("kind", some (.string (js "webhook"))),
      ("webhookId", some (.string webhookId)), ("webhookName", some (.string webhookName))]
  | .messaging appId routeId routeName => [("kind", some (.string (js "messaging"))),
      ("app", some (.string appId)), ("routeId", some (.string routeId)),
      ("routeName", some (.string routeName))]

variable (s : Sender)

/-- `Sender` as an object. -/
def Sender.toJson : Json := objectOf s.fields

/-- `AskRef` as an object. -/
def AskRef.toJson (a : AskRef) : Json :=
  objectOf [("id", some (.string a.id)), ("prompt", some (.string a.prompt)),
    ("dismissed", a.dismissed.map .bool), ("simplify", a.simplify.map .bool),
    ("simplifyUndone", a.simplifyUndone.map .bool), ("taskId", a.taskId.map .string),
    ("sessionId", a.sessionId.map .string), ("options", a.options.map stringsJson),
    ("recommended", a.recommended.map .string),
    ("app", a.app.map fun name => objectOf [("name", some (.string name))])]

/-- `Attachment` as an object. -/
def Attachment.toJson (a : Attachment) : Json :=
  objectOf [("filename", some (.string a.filename)), ("originalName", some (.string a.originalName)),
    ("mediaType", some (.string a.mediaType)), ("size", some (.ofInt a.size))]

/-- `interruptCause`. -/
def InterruptCause.toJson : InterruptCause → Json
  | .agentSteer => .string (js "agent_steer")
  | .memberSendNow => .string (js "member_send_now")

variable (m : QueuedMessage)

/-- The fields of an item: those of `enqueueMessage`, and those it may get later. -/
def QueuedMessage.fields : List (String × Option Json) :=
  [("id", some (.string m.id)), ("sender", some m.sender.toJson), ("text", some (.string m.text)),
    ("sdkText", m.sdkText.map .string), ("native", flag m.native),
    ("queuedDuringBusyTurn", flag m.queuedDuringBusyTurn),
    ("scheduledFor", m.scheduledFor.map .ofInt), ("scheduledSenderGone", flag m.scheduledSenderGone),
    ("handoff", flag m.handoff), ("limitResume", flag m.limitResume),
    ("restartWake", flag m.restartWake), ("fallbackContinue", flag m.fallbackContinue),
    ("notice", flag m.notice),
    ("limitResumeMemberIds",
      if m.limitResumeMemberIds = [] then none else some (stringsJson m.limitResumeMemberIds)),
    ("ask", m.ask.map AskRef.toJson), ("echoed", flag m.echoed), ("steer", flag m.steer),
    ("attachments", m.attachments.map fun list => .array (list.map Attachment.toJson)),
    ("queuedAt", some (.ofInt m.queuedAt)),
    ("interruptCause", m.interruptCause.map InterruptCause.toJson), ("carried", flag m.carried),
    ("modelRetry", flag m.modelRetry)]

/-- `QueuedMessage` as an object. -/
def QueuedMessage.toJson : Json := objectOf m.fields

def QueueRecord.toJson (record : QueueRecord) : Json :=
  .object [(js "queue", .array (record.queue.map QueuedMessage.toJson)),
    (js "dedupe", .object (record.dedupe.map fun e => (e.1, .ofInt e.2)))]

/-- What an object has under a name that may be any string. -/
def Json.property : Json → JsString → Option Json
  | object fields, name => (fields.reverse.find? fun f => f.1 = name).map Prod.snd
  | _, _ => none

namespace QueueFile

/-! ## The file -/

def json (agentIds : List AgentId) (store : QueueStore) : Json :=
  .object (agentIds.filterMap fun id => (store id).map fun record => (id, record.toJson))

/-- `JSON.stringify(store, null, 2)`. -/
def text (agentIds : List AgentId) (store : QueueStore) : JsString :=
  (json agentIds store).indentedText 0

/-- `loadMessageQueuesRaw()`: a text that is no object counts as an empty one. -/
def loadMessageQueuesRaw (text : JsString) : Json :=
  match Json.parse text with
  | some (.object fields) => .object fields
  | _ => .object []

/-- `typeof r[name] === "string"`. -/
def hasString (v : Json) (name : String) : Bool := (v.str name).isSome

/-- `typeof v === "number"`. -/
def isNumber : Option Json → Bool
  | some (.number _) => true
  | _ => false

def isValidAsk : Option Json → Bool
  | none => true
  | some ask => hasString ask "id" && hasString ask "prompt"

def isValidSender (s : Json) : Bool :=
  match s.str "kind" with
  | none => false
  | some kind =>
    if kind = js "user" then true
    else if kind = js "agent" then
      hasString s "agentId" && hasString s "agentName" && hasString s "roomName"
    else if kind = js "cronjob" then hasString s "cronjobId" && hasString s "cronjobName"
    else if kind = js "app" then hasString s "appName"
    else if kind = js "webhook" then hasString s "webhookId" && hasString s "webhookName"
    else if kind = js "messaging" then
      hasString s "app" && s.str "app" != some [] && hasString s "routeId" && hasString s "routeName"
    else false

/-- `isValidQueuedMessage(v)`. -/
def isValidQueuedMessage (v : Json) : Bool :=
  hasString v "id" && hasString v "text" && isNumber (v.field "queuedAt") &&
    isValidAsk (v.field "ask") && (v.field "sender").any isValidSender

structure LoadedRecord where
  queue : List Json
  dedupe : JsMap JsString ℚ

/-- `Object.entries` of an object with these members. -/
def objectEntries (fields : List (JsString × Json)) : JsMap JsString Json :=
  propertyOrder (fields.foldl (fun m f => JsMap.set m f.1 f.2) [])

/-- An id whose time is not over. Numbers are exact here, and finite. -/
def liveEntry (now : ℤ) (e : JsString × Json) : Option (JsString × ℚ) :=
  match e.2 with
  | .number literal => if (now : ℚ) < literal.value then some (e.1, literal.value) else none
  | _ => none

/-- `readPersistedQueueRecord(agentId)`. -/
def readPersistedQueueRecord (store : Json) (agentId : AgentId) (now : ℤ) : Option LoadedRecord :=
  match store.property agentId with
  | none => none
  | some raw =>
    let queue :=
      match raw.field "queue" with
      | some (.array items) => items.filter isValidQueuedMessage
      | _ => []
    let dedupe :=
      match raw.field "dedupe" with
      | some (.object fields) => (objectEntries fields).filterMap (liveEntry now)
      | _ => []
    if queue.length = 0 ∧ dedupe.length = 0 then none else some ⟨queue, dedupe⟩

end QueueFile

/-! ## What an object tells -/

section Objects

lemma field_objectOf_cons (n : String) (o : Option Json) (fields : List (String × Option Json))
    (name : String) : (objectOf ((n, o) :: fields)).field name =
      ((objectOf fields).field name).or (if js n = js name then o else none) := by
  cases o with
  | none => simp [objectOf]
  | some v => exact Json.field_cons (js n) v _ name

lemma field_objectOf_of_notMem {fields : List (String × Option Json)} {name : String}
    (h : ∀ f ∈ fields, js f.1 ≠ js name) : (objectOf fields).field name = none := by
  induction fields with
  | nil => rfl
  | cons f fields ih =>
    rw [field_objectOf_cons, ih fun g hg => h g (List.mem_cons_of_mem _ hg),
      if_neg (h f List.mem_cons_self)]
    rfl

lemma field_objectOf (names : List String) (hnodup : (names.map js).Nodup)
    {fields : List (String × Option Json)} (hnames : fields.map Prod.fst = names) {name : String}
    {o : Option Json} (h : (name, o) ∈ fields) : (objectOf fields).field name = o := by
  induction fields generalizing names with
  | nil => exact absurd h List.not_mem_nil
  | cons f fields ih =>
    subst hnames
    obtain ⟨hnotin, hrest⟩ := List.nodup_cons.1 hnodup
    have hother : ∀ g ∈ fields, js g.1 ≠ js f.1 := fun g hg heq =>
      hnotin (heq ▸ List.mem_map_of_mem (List.mem_map_of_mem hg))
    rw [field_objectOf_cons]
    rcases List.mem_cons.1 h with rfl | hmem
    · rw [field_objectOf_of_notMem hother, if_pos rfl]
      rfl
    · rw [ih _ hrest rfl hmem, if_neg (hother _ hmem).symm, Option.or_none]

def Sender.kind : Sender → JsString
  | .user _ _ => js "user"
  | .agent _ _ _ => js "agent"
  | .cronjob _ _ => js "cronjob"
  | .app _ => js "app"
  | .webhook _ _ => js "webhook"
  | .messaging _ _ _ => js "messaging"

def Sender.names : Sender → List String
  | .user _ _ => ["kind", "username", "device"]
  | .agent _ _ _ => ["kind", "agentId", "agentName", "roomName"]
  | .cronjob _ _ => ["kind", "cronjobId", "cronjobName"]
  | .app _ => ["kind", "appName"]
  | .webhook _ _ => ["kind", "webhookId", "webhookName"]
  | .messaging _ _ _ => ["kind", "app", "routeId", "routeName"]

lemma Sender.nodup_names : (s.names.map js).Nodup := by
  cases s <;> exact of_decide_eq_true rfl

lemma Sender.fields_names : s.fields.map Prod.fst = s.names := by
  cases s <;> rfl

lemma Sender.field_toJson {s : Sender} {name : String} {o : Option Json} (h : (name, o) ∈ s.fields) :
    s.toJson.field name = o :=
  field_objectOf s.names s.nodup_names s.fields_names h

lemma Sender.field_kind : s.toJson.field "kind" = some (.string s.kind) := by
  cases s <;> exact Sender.field_toJson List.mem_cons_self

end Objects

namespace QueueFile

/-! ## What is read of what was written -/

section Reading

lemma hasString_eq (v : Json) (name : String) :
    hasString v name = (v.field name).any fun w => match w with | .string _ => true | _ => false := by
  unfold hasString Json.str
  cases hfield : v.field name with
  | none => rfl
  | some w => cases w <;> rfl

lemma isValidAsk_toJson (a : AskRef) : isValidAsk (some a.toJson) = true := by
  have hfield : ∀ {name o}, (name, o) ∈ _ → a.toJson.field name = o := fun h =>
    field_objectOf ["id", "prompt", "dismissed", "simplify", "simplifyUndone", "taskId", "sessionId",
      "options", "recommended", "app"] (by decide) rfl h
  have hid : a.toJson.field "id" = some (.string a.id) := hfield List.mem_cons_self
  have hprompt : a.toJson.field "prompt" = some (.string a.prompt) :=
    hfield (List.mem_cons_of_mem _ List.mem_cons_self)
  simp [isValidAsk, hasString_eq, hid, hprompt]

lemma hasString_of_field {v : Json} {name : String} {value : JsString}
    (h : v.field name = some (.string value)) : hasString v name = true := by
  rw [hasString_eq, h]
  rfl

/-- Which senders pass their check. -/
lemma isValidSender_toJson : isValidSender s.toJson = match s with
    | .messaging appId _ _ => appId != []
    | _ => true := by
  have hkind : s.toJson.str "kind" = some s.kind := by rw [Json.str, Sender.field_kind]
  have hstring : ∀ name value, (name, some (.string value)) ∈ s.fields →
      hasString s.toJson name = true := fun name value h => hasString_of_field (Sender.field_toJson h)
  unfold isValidSender
  rw [hkind]
  cases s with
  | user username device => rfl
  | agent agentId agentName roomName =>
    simp only [Sender.kind, (by decide : js "agent" ≠ js "user"), if_false, if_true]
    rw [hstring "agentId" agentId (by simp [Sender.fields]),
      hstring "agentName" agentName (by simp [Sender.fields]),
      hstring "roomName" roomName (by simp [Sender.fields])]
    rfl
  | cronjob cronjobId cronjobName =>
    simp only [Sender.kind, (by decide : js "cronjob" ≠ js "user"),
      (by decide : js "cronjob" ≠ js "agent"), if_false, if_true]
    rw [hstring "cronjobId" cronjobId (by simp [Sender.fields]),
      hstring "cronjobName" cronjobName (by simp [Sender.fields])]
    rfl
  | app appName =>
    simp only [Sender.kind, (by decide : js "app" ≠ js "user"), (by decide : js "app" ≠ js "agent"),
      (by decide : js "app" ≠ js "cronjob"), if_false, if_true]
    exact hstring "appName" appName (by simp [Sender.fields])
  | webhook webhookId webhookName =>
    simp only [Sender.kind, (by decide : js "webhook" ≠ js "user"),
      (by decide : js "webhook" ≠ js "agent"), (by decide : js "webhook" ≠ js "cronjob"),
      (by decide : js "webhook" ≠ js "app"), if_false, if_true]
    rw [hstring "webhookId" webhookId (by simp [Sender.fields]),
      hstring "webhookName" webhookName (by simp [Sender.fields])]
    rfl
  | messaging appId routeId routeName =>
    have happ : (Sender.messaging appId routeId routeName).toJson.str "app" = some appId := by
      rw [Json.str, Sender.field_toJson (o := some (.string appId)) (by simp [Sender.fields])]
    simp only [Sender.kind, (by decide : js "messaging" ≠ js "user"),
      (by decide : js "messaging" ≠ js "agent"), (by decide : js "messaging" ≠ js "cronjob"),
      (by decide : js "messaging" ≠ js "app"), (by decide : js "messaging" ≠ js "webhook"), if_false,
      if_true]
    rw [happ, hstring "app" appId (by simp [Sender.fields]),
      hstring "routeId" routeId (by simp [Sender.fields]),
      hstring "routeName" routeName (by simp [Sender.fields])]
    simp [bne]

lemma field_toJson (name : String) {o : Option Json}
    (h : (name, o) ∈ m.fields) : m.toJson.field name = o :=
  field_objectOf ["id", "sender", "text", "sdkText", "native", "queuedDuringBusyTurn",
    "scheduledFor", "scheduledSenderGone", "handoff", "limitResume", "restartWake",
    "fallbackContinue", "notice", "limitResumeMemberIds", "ask", "echoed", "steer", "attachments",
    "queuedAt", "interruptCause", "carried", "modelRetry"] (by decide) rfl h

/-- **Which items pass the check**: the object of an item passes it exactly when its sender does. -/
theorem isValidQueuedMessage_toJson :
    isValidQueuedMessage m.toJson = Isomux.isValidQueuedMessage m := by
  have hid := hasString_of_field (field_toJson m "id" (o := some (.string m.id))
    (by simp [QueuedMessage.fields]))
  have htext := hasString_of_field (field_toJson m "text"
    (o := some (.string m.text)) (by simp [QueuedMessage.fields]))
  have hqueued := field_toJson m "queuedAt" (o := some (.ofInt m.queuedAt))
    (by simp [QueuedMessage.fields])
  have hask := field_toJson m "ask" (o := m.ask.map AskRef.toJson)
    (by simp [QueuedMessage.fields])
  have hsender := field_toJson m "sender" (o := some m.sender.toJson)
    (by simp [QueuedMessage.fields])
  have haskValid : isValidAsk (m.ask.map AskRef.toJson) = true := by
    cases m.ask with
    | none => rfl
    | some a => exact isValidAsk_toJson a
  unfold isValidQueuedMessage Isomux.isValidQueuedMessage
  rw [hid, htext, hqueued, hask, hsender, haskValid, Option.any_some, isValidSender_toJson]
  rfl

lemma property_json {agentIds : List AgentId} {agentId : AgentId} (h : agentId ∈ agentIds)
    (store : QueueStore) :
    (json agentIds store).property agentId = (store agentId).map QueueRecord.toJson := by
  set fields := agentIds.filterMap fun id => (store id).map fun record => (id, record.toJson) with hf
  have hall : ∀ f ∈ fields, (store f.1).map QueueRecord.toJson = some f.2 := by
    intro f hmem
    obtain ⟨id, -, hid⟩ := List.mem_filterMap.1 hmem
    obtain ⟨record, hrecord, rfl⟩ := Option.map_eq_some_iff.1 hid
    rw [hrecord, Option.map_some]
  have hproperty : (json agentIds store).property agentId =
      (fields.reverse.find? fun f => f.1 = agentId).map Prod.snd := rfl
  rw [hproperty]
  cases hfind : fields.reverse.find? fun f => f.1 = agentId with
  | some f =>
    have hname : f.1 = agentId := by simpa using List.find?_some hfind
    have hmem := List.mem_reverse.1 (List.mem_of_find?_eq_some hfind)
    rw [Option.map_some, ← hall f hmem, hname]
  | none =>
    cases hstore : store agentId with
    | none => rfl
    | some record =>
      have hmem : (agentId, record.toJson) ∈ fields :=
        List.mem_filterMap.2 ⟨agentId, h, by rw [hstore, Option.map_some]⟩
      have hother := List.find?_eq_none.1 hfind _ (List.mem_reverse.2 hmem)
      simp at hother

lemma loadMessageQueuesRaw_text (agentIds : List AgentId) (store : QueueStore) :
    loadMessageQueuesRaw (text agentIds store) = json agentIds store := by
  rw [loadMessageQueuesRaw, text, Json.parse_indentedText]
  rfl

lemma mem_liveEntries {dedupe : JsMap JsString ℤ} (hnodup : (dedupe.map Prod.fst).Nodup) (now : ℤ)
    (id : JsString) (v : ℚ) :
    (id, v) ∈ (objectEntries (dedupe.map fun e => (e.1, Json.ofInt e.2))).filterMap (liveEntry now) ↔
      ∃ t : ℤ, (id, t) ∈ dedupe ∧ now < t ∧ v = t := by
  have hkeys : ((dedupe.map fun e => (e.1, Json.ofInt e.2)).map Prod.fst).Nodup := by
    rw [List.map_map]
    exact hnodup
  rw [List.mem_filterMap, objectEntries, foldl_set _ hkeys [] (by simp), List.nil_append]
  constructor
  · rintro ⟨e, hmem, hlive⟩
    rw [(propertyOrder_perm _).mem_iff] at hmem
    obtain ⟨⟨k, t⟩, hkt, rfl⟩ := List.mem_map.1 hmem
    simp only [liveEntry, Json.ofInt, NumberLiteral.value_intText] at hlive
    split_ifs at hlive with hlt
    obtain ⟨rfl, rfl⟩ := Prod.mk.inj (Option.some.inj hlive)
    exact ⟨t, hkt, by exact_mod_cast hlt, rfl⟩
  · rintro ⟨t, hmem, hlt, rfl⟩
    refine ⟨(id, .ofInt t), (propertyOrder_perm _).mem_iff.2 (List.mem_map.2 ⟨_, hmem, rfl⟩), ?_⟩
    have hlt' : (now : ℚ) < t := by exact_mod_cast hlt
    simp only [liveEntry, Json.ofInt, NumberLiteral.value_intText, if_pos hlt']

/-- What is read of an agent that has no record. -/
def LoadedRecord.empty : LoadedRecord := ⟨[], []⟩

/-- **What is read of a file that was written**: of the items of an agent those that pass the check,
in their order, and of its ids those whose time is not over. -/
theorem readPersistedQueueRecord_text {agentIds : List AgentId} {agentId : AgentId}
    (h : agentId ∈ agentIds) (store : QueueStore)
    (hnodup : (((store agentId).elim [] (·.dedupe)).map Prod.fst).Nodup) (now : ℤ) :
    let loaded := (readPersistedQueueRecord (loadMessageQueuesRaw (text agentIds store)) agentId
      now).getD .empty
    loaded.queue = (((store agentId).elim [] (·.queue)).filter Isomux.isValidQueuedMessage).map
        QueuedMessage.toJson ∧
      ∀ id v, (id, v) ∈ loaded.dedupe ↔
        ∃ t : ℤ, (id, t) ∈ (store agentId).elim [] (·.dedupe) ∧ now < t ∧ v = t := by
  dsimp only
  rw [loadMessageQueuesRaw_text]
  unfold readPersistedQueueRecord
  rw [property_json h]
  cases hstore : store agentId with
  | none => simp [LoadedRecord.empty]
  | some record =>
    have hqueue : record.toJson.field "queue" = some (.array (record.queue.map QueuedMessage.toJson)) :=
      rfl
    have hdedupe : record.toJson.field "dedupe" =
        some (.object (record.dedupe.map fun e => (e.1, .ofInt e.2))) := rfl
    have hitems : (record.queue.map QueuedMessage.toJson).filter isValidQueuedMessage =
        (record.queue.filter Isomux.isValidQueuedMessage).map QueuedMessage.toJson := by
      rw [List.filter_map]
      exact congrArg _ (List.filter_congr fun m _ => isValidQueuedMessage_toJson m)
    rw [hstore] at hnodup
    have hlive := mem_liveEntries hnodup now
    simp only [Option.elim_some] at hlive
    simp only [Option.map_some, hqueue, hdedupe, hitems, Option.elim_some]
    split_ifs with hempty
    · rw [List.length_eq_zero_iff, List.length_eq_zero_iff] at hempty
      rw [hempty.2] at hlive
      exact ⟨hempty.1.symm, hlive⟩
    · exact ⟨rfl, hlive⟩

end Reading

end QueueFile

end Isomux
