import Isomux.Office.Tasks
import Isomux.Runtime.JsonShapes

set_option autoImplicit false

/-!
# Entries of the store of asks

An ask is a prompt from an agent to a member. The store keeps the open ones, and writes them to a
file as JSON.

An entry is a structure here, and a value of the runtime when it is written. Of the form of a secret
and of the step of an ask only the kind is looked at; the other fields, which are data of JSON, are
carried along.

## Main results

* `Isomux.AskEntry.plain_toJs` — nothing of an entry with finite numbers is lost in the file.
-/

namespace Isomux

open JsValue (ofOption ofList ofFlag Plain)

/-! ## The parts of an entry -/

/-- A value with a kind, of which nothing else is looked at. -/
structure TaggedFields where
  kind : JsString
  rest : List (String × JsValue)
  plain : JsValue.Plain (.object (("kind", .string kind) :: rest))

def TaggedFields.toJs (t : TaggedFields) : JsValue := .object (("kind", .string t.kind) :: t.rest)

structure AskApp where
  name : JsString
  createdAt : JsDouble
  deriving DecidableEq

def AskApp.toJs (a : AskApp) : JsValue :=
  .object [("name", .string a.name), ("createdAt", a.createdAt.toJs)]

structure AskOfficeSource where
  feature : JsString
  name : JsString
  deriving DecidableEq

def AskOfficeSource.toJs (o : AskOfficeSource) : JsValue :=
  .object [("feature", .string o.feature), ("name", .string o.name)]

/-- For whom a value is that a member types. -/
inductive SecretScope where
  | personal
  | office
  deriving DecidableEq

def SecretScope.text : SecretScope → JsString
  | .personal => js "personal"
  | .office => js "office"

inductive ValueRequest where
  | secret (hosts : List JsString) (form : TaggedFields) (app : Option AskApp)
  | «variable»
  | mcpServer (url secretName : Option JsString) (oauth : Bool)
  | discordBot (applicationId : Option JsString)

structure SecretAskRequest where
  requestId : JsString
  scope : SecretScope
  name : JsString
  reason : JsString
  ownerUserId : Option JsString
  answerUserId : Option JsString
  link : Option JsString
  request : ValueRequest

/-- The form that an older check wants of the newer kinds. -/
def olderForm : JsValue := .object [("kind", .string (js "authorization"))]

def ValueRequest.fields : ValueRequest → List (String × JsValue)
  | .secret hosts form app =>
    [("kind", .undefined), ("hosts", ofList .string hosts), ("form", form.toJs),
      ("app", ofOption AskApp.toJs app), ("url", .undefined), ("secret", .undefined),
      ("oauth", .undefined), ("applicationId", .undefined)]
  | .variable =>
    [("kind", .string (js "variable")), ("hosts", .array []), ("form", olderForm),
      ("app", .undefined), ("url", .undefined), ("secret", .undefined), ("oauth", .undefined),
      ("applicationId", .undefined)]
  | .mcpServer url secretName oauth =>
    [("kind", .string (js "mcp-server")), ("hosts", .array []), ("form", olderForm),
      ("app", .undefined), ("url", ofOption .string url), ("secret", ofOption .string secretName),
      ("oauth", ofFlag oauth), ("applicationId", .undefined)]
  | .discordBot applicationId =>
    [("kind", .string (js "discord-bot")), ("hosts", .array []), ("form", olderForm),
      ("app", .undefined), ("url", .undefined), ("secret", .undefined), ("oauth", .undefined),
      ("applicationId", ofOption .string applicationId)]

def SecretAskRequest.toJs (r : SecretAskRequest) : JsValue :=
  .object ([("requestId", .string r.requestId), ("scope", .string r.scope.text),
    ("name", .string r.name), ("reason", .string r.reason),
    ("ownerUserId", ofOption .string r.ownerUserId),
    ("answerUserId", ofOption .string r.answerUserId),
    ("link", ofOption .string r.link)] ++ r.request.fields)

structure SudoAskRequest where
  requestId : JsString
  command : JsString
  cwd : JsString

/-- The value of a request to run a command. -/
def SudoAskRequest.toJs (r : SudoAskRequest) : JsValue :=
  .object [("requestId", .string r.requestId), ("command", .string r.command),
    ("cwd", .string r.cwd)]

structure FilePayload where
  cwd : JsString
  path : JsString

def FilePayload.toJs (f : FilePayload) : JsValue :=
  .object [("cwd", .string f.cwd), ("path", .string f.path)]

structure AskReadFile where
  filename : JsString
  originalName : JsString
  mediaType : JsString
  size : JsDouble
  path : Option JsString

def AskReadFile.toJs (f : AskReadFile) : JsValue :=
  .object [("filename", .string f.filename), ("originalName", .string f.originalName),
    ("mediaType", .string f.mediaType), ("size", f.size.toJs),
    ("path", ofOption .string f.path)]

inductive RunState where
  | running
  | done
  | lost
  deriving DecidableEq

def RunState.text : RunState → JsString
  | .running => js "running"
  | .done => js "done"
  | .lost => js "lost"

structure AskCommandRun where
  command : JsString
  ranBy : JsString
  startedAt : JsDouble
  state : RunState
  exitCode : Option (Option JsDouble)
  signal : Option (Option JsString)
  timedOut : Bool
  durationMs : Option JsDouble
  output : Option JsString

/-- A value that may be `null`. -/
def orNull {α : Type} (make : α → JsValue) : Option α → JsValue
  | some a => make a
  | none => .null

def AskCommandRun.toJs (r : AskCommandRun) : JsValue :=
  .object [("command", .string r.command), ("by", .string r.ranBy),
    ("startedAt", r.startedAt.toJs), ("state", .string r.state.text),
    ("exitCode", ofOption (orNull JsDouble.toJs) r.exitCode),
    ("signal", ofOption (orNull .string) r.signal), ("timedOut", ofFlag r.timedOut),
    ("durationMs", ofOption JsDouble.toJs r.durationMs), ("output", ofOption .string r.output)]

structure AskMessaging where
  app : JsString
  routeId : JsString
  text : JsString
  channelId : Option JsString
  replyTo : Option JsString

def AskMessaging.toJs (m : AskMessaging) : JsValue :=
  .object [("app", .string m.app), ("routeId", .string m.routeId), ("text", .string m.text),
    ("channelId", ofOption .string m.channelId), ("replyTo", ofOption .string m.replyTo)]

inductive PagerDeliveryState where
  | notDelivered
  | delivered
  | failed
  deriving DecidableEq

def PagerDeliveryState.text : PagerDeliveryState → JsString
  | .notDelivered => js "not_delivered"
  | .delivered => js "delivered"
  | .failed => js "failed"

inductive PagerDeliveryFailure where
  | noWebhook
  | http4xx
  | http5xx
  | rateLimited
  | network
  deriving DecidableEq

def PagerDeliveryFailure.text : PagerDeliveryFailure → JsString
  | .noWebhook => js "no_webhook"
  | .http4xx => js "http_4xx"
  | .http5xx => js "http_5xx"
  | .rateLimited => js "rate_limited"
  | .network => js "network"

/-- How far the message is that a page was resolved. -/
inductive ResolvedNotice where
  | pending
  | done
  deriving DecidableEq

def ResolvedNotice.text : ResolvedNotice → JsString
  | .pending => js "pending"
  | .done => js "done"

structure PagerDelivery where
  state : PagerDeliveryState
  sends : JsDouble
  lastAttemptAt : Option JsDouble
  lastFailure : Option PagerDeliveryFailure
  resolvedNotice : Option ResolvedNotice

def PagerDelivery.toJs (d : PagerDelivery) : JsValue :=
  .object [("state", .string d.state.text), ("sends", d.sends.toJs),
    ("lastAttemptAt", ofOption JsDouble.toJs d.lastAttemptAt),
    ("lastFailure", ofOption (fun f => .string f.text) d.lastFailure),
    ("resolvedNotice", ofOption (fun n => .string n.text) d.resolvedNotice)]

inductive AskPageState where
  | ringing
  | acked
  deriving DecidableEq

def AskPageState.text : AskPageState → JsString
  | .ringing => js "ringing"
  | .acked => js "acked"

structure AskPage where
  state : AskPageState
  ackedByUserId : Option JsString
  ackedAt : Option JsDouble
  pageId : Option JsString
  key : Option JsString
  raiseCount : Option JsDouble
  lastRaisedAt : Option JsDouble
  delivery : JsMap JsString PagerDelivery

def fieldName (id : JsString) : String := String.ofList (id.map fun c => Char.ofNat c.toNat)

def AskPage.toJs (p : AskPage) : JsValue :=
  .object [("state", .string p.state.text), ("ackedByUserId", ofOption .string p.ackedByUserId),
    ("ackedAt", ofOption JsDouble.toJs p.ackedAt), ("pageId", ofOption .string p.pageId),
    ("key", ofOption .string p.key), ("raiseCount", ofOption JsDouble.toJs p.raiseCount),
    ("lastRaisedAt", ofOption JsDouble.toJs p.lastRaisedAt),
    ("delivery", .object (p.delivery.map fun d => (fieldName d.1, d.2.toJs)))]

/-! ## Entries -/

structure AskEntry where
  id : JsString
  agentId : JsString
  memberUserId : Option JsString
  otherMemberUserIds : Option (List JsString)
  room : Bool
  prompt : JsString
  createdAt : JsDouble
  updatedAt : JsDouble
  secret : Option SecretAskRequest
  «sudo» : Option SudoAskRequest
  link : Option JsString
  options : Option (List JsString)
  recommended : Option JsString
  priority : Option TaskPriority
  commands : Option (List JsString)
  editFiles : Option (List FilePayload)
  readFiles : Option (List AskReadFile)
  runs : Option (List AskCommandRun)
  sessionId : Option JsString
  step : Option TaggedFields
  app : Option AskApp
  simplifyRequestedAt : Option JsDouble
  originalPrompt : Option JsString
  messaging : Option AskMessaging
  page : Option AskPage
  office : Option AskOfficeSource

def AskEntry.toJs (e : AskEntry) : JsValue :=
  .object [("id", .string e.id), ("agentId", .string e.agentId),
    ("memberUserId", ofOption .string e.memberUserId),
    ("otherMemberUserIds", ofOption (ofList .string) e.otherMemberUserIds),
    ("room", ofFlag e.room), ("prompt", .string e.prompt), ("createdAt", e.createdAt.toJs),
    ("updatedAt", e.updatedAt.toJs), ("secret", ofOption SecretAskRequest.toJs e.secret),
    ("sudo", ofOption SudoAskRequest.toJs e.sudo), ("link", ofOption .string e.link),
    ("options", ofOption (ofList .string) e.options),
    ("recommended", ofOption .string e.recommended),
    ("priority", ofOption (fun p => .string p.text) e.priority),
    ("commands", ofOption (ofList .string) e.commands),
    ("editFiles", ofOption (ofList FilePayload.toJs) e.editFiles),
    ("readFiles", ofOption (ofList AskReadFile.toJs) e.readFiles),
    ("runs", ofOption (ofList AskCommandRun.toJs) e.runs),
    ("sessionId", ofOption .string e.sessionId), ("step", ofOption TaggedFields.toJs e.step),
    ("app", ofOption AskApp.toJs e.app),
    ("simplifyRequestedAt", ofOption JsDouble.toJs e.simplifyRequestedAt),
    ("originalPrompt", ofOption .string e.originalPrompt),
    ("messaging", ofOption AskMessaging.toJs e.messaging),
    ("page", ofOption AskPage.toJs e.page), ("office", ofOption AskOfficeSource.toJs e.office)]

/-! ## Finite numbers -/

/-- The numbers of a registration are finite. -/
def AskApp.isFinite (a : AskApp) : Bool := a.createdAt.isFinite

/-- The numbers of a request for a value are finite. -/
def SecretAskRequest.isFinite (r : SecretAskRequest) : Bool :=
  match r.request with
  | .secret _ _ app => app.all AskApp.isFinite
  | _ => true

/-- The numbers of a file to show are finite. -/
def AskReadFile.isFinite (f : AskReadFile) : Bool := f.size.isFinite

def AskCommandRun.isFinite (r : AskCommandRun) : Bool :=
  r.startedAt.isFinite && r.exitCode.all (·.all JsDouble.isFinite) &&
    r.durationMs.all JsDouble.isFinite

/-- The numbers of the sends to a member are finite. -/
def PagerDelivery.isFinite (d : PagerDelivery) : Bool :=
  d.sends.isFinite && d.lastAttemptAt.all JsDouble.isFinite

def AskPage.isFinite (p : AskPage) : Bool :=
  p.ackedAt.all JsDouble.isFinite && p.raiseCount.all JsDouble.isFinite &&
    p.lastRaisedAt.all JsDouble.isFinite && p.delivery.all fun d => d.2.isFinite

def AskEntry.isFinite (e : AskEntry) : Bool :=
  e.createdAt.isFinite && e.updatedAt.isFinite && e.secret.all SecretAskRequest.isFinite &&
    e.readFiles.all (·.all AskReadFile.isFinite) && e.runs.all (·.all AskCommandRun.isFinite) &&
    e.app.all AskApp.isFinite && e.simplifyRequestedAt.all JsDouble.isFinite &&
    e.page.all AskPage.isFinite

lemma AskEntry.isFinite_iff {e : AskEntry} : e.isFinite = true ↔
    e.createdAt.isFinite = true ∧ e.updatedAt.isFinite = true ∧
      e.secret.all SecretAskRequest.isFinite = true ∧
      e.readFiles.all (·.all AskReadFile.isFinite) = true ∧
      e.runs.all (·.all AskCommandRun.isFinite) = true ∧ e.app.all AskApp.isFinite = true ∧
      e.simplifyRequestedAt.all JsDouble.isFinite = true ∧
      e.page.all AskPage.isFinite = true := by
  simp only [AskEntry.isFinite, Bool.and_eq_true, and_assoc]

/-! ## Nothing of an entry is lost -/

lemma plain_record {fields : List (String × JsValue)} (names : List String)
    (hnames : fields.map Prod.fst = names) (hnodup : names.Nodup)
    (hfields : ∀ f ∈ fields, Plain f.2) : Plain (.object fields) :=
  .object fields (.inl (hnames ▸ hnodup)) hfields

lemma plain_number {o : Option JsDouble} (h : o.all JsDouble.isFinite = true) :
    Plain (ofOption JsDouble.toJs o) :=
  .ofOption fun _ hn => .finite ((Option.all_eq_true _ _).1 h _ hn)

lemma AskApp.plain_toJs {a : AskApp} (h : a.isFinite = true) : Plain a.toJs := by
  refine plain_record ["name", "createdAt"] rfl (by decide) ?_
  simp only [List.forall_mem_cons]
  exact ⟨.string _, .finite h, by simp⟩

lemma AskOfficeSource.plain_toJs (o : AskOfficeSource) : Plain o.toJs := by
  refine plain_record ["feature", "name"] rfl (by decide) ?_
  simp only [List.forall_mem_cons]
  exact ⟨.string _, .string _, by simp⟩

lemma SecretAskRequest.plain_fields {r : SecretAskRequest} (h : r.isFinite = true) :
    ∀ f ∈ r.request.fields, Plain f.2 := by
  have holder : Plain olderForm :=
    plain_record ["kind"] rfl (by decide) (by simpa using Plain.string _)
  have hnone : Plain (.array []) := .array [] (by simp) (by simp)
  unfold SecretAskRequest.isFinite at h
  cases hrequest : r.request with
  | secret hosts form app =>
    rw [hrequest] at h
    simp only [ValueRequest.fields, List.forall_mem_cons]
    exact ⟨.undefined, .strings hosts, form.plain,
      .ofOption fun a ha => AskApp.plain_toJs ((Option.all_eq_true _ _).1 h a ha), .undefined,
      .undefined, .undefined, .undefined, by simp⟩
  | «variable» =>
    simp only [ValueRequest.fields, List.forall_mem_cons]
    exact ⟨.string _, hnone, holder, .undefined, .undefined, .undefined, .undefined, .undefined,
      by simp⟩
  | mcpServer url secretName oauth =>
    simp only [ValueRequest.fields, List.forall_mem_cons]
    exact ⟨.string _, hnone, holder, .undefined, .optionalString url, .optionalString secretName,
      .ofFlag oauth, .undefined, by simp⟩
  | discordBot applicationId =>
    simp only [ValueRequest.fields, List.forall_mem_cons]
    exact ⟨.string _, hnone, holder, .undefined, .undefined, .undefined, .undefined,
      .optionalString applicationId, by simp⟩

lemma ValueRequest.names_fields (r : ValueRequest) : r.fields.map Prod.fst =
    ["kind", "hosts", "form", "app", "url", "secret", "oauth", "applicationId"] := by
  cases r <;> rfl

lemma SecretAskRequest.plain_toJs {r : SecretAskRequest} (h : r.isFinite = true) :
    Plain r.toJs := by
  refine plain_record (["requestId", "scope", "name", "reason", "ownerUserId", "answerUserId",
    "link"] ++ ["kind", "hosts", "form", "app", "url", "secret", "oauth", "applicationId"])
    ?_ (by decide) ?_
  · rw [List.map_append, r.request.names_fields]
    rfl
  · rw [List.forall_mem_append]
    refine ⟨?_, r.plain_fields h⟩
    simp only [List.forall_mem_cons]
    exact ⟨.string _, .string _, .string _, .string _, .optionalString _, .optionalString _,
      .optionalString _, by simp⟩

lemma SudoAskRequest.plain_toJs (r : SudoAskRequest) : Plain r.toJs := by
  refine plain_record ["requestId", "command", "cwd"] rfl (by decide) ?_
  simp only [List.forall_mem_cons]
  exact ⟨.string _, .string _, .string _, by simp⟩

lemma FilePayload.plain_toJs (f : FilePayload) : Plain f.toJs := by
  refine plain_record ["cwd", "path"] rfl (by decide) ?_
  simp only [List.forall_mem_cons]
  exact ⟨.string _, .string _, by simp⟩

lemma AskReadFile.plain_toJs {f : AskReadFile} (h : f.isFinite = true) : Plain f.toJs := by
  refine plain_record ["filename", "originalName", "mediaType", "size", "path"] rfl (by decide) ?_
  simp only [List.forall_mem_cons]
  exact ⟨.string _, .string _, .string _, .finite h, .optionalString _, by simp⟩

lemma plain_orNull {α : Type} {make : α → JsValue} {o : Option α} (h : ∀ a ∈ o, Plain (make a)) :
    Plain (orNull make o) := by
  cases o with
  | none => exact .null
  | some a => exact h a rfl

lemma AskCommandRun.plain_toJs {r : AskCommandRun} (h : r.isFinite = true) : Plain r.toJs := by
  unfold AskCommandRun.isFinite at h
  simp only [Bool.and_eq_true] at h
  obtain ⟨⟨hstarted, hcode⟩, hduration⟩ := h
  refine plain_record ["command", "by", "startedAt", "state", "exitCode", "signal", "timedOut",
    "durationMs", "output"] rfl (by decide) ?_
  simp only [List.forall_mem_cons]
  refine ⟨.string _, .string _, .finite hstarted, .string _, .ofOption fun code hmem => ?_,
    .ofOption fun _ _ => plain_orNull fun s _ => .string s, .ofFlag _, plain_number hduration,
    .optionalString _, by simp⟩
  exact plain_orNull fun n hn =>
    .finite ((Option.all_eq_true _ _).1 ((Option.all_eq_true _ _).1 hcode code hmem) n hn)

lemma AskMessaging.plain_toJs (m : AskMessaging) : Plain m.toJs := by
  refine plain_record ["app", "routeId", "text", "channelId", "replyTo"] rfl (by decide) ?_
  simp only [List.forall_mem_cons]
  exact ⟨.string _, .string _, .string _, .optionalString _, .optionalString _, by simp⟩

lemma PagerDelivery.plain_toJs {d : PagerDelivery} (h : d.isFinite = true) : Plain d.toJs := by
  obtain ⟨hsends, hattempt⟩ := Bool.and_eq_true_iff.1 h
  refine plain_record ["state", "sends", "lastAttemptAt", "lastFailure", "resolvedNotice"] rfl
    (by decide) ?_
  simp only [List.forall_mem_cons]
  exact ⟨.string _, .finite hsends, plain_number hattempt, .ofOption fun _ _ => .string _,
    .ofOption fun _ _ => .string _, by simp⟩

lemma AskPage.plain_toJs {p : AskPage} (h : p.isFinite = true) : Plain p.toJs := by
  unfold AskPage.isFinite at h
  simp only [Bool.and_eq_true] at h
  obtain ⟨⟨⟨hacked, hcount⟩, hraised⟩, hsends⟩ := h
  have hdelivery : Plain (.object (p.delivery.map fun d => (fieldName d.1, d.2.toJs))) := by
    refine .object _ (.inr fun f hf => ?_) fun f hf => ?_
    · obtain ⟨d, -, rfl⟩ := List.mem_map.1 hf
      exact JsValue.noConfusion
    · obtain ⟨d, hd, rfl⟩ := List.mem_map.1 hf
      exact d.2.plain_toJs (List.all_eq_true.1 hsends d hd)
  refine plain_record ["state", "ackedByUserId", "ackedAt", "pageId", "key", "raiseCount",
    "lastRaisedAt", "delivery"] rfl (by decide) ?_
  simp only [List.forall_mem_cons]
  exact ⟨.string _, .optionalString _, plain_number hacked, .optionalString _, .optionalString _,
    plain_number hcount, plain_number hraised, hdelivery, by simp⟩

lemma plain_list {α : Type} {make : α → JsValue} {finite : α → Bool}
    (hmake : ∀ a, finite a = true → Plain (make a)) (hdefined : ∀ a, make a ≠ .undefined)
    {o : Option (List α)} (h : o.all (·.all finite) = true) : Plain (ofOption (ofList make) o) :=
  .ofOption fun list hlist => .ofList hdefined fun a ha =>
    hmake a (List.all_eq_true.1 ((Option.all_eq_true _ _).1 h list hlist) a ha)

/-- **Nothing of an entry is lost** in the file but fields that hold `undefined`, when its numbers are
finite. -/
theorem AskEntry.plain_toJs {e : AskEntry} (h : e.isFinite = true) : Plain e.toJs := by
  have hstrings : ∀ o : Option (List JsString), Plain (ofOption (ofList .string) o) :=
    fun _ => .ofOption fun list _ => .strings list
  obtain ⟨hcreated, hupdated, hsecret, hreadFiles, hruns, happ, hsimplify, hpage⟩ :=
    AskEntry.isFinite_iff.1 h
  refine plain_record ["id", "agentId", "memberUserId", "otherMemberUserIds", "room", "prompt",
    "createdAt", "updatedAt", "secret", "sudo", "link", "options", "recommended", "priority",
    "commands", "editFiles", "readFiles", "runs", "sessionId", "step", "app",
    "simplifyRequestedAt", "originalPrompt", "messaging", "page", "office"] rfl (by decide) ?_
  simp only [List.forall_mem_cons]
  exact ⟨.string _, .string _, .optionalString _, hstrings _, .ofFlag _, .string _,
    .finite hcreated, .finite hupdated,
    .ofOption fun r hr => r.plain_toJs ((Option.all_eq_true _ _).1 hsecret r hr),
    .ofOption fun r _ => r.plain_toJs, .optionalString _, hstrings _, .optionalString _,
    .ofOption fun _ _ => .string _, hstrings _,
    .ofOption fun _ _ => .ofList (fun _ => JsValue.noConfusion) fun f _ => f.plain_toJs,
    plain_list (fun _ => AskReadFile.plain_toJs) (fun _ => JsValue.noConfusion) hreadFiles,
    plain_list (fun _ => AskCommandRun.plain_toJs) (fun _ => JsValue.noConfusion) hruns,
    .optionalString _, .ofOption fun t _ => t.plain,
    .ofOption fun a ha => a.plain_toJs ((Option.all_eq_true _ _).1 happ a ha), plain_number hsimplify,
    .optionalString _, .ofOption fun m _ => m.plain_toJs,
    .ofOption fun p hp => p.plain_toJs ((Option.all_eq_true _ _).1 hpage p hp),
    .ofOption fun o _ => o.plain_toJs, by simp⟩

end Isomux
