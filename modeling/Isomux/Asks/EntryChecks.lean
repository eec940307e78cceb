import Isomux.Asks.Entries

set_option autoImplicit false

/-!
# The check of an entry

A file of asks is read only if every value in it has the shape of an ask. The same check is made of an
entry before it is written.

## Main results

* `Isomux.survives_isAskEntry` — an entry that passes the check passes it when it is read again.
-/

namespace Isomux

open JsValue (isOptional isListOf isArrayOf everyValue lacks Stable Survives)

/-! ## The parts of an entry -/

variable (v : JsValue)

def isSudoAskRequest : Bool :=
  v.isObject && (v.field "requestId").isNonEmptyString && (v.field "command").isNonEmptyString &&
    (v.field "cwd").isString

def isSecretApp : Bool :=
  v.isObject && (v.field "name").isString && (v.field "createdAt").isNumber

variable (r : JsValue)

/-- What a request for a value may have by its kind. -/
def secretKindOk : Bool :=
  if (r.field "kind").isUndefined then lacks ["url", "secret"] r
  else if (r.field "kind").isOneOf [js "variable", js "discord-bot"] then
    lacks ["app", "url", "secret"] r
  else if (r.field "kind").isText (js "mcp-server") then
    lacks ["app"] r && isOptional JsValue.isString (r.field "url") &&
      isOptional JsValue.isString (r.field "secret") && isOptional JsValue.isTrue (r.field "oauth")
  else (r.field "kind").isNonEmptyString

def isSecretAskRequest : Bool :=
  r.isObject && (r.field "requestId").isNonEmptyString &&
    (r.field "scope").isOneOf [js "personal", js "office"] && (r.field "name").isString &&
    isArrayOf JsValue.isString (r.field "hosts") && (r.field "form").isObject &&
    ((r.field "form").field "kind").isString && (r.field "reason").isString &&
    isOptional isSecretApp (r.field "app") &&
    isOptional JsValue.isString (r.field "ownerUserId") &&
    isOptional JsValue.isString (r.field "answerUserId") &&
    isOptional JsValue.isNonEmptyString (r.field "link") &&
    isOptional JsValue.isString (r.field "applicationId") && secretKindOk r

def isFilePayload : Bool :=
  v.isObject && (v.field "cwd").isString && (v.field "path").isString

def isAttachment : Bool :=
  v.isObject && (v.field "filename").isNonEmptyString && (v.field "originalName").isString &&
    (v.field "mediaType").isString && (v.field "size").isNumber

def RUN_STATES : List JsString := [js "running", js "done", js "lost"]

/-- `null`, or passes a check. -/
def isNullOr (check : JsValue → Bool) (v : JsValue) : Bool := v.isNull || check v

def isAskCommandRun : Bool :=
  v.isObject && (v.field "command").isString && (v.field "by").isString &&
    (v.field "startedAt").isNumber && (v.field "state").isOneOf RUN_STATES &&
    isOptional (isNullOr JsValue.isNumber) (v.field "exitCode") &&
    isOptional (isNullOr JsValue.isString) (v.field "signal") &&
    isOptional JsValue.isTrue (v.field "timedOut") &&
    isOptional JsValue.isNumber (v.field "durationMs") &&
    isOptional JsValue.isString (v.field "output")

/-- `path.isAbsolute`: the path starts at the root. -/
def isAbsolute (path : JsString) : Bool := path.head? = some 47

def isAskReadFile : Bool :=
  isAttachment v && isOptional (JsValue.isStringWith isAbsolute) (v.field "path")

def PAGE_DELIVERY_STATES : List JsString := [js "not_delivered", js "delivered", js "failed"]

def isPageDelivery : Bool :=
  v.isObject && (v.field "state").isOneOf PAGE_DELIVERY_STATES && (v.field "sends").isNumber &&
    isOptional JsValue.isNumber (v.field "lastAttemptAt") &&
    isOptional JsValue.isString (v.field "lastFailure") &&
    isOptional (JsValue.isOneOf [js "pending", js "done"]) (v.field "resolvedNotice")

/-- Who acked an alarm and when is known of an acked one only. -/
def pageStateOk : Bool :=
  if (v.field "state").isText (js "ringing") then lacks ["ackedByUserId", "ackedAt"] v
  else (v.field "state").isText (js "acked") && (v.field "ackedByUserId").isString &&
    (v.field "ackedAt").isNumber

def isAskPage : Bool :=
  v.isObject && (v.field "delivery").isObject && isOptional JsValue.isString (v.field "key") &&
    isOptional JsValue.isNonEmptyString (v.field "pageId") &&
    isOptional JsValue.isNumber (v.field "raiseCount") &&
    isOptional JsValue.isNumber (v.field "lastRaisedAt") &&
    everyValue isPageDelivery (v.field "delivery") && pageStateOk v

/-! ## The check of an entry, in the order of the source -/

def hasMember : Bool := (r.field "memberUserId").isNonEmptyString

def hasCoreFields : Bool :=
  (r.field "id").isNonEmptyString && (r.field "agentId").isString && (r.field "prompt").isString &&
    (r.field "createdAt").isNumber && (r.field "updatedAt").isNumber

def isAskOffice (o : JsValue) : Bool :=
  o.isObject && (o.field "feature").isNonEmptyString && (o.field "name").isString

/-- An entry without an agent is a page from the office or from an app, for one member. -/
def agentOk : Bool :=
  if (r.field "agentId").isText (js "") then
    hasMember r && !(r.field "page").isUndefined &&
      !((r.field "office").isUndefined == (r.field "app").isUndefined) &&
      lacks ["room", "otherMemberUserIds", "options", "recommended", "link", "commands",
        "editFiles", "readFiles", "step", "secret", "sudo", "messaging"] r
  else (r.field "office").isUndefined

/-- An entry for more than one member names them or their room. -/
def sharedOk : Bool :=
  if !(r.field "otherMemberUserIds").isUndefined || !(r.field "room").isUndefined then
    hasMember r && !(!(r.field "otherMemberUserIds").isUndefined && !(r.field "room").isUndefined) &&
      isOptional JsValue.isTrue (r.field "room") &&
      isOptional (isListOf JsValue.isNonEmptyString) (r.field "otherMemberUserIds") &&
      lacks ["secret", "sudo", "step", "messaging"] r
  else true

def isAskApp : Bool :=
  v.isObject && (v.field "name").isNonEmptyString && (v.field "createdAt").isNumber

def isAskStep : Bool := v.isObject && (v.field "kind").isNonEmptyString

def recommendedOk : Bool :=
  (r.field "recommended").isUndefined ||
    (r.field "recommended").isNonEmptyString && !(r.field "options").isUndefined

def isValidPriority : JsValue → Bool :=
  JsValue.isOneOf [js "P0", js "P1", js "P2", js "P3", js "P4"]

def isAskMessaging : Bool :=
  v.isObject && (v.field "app").isNonEmptyString && (v.field "routeId").isNonEmptyString &&
    (v.field "text").isString

/-- An entry with an alarm is no request and no draft. -/
def pageOk : Bool :=
  (r.field "page").isUndefined ||
    isAskPage (r.field "page") && lacks ["secret", "sudo", "messaging"] r

def requestOk : Bool :=
  if !(r.field "sudo").isUndefined then
    hasMember r && lacks ["secret", "link", "options", "priority", "commands", "editFiles",
      "readFiles", "step", "app", "messaging"] r && isSudoAskRequest (r.field "sudo")
  else if (r.field "secret").isUndefined then hasMember r
  else
    lacks ["messaging", "link", "options", "commands", "editFiles", "readFiles"] r &&
      isSecretAskRequest (r.field "secret") &&
      if ((r.field "secret").field "scope").isText (js "office") then
        (r.field "memberUserId").isUndefined
      else hasMember r

def affordancesOk : Bool :=
  isOptional (isListOf JsValue.isNonEmptyString) (r.field "commands") &&
    isOptional (isListOf isFilePayload) (r.field "editFiles") &&
    isOptional (isListOf isAskReadFile) (r.field "readFiles")

def isAskEntry : Bool :=
  r.isObject && hasCoreFields r && isOptional isAskOffice (r.field "office") && agentOk r &&
    sharedOk r && isOptional JsValue.isNonEmptyString (r.field "link") &&
    isOptional JsValue.isString (r.field "sessionId") && isOptional isAskApp (r.field "app") &&
    isOptional isAskStep (r.field "step") &&
    isOptional (isListOf JsValue.isNonEmptyString) (r.field "options") && recommendedOk r &&
    isOptional isValidPriority (r.field "priority") && affordancesOk r &&
    isOptional (isListOf isAskCommandRun) (r.field "runs") &&
    isOptional JsValue.isNumber (r.field "simplifyRequestedAt") &&
    isOptional JsValue.isString (r.field "originalPrompt") &&
    isOptional isAskMessaging (r.field "messaging") && pageOk r && requestOk r

/-! ## What passes the check passes it again -/

namespace EntryChecks

lemma sound {check : JsValue → Bool} (h : Stable check) (name : String) :
    Survives fun v => check (v.field name) := (h.field name).survives

lemma maybe {check : JsValue → Bool} (h : Survives check) (name : String) :
    Survives fun v => isOptional check (v.field name) := h.optional.field name

lemma maybeText (name : String) :
    Survives fun v => isOptional JsValue.isString (v.field name) := maybe Stable.isString.survives name

lemma maybeNumber (name : String) :
    Survives fun v => isOptional JsValue.isNumber (v.field name) := maybe Stable.isNumber.survives name

lemma without (names : List String) : Survives (lacks names) := (Stable.lacks names).survives

lemma anObject : Survives JsValue.isObject := Stable.isObject.survives

lemma ofSudoAskRequest : Survives isSudoAskRequest :=
  ((anObject.and (sound .isNonEmptyString "requestId")).and
    (sound .isNonEmptyString "command")).and (sound .isString "cwd")

lemma ofSecretApp : Survives isSecretApp :=
  (anObject.and (sound .isString "name")).and (sound .isNumber "createdAt")

lemma ofSecretKind : Survives secretKindOk :=
  .ite (Stable.isUndefined.field "kind") (without _) <|
    .ite ((Stable.isOneOf _).field "kind") (without _) <|
      .ite ((Stable.isText _).field "kind")
        ((((without _).and (maybeText "url")).and (maybeText "secret")).and
          (maybe Stable.isTrue.survives "oauth"))
        (sound .isNonEmptyString "kind")

lemma ofSecretAskRequest : Survives isSecretAskRequest :=
  ((((((((((((anObject.and (sound .isNonEmptyString "requestId")).and
    (sound (.isOneOf _) "scope")).and (sound .isString "name")).and
    (Stable.isString.survives.arrayOf.field "hosts")).and (sound .isObject "form")).and
    ((Stable.isString.field "kind").field "form").survives).and (sound .isString "reason")).and
    (maybe ofSecretApp "app")).and (maybeText "ownerUserId")).and (maybeText "answerUserId")).and
    (maybe Stable.isNonEmptyString.survives "link")).and (maybeText "applicationId")).and
    ofSecretKind

lemma ofFilePayload : Survives isFilePayload :=
  (anObject.and (sound .isString "cwd")).and (sound .isString "path")

lemma ofAttachment : Survives isAttachment :=
  (((anObject.and (sound .isNonEmptyString "filename")).and (sound .isString "originalName")).and
    (sound .isString "mediaType")).and (sound .isNumber "size")

lemma ofAskReadFile : Survives isAskReadFile :=
  ofAttachment.and (maybe (Stable.isStringWith _).survives "path")

lemma ofNullOr {check : JsValue → Bool} (h : Stable check) : Survives (isNullOr check) :=
  (Stable.isNull.or h).survives

lemma ofAskCommandRun : Survives isAskCommandRun :=
  ((((((((anObject.and (sound .isString "command")).and (sound .isString "by")).and
    (sound .isNumber "startedAt")).and (sound (.isOneOf _) "state")).and
    (maybe (ofNullOr .isNumber) "exitCode")).and (maybe (ofNullOr .isString) "signal")).and
    (maybe Stable.isTrue.survives "timedOut")).and (maybeNumber "durationMs")).and
    (maybeText "output")

lemma ofPageDelivery : Survives isPageDelivery :=
  ((((anObject.and (sound (.isOneOf _) "state")).and (sound .isNumber "sends")).and
    (maybeNumber "lastAttemptAt")).and (maybeText "lastFailure")).and
    (maybe (Stable.isOneOf _).survives "resolvedNotice")

lemma ofPageState : Survives pageStateOk :=
  .ite ((Stable.isText _).field "state") (without _)
    (((sound (.isText _) "state").and (sound .isString "ackedByUserId")).and
      (sound .isNumber "ackedAt"))

lemma ofAskPage : Survives isAskPage :=
  ((((((anObject.and (sound .isObject "delivery")).and (maybeText "key")).and
    (maybe Stable.isNonEmptyString.survives "pageId")).and (maybeNumber "raiseCount")).and
    (maybeNumber "lastRaisedAt")).and (ofPageDelivery.values.field "delivery")).and ofPageState

lemma isThere (name : String) : Stable fun v => !(v.field name).isUndefined :=
  (Stable.isUndefined.field name).not

lemma ofMember : Survives hasMember := sound .isNonEmptyString "memberUserId"

lemma ofCoreFields : Survives hasCoreFields :=
  ((((sound .isNonEmptyString "id").and (sound .isString "agentId")).and
    (sound .isString "prompt")).and (sound .isNumber "createdAt")).and (sound .isNumber "updatedAt")

lemma ofAskOffice : Survives isAskOffice :=
  (anObject.and (sound .isNonEmptyString "feature")).and (sound .isString "name")

lemma ofAgent : Survives agentOk :=
  .ite ((Stable.isText _).field "agentId")
    (((ofMember.and (isThere "page").survives).and
      ((Stable.isUndefined.field "office").beq (Stable.isUndefined.field "app")).not.survives).and
      (without _))
    (sound .isUndefined "office")

lemma ofShared : Survives sharedOk :=
  .ite ((isThere "otherMemberUserIds").or (isThere "room"))
    ((((ofMember.and ((isThere "otherMemberUserIds").and (isThere "room")).not.survives).and
      (maybe Stable.isTrue.survives "room")).and
      (maybe Stable.isNonEmptyString.survives.listOf "otherMemberUserIds")).and (without _))
    fun _ _ h => h

lemma ofAskApp : Survives isAskApp :=
  (anObject.and (sound .isNonEmptyString "name")).and (sound .isNumber "createdAt")

lemma ofAskStep : Survives isAskStep := anObject.and (sound .isNonEmptyString "kind")

lemma ofRecommended : Survives recommendedOk :=
  (sound .isUndefined "recommended").or
    ((sound .isNonEmptyString "recommended").and (isThere "options").survives)

lemma ofAskMessaging : Survives isAskMessaging :=
  ((anObject.and (sound .isNonEmptyString "app")).and (sound .isNonEmptyString "routeId")).and
    (sound .isString "text")

lemma ofPage : Survives pageOk :=
  (sound .isUndefined "page").or ((ofAskPage.field "page").and (without _))

lemma ofRequest : Survives requestOk :=
  .ite (isThere "sudo") ((ofMember.and (without _)).and (ofSudoAskRequest.field "sudo")) <|
    .ite (Stable.isUndefined.field "secret") ofMember <|
      ((without _).and (ofSecretAskRequest.field "secret")).and
        (.ite (((Stable.isText _).field "scope").field "secret") (sound .isUndefined "memberUserId")
          ofMember)

lemma ofAffordances : Survives affordancesOk :=
  ((maybe Stable.isNonEmptyString.survives.listOf "commands").and
    (maybe ofFilePayload.listOf "editFiles")).and (maybe ofAskReadFile.listOf "readFiles")

end EntryChecks

open EntryChecks

/-- **What passes the check of an entry passes it again** when it was written and read. -/
theorem survives_isAskEntry : Survives isAskEntry :=
  (((((((((((((((((anObject.and ofCoreFields).and (maybe ofAskOffice "office")).and
    ofAgent).and ofShared).and (maybe Stable.isNonEmptyString.survives "link")).and
    (maybeText "sessionId")).and (maybe ofAskApp "app")).and (maybe ofAskStep "step")).and
    (maybe Stable.isNonEmptyString.survives.listOf "options")).and ofRecommended).and
    (maybe (Stable.isOneOf _).survives "priority")).and ofAffordances).and
    (maybe ofAskCommandRun.listOf "runs")).and (maybeNumber "simplifyRequestedAt")).and
    (maybeText "originalPrompt")).and (maybe ofAskMessaging "messaging")).and ofPage).and
    ofRequest

end Isomux
