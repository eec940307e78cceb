import Isomux.Runtime.Dates
import Isomux.Runtime.JsonLines
import Isomux.Runtime.Maps

set_option autoImplicit false

/-!
# The members chat

The chat keeps every month in a file of JSON lines. A line is a post, or a change of a post, and goes
to the file of the month that the id of the post names; a month is folded from its lines when it is
read, and cached until the next line is appended to it. A page is read from the newest month backward,
and the order of messages is the order of the files and of the lines in them. The list of pinned
messages, which has an index of its own, is not part of a page here.

## Main results

* `Isomux.MembersChat.Line.read_fields` — a line survives the way through its JSON.
-/

namespace Isomux

namespace MembersChat

def MEMBERS_CHAT_MAX_CHARS : ℕ := 4000

def MEMBERS_CHAT_DEFAULT_PAGE : ℤ := 100

def MEMBERS_CHAT_MAX_PAGE : ℤ := 200

def MEMBERS_CHAT_UNREAD_CAP : ℕ := 100

/-- What a message tells of the one it answers. -/
structure MembersChatReply where
  id : JsString
  userName : JsString
  excerpt : JsString

/-- A message. Attachments and the people who liked it are the objects that came with the calls, and
times are the numbers of the lines. -/
structure MembersChatMessage where
  id : JsString
  kind : JsString
  userId : JsString
  userName : JsString
  device : Option JsString
  timestamp : Json
  content : JsString
  attachments : List Json
  editedAt : Option Json
  thumbsUp : Option (List Json)
  replyTo : Option MembersChatReply
  pinnedAt : Option Json

inductive Line where
  | post (replyTo : Option MembersChatReply) (id kind userId userName : JsString)
      (device : Option JsString) (timestamp : Json) (content : JsString) (attachments : List Json)
  | edit (id : JsString) (timestamp : Json) (content : JsString)
  | delete (id : JsString) (timestamp : Json)
  | pin (id : JsString) (timestamp : Json) (active : Bool)
  | react (id : JsString) (timestamp : Json) (reactor : Json) (active : Bool)

/-! ## Lines as JSON -/

def MembersChatReply.json (replyTo : MembersChatReply) : Json :=
  .object [(js "id", .string replyTo.id), (js "userName", .string replyTo.userName),
    (js "excerpt", .string replyTo.excerpt)]

/-- A member that is there only with a value. -/
def optionalField (name : String) (value : Option Json) : List (JsString × Json) :=
  (value.map fun v => (js name, v)).toList

/-- The members of a line, in the order in which they are written. -/
def Line.fields : Line → List (JsString × Json)
  | post replyTo id kind userId userName device timestamp content attachments =>
    (js "op", .string (js "post")) ::
      (optionalField "replyTo" (replyTo.map (·.json)) ++
        (js "id", .string id) :: (js "kind", .string kind) :: (js "userId", .string userId) ::
          (js "userName", .string userName) :: (optionalField "device" (device.map .string) ++
            [(js "timestamp", timestamp), (js "content", .string content),
              (js "attachments", .array attachments)]))
  | edit id timestamp content =>
    [(js "op", .string (js "edit")), (js "id", .string id), (js "timestamp", timestamp),
      (js "content", .string content)]
  | delete id timestamp =>
    [(js "op", .string (js "delete")), (js "id", .string id), (js "timestamp", timestamp)]
  | pin id timestamp active =>
    [(js "op", .string (js "pin")), (js "id", .string id), (js "timestamp", timestamp),
      (js "active", .bool active)]
  | react id timestamp reactor active =>
    [(js "op", .string (js "react")), (js "id", .string id), (js "timestamp", timestamp),
      (js "reactor", reactor), (js "active", .bool active)]

def MembersChatReply.read (v : Json) : Option MembersChatReply := do
  let id ← v.str "id"
  let userName ← v.str "userName"
  let excerpt ← v.str "excerpt"
  return ⟨id, userName, excerpt⟩

/-- The boolean that an object has under a name. -/
def boolField (v : Json) (name : String) : Option Bool :=
  match v.field name with
  | some (.bool b) => some b
  | _ => none

/-- The array that an object has under a name, or an empty one. -/
def listField (v : Json) (name : String) : List Json :=
  match v.field name with
  | some (.array items) => items
  | _ => []

/-- A line that is read from JSON. The store writes no other JSON into its files. -/
def Line.read (v : Json) : Option Line := do
  let op ← v.str "op"
  let id ← v.str "id"
  let timestamp ← v.field "timestamp"
  if op = js "post" then
    let userId ← v.str "userId"
    let userName ← v.str "userName"
    let content ← v.str "content"
    return .post ((v.field "replyTo").bind MembersChatReply.read) id
      ((v.str "kind").getD (js "user")) userId userName (v.str "device") timestamp content
      (listField v "attachments")
  else if op = js "edit" then
    let content ← v.str "content"
    return .edit id timestamp content
  else if op = js "delete" then
    return .delete id timestamp
  else if op = js "pin" then
    let active ← boolField v "active"
    return .pin id timestamp active
  else if op = js "react" then
    let reactor ← v.field "reactor"
    let active ← boolField v "active"
    return .react id timestamp reactor active
  else none

/-! ## Months -/

/-- A folded month: every id it ever had, in file order, and its live messages. -/
structure FoldedMonth where
  order : List JsString
  byId : JsMap JsString MembersChatMessage

def FoldedMonth.empty : FoldedMonth := ⟨[], []⟩

def messageOf (replyTo : Option MembersChatReply) (id kind userId userName : JsString)
    (device : Option JsString) (timestamp : Json) (content : JsString) (attachments : List Json) :
    MembersChatMessage :=
  ⟨id, kind, userId, userName, device.filter (· ≠ []), timestamp, content, attachments, none, none,
    replyTo, none⟩

def FoldedMonth.apply (folded : FoldedMonth) : Line → FoldedMonth
  | .post replyTo id kind userId userName device timestamp content attachments =>
    if folded.byId.has id || folded.order.contains id then folded
    else
      ⟨folded.order ++ [id], folded.byId.set id
        (messageOf replyTo id kind userId userName device timestamp content attachments)⟩
  | .edit id timestamp content =>
    match folded.byId.get id with
    | none => folded
    | some m =>
      { folded with
        byId := folded.byId.set id { m with content := content, editedAt := some timestamp } }
  | .react id _ reactor active =>
    match folded.byId.get id with
    | none => folded
    | some m =>
      let others := (m.thumbsUp.getD []).filter fun r => r.str "userId" ≠ reactor.str "userId"
      { folded with
        byId := folded.byId.set id
          { m with thumbsUp := some (if active then others ++ [reactor] else others) } }
  | .pin id timestamp active =>
    match folded.byId.get id with
    | none => folded
    | some m =>
      { folded with
        byId := folded.byId.set id { m with pinnedAt := if active then some timestamp else none } }
  | .delete id _ => { folded with byId := folded.byId.delete id }

/-- A line of the file. A line that is no JSON is skipped. -/
def foldRaw (folded : FoldedMonth) (raw : JsString) : FoldedMonth :=
  if raw.trim = [] then folded
  else
    match (Json.parse raw).bind Line.read with
    | none => folded
    | some line => folded.apply line

def foldText (text : JsString) : FoldedMonth := (text.splitOn 10).foldl foldRaw .empty

def foldLines (lines : List Line) : FoldedMonth := lines.foldl FoldedMonth.apply .empty

def monthKey (timestamp : ℤ) : JsString :=
  -- beyond this `Date` is invalid
  if 8640000000000000 < timestamp.natAbs then js "NaN-NaN"
  else intText (getUTCFullYear timestamp) ++ 45 :: zeroPadded 2 (getUTCMonth timestamp + 1)

/-- `MONTH_FILE`, without the suffix. -/
def isMonth (month : JsString) : Bool :=
  month.length = 7 && (month.take 4).all isJsonDigit && month.getD 4 0 = 45 &&
    (month.drop 5).all isJsonDigit

/-- `ID_SHAPE`. -/
def isChatId (id : JsString) : Bool :=
  id.length = 15 && (id.take 6).all isJsonDigit && id.getD 6 0 = 45 &&
    (id.drop 7).all fun c => isJsonDigit c || (97 ≤ c && c ≤ 102)

def monthOfId (id : JsString) : Option JsString :=
  if isChatId id then some (id.take 4 ++ 45 :: (id.drop 4).take 2) else none

/-- `randomHex8`, of the four bytes that are drawn. -/
def randomHex8 (bytes : UInt8 × UInt8 × UInt8 × UInt8) : JsString :=
  [bytes.1, bytes.2.1, bytes.2.2.1, bytes.2.2.2].flatMap fun b =>
    [lowerHexDigit (b.toNat / 16), lowerHexDigit (b.toNat % 16)]

/-- The id of a post: its month without the first hyphen, and the digits. -/
def chatId (month hex : JsString) : JsString := month.erase 45 ++ 45 :: hex

/-! ## Calls -/

inductive MembersChatErrorCode where
  | empty
  | tooLong
  | replyNotFound
  deriving DecidableEq

structure PostInput where
  replyTo : Option JsString
  kind : Option JsString
  userId : JsString
  userName : JsString
  device : Option JsString
  content : JsString
  attachments : Option (List Json)

structure MembersChatPage where
  messages : List MembersChatMessage
  hasMore : Bool

def validateContent (content : JsString) (attachments : List Json) : Option MembersChatErrorCode :=
  if MEMBERS_CHAT_MAX_CHARS < content.length then some .tooLong
  else if content.trim = [] && attachments.isEmpty then some .empty
  else none

def firstCodePoints : ℕ → JsString → JsString
  | 0, _ => []
  | _, [] => []
  | _, [c] => [c]
  | n + 1, c :: d :: rest =>
    if isHighSurrogate c && isLowSurrogate d then c :: d :: firstCodePoints n rest
    else c :: firstCodePoints n (d :: rest)

def membersChatExcerpt (content : JsString) (attachments : List Json) : JsString :=
  let names := attachments.map fun a => (a.str "originalName").getD []
  let text := if content.trim ≠ [] then content else (js ", ").intercalate names
  firstCodePoints 200 text

end MembersChat

open MembersChat

/-- A store: the files by their months, the read pointers, and the cache. The lines whose append was
completed are kept in order, with their months. -/
structure ChatStore where
  files : JsMap JsString Buffer
  reads : JsMap JsString JsString
  cache : JsMap JsString FoldedMonth
  appended : List (JsString × Line)

namespace ChatStore

def empty : ChatStore := ⟨[], [], [], []⟩

variable (s : ChatStore)

def bytes (month : JsString) : Buffer := (s.files.get month).getD []

def text (month : JsString) : JsString := (s.bytes month).toUtf8String

/-- `listMonths`, in ascending order. -/
def listMonths : List JsString :=
  ((s.files.map Prod.fst).filter isMonth).mergeSort fun a b => a ≤ b

/-- `fold`, through the cache. -/
def fold (month : JsString) : FoldedMonth × ChatStore :=
  match s.cache.get month with
  | some cached => (cached, s)
  | none =>
    let folded := foldText (s.text month)
    (folded, { s with cache := s.cache.set month folded })

/-- `append`, up to the index of pins. -/
def append (month : JsString) (line : Line) : ChatStore :=
  { s with
    files := s.files.set month (s.bytes month ++ lineBytes line.fields)
    cache := s.cache.delete month
    appended := s.appended ++ [(month, line)] }

def get (s : ChatStore) (id : JsString) : Option MembersChatMessage × ChatStore :=
  match monthOfId id with
  | none => (none, s)
  | some month =>
    let folded := s.fold month
    (folded.1.byId.get id, folded.2)

/-- `positionOf`: the month and the place of a post, live or deleted. -/
def positionOf (id : JsString) : Option (JsString × ℕ) × ChatStore :=
  match monthOfId id with
  | none => (none, s)
  | some month =>
    let folded := s.fold month
    ((folded.1.order.idxOf? id).map fun index => (month, index), folded.2)

/-- `post`, with the time and the last draw of the id. There is none when the id is taken and is drawn
again. It returns no message when the post cannot be read back. -/
def post (s : ChatStore) (input : PostInput) (now : ℤ) (draw : UInt8 × UInt8 × UInt8 × UInt8) :
    Option (Except MembersChatErrorCode (Option MembersChatMessage) × ChatStore) :=
  let attachments := input.attachments.getD []
  match validateContent input.content attachments with
  | some code => some (.error code, s)
  | none =>
    let target := match input.replyTo with
      | none => (none, s)
      | some id => s.get id
    if input.replyTo.isSome && target.1.isNone then some (.error .replyNotFound, target.2)
    else
      let replyTo := target.1.map fun m =>
        ⟨m.id, m.userName, membersChatExcerpt m.content m.attachments⟩
      let month := monthKey now
      let folded := target.2.fold month
      let id := chatId month (randomHex8 draw)
      if folded.1.order.contains id then none
      else
        let line := Line.post replyTo id (input.kind.getD (js "user")) input.userId input.userName
          (input.device.filter (· ≠ [])) (.ofInt now) input.content attachments
        let posted := (folded.2.append month line).get id
        some (.ok posted.1, posted.2)

/-- A call that appends a line about a message that is there, unless the call is settled otherwise. -/
def change (id : JsString) (line : MembersChatMessage → Except MembersChatErrorCode (Option Line)) :
    Except MembersChatErrorCode (Option MembersChatMessage) × ChatStore :=
  let existing := s.get id
  match existing.1, monthOfId id with
  | some m, some month =>
    match line m with
    | .error code => (.error code, existing.2)
    | .ok none => (.ok (some m), existing.2)
    | .ok (some line) =>
      let changed := (existing.2.append month line).get id
      (.ok changed.1, changed.2)
  | _, _ => (.ok none, existing.2)

def edit (s : ChatStore) (id content : JsString) (now : ℤ) :
    Except MembersChatErrorCode (Option MembersChatMessage) × ChatStore :=
  s.change id fun existing =>
    match validateContent content existing.attachments with
    | some code => .error code
    | none => .ok (some (.edit id (.ofInt now) content))

def setThumbsUp (id : JsString) (reactor : Json) (active : Bool) (now : ℤ) :
    Except MembersChatErrorCode (Option MembersChatMessage) × ChatStore :=
  s.change id fun existing =>
    if ((existing.thumbsUp.getD []).any fun r => r.str "userId" = reactor.str "userId") = active then
      .ok none
    else .ok (some (.react id (.ofInt now) reactor active))

def setPinned (id : JsString) (active : Bool) (now : ℤ) :
    Except MembersChatErrorCode (Option MembersChatMessage) × ChatStore :=
  s.change id fun existing =>
    if existing.pinnedAt.isSome = active then .ok none
    else .ok (some (.pin id (.ofInt now) active))

/-- `del`. It returns the message as it was. -/
def del (id : JsString) (now : ℤ) : Option MembersChatMessage × ChatStore :=
  let existing := s.get id
  match existing.1, monthOfId id with
  | some m, some month => (some m, existing.2.append month (.delete id (.ofInt now)))
  | _, _ => (none, existing.2)

/-- The ids of a month, newest first: its live messages join the page until it is full. -/
def walkIds (folded : FoldedMonth) (limit : ℕ) :
    List JsString → List MembersChatMessage → List MembersChatMessage × Bool
  | [], newestFirst => (newestFirst, false)
  | id :: ids, newestFirst =>
    match folded.byId.get id with
    | none => walkIds folded limit ids newestFirst
    | some m =>
      if newestFirst.length = limit then (newestFirst, true)
      else walkIds folded limit ids (newestFirst ++ [m])

/-- The ids of a month that a page comes to: in the month of the cursor, those before it. -/
def idsBefore (cursor : Option (JsString × ℕ)) (month : JsString) (order : List JsString) :
    List JsString :=
  match cursor with
  | some c => if month = c.1 then order.take c.2 else order
  | none => order

/-- The months of a page, newest first, from the cursor on. -/
def walkMonths (cursor : Option (JsString × ℕ)) (limit : ℕ) :
    ChatStore → List JsString → List MembersChatMessage →
      (List MembersChatMessage × Bool) × ChatStore
  | s, [], newestFirst => ((newestFirst, false), s)
  | s, month :: months, newestFirst =>
    if cursor.any fun c => c.1 < month then walkMonths cursor limit s months newestFirst
    else
      let folded := s.fold month
      let ids := idsBefore cursor month folded.1.order
      let walked := walkIds folded.1 limit ids.reverse newestFirst
      if walked.2 then (walked, folded.2)
      else walkMonths cursor limit folded.2 months walked.1

def page (before : Option JsString) (limit : Option ℤ) : MembersChatPage × ChatStore :=
  let limit := (max 1 (min MEMBERS_CHAT_MAX_PAGE (limit.getD MEMBERS_CHAT_DEFAULT_PAGE))).toNat
  let cursor := match before with
    | none => (none, s)
    | some id => s.positionOf id
  let walked := walkMonths cursor.1 limit cursor.2 cursor.2.listMonths.reverse []
  (⟨walked.1.1.reverse, walked.1.2⟩, walked.2)

def getReadPointer (userId : JsString) : Option JsString := s.reads.get userId

def isNewer (a b : JsString × ℕ) : Bool := b.1 < a.1 || (a.1 = b.1 && b.2 < a.2)

def setReadPointer (userId lastReadId : JsString) : Option JsString × ChatStore :=
  let next := s.positionOf lastReadId
  match next.1 with
  | none => (s.getReadPointer userId, next.2)
  | some position =>
    let current := match next.2.reads.get userId with
      | none => (none, next.2)
      | some id => next.2.positionOf id
    if current.1.any fun c => !isNewer position c then (current.2.reads.get userId, current.2)
    else (some lastReadId, { current.2 with reads := current.2.reads.set userId lastReadId })

/-- The ids of a month from the pointer on: its live messages count, up to the cap. -/
def countIds (folded : FoldedMonth) : List JsString → ℕ → ℕ
  | [], count => count
  | id :: ids, count =>
    if folded.byId.has id then
      if MEMBERS_CHAT_UNREAD_CAP ≤ count + 1 then MEMBERS_CHAT_UNREAD_CAP
      else countIds folded ids (count + 1)
    else countIds folded ids count

/-- The ids of a month that count: in the month of the pointer, those behind it. -/
def idsAfter (position : Option (JsString × ℕ)) (month : JsString) (order : List JsString) :
    List JsString :=
  match position with
  | some p => if month = p.1 then order.drop (p.2 + 1) else order
  | none => order

def countMonths (position : Option (JsString × ℕ)) :
    ChatStore → List JsString → ℕ → ℕ × ChatStore
  | s, [], count => (count, s)
  | s, month :: months, count =>
    if position.any fun p => month < p.1 then countMonths position s months count
    else
      let folded := s.fold month
      let count := countIds folded.1 (idsAfter position month folded.1.order) count
      if MEMBERS_CHAT_UNREAD_CAP ≤ count then (count, folded.2)
      else countMonths position folded.2 months count

def countAfter (pointer : Option JsString) (months : List JsString) : ℕ × ChatStore :=
  let position := match pointer with
    | none => (none, s)
    | some id => s.positionOf id
  countMonths position.1 position.2 months 0

def unreadCount (userId : JsString) : ℕ × ChatStore :=
  s.countAfter (s.getReadPointer userId) s.listMonths

end ChatStore

/-! ## What happens to a store -/

/-- What happens to a store: a call, or the crash of an append to a month, of whose line only some bytes
were written. -/
inductive ChatEvent where
  | post (input : PostInput) (now : ℤ) (draw : UInt8 × UInt8 × UInt8 × UInt8)
  | edit (id content : JsString) (now : ℤ)
  | thumbsUp (id : JsString) (reactor : Json) (active : Bool) (now : ℤ)
  | pin (id : JsString) (active : Bool) (now : ℤ)
  | delete (id : JsString) (now : ℤ)
  | get (id : JsString)
  | page (before : Option JsString) (limit : Option ℤ)
  | read (userId lastReadId : JsString)
  | unread (userId : JsString)
  | crash (month : JsString) (line : Line) (written : Fin (lineBytes line.fields).length)

/-- What an event does. A crash loses the cache. -/
def ChatStore.step (s : ChatStore) : ChatEvent → ChatStore
  | .post input now draw => ((s.post input now draw).map Prod.snd).getD s
  | .edit id content now => (s.edit id content now).2
  | .thumbsUp id reactor active now => (s.setThumbsUp id reactor active now).2
  | .pin id active now => (s.setPinned id active now).2
  | .delete id now => (s.del id now).2
  | .get id => (s.get id).2
  | .page before limit => (s.page before limit).2
  | .read userId lastReadId => (s.setReadPointer userId lastReadId).2
  | .unread userId => (s.unreadCount userId).2
  | .crash month line written =>
    { s with
      files := s.files.set month (s.bytes month ++ (lineBytes line.fields).take written)
      cache := [] }

namespace MembersChat

/-- **A line survives the way through its JSON.** -/
theorem Line.read_fields (line : Line) : Line.read (.object line.fields) = some line := by
  cases line with
  | post replyTo id kind userId userName device timestamp content attachments =>
    cases replyTo <;> cases device <;>
      simp +decide [Line.read, Line.fields, Json.str, Json.field_cons, Json.field_nil, optionalField,
        listField, MembersChatReply.read, MembersChatReply.json]
  | _ => simp +decide [Line.read, Line.fields, Json.str, Json.field_cons, Json.field_nil, boolField]

/-- The post or the message a line is about. -/
def Line.id : Line → JsString
  | post _ id _ _ _ _ _ _ _ => id
  | edit id _ _ => id
  | delete id _ => id
  | pin id _ _ => id
  | react id _ _ _ => id

def Line.posted : Line → Option JsString
  | post _ id _ _ _ _ _ _ _ => some id
  | _ => none

end MembersChat

namespace ChatStore

def folded (s : ChatStore) (month : JsString) : FoldedMonth := foldText (s.text month)

def message (s : ChatStore) (id : JsString) : Option MembersChatMessage :=
  (monthOfId id).bind fun month => (s.folded month).byId.get id

def place (s : ChatStore) (id : JsString) : Option (JsString × ℕ) :=
  (monthOfId id).bind fun month =>
    ((s.folded month).order.idxOf? id).map fun index => (month, index)

def Coherent (s : ChatStore) : Prop :=
  ∀ month cached, s.cache.get month = some cached → cached = s.folded month

structure Looks (s s' : ChatStore) : Prop where
  files : s'.files = s.files
  appended : s'.appended = s.appended
  coherent : s.Coherent → s'.Coherent

structure Appends (s : ChatStore) (month : JsString) (line : Line) (s' : ChatStore) : Prop where
  files : s'.files = s.files.set month (s.bytes month ++ lineBytes line.fields)
  appended : s'.appended = s.appended ++ [(month, line)]
  coherent : s.Coherent → s'.Coherent

section Calls

variable {s s' s'' : ChatStore} {month : JsString} {line : Line} {id : JsString}

lemma Looks.refl (s : ChatStore) : s.Looks s := ⟨rfl, rfl, id⟩

lemma Looks.trans (h : s.Looks s') (h' : s'.Looks s'') : s.Looks s'' :=
  ⟨h'.files.trans h.files, h'.appended.trans h.appended, h'.coherent ∘ h.coherent⟩

lemma Looks.folded (h : s.Looks s') (month : JsString) : s'.folded month = s.folded month := by
  rw [ChatStore.folded, ChatStore.folded, text, text, bytes, bytes, h.files]

lemma Looks.appends (h : s.Looks s') (h' : s'.Appends month line s'') : s.Appends month line s'' := by
  refine ⟨?_, by rw [h'.appended, h.appended], h'.coherent ∘ h.coherent⟩
  rw [h'.files, bytes, h.files]
  rfl

lemma Appends.looks (h : s.Appends month line s') (h' : s'.Looks s'') : s.Appends month line s'' :=
  ⟨h'.files.trans h.files, h'.appended.trans h.appended, h'.coherent ∘ h.coherent⟩

lemma Appends.bytes (h : s.Appends month line s') (m : JsString) :
    s'.bytes m = if m = month then s.bytes month ++ lineBytes line.fields else s.bytes m := by
  rw [ChatStore.bytes, h.files, JsMap.get_set]
  split_ifs <;> rfl

lemma appends_append (s : ChatStore) (month : JsString) (line : Line) :
    s.Appends month line (s.append month line) := by
  refine ⟨rfl, rfl, fun h m cached hcached => ?_⟩
  rw [append, JsMap.get_delete] at hcached
  split_ifs at hcached with hm
  have hbytes : (s.append month line).bytes m = s.bytes m := by
    rw [ChatStore.bytes, append, JsMap.get_set, if_neg hm]
    rfl
  rw [h m cached hcached, ChatStore.folded, ChatStore.folded, text, text, hbytes]

lemma fold_fst (h : s.Coherent) (month : JsString) : (s.fold month).1 = s.folded month := by
  unfold fold
  cases hcached : s.cache.get month with
  | none => rfl
  | some cached => exact h month cached hcached

lemma looks_fold (s : ChatStore) (month : JsString) : s.Looks (s.fold month).2 := by
  unfold fold
  cases hcached : s.cache.get month with
  | some cached => exact Looks.refl s
  | none =>
    refine ⟨rfl, rfl, fun h m cached hm => ?_⟩
    dsimp only at hm
    rw [JsMap.get_set] at hm
    split_ifs at hm with heq
    · rw [heq]
      exact (Option.some.inj hm).symm
    · exact h m cached hm

lemma looks_get (s : ChatStore) (id : JsString) : s.Looks (s.get id).2 := by
  unfold get
  cases monthOfId id with
  | none => exact Looks.refl s
  | some month => exact looks_fold s month

lemma get_fst (h : s.Coherent) (id : JsString) : (s.get id).1 = s.message id := by
  unfold get message
  cases monthOfId id with
  | none => rfl
  | some month => exact congrArg (fun f => FoldedMonth.byId f |>.get id) (fold_fst h month)

lemma looks_positionOf (s : ChatStore) (id : JsString) : s.Looks (s.positionOf id).2 := by
  unfold positionOf
  cases monthOfId id with
  | none => exact Looks.refl s
  | some month => exact looks_fold s month

lemma positionOf_fst (h : s.Coherent) (id : JsString) : (s.positionOf id).1 = s.place id := by
  unfold positionOf place
  cases monthOfId id with
  | none => rfl
  | some month =>
    exact congrArg (fun f => (FoldedMonth.order f |>.idxOf? id).map fun index => (month, index))
      (fold_fst h month)

lemma looks_walkMonths (cursor : Option (JsString × ℕ)) (limit : ℕ) (months : List JsString)
    (newestFirst : List MembersChatMessage) (s : ChatStore) :
    s.Looks (walkMonths cursor limit s months newestFirst).2 := by
  induction months generalizing s newestFirst with
  | nil => exact Looks.refl s
  | cons month months ih =>
    rw [walkMonths]
    split_ifs
    · exact ih newestFirst s
    · dsimp only
      split_ifs
      · exact looks_fold s month
      · exact (looks_fold s month).trans (ih _ _)

lemma looks_page (s : ChatStore) (before : Option JsString) (limit : Option ℤ) :
    s.Looks (s.page before limit).2 := by
  unfold page
  cases before with
  | none => exact looks_walkMonths _ _ _ _ _
  | some id => exact (looks_positionOf s id).trans (looks_walkMonths _ _ _ _ _)

lemma looks_countMonths (position : Option (JsString × ℕ)) (months : List JsString) (count : ℕ)
    (s : ChatStore) : s.Looks (countMonths position s months count).2 := by
  induction months generalizing s count with
  | nil => exact Looks.refl s
  | cons month months ih =>
    rw [countMonths]
    split_ifs
    · exact ih count s
    · dsimp only
      split_ifs
      · exact looks_fold s month
      · exact (looks_fold s month).trans (ih _ _)

lemma looks_unreadCount (s : ChatStore) (userId : JsString) : s.Looks (s.unreadCount userId).2 := by
  unfold unreadCount countAfter
  cases s.getReadPointer userId with
  | none => exact looks_countMonths _ _ _ _
  | some id => exact (looks_positionOf s id).trans (looks_countMonths _ _ _ _)

lemma looks_setReadPointer (s : ChatStore) (userId lastReadId : JsString) :
    s.Looks (s.setReadPointer userId lastReadId).2 := by
  have hnext := looks_positionOf s lastReadId
  unfold setReadPointer
  dsimp only
  split
  · exact hnext
  · have hcurrent : s.Looks (match (s.positionOf lastReadId).2.reads.get userId with
        | none => (none, (s.positionOf lastReadId).2)
        | some id => (s.positionOf lastReadId).2.positionOf id).2 := by
      split
      · exact hnext
      · exact hnext.trans (looks_positionOf _ _)
    split_ifs
    · exact hcurrent
    · exact { hcurrent with }

/-- What a store appends: a post with an id that its month did not have, or a change, in the month of
the message it is about. -/
def Fits (s : ChatStore) (month : JsString) (line : Line) : Prop :=
  (∃ now draw, month = monthKey now ∧ line.posted = some (chatId month (randomHex8 draw)) ∧
    chatId month (randomHex8 draw) ∉ (s.folded month).order) ∨
  (line.posted = none ∧ monthOfId line.id = some month)

lemma change_cases (s : ChatStore) (id : JsString)
    {lineOf : MembersChatMessage → Except MembersChatErrorCode (Option Line)}
    (hline : ∀ m line, lineOf m = .ok (some line) → line.posted = none ∧ line.id = id) :
    s.Looks (s.change id lineOf).2 ∨
      ∃ month line, s.Fits month line ∧ s.Appends month line (s.change id lineOf).2 := by
  have hget := looks_get s id
  unfold change
  dsimp only
  split
  · rename_i m month _ hmonth
    split
    · exact Or.inl hget
    · exact Or.inl hget
    · rename_i line hm
      obtain ⟨hposted, hid⟩ := hline _ line hm
      exact Or.inr ⟨month, line, Or.inr ⟨hposted, hid ▸ hmonth⟩,
        (hget.appends (appends_append _ month line)).looks (looks_get _ id)⟩
  · exact Or.inl hget

lemma post_cases (h : s.Coherent) {input : PostInput} {now : ℤ} {draw : UInt8 × UInt8 × UInt8 × UInt8}
    {result : Except MembersChatErrorCode (Option MembersChatMessage) × ChatStore}
    (hresult : s.post input now draw = some result) :
    s.Looks result.2 ∨ ∃ month line, s.Fits month line ∧ s.Appends month line result.2 := by
  have htarget : s.Looks (match input.replyTo with
      | none => (none, s)
      | some id => s.get id).2 := by
    split
    · exact Looks.refl s
    · exact looks_get s _
  unfold post at hresult
  dsimp only at hresult
  split at hresult
  · exact Or.inl (Option.some.inj hresult ▸ Looks.refl s)
  · split_ifs at hresult with hreply hfresh
    · exact Or.inl (Option.some.inj hresult ▸ htarget)
    · -- the id is not one of the month's
      rw [fold_fst (htarget.coherent h), htarget.folded, List.contains_iff_mem] at hfresh
      have hfold := htarget.trans (looks_fold _ (monthKey now))
      rw [← Option.some.inj hresult]
      refine Or.inr ⟨monthKey now, _, ?_,
        (hfold.appends (appends_append _ _ _)).looks (looks_get _ _)⟩
      exact Or.inl ⟨now, draw, rfl, rfl, hfresh⟩

lemma del_cases (s : ChatStore) (id : JsString) (now : ℤ) :
    s.Looks (s.del id now).2 ∨
      ∃ month line, s.Fits month line ∧ s.Appends month line (s.del id now).2 := by
  have hget := looks_get s id
  unfold del
  dsimp only
  split
  · rename_i m month _ hmonth
    exact Or.inr ⟨month, .delete id (.ofInt now), Or.inr ⟨rfl, hmonth⟩,
      hget.appends (appends_append _ _ _)⟩
  · exact Or.inl hget

/-- **A call looks, or appends one line.** -/
theorem step_cases (h : s.Coherent) (event : ChatEvent) :
    s.Looks (s.step event) ∨
      (∃ month line, s.Fits month line ∧ s.Appends month line (s.step event)) ∨
      ∃ month line written, event = .crash month line written := by
  cases event with
  | post input now draw =>
    have hstep : s.step (.post input now draw) = ((s.post input now draw).map Prod.snd).getD s := rfl
    rw [hstep]
    cases hpost : s.post input now draw with
    | none => exact Or.inl (Looks.refl s)
    | some result => exact (post_cases h hpost).imp_right Or.inl
  | edit id content now =>
    refine (change_cases s id fun m line hline => ?_).imp_right Or.inl
    split at hline
    · cases hline
    · cases hline
      exact ⟨rfl, rfl⟩
  | thumbsUp id reactor active now | pin id active now =>
    refine (change_cases s id fun m line hline => ?_).imp_right Or.inl
    split_ifs at hline
    · cases hline
    · cases hline
      exact ⟨rfl, rfl⟩
  | delete id now => exact (del_cases s id now).imp_right Or.inl
  | get id => exact Or.inl (looks_get s id)
  | page before limit => exact Or.inl (looks_page s before limit)
  | read userId lastReadId => exact Or.inl (looks_setReadPointer s userId lastReadId)
  | unread userId => exact Or.inl (looks_unreadCount s userId)
  | crash month line written => exact Or.inr (Or.inr ⟨month, line, written, rfl⟩)

end Calls

end ChatStore

end Isomux
