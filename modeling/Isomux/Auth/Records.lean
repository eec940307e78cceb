import Mathlib.Data.Int.Notation
import Isomux.Foundations.KeyedTable
import Isomux.Identity.PackFit
import Isomux.Runtime.Text

set_option autoImplicit false

/-!
# The members, the links and the sessions (`src/server/users.ts`, `src/server/auth.ts`)

Three tables in memory and the three files behind them. Each change is made in memory, written to
its file, and undone in memory when the write throws. A write that the end of the process cuts
through either reached the file or did not.

The tables are keyed by the id of a member and by the hashes of the tokens, as the files are. Room
lists of the view and the looks of a member are left out, as are the sockets of a session and the
hooks that tell the browsers: nothing comes back from them.

## Main definitions

* `Isomux.Auth.UserRecord`, `Isomux.Auth.StoredInvite`, `Isomux.Auth.StoredSession` — the rows.
* `Isomux.Auth.AuthState`, `Isomux.Auth.AuthM` — the tables and files, and the programs over them.
* `Isomux.Auth.persistUsers`, `Isomux.Auth.persistInvites`, `Isomux.Auth.persistSessions` — the
  writes.
* `Isomux.Auth.deleteUserById`, `Isomux.Auth.updateUserById` — the changes of a member.
-/

namespace Isomux.Auth

/-! ## Rows -/

structure UserRecord where
  id : JsString
  name : JsString
  role : UserRole
  allowedRooms : List JsString
  notifRooms : List JsString
  memberPrompt : Option JsString
  language : Option JsString
  pendingSignIn : Bool
  pack : Option MemberPack

structure StoredInvite where
  tokenHash : JsString
  tokenPrefix : JsString
  userId : Option JsString
  username : Option JsString
  newUser : Bool
  language : Option JsString
  memberPrompt : Option JsString
  role : UserRole
  createdBy : Option JsString
  createdAt : ℤ
  expiresAt : ℤ
  consumed : Bool
  consumedAt : Option ℤ
  bootstrap : Bool
  allowedRooms : List JsString

structure StoredSession where
  sessionIdHash : JsString
  sessionPrefix : JsString
  userId : JsString
  createdAt : ℤ
  lastSeenAt : ℤ
  expiresAt : ℤ
  absoluteExpiresAt : ℤ
  userAgent : Option JsString
  device : Option JsString

/-! ## State -/

structure AuthTables where
  users : KeyedTable UserRecord.id
  invites : KeyedTable StoredInvite.tokenHash
  sessions : KeyedTable StoredSession.sessionIdHash

inductive SaveOutcome where
  | saved
  | failed
  | crashedBefore
  /-- The process ends when the file has changed. -/
  | crashedAfter
  deriving DecidableEq

inductive AuthError where
  | notSaved
  | crashed
  deriving DecidableEq

/-- Memory and files, and what the next writes come to. -/
structure AuthState extends AuthTables where
  files : AuthTables
  lastPersist : ℤ
  saves : List SaveOutcome

abbrev AuthM := EStateM AuthError AuthState

/-- `atomicWriteFileSync`, of what changes the file. -/
def atomicWriteFileSync (write : AuthTables → AuthTables) : AuthM Unit := do
  let s ← get
  let written := fun s : AuthState => { s with files := write s.files }
  match s.saves with
  | [] => modify written
  | outcome :: saves =>
    set { s with saves }
    match outcome with
    | .saved => modify written
    | .failed => throw .notSaved
    | .crashedBefore => throw .crashed
    | .crashedAfter =>
      modify written
      throw .crashed

/-- `persist()` of `users.ts`. -/
def persistUsers : AuthM Unit := do
  let s ← get
  atomicWriteFileSync fun files => { files with users := s.users }

/-- `persistInvites()`. -/
def persistInvites : AuthM Unit := do
  let s ← get
  atomicWriteFileSync fun files => { files with invites := s.invites }

/-- `persistSessions()`. -/
def persistSessions : AuthM Unit := do
  let s ← get
  atomicWriteFileSync fun files => { files with sessions := s.sessions }

/-- `try { save } catch (err) { rollback; throw err }`. -/
def orRollback (save rollback : AuthM Unit) : AuthM Unit :=
  tryCatch save fun
    | .notSaved => do
      rollback
      throw .notSaved
    | .crashed => throw .crashed

/-- `try { save } catch (err) { console.error(err) }`. -/
def orLog (save : AuthM Unit) : AuthM Unit :=
  tryCatch save fun
    | .notSaved => pure ()
    | .crashed => throw .crashed

/-! ## Members -/

/-- What the members' routes use from outside. -/
structure MemberRuntime where
  toLowerCase : JsString → JsString
  isRemovedMemberName : JsString → Bool
  versionOf : JsString → JsString
  clampNotifRooms : UserRecord → UserRole → List JsString

variable (rt : MemberRuntime)

/-- `lowercaseKey(name)`. -/
def lowercaseKey (name : JsString) : JsString := rt.toLowerCase name.trim

variable (s : AuthTables)

/-- `getUserById(id)`. -/
def AuthTables.getUserById (id : JsString) : Option UserRecord :=
  if id = [] then none else s.users.find id

/-- `getUserByName(name)`. -/
def AuthTables.getUserByName (name : JsString) : Option UserRecord :=
  if name = [] then none
  else s.users.rows.find? fun u => lowercaseKey rt u.name = lowercaseKey rt name

/-- `hasOwner()`. -/
def AuthTables.hasOwner : Bool := s.users.rows.any fun u => u.role = .owner

/-- `wouldDeleteLeaveNoOwner(userId)`. -/
def AuthTables.wouldDeleteLeaveNoOwner (userId : JsString) : Bool :=
  match s.users.find userId with
  | none => false
  | some target =>
    target.role = .owner && !s.users.rows.any fun u => u.id ≠ userId && u.role = .owner

/-- The table of the members changes in memory. -/
def modifyUsers (f : KeyedTable UserRecord.id → KeyedTable UserRecord.id) : AuthM Unit :=
  modify fun s => { s with users := f s.users }

/-- `deleteUserById(id)`. -/
def deleteUserById (id : JsString) : AuthM Bool := do
  let s ← get
  match s.users.find id with
  | none => pure false
  | some existing =>
    modifyUsers (·.erase id)
    orRollback persistUsers (modifyUsers (·.put existing))
    pure true

/-- `normalizeMemberPrompt(value)`. -/
def normalizeMemberPrompt (value : Option JsString) : Option JsString :=
  (value.map JsString.trim).filter (· ≠ [])

structure UserChanges where
  name : Option JsString
  role : Option UserRole
  notifRooms : Option (List JsString)
  allowedRooms : Option (List JsString)
  memberPrompt : Option (Option JsString)

inductive NameRefusal where
  | empty
  | exists_ (name : JsString)
  | removed (name : JsString)

def NameRefusal.error : NameRefusal → JsString
  | .empty => js "Name cannot be empty"
  | .exists_ name => js "User \"" ++ name ++ js "\" already exists"
  | .removed name =>
    js "User \"" ++ name ++
      js "\" already exists in Removed members. Restore or delete them first."

/-- The next name of a member, or why it is refused. -/
def nextName (existing : UserRecord) : Option JsString → Except NameRefusal JsString
  | none => .ok existing.name
  | some name =>
    let trimmed := name.trim
    if trimmed = [] then .error .empty
    else if s.users.rows.any fun u =>
        u.id ≠ existing.id && lowercaseKey rt u.name = lowercaseKey rt trimmed then
      .error (.exists_ trimmed)
    else if rt.isRemovedMemberName trimmed then .error (.removed trimmed)
    else .ok trimmed

/-- The record behind the changes. A pack is only for a member. -/
def nextRecord (existing : UserRecord) (name : JsString) (changes : UserChanges) : UserRecord :=
  let role := changes.role.getD existing.role
  { existing with
    name, role
    notifRooms := changes.notifRooms.getD existing.notifRooms
    allowedRooms := changes.allowedRooms.getD existing.allowedRooms
    memberPrompt := (changes.memberPrompt.map normalizeMemberPrompt).getD existing.memberPrompt
    pack := if role = .member then existing.pack else none }

/-- Why `updateUserById` refuses. -/
inductive UpdateRefusal where
  | notFound (id : JsString)
  | name (refusal : NameRefusal)

def UpdateRefusal.error : UpdateRefusal → JsString
  | .notFound id => js "User id=" ++ id ++ js " not found"
  | .name refusal => refusal.error

/-- `updateUserById(id, changes)`. -/
def updateUserById (id : JsString) (changes : UserChanges) :
    AuthM (Except UpdateRefusal UserRecord) := do
  let s ← get
  match s.users.find id with
  | none => pure (.error (.notFound id))
  | some existing =>
    match nextName rt s.toAuthTables existing changes.name with
    | .error refusal => pure (.error (.name refusal))
    | .ok name =>
      let next := nextRecord existing name changes
      modifyUsers (·.put next)
      orRollback persistUsers (modifyUsers (·.put existing))
      pure (.ok next)

end Isomux.Auth
