import Isomux.Auth.Records

set_option autoImplicit false

/-!
# Sessions and the owners' role (`src/server/auth.ts`, `src/server/office-users-routes.ts`)

The calls that take a session or the owners' role away, with the two checks against an office that
no owner can reach, and the validation of a session. Each body runs under the mutex or without an
await, so that a body is one step.

## Main definitions

* `Isomux.Auth.wouldRevokeLeaveOfficeUnreachable`,
  `Isomux.Auth.wouldRemovingOwnerStrandOffice` — the checks.
* `Isomux.Auth.revokeSessionByPrefix`, `Isomux.Auth.logoutBySessionHash`,
  `Isomux.Auth.revokeActiveSessionByPrefixForUserId`, `Isomux.Auth.evictSessionsForUserId` — the
  ends of sessions.
* `Isomux.Auth.validateByHash` — the validation.
* `Isomux.Auth.removeOwnerUnlessStranding`, `Isomux.Auth.deleteMember`, `Isomux.Auth.demoteMember` —
  the ends of the role.
-/

namespace Isomux.Auth

/-! ## Live sessions -/

variable (now : ℤ)

/-- `v.expiresAt < now || v.absoluteExpiresAt < now`. -/
def StoredSession.expired (v : StoredSession) : Bool :=
  v.expiresAt < now || v.absoluteExpiresAt < now

inductive SessionLiveness where
  | live (session : StoredSession) (user : UserRecord)
  /-- It may not; when it is stale, its row is to go. -/
  | dead (stale : Bool)

variable (s : AuthTables)

/-- `sessionLiveness(hash, now)`. A row is under its own hash. -/
def AuthTables.sessionLiveness (hash : JsString) (now : ℤ) : SessionLiveness :=
  match s.sessions.find hash with
  | none => .dead false
  | some session =>
    if session.expired now then .dead true
    else
      match s.getUserById session.userId with
      | none => .dead true
      | some user => .live session user

/-- `getUserById(v.userId)?.role === "owner"`. -/
def AuthTables.ownerBearing (v : StoredSession) : Bool :=
  match s.getUserById v.userId with
  | none => false
  | some user => user.role = .owner

/-- `wouldRevokeLeaveOfficeUnreachable(sessionIdHash)`. -/
def AuthTables.wouldRevokeLeaveOfficeUnreachable (now : ℤ) (sessionIdHash : JsString) : Bool :=
  match s.sessions.find sessionIdHash with
  | none => false
  | some target =>
    s.ownerBearing target && !s.sessions.rows.any fun v =>
      v.sessionIdHash ≠ sessionIdHash && !v.expired now && s.ownerBearing v

/-- `wouldRemovingOwnerStrandOffice(userId)`. -/
def AuthTables.wouldRemovingOwnerStrandOffice (now : ℤ) (userId : JsString) : Bool :=
  match s.getUserById userId with
  | none => false
  | some user =>
    user.role = .owner &&
      (!s.sessions.rows.any fun v => !v.expired now && v.userId ≠ userId && s.ownerBearing v) &&
      s.sessions.rows.any fun v => !v.expired now && v.userId = userId

/-! ## The ends of sessions -/

/-- `ScopedSessionRevokeResult`, and `LogoutResult`. -/
inductive RevokeResult where
  | ok
  | notFound
  | ambiguous
  | wouldStrandOffice
  deriving DecidableEq

/-- The table of the sessions changes in memory. -/
def modifySessions
    (f : KeyedTable StoredSession.sessionIdHash → KeyedTable StoredSession.sessionIdHash) :
    AuthM Unit :=
  modify fun s => { s with sessions := f s.sessions }

/-- A session goes, in memory and in the file. -/
def dropSession (row : StoredSession) : AuthM Unit := do
  modifySessions (·.erase row.sessionIdHash)
  orRollback persistSessions (modifySessions (·.put row))

/-- A session goes unless the office would be stranded. -/
def dropSessionUnlessStranding (row : StoredSession) : AuthM RevokeResult := do
  let s ← get
  if s.wouldRevokeLeaveOfficeUnreachable now row.sessionIdHash then pure .wouldStrandOffice
  else
    dropSession row
    pure .ok

/-- `revokeSessionByPrefix(prefix)`. -/
def revokeSessionByPrefix (prefix_ : JsString) : AuthM RevokeResult := do
  let s ← get
  match s.sessions.rows.filter fun v => v.sessionPrefix = prefix_ with
  | [] => pure .notFound
  | [row] => dropSessionUnlessStranding now row
  | _ :: _ :: _ => pure .ambiguous

/-- `logoutBySessionHash(sessionIdHash)`. -/
def logoutBySessionHash (sessionIdHash : JsString) : AuthM RevokeResult := do
  let s ← get
  match s.sessions.find sessionIdHash with
  | none => pure .notFound
  | some row => dropSessionUnlessStranding now row

/-- `revokeActiveSessionByPrefixForUserId(prefix, userId)`: the check against a stranded office is
behind the scope test. -/
def revokeActiveSessionByPrefixForUserId (prefix_ userId : JsString) : AuthM RevokeResult := do
  let s ← get
  match s.sessions.rows.filter fun v => v.sessionPrefix = prefix_ && !v.expired now with
  | [] => pure .notFound
  | [row] => if row.userId ≠ userId then pure .notFound else dropSessionUnlessStranding now row
  | _ :: _ :: _ => pure .ambiguous

/-- `evictSessionsForUserId(userId)`. A write that throws is logged: the member is gone. -/
def evictSessionsForUserId (userId : JsString) : AuthM ℕ := do
  let s ← get
  let count := (s.sessions.rows.filter fun v => v.userId = userId).length
  if count = 0 then pure 0
  else
    modifySessions (·.filter fun v => v.userId ≠ userId)
    orLog persistSessions
    pure count

/-! ## The validation -/

structure SessionLookup where
  sessionIdHash : JsString
  sessionPrefix : JsString
  userId : JsString
  username : JsString
  role : UserRole
  needsRolling : Bool
  absoluteExpiresAt : ℤ

/-- How long a session lives unless it is used. -/
def rollingTtlMs : ℤ := 30 * 24 * 60 * 60 * 1000

def PERSIST_THROTTLE_MS : ℤ := 30000

/-- The end of a session that is used moves when it would move by more than a minute. -/
def StoredSession.needsRolling (session : StoredSession) : Bool :=
  session.expiresAt + 60000 < min (now + rollingTtlMs) session.absoluteExpiresAt

def StoredSession.touched (session : StoredSession) : StoredSession :=
  { session with
    expiresAt :=
      if session.needsRolling now then min (now + rollingTtlMs) session.absoluteExpiresAt
      else session.expiresAt
    lastSeenAt := now }

/-- `validateByHash(hash)`. -/
def validateByHash (hash : JsString) : AuthM (Option SessionLookup) := do
  let s ← get
  match s.sessionLiveness hash now with
  | .dead stale =>
    if stale then modifySessions (·.erase hash)
    pure none
  | .live session user =>
    modifySessions (·.put (session.touched now))
    if PERSIST_THROTTLE_MS < now - s.lastPersist then
      modify fun s => { s with lastPersist := now }
      orLog persistSessions
    pure (some
      { sessionIdHash := hash
        sessionPrefix := session.sessionPrefix
        userId := user.id
        username := user.name
        role := user.role
        needsRolling := session.needsRolling now
        absoluteExpiresAt := session.absoluteExpiresAt })

/-! ## The ends of the owners' role -/

/-- `removeOwnerUnlessStranding(userId, apply)`: no answer of `apply` stands for
`"would_strand_office"`. -/
def removeOwnerUnlessStranding {α : Type} (now : ℤ) (userId : JsString) (apply : AuthM α) :
    AuthM (Option α) := do
  let s ← get
  if s.wouldRemovingOwnerStrandOffice now userId then pure none
  else
    let answer ← apply
    pure (some answer)

structure RouteRefusal where
  status : ℕ
  code : JsString
  error : JsString
  version : Option JsString := none

def OWNER_REMOVAL_LOCKOUT_REASON : JsString :=
  js "No other office owner is signed in, so no owner could sign in again from " ++
    js "a browser. Have another owner sign in first, then retry."

/-- The refusal when no other owner is signed in. -/
def lastOwnerSession : RouteRefusal :=
  { status := 409, code := js "would_strand_office", error := OWNER_REMOVAL_LOCKOUT_REASON }

/-- The refusal of a delete when no other owner is there. -/
def lastOwnerRecord : RouteRefusal :=
  { status := 409, code := js "would_strand_office"
    error := js "This is the last owner record. Promote another user to owner first, then retry." }

/-- The removal of a member's record in `users.delete`. -/
def deleteMember (userId : JsString) : AuthM (Except RouteRefusal Unit) := do
  let removed ← removeOwnerUnlessStranding now userId do
    let s ← get
    if s.wouldDeleteLeaveNoOwner userId then pure (.error lastOwnerRecord)
    else
      let _ ← deleteUserById userId
      pure (.ok ())
  pure (removed.getD (.error lastOwnerSession))

/-- What `users.update` is asked for. -/
structure MemberEdit where
  name : Option JsString
  role : Option UserRole
  memberPrompt : Option (Option JsString)
  memberPromptVersion : Option JsString

/-- The answer of `users.update` to a refused change of the record. -/
def UpdateRefusal.toRoute (refusal : UpdateRefusal) : RouteRefusal :=
  match refusal with
  | .name (.exists_ _) | .name (.removed _) =>
    { status := 409, code := js "name_taken", error := refusal.error }
  | .notFound _ | .name .empty =>
    { status := 400, code := js "invalid_request", error := refusal.error }

/-- `write` of `users.update`: the checks and the write, on the record as it is then. -/
def writeMember (rt : MemberRuntime) (username userId : JsString) (changes : MemberEdit) :
    AuthM (Except RouteRefusal UserRecord) := do
  let s ← get
  match s.getUserById userId with
  | none =>
    pure (.error { status := 404, code := js "not_found"
                   error := js "User " ++ username ++ js " not found" })
  | some pre =>
    let version := rt.versionOf (pre.memberPrompt.getD [])
    if changes.memberPrompt.isSome && changes.memberPromptVersion ≠ some version then
      pure (.error
        { status := 409, code := js "version_conflict"
          error := js "the member's special instructions changed since your read; " ++
            js "re-read and retry"
          version := some version })
    else if changes.role = some .member && s.wouldDeleteLeaveNoOwner pre.id then
      pure (.error { status := 409, code := js "last_owner"
                     error := js "The office must have at least one office owner." })
    else
      let notifRooms :=
        (changes.role.filter (· ≠ pre.role)).map fun role => rt.clampNotifRooms pre role
      let result ← updateUserById rt pre.id
        { name := changes.name, role := changes.role, notifRooms, allowedRooms := none
          memberPrompt := changes.memberPrompt }
      pure (result.mapError UpdateRefusal.toRoute)

/-- The demotion of an owner in `users.update`. -/
def demoteMember (rt : MemberRuntime) (now : ℤ) (username userId : JsString)
    (changes : MemberEdit) : AuthM (Except RouteRefusal UserRecord) := do
  let written ← removeOwnerUnlessStranding now userId
    (writeMember rt username userId { changes with role := some .member })
  pure (written.getD (.error lastOwnerSession))

end Isomux.Auth
