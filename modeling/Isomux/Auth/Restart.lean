import Isomux.Auth.Lockout
import Isomux.Runtime.Maps

set_option autoImplicit false

/-!
# Sessions and links behind a restart (`src/server/auth.ts`)

The office writes its sessions and links as they are and reads them back at the start. The reader makes
each session anew, field by field, without the label of the device, and binds the links of older
offices to a member.

The member of a sign-in is settled in front of what is modelled of it, and has an id. The links are
those that the start has read.

## Main results

* `Isomux.Auth.loadSession_written` — how a session comes back.
* `Isomux.Auth.AuthCall.keeps` — what a call keeps of the rows.
* `Isomux.Auth.restart_keeps_iff` — the runs behind which a restart changes nothing.
-/

namespace Isomux.Auth

open Endings

/-! ## Reading -/

/-- A row of `sessions.json`; `username` is of older offices. -/
structure AnySession where
  sessionIdHash : Option JsString
  sessionPrefix : Option JsString
  userId : Option JsString
  username : Option JsString
  createdAt : Option ℤ
  lastSeenAt : Option ℤ
  expiresAt : Option ℤ
  absoluteExpiresAt : Option ℤ
  userAgent : Option JsString
  device : Option JsString

/-- A session as `persistSessions` writes it. -/
def StoredSession.written (v : StoredSession) : AnySession where
  sessionIdHash := some v.sessionIdHash
  sessionPrefix := some v.sessionPrefix
  userId := some v.userId
  username := none
  createdAt := some v.createdAt
  lastSeenAt := some v.lastSeenAt
  expiresAt := some v.expiresAt
  absoluteExpiresAt := some v.absoluteExpiresAt
  userAgent := v.userAgent
  device := v.device

variable (rt : MemberRuntime) (s : AuthTables) (now : ℤ)

/-- The turn of `loadSessionsFromDisk` for a row. -/
def loadSession (v : AnySession) : Option StoredSession := do
  let sessionIdHash ← v.sessionIdHash
  let userId ← (v.userId.filter (· ≠ [])).or ((v.username.bind (s.getUserByName rt)).map (·.id))
  pure
    { sessionIdHash, userId
      sessionPrefix := v.sessionPrefix.getD []
      createdAt := v.createdAt.getD now
      lastSeenAt := v.lastSeenAt.getD now
      expiresAt := v.expiresAt.getD 0
      absoluteExpiresAt := v.absoluteExpiresAt.getD 0
      userAgent := v.userAgent
      device := none }

def loadSessionsFromDisk (file : JsMap JsString AnySession) : JsMap JsString StoredSession :=
  file.filterMap fun e => (loadSession rt s now e.2).map (e.1, ·)

def StoredInvite.named (v : StoredInvite) : Bool :=
  v.userId.any (· ≠ []) || v.newUser || v.bootstrap

/-- The turn of `loadInvitesFromDisk` for a row. -/
def loadInvite (v : StoredInvite) : Option StoredInvite :=
  if v.named then some v
  else (v.username.bind (s.getUserByName rt)).map fun user => { v with userId := some user.id }

def loadInvitesFromDisk (file : JsMap JsString StoredInvite) : JsMap JsString StoredInvite :=
  file.filterMap fun e => (loadInvite rt s e.2).map (e.1, ·)

/-- The sessions in memory, under their hashes. -/
def AuthTables.sessionMap : JsMap JsString StoredSession :=
  s.sessions.rows.map fun v => (v.sessionIdHash, v)

def AuthTables.inviteMap : JsMap JsString StoredInvite :=
  s.invites.rows.map fun v => (v.tokenHash, v)

/-- A session of the list: its fields but for the hash, and the name of the member. -/
structure SessionWire where
  username : JsString
  session : StoredSession

def AuthTables.toSessionWire (v : StoredSession) : SessionWire where
  username := ((s.getUserById v.userId).map (·.name)).getD (js "(deleted)")
  session := { v with sessionIdHash := [] }

/-- `listActiveSessions()`. -/
def AuthTables.listActiveSessions (sessions : JsMap JsString StoredSession) : List SessionWire :=
  (((sessions.map Prod.snd).filter (!·.expired now)).map s.toSessionWire).mergeSort
    fun a b => b.session.lastSeenAt ≤ a.session.lastSeenAt

/-- A restart leaves sessions, links and the list of the sessions as they were. -/
def RestartKeeps : Prop :=
  loadInvitesFromDisk rt s s.inviteMap = s.inviteMap ∧
    ∀ now, let file := s.sessionMap.map fun e => (e.1, e.2.written)
      loadSessionsFromDisk rt s now file = s.sessionMap ∧
        s.listActiveSessions now (loadSessionsFromDisk rt s now file) =
          s.listActiveSessions now s.sessionMap

/-- The rows are such as a start reads from some files. -/
structure Loaded : Prop where
  users : ∀ u ∈ s.users.rows, u.id ≠ []
  sessions : ∀ v ∈ s.sessions.rows, ∃ now row, loadSession rt s now row = some v
  invites : ∀ v ∈ s.invites.rows, ∃ row, loadInvite rt s row = some v

/-! ## Links -/

def modifyInvites
    (f : KeyedTable StoredInvite.tokenHash → KeyedTable StoredInvite.tokenHash) : AuthM Unit :=
  modify fun s => { s with invites := f s.invites }

def putInvites (rows : List StoredInvite) (t : KeyedTable StoredInvite.tokenHash) :
    KeyedTable StoredInvite.tokenHash :=
  rows.foldl (·.put ·) t

def dropInvites (removed : List StoredInvite) : AuthM Unit := do
  modifyInvites (·.filter fun v => v.tokenHash ∉ removed.map (·.tokenHash))
  orRollback persistInvites (modifyInvites (putInvites removed))

def StoredInvite.outstanding (v : StoredInvite) : Bool :=
  !v.consumed && !(v.expiresAt < now)

/-- The revokes of links: `revokeInviteByPrefix`, `revokeOutstandingInviteByPrefixForUser` and
`revokeInvitesForUser`, by the rows that they pick. -/
def revokeInvites (picked : StoredInvite → Bool) : AuthM Unit := do
  let s ← get
  dropInvites (s.invites.rows.filter picked)

/-- `markAllUnconsumedBootstrapInvitesConsumed()`, if the link of an accept was one. -/
def sweepBootstrapInvites (bootstrap : Bool) : AuthM Unit := do
  let s ← get
  let stale := s.invites.rows.filter fun v => bootstrap && v.bootstrap && !v.consumed
  if stale = [] then pure ()
  else
    modifyInvites (putInvites (stale.map fun v => { v with consumed := true, consumedAt := some now }))
    orLog (orRollback persistInvites
      (modifyInvites (putInvites (stale.map fun v => { v with consumedAt := none }))))

/-! ## Sign-ins -/

/-- Who signs in, and what is drawn for it. -/
structure SignIn where
  userId : JsString
  userId_ne : userId ≠ []
  sessionHash : JsString
  prefix_ : JsString
  userAgent : Option JsString

def SignIn.session (ctx : SignIn) : StoredSession where
  sessionIdHash := ctx.sessionHash
  sessionPrefix := ctx.prefix_
  userId := ctx.userId
  createdAt := now
  lastSeenAt := now
  expiresAt := now + rollingTtlMs
  absoluteExpiresAt := now + 365 * 24 * 60 * 60 * 1000
  userAgent := ctx.userAgent
  device := none

/-- The session of a sign-in, or what is undone without it. -/
def openSession (session : StoredSession) (rollback : AuthM Unit) : AuthM Unit := do
  modifySessions (·.put session)
  orRollback persistSessions do
    modifySessions (·.erase session.sessionIdHash)
    rollback

/-- `claimOwnership(rawChosenName, ctx)`. -/
def claimOwnership (ctx : SignIn) : AuthM Unit := do
  openSession (ctx.session now) (pure ())
  sweepBootstrapInvites now true

/-- `acceptInvite(rawToken, ctx)`. -/
def acceptInvite (tokenHash : JsString) (ctx : SignIn) : AuthM Bool := do
  let s ← get
  match s.invites.find tokenHash with
  | none => pure false
  | some invite =>
    if invite.outstanding now then
      let undo := modifyInvites (·.put { invite with consumedAt := none })
      modifyInvites (·.put { invite with consumed := true, consumedAt := some now })
      orRollback persistInvites undo
      openSession (ctx.session now) do
        undo
        orLog persistInvites
      sweepBootstrapInvites now invite.bootstrap
      pure true
    else pure false

/-- `noteSessionDeviceByHash(sessionIdHash, device)`. -/
def noteSessionDeviceByHash (sessionIdHash device : JsString) : AuthM Bool := do
  let s ← get
  match s.sessions.find sessionIdHash with
  | none => pure false
  | some session =>
    if session.device = some device then pure false
    else
      modifySessions (·.put { session with device := some device })
      orLog persistSessions
      pure true

inductive AuthCall where
  | acceptInvite (tokenHash : JsString) (ctx : SignIn)
  | claimOwnership (ctx : SignIn)
  /-- Either of them, when there is an owner. -/
  | ownerExists
  | validateByHash (hash : JsString)
  | noteSessionDeviceByHash (sessionIdHash device : JsString)
  | revokeSessionByPrefix (prefix_ : JsString)
  | logoutBySessionHash (sessionIdHash : JsString)
  | revokeActiveSessionByPrefixForUserId (prefix_ userId : JsString)
  | evictSessionsForUserId (userId : JsString)
  | revokeInvites (picked : StoredInvite → Bool)

def AuthCall.run : AuthCall → AuthM Unit
  | .acceptInvite tokenHash ctx => discard (Auth.acceptInvite now tokenHash ctx)
  | .claimOwnership ctx => Auth.claimOwnership now ctx
  | .ownerExists => sweepBootstrapInvites now true
  | .validateByHash hash => discard (Auth.validateByHash now hash)
  | .noteSessionDeviceByHash sessionIdHash device =>
    discard (Auth.noteSessionDeviceByHash sessionIdHash device)
  | .revokeSessionByPrefix prefix_ => discard (Auth.revokeSessionByPrefix now prefix_)
  | .logoutBySessionHash sessionIdHash => discard (Auth.logoutBySessionHash now sessionIdHash)
  | .revokeActiveSessionByPrefixForUserId prefix_ userId =>
    discard (Auth.revokeActiveSessionByPrefixForUserId now prefix_ userId)
  | .evictSessionsForUserId userId => discard (Auth.evictSessionsForUserId userId)
  | .revokeInvites picked => Auth.revokeInvites picked

/-- A call, when it runs, and which of its writes are made. -/
structure AuthStep where
  call : AuthCall
  now : ℤ
  saves : List Bool

def AuthStep.next (s : AuthState) (step : AuthStep) : AuthState :=
  AllOrNothing.after (step.call.run step.now)
    { s with saves := step.saves.map fun saved => if saved then .saved else .failed }

/-- The call does not name the device of a session that is there. -/
def AuthStep.Unnamed (s : AuthState) (step : AuthStep) : Prop :=
  match step.call with
  | .noteSessionDeviceByHash sessionIdHash _ => s.sessions.find sessionIdHash = none
  | _ => True

/-! ## What comes back -/

variable {rt s}

structure Rows (P : StoredSession → Prop) (s : AuthTables) : Prop where
  sessions : ∀ v ∈ s.sessions.rows, v.userId ≠ [] ∧ P v
  invites : ∀ v ∈ s.invites.rows, v.named = true

lemma loadSession_written {v : StoredSession} (h : v.userId ≠ []) (now : ℤ) :
    loadSession rt s now v.written = some { v with device := none } := by
  unfold loadSession StoredSession.written
  rw [Option.filter_some, if_pos (by simpa using h)]
  rfl

lemma invites_kept {P : StoredSession → Prop} (h : Rows P s) :
    loadInvitesFromDisk rt s s.inviteMap = s.inviteMap := by
  rw [AuthTables.inviteMap, loadInvitesFromDisk, List.filterMap_map, ← List.filterMap_eq_map]
  refine List.filterMap_congr fun v hv => ?_
  simp [loadInvite, h.invites v hv]

/-- **The label of the device does not come back.** -/
lemma restartKeeps_iff {P : StoredSession → Prop} (h : Rows P s) :
    RestartKeeps rt s ↔ ∀ v ∈ s.sessions.rows, v.device = none := by
  have hload (now : ℤ) : loadSessionsFromDisk rt s now
      (s.sessionMap.map fun e => (e.1, e.2.written)) =
        s.sessions.rows.map fun v => (v.sessionIdHash, { v with device := none }) := by
    rw [AuthTables.sessionMap, List.map_map, loadSessionsFromDisk, List.filterMap_map,
      ← List.filterMap_eq_map]
    refine List.filterMap_congr fun v hv => ?_
    simp [loadSession_written (h.sessions v hv).1]
  have hsame (now : ℤ) : loadSessionsFromDisk rt s now
      (s.sessionMap.map fun e => (e.1, e.2.written)) = s.sessionMap ↔
        ∀ v ∈ s.sessions.rows, v.device = none := by
    rw [hload, AuthTables.sessionMap, List.map_inj_left]
    refine forall₂_congr fun v _ => ?_
    rw [Prod.mk.injEq, and_iff_right rfl]
    exact ⟨fun heq => (congrArg StoredSession.device heq).symm, fun hnone => hnone ▸ rfl⟩
  refine ⟨fun hkeeps => (hsame 0).1 (hkeeps.2 0).1, fun hnone => ⟨invites_kept h, fun now => ?_⟩⟩
  have heq := (hsame now).2 hnone
  exact ⟨heq, congrArg _ heq⟩

lemma getUserByName_id (h : ∀ u ∈ s.users.rows, u.id ≠ []) {name : Option JsString}
    {user : UserRecord} (huser : name.bind (s.getUserByName rt) = some user) : user.id ≠ [] := by
  obtain ⟨name, -, huser⟩ := Option.bind_eq_some_iff.1 huser
  unfold AuthTables.getUserByName at huser
  split_ifs at huser
  exact h user (List.mem_of_find?_eq_some huser)

lemma Loaded.rows (h : Loaded rt s) : Rows (fun v => v.device = none) s := by
  refine ⟨fun v hv => ?_, fun v hv => ?_⟩
  · obtain ⟨now, row, hrow⟩ := h.sessions v hv
    simp only [loadSession, Option.bind_eq_bind, Option.pure_def, Option.bind_eq_some_iff,
      Option.some.injEq] at hrow
    obtain ⟨_, -, userId, hid, rfl⟩ := hrow
    refine ⟨?_, rfl⟩
    rcases Option.or_eq_some_iff.1 hid with hid | ⟨-, hid⟩
    · simpa using (Option.filter_eq_some_iff.1 hid).2
    · obtain ⟨user, huser, rfl⟩ := Option.map_eq_some_iff.1 hid
      exact getUserByName_id h.users huser
  · obtain ⟨row, hrow⟩ := h.invites v hv
    unfold loadInvite at hrow
    split_ifs at hrow with hnamed
    · cases hrow
      exact hnamed
    · obtain ⟨user, huser, rfl⟩ := Option.map_eq_some_iff.1 hrow
      simp [StoredInvite.named, getUserByName_id h.users huser]

/-! ## What a call keeps -/

/-- The program keeps a property of the rows in memory, however it ends. -/
def Keeps {α : Type} (P : AuthTables → Prop) (p : AuthM α) : Prop :=
  ∀ s : AuthState, P s.toAuthTables →
    Ends p s (fun _ s' => P s'.toAuthTables) fun _ s' => P s'.toAuthTables

namespace Keeps

variable {α β : Type} {P : AuthTables → Prop} {p save rollback : AuthM Unit}

lemma pure (a : α) : Keeps P (Pure.pure a : AuthM α) := fun _ h => h

lemma throw (e : AuthError) : Keeps P (MonadExcept.throw e : AuthM α) := fun _ h => h

lemma bind {p : AuthM α} {f : α → AuthM β} (hp : Keeps P p) (hf : ∀ a, Keeps P (f a)) :
    Keeps P (p >>= f) := fun s h => by
  rw [ends_bind]
  exact (hp s h).mono (fun a s' h' => hf a s' h') fun _ _ h' => h'

lemma get_bind {f : AuthState → AuthM α}
    (hf : ∀ s : AuthState, P s.toAuthTables → Keeps P (f s)) : Keeps P (get >>= f) := fun s h => by
  rw [ends_bind, ends_get]
  exact hf s h s h

lemma discard {p : AuthM α} (hp : Keeps P p) : Keeps P (Functor.discard p) := fun s h => by
  change Ends (p >>= fun _ => Pure.pure ()) s _ _
  exact hp.bind (fun _ => .pure ()) s h

lemma tryCatch {p : AuthM α} {handle : AuthError → AuthM α} (hp : Keeps P p)
    (hhandle : ∀ e, Keeps P (handle e)) : Keeps P (MonadExcept.tryCatch p handle) := fun s h => by
  rw [ends_tryCatch]
  exact (hp s h).mono (fun _ _ h' => h') fun e s' h' => hhandle e s' h'

lemma atomicWriteFileSync (write : AuthTables → AuthTables) :
    Keeps P (Auth.atomicWriteFileSync write) := fun s h => by
  unfold Auth.atomicWriteFileSync
  rw [ends_bind, ends_get]
  cases s.saves with
  | nil => exact h
  | cons outcome saves => cases outcome <;> exact h

lemma orRollback (hsave : Keeps P save) (hrollback : Keeps P rollback) :
    Keeps P (Auth.orRollback save rollback) :=
  hsave.tryCatch fun e => by
    cases e with
    | notSaved => exact hrollback.bind fun _ => .throw _
    | crashed => exact .throw _

lemma orLog (hsave : Keeps P save) : Keeps P (Auth.orLog save) :=
  hsave.tryCatch fun e => by
    cases e with
    | notSaved => exact .pure ()
    | crashed => exact .throw _

end Keeps

section Calls

variable {P : StoredSession → Prop} {v : StoredSession} {now : ℤ}

lemma persistSessions_keeps {Q : AuthTables → Prop} : Keeps Q persistSessions :=
  .get_bind fun _ _ => .atomicWriteFileSync _

lemma persistInvites_keeps {Q : AuthTables → Prop} : Keeps Q persistInvites :=
  .get_bind fun _ _ => .atomicWriteFileSync _

lemma filterSessions_keeps (p : StoredSession → Bool) :
    Keeps (Rows P) (modifySessions (·.filter p)) :=
  fun _ h => ⟨fun v hv => h.sessions v (KeyedTable.mem_rows_filter.1 hv).1, h.invites⟩

lemma putSession_keeps (hv : v.userId ≠ [] ∧ P v) : Keeps (Rows P) (modifySessions (·.put v)) :=
  fun _ h => ⟨fun w hw => by
    rcases KeyedTable.mem_rows_put.1 hw with rfl | hw
    · exact hv
    · exact h.sessions w hw.1, h.invites⟩

lemma putInvites_named {rows : List StoredInvite} {t : KeyedTable StoredInvite.tokenHash}
    (hrows : ∀ v ∈ rows, v.named = true) (ht : ∀ v ∈ t.rows, v.named = true) :
    ∀ v ∈ (putInvites rows t).rows, v.named = true := by
  induction rows generalizing t with
  | nil => exact ht
  | cons row rows ih =>
    refine ih (fun v hv => hrows v (List.mem_cons_of_mem _ hv)) fun v hv => ?_
    rcases KeyedTable.mem_rows_put.1 hv with rfl | hv
    · exact hrows v List.mem_cons_self
    · exact ht v hv.1

lemma putInvites_keeps {rows : List StoredInvite} (hrows : ∀ v ∈ rows, v.named = true) :
    Keeps (Rows P) (modifyInvites (putInvites rows)) :=
  fun _ h => ⟨h.sessions, putInvites_named hrows h.invites⟩

lemma dropInvites_keeps {removed : List StoredInvite} (h : ∀ v ∈ removed, v.named = true) :
    Keeps (Rows P) (dropInvites removed) :=
  Keeps.bind (fun _ h => ⟨h.sessions, fun v hv => h.invites v (KeyedTable.mem_rows_filter.1 hv).1⟩)
    fun _ => persistInvites_keeps.orRollback (putInvites_keeps h)

lemma dropSessionUnlessStranding_keeps (hv : v.userId ≠ [] ∧ P v) :
    Keeps (Rows P) (dropSessionUnlessStranding now v) :=
  .get_bind fun s _ => by
    split_ifs
    · exact .pure _
    · exact ((filterSessions_keeps _).bind fun _ =>
        persistSessions_keeps.orRollback (putSession_keeps hv)).bind fun _ => .pure _

lemma sweepBootstrapInvites_keeps (bootstrap : Bool) :
    Keeps (Rows P) (sweepBootstrapInvites now bootstrap) :=
  .get_bind fun s h => by
    dsimp only
    have hstale (f : StoredInvite → StoredInvite) (hf : ∀ v, (f v).named = v.named) :
        ∀ w ∈ (s.invites.rows.filter fun v => bootstrap && v.bootstrap && !v.consumed).map f,
          w.named = true := fun w hw => by
      obtain ⟨v, hv, rfl⟩ := List.mem_map.1 hw
      rw [hf]
      exact h.invites v (List.mem_of_mem_filter hv)
    split_ifs
    · exact .pure ()
    · exact Keeps.bind (putInvites_keeps (hstale _ fun _ => rfl)) fun _ =>
        Keeps.orLog (persistInvites_keeps.orRollback (putInvites_keeps (hstale _ fun _ => rfl)))

lemma openSession_keeps (hv : v.userId ≠ [] ∧ P v) {rollback : AuthM Unit}
    (hrollback : Keeps (Rows P) rollback) : Keeps (Rows P) (openSession v rollback) :=
  (putSession_keeps hv).bind fun _ =>
    persistSessions_keeps.orRollback ((filterSessions_keeps _).bind fun _ => hrollback)

lemma acceptInvite_keeps (tokenHash : JsString) (ctx : SignIn) (hnew : P (ctx.session now)) :
    Keeps (Rows P) (acceptInvite now tokenHash ctx) :=
  .get_bind fun s h => by
    cases hfind : s.invites.find tokenHash with
    | none => exact .pure _
    | some invite =>
      dsimp only
      have hnamed := h.invites invite (KeyedTable.find_eq_some_iff.1 hfind).1
      have hput (v : StoredInvite) (hv : v.named = true) :
          Keeps (Rows P) (modifyInvites (·.put v)) := by
        have hrow : ∀ w ∈ [v], w.named = true := fun w hw => by
          rw [List.mem_singleton.1 hw]
          exact hv
        exact putInvites_keeps hrow
      have hundo := hput { invite with consumedAt := none } hnamed
      split_ifs
      · refine Keeps.bind (hput _ hnamed) fun _ => (persistInvites_keeps.orRollback hundo).bind
          fun _ => Keeps.bind ?_ fun _ => (sweepBootstrapInvites_keeps _).bind fun _ => .pure _
        exact openSession_keeps ⟨ctx.userId_ne, hnew⟩
          (hundo.bind fun _ => persistInvites_keeps.orLog)
      · exact .pure _

lemma validateByHash_keeps (hash : JsString) (htouched : ∀ v, P v → P (v.touched now)) :
    Keeps (Rows P) (validateByHash now hash) :=
  .get_bind fun s h => by
    cases hliveness : s.sessionLiveness hash now with
    | dead stale =>
      cases stale with
      | false => exact .pure _
      | true => exact (filterSessions_keeps _).bind fun _ => .pure _
    | live session user =>
      have hsession : session ∈ s.sessions.rows := by
        unfold AuthTables.sessionLiveness at hliveness
        split at hliveness
        · cases hliveness
        · rename_i v hfind
          split_ifs at hliveness
          split at hliveness <;> cases hliveness
          exact (KeyedTable.find_eq_some_iff.1 hfind).1
      obtain ⟨hid, hP⟩ := h.sessions session hsession
      refine Keeps.bind (putSession_keeps ⟨hid, htouched session hP⟩) fun _ => ?_
      dsimp only
      split_ifs
      · exact Keeps.bind (fun _ h => h) fun _ => persistSessions_keeps.orLog.bind fun _ => .pure _
      · exact .pure _

/-- A revoke of the one session that is picked. -/
lemma revoke_keeps {p : StoredSession → Bool} {answer : StoredSession → AuthM RevokeResult}
    {s : AuthState} (h : Rows P s.toAuthTables)
    (hanswer : ∀ v, v.userId ≠ [] ∧ P v → Keeps (Rows P) (answer v)) :
    Keeps (Rows P) (match s.sessions.rows.filter p with
      | [] => Pure.pure .notFound
      | [row] => answer row
      | _ :: _ :: _ => Pure.pure .ambiguous) := by
  split
  · exact .pure _
  · rename_i row hrow
    exact hanswer row (h.sessions row
      (List.mem_of_mem_filter (hrow ▸ List.mem_singleton_self row)))
  · exact .pure _

/-- **A call keeps what holds of each session**, if a new, a used and a named one have it. -/
theorem AuthCall.keeps (call : AuthCall) (hnew : ∀ ctx : SignIn, P (ctx.session now))
    (htouched : ∀ v, P v → P (v.touched now))
    (hnamed : ∀ hash device, call = .noteSessionDeviceByHash hash device →
      ∀ v, P v → P { v with device := some device }) : Keeps (Rows P) (call.run now) := by
  cases call with
  | acceptInvite tokenHash ctx => exact (acceptInvite_keeps tokenHash ctx (hnew ctx)).discard
  | claimOwnership ctx =>
    exact (openSession_keeps ⟨ctx.userId_ne, hnew ctx⟩ (.pure ())).bind fun _ =>
      sweepBootstrapInvites_keeps true
  | ownerExists => exact sweepBootstrapInvites_keeps true
  | validateByHash hash => exact (validateByHash_keeps hash htouched).discard
  | noteSessionDeviceByHash hash device =>
    refine Keeps.discard (.get_bind fun s h => ?_)
    cases hfind : s.sessions.find hash with
    | none => exact .pure _
    | some session =>
      obtain ⟨hid, hP⟩ := h.sessions session (KeyedTable.find_eq_some_iff.1 hfind).1
      dsimp only
      split_ifs
      · exact .pure _
      · exact Keeps.bind (putSession_keeps ⟨hid, hnamed hash device rfl session hP⟩) fun _ =>
          persistSessions_keeps.orLog.bind fun _ => .pure _
  | revokeSessionByPrefix prefix_ =>
    exact Keeps.discard (.get_bind fun s h => revoke_keeps h fun v hv =>
      dropSessionUnlessStranding_keeps hv)
  | logoutBySessionHash hash =>
    refine Keeps.discard (.get_bind fun s h => ?_)
    cases hfind : s.sessions.find hash with
    | none => exact .pure _
    | some row =>
      have hrow := h.sessions row (KeyedTable.find_eq_some_iff.1 hfind).1
      exact dropSessionUnlessStranding_keeps hrow
  | revokeActiveSessionByPrefixForUserId prefix_ userId =>
    refine Keeps.discard (.get_bind fun s h => revoke_keeps h fun v hv => ?_)
    split_ifs
    · exact .pure _
    · exact dropSessionUnlessStranding_keeps hv
  | evictSessionsForUserId userId =>
    refine Keeps.discard (.get_bind fun s h => ?_)
    dsimp only
    split_ifs
    · exact .pure _
    · exact (filterSessions_keeps _).bind fun _ => persistSessions_keeps.orLog.bind fun _ => .pure _
  | revokeInvites picked =>
    exact .get_bind fun s h => dropInvites_keeps fun v hv => h.invites v (List.mem_of_mem_filter hv)

end Calls

/-! ## Runs -/

variable {s : AuthState} (step : AuthStep)

lemma AuthStep.rows_next {P : StoredSession → Prop} (h : Rows P s.toAuthTables)
    (hcall : Keeps (Rows P) (step.call.run step.now)) : Rows P (step.next s).toAuthTables :=
  (hcall { s with saves := step.saves.map fun saved => if saved then .saved else .failed } h).after

/-- The device of a session that is there is in the rows from then on. -/
lemma named_next {hash : JsString} (device : JsString) (now : ℤ) {session : StoredSession}
    (hfind : s.sessions.find hash = some session) (hnone : session.device = none)
    (saves : List Bool) :
    ∃ v ∈ (AuthStep.next s ⟨.noteSessionDeviceByHash hash device, now, saves⟩).sessions.rows,
      v.device = some device := by
  refine Ends.after (P := fun s : AuthState => ∃ v ∈ s.sessions.rows, v.device = some device) ?_
  have hput : ∃ v ∈ (s.sessions.put { session with device := some device }).rows,
      v.device = some device := ⟨_, KeyedTable.mem_rows_put.2 (.inl rfl), rfl⟩
  change Ends (noteSessionDeviceByHash hash device >>= fun _ => pure ()) _ _ _
  unfold noteSessionDeviceByHash
  rw [ends_bind, ends_bind, ends_get]
  dsimp only
  rw [hfind]
  dsimp only
  rw [if_neg (by simp [hnone]), ends_bind]
  exact (persistSessions_keeps (Q := fun t => ∃ v ∈ t.sessions.rows, v.device = some device)).orLog.bind
    (fun _ => .pure _) _ hput |>.mono (fun _ _ h => h) fun _ _ h => h

lemma AuthStep.unnamed_iff (h : Rows (fun v => v.device = none) s.toAuthTables) :
    (∀ v ∈ (step.next s).sessions.rows, v.device = none) ↔ step.Unnamed s := by
  obtain ⟨call, now, saves⟩ := step
  by_cases hcall : ∃ hash device, call = .noteSessionDeviceByHash hash device
  · obtain ⟨hash, device, rfl⟩ := hcall
    cases hfind : s.sessions.find hash with
    | none =>
      refine iff_of_true (Ends.after (P := fun s : AuthState =>
        ∀ v ∈ s.sessions.rows, v.device = none) ?_) hfind
      change Ends (noteSessionDeviceByHash hash device >>= fun _ => pure ()) _ _ _
      unfold noteSessionDeviceByHash
      rw [ends_bind, ends_bind, ends_get]
      dsimp only
      rw [hfind]
      exact fun v hv => (h.sessions v hv).2
    | some session =>
      refine iff_of_false (fun hall => ?_) (by simp [Unnamed, hfind])
      obtain ⟨v, hv, hdevice⟩ := named_next device now hfind
        (h.sessions session (KeyedTable.find_eq_some_iff.1 hfind).1).2 saves
      rw [hall v hv] at hdevice
      cases hdevice
  · refine iff_of_true (fun v hv => ((AuthStep.rows_next _ h ?_).sessions v hv).2) ?_
    · exact call.keeps (fun _ => rfl) (fun _ hv => hv) fun hash device heq => (hcall ⟨_, _, heq⟩).elim
    · cases call <;> first | trivial | exact (hcall ⟨_, _, rfl⟩).elim

/-- **A restart keeps every session** and link, and the list of the sessions, behind every part of a run,
exactly when no call of the run names the device of a session that is there. The links come back in any
case. -/
theorem restart_keeps_iff (rt : MemberRuntime) (s : AuthState) (h : Loaded rt s.toAuthTables)
    (steps : List AuthStep) :
    ((∀ n, RestartKeeps rt (Machine.run AuthStep.next s (steps.take n)).toAuthTables) ↔
      Machine.Along AuthStep.next AuthStep.Unnamed s steps) ∧
    ∀ n, let t := (Machine.run AuthStep.next s (steps.take n)).toAuthTables
      loadInvitesFromDisk rt t t.inviteMap = t.inviteMap := by
  have hrows (s : AuthState) (step : AuthStep) (hs : Rows (fun _ => True) s.toAuthTables) :
      Rows (fun _ => True) (step.next s).toAuthTables :=
    step.rows_next hs (step.call.keeps (fun _ => trivial) (fun _ _ => trivial) fun _ _ _ _ _ => trivial)
  have hstart : Rows (fun _ => True) s.toAuthTables :=
    ⟨fun v hv => ⟨(h.rows.sessions v hv).1, trivial⟩, h.rows.invites⟩
  refine ⟨Machine.forall_take_iff_along_of_invariant
    (I := fun s : AuthState => Rows (fun _ => True) s.toAuthTables)
    (P := fun s : AuthState => RestartKeeps rt s.toAuthTables) hrows (fun s step hs hkeeps => ?_) hstart
      ((restartKeeps_iff hstart).2 fun v hv => (h.rows.sessions v hv).2), fun n => ?_⟩
  · rw [restartKeeps_iff (hrows s step hs)]
    have hnone := (restartKeeps_iff hs).1 hkeeps
    exact step.unnamed_iff ⟨fun v hv => ⟨(hs.sessions v hv).1, hnone v hv⟩, hs.invites⟩
  · have hrun : Rows (fun _ => True)
        (Machine.run AuthStep.next s (steps.take n)).toAuthTables :=
      Machine.run_invariant (P := fun s : AuthState => Rows (fun _ => True) s.toAuthTables) hrows
        hstart
    exact invites_kept hrun

def emptyOffice : AuthState where
  users := .empty
  invites := .empty
  sessions := .empty
  files := ⟨.empty, .empty, .empty⟩
  lastPersist := 0
  saves := []

def exampleClaim : AuthStep where
  call := .claimOwnership ⟨js "nil", by decide, js "hash", js "prefix", none⟩
  now := 0
  saves := [true]

theorem restart_keeps_iff_logout :
    let steps : List AuthStep := [exampleClaim, ⟨.validateByHash (js "hash"), 90000, [true]⟩,
      ⟨.logoutBySessionHash (js "hash"), 90001, [false]⟩]
    RestartKeeps plainRuntime (Machine.run AuthStep.next emptyOffice steps).toAuthTables := by
  intro steps
  exact (restart_keeps_iff plainRuntime emptyOffice
    (by constructor <;> exact fun _ h => absurd h List.not_mem_nil) steps).1.2
      ⟨trivial, trivial, trivial, trivial⟩ 3

/-- The label of a device, before and behind a restart. -/
theorem restart_loses_device : ¬RestartKeeps plainRuntime (Machine.run AuthStep.next emptyOffice
    [exampleClaim, ⟨.noteSessionDeviceByHash (js "hash") (js "Phone"), 1, []⟩]).toAuthTables :=
  fun h => absurd (congrArg (List.map fun e => e.2.device) (h.2 0).1) (by decide +kernel)

end Isomux.Auth
