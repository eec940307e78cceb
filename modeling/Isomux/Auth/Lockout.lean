import Isomux.Auth.Sessions
import Isomux.Foundations.Endings
import Isomux.Foundations.Machine

set_option autoImplicit false

/-!
# The office is never stranded (`src/server/auth.ts`)

Sessions and the owners' role are taken away behind two checks that count the sessions of owners.
Over a time in which no session ends by itself, the calls may come in any order and their writes may
throw: an owner who was signed in leaves another owner signed in.

## Main results

* `Isomux.Auth.LockoutCall.lawful` — a call that is refused or throws changes nothing, and the others
  make one of the changes.
* `Isomux.Auth.Reachable.change` — the changes keep an owner signed in.
* `Isomux.Auth.office_never_stranded` — so does every run.
-/

namespace Isomux.Auth

open Endings

/-! ## The office -/

/-- A member whose role is owner has a live session. -/
def AuthTables.OwnerSignedIn (s : AuthTables) (now : ℤ) : Prop :=
  ∃ hash session user, s.sessionLiveness hash now = .live session user ∧ user.role = .owner

/-- No session of the table ends by itself from `first` to `last`. -/
def AuthTables.NoneExpires (s : AuthTables) (first last : ℤ) : Prop :=
  ∀ v ∈ s.sessions.rows, v.expired last = true → v.expired first = true

def SameRecords (s s' : AuthTables) : Prop :=
  (∀ hash, s'.sessions.find hash = s.sessions.find hash) ∧
    ∀ id, s'.users.find id = s.users.find id

inductive LockoutCall where
  | revokeSessionByPrefix (prefix_ : JsString)
  | logoutBySessionHash (sessionIdHash : JsString)
  /-- `revokeActiveSessionByPrefixForUserId(prefix, userId)`. -/
  | revokeActiveSessionByPrefixForUserId (prefix_ userId : JsString)
  | demoteMember (username userId : JsString) (changes : MemberEdit)
  | deleteMember (userId : JsString)
  /-- `evictSessionsForUserId(userId)`, for a member who is deleted. -/
  | evictSessionsForUserId (userId : JsString)
  | validateByHash (hash : JsString)

inductive LockoutAnswer where
  | revoked (result : RevokeResult)
  /-- Of a demotion or a removal: why it is refused. -/
  | removed (refusal : Option RouteRefusal)
  | evicted (count : ℕ)
  | validated (lookup : Option SessionLookup)

def LockoutAnswer.refused : LockoutAnswer → Bool
  | .revoked result => result ≠ .ok
  | .removed refusal => refusal.isSome
  | .evicted _ => false
  | .validated _ => false

/-- Why a change of the record was refused. -/
def refusalOf {α : Type} : Except RouteRefusal α → Option RouteRefusal
  | .ok _ => none
  | .error refusal => some refusal

variable (rt : MemberRuntime)

def LockoutCall.run (now : ℤ) : LockoutCall → AuthM LockoutAnswer
  | .revokeSessionByPrefix prefix_ => do
    return .revoked (← Auth.revokeSessionByPrefix now prefix_)
  | .logoutBySessionHash sessionIdHash => do
    return .revoked (← Auth.logoutBySessionHash now sessionIdHash)
  | .revokeActiveSessionByPrefixForUserId prefix_ userId => do
    return .revoked (← Auth.revokeActiveSessionByPrefixForUserId now prefix_ userId)
  | .demoteMember username userId changes => do
    return .removed (refusalOf (← Auth.demoteMember rt now username userId changes))
  | .deleteMember userId => do
    return .removed (refusalOf (← Auth.deleteMember now userId))
  | .evictSessionsForUserId userId => do
    let s ← get
    if (s.getUserById userId).isSome then return .evicted 0
    else return .evicted (← Auth.evictSessionsForUserId userId)
  | .validateByHash hash => do
    return .validated (← Auth.validateByHash now hash)

/-- A call, when it runs, and which of its writes throw. -/
structure LockoutStep where
  call : LockoutCall
  now : ℤ
  saves : List Bool

def LockoutStep.start (step : LockoutStep) (s : AuthState) : AuthState :=
  { s with saves := step.saves.map fun saved => if saved then .saved else .failed }

variable (s : AuthState)

def LockoutStep.next (step : LockoutStep) : AuthState :=
  AllOrNothing.after (step.call.run rt step.now) (step.start s)

/-- A call is answered with a refusal, or throws. -/
def LockoutStep.Refused (step : LockoutStep) : Prop :=
  match (step.call.run rt step.now).run (step.start s) with
  | .ok answer _ => answer.refused = true
  | .error _ _ => True

/-! ## What is written -/

def Calm : Prop := ∀ outcome ∈ s.saves, outcome = .saved ∨ outcome = .failed

lemma atomicWriteFileSync_ends {s : AuthState} (hcalm : Calm s) (write : AuthTables → AuthTables) :
    Ends (atomicWriteFileSync write) s (fun _ s' => s'.toAuthTables = s.toAuthTables)
      fun err s' => err = .notSaved ∧ s'.toAuthTables = s.toAuthTables := by
  unfold atomicWriteFileSync
  rw [ends_bind, ends_get]
  cases hsaves : s.saves with
  | nil => rw [ends_modify]
  | cons outcome saves =>
    rw [ends_bind, ends_set]
    rcases hcalm outcome (hsaves ▸ List.mem_cons_self) with rfl | rfl
    · rw [ends_modify]
    · exact ⟨rfl, rfl⟩

/-- A change in memory and its write, undone when the write throws. -/
lemma save_ends {s : AuthState} (hcalm : Calm s) (f g : AuthTables → AuthTables)
    (write : AuthTables → AuthTables → AuthTables) :
    Ends (do
        modify fun s : AuthState => { s with toAuthTables := f s.toAuthTables }
        orRollback (do atomicWriteFileSync (write (← get).toAuthTables))
          (modify fun s => { s with toAuthTables := g s.toAuthTables })) s
      (fun _ s' => s'.toAuthTables = f s.toAuthTables)
      fun _ s' => s'.toAuthTables = g (f s.toAuthTables) := by
  have hcalm' : Calm { s with toAuthTables := f s.toAuthTables } := hcalm
  unfold orRollback
  rw [ends_bind, ends_modify, ends_tryCatch, ends_bind, ends_get]
  refine (atomicWriteFileSync_ends hcalm' _).mono (fun _ s' h => h) fun err s' h => ?_
  obtain ⟨rfl, h⟩ := h
  rw [ends_bind, ends_modify, ends_throw]
  exact congrArg g h

lemma saveSessions_ends {s : AuthState} (hcalm : Calm s)
    (f g : KeyedTable StoredSession.sessionIdHash → KeyedTable StoredSession.sessionIdHash) :
    Ends (do modifySessions f; orRollback persistSessions (modifySessions g)) s
      (fun _ s' => s'.toAuthTables = { s.toAuthTables with sessions := f s.sessions })
      fun _ s' => s'.toAuthTables = { s.toAuthTables with sessions := g (f s.sessions) } :=
  save_ends hcalm (fun t => { t with sessions := f t.sessions })
    (fun t => { t with sessions := g t.sessions })
    fun t files => { files with sessions := t.sessions }

lemma saveUsers_ends {s : AuthState} (hcalm : Calm s)
    (f g : KeyedTable UserRecord.id → KeyedTable UserRecord.id) :
    Ends (do modifyUsers f; orRollback persistUsers (modifyUsers g)) s
      (fun _ s' => s'.toAuthTables = { s.toAuthTables with users := f s.users })
      fun _ s' => s'.toAuthTables = { s.toAuthTables with users := g (f s.users) } :=
  save_ends hcalm (fun t => { t with users := f t.users }) (fun t => { t with users := g t.users })
    fun t files => { files with users := t.users }

lemma orLog_persistSessions_ends {s : AuthState} (hcalm : Calm s) :
    Ends (orLog persistSessions) s (fun _ s' => s'.toAuthTables = s.toAuthTables)
      fun _ _ => False := by
  unfold orLog persistSessions
  rw [ends_tryCatch, ends_bind, ends_get]
  refine (atomicWriteFileSync_ends hcalm _).mono (fun _ s' h => h) fun err s' h => ?_
  obtain ⟨rfl, h⟩ := h
  exact h

/-! ## What a call may do -/

/-- What a call at `now` may do to the tables. -/
inductive Change (now : ℤ) (s : AuthTables) : AuthTables → Prop
  | same {s' : AuthTables} (h : SameRecords s s') : Change now s s'
  /-- A session goes, and the office is not stranded by it. -/
  | dropped (hash : JsString) (h : s.wouldRevokeLeaveOfficeUnreachable now hash = false) :
    Change now s { s with sessions := s.sessions.erase hash }
  /-- A member's record changes or goes, and the office is not stranded by it. -/
  | removed (userId : JsString) (users : KeyedTable UserRecord.id)
    (h : s.wouldRemovingOwnerStrandOffice now userId = false)
    (hothers : ∀ id, id ≠ userId → users.find id = s.users.find id) :
    Change now s { s with users }
  /-- The sessions of a member go who is not there. -/
  | evicted (userId : JsString) (h : s.getUserById userId = none) :
    Change now s { s with sessions := s.sessions.filter fun v => v.userId ≠ userId }
  | stale (hash : JsString) (h : s.sessionLiveness hash now = .dead true) :
    Change now s { s with sessions := s.sessions.erase hash }
  | touched {session : StoredSession} {user : UserRecord} (hash : JsString)
    (h : s.sessionLiveness hash now = .live session user) :
    Change now s { s with sessions := s.sessions.put (session.touched now) }

lemma SameRecords.of_eq {s s' : AuthTables} (h : s' = s) : SameRecords s s' := by
  subst h
  exact ⟨fun _ => rfl, fun _ => rfl⟩

/-- What a call comes to: a refusal or an error changes nothing. -/
def Lawful {α : Type} (refused : α → Bool) (now : ℤ) (s : AuthState) (p : AuthM α) : Prop :=
  Ends p s
    (fun a s' => Change now s.toAuthTables s'.toAuthTables ∧
      (refused a = true → SameRecords s.toAuthTables s'.toAuthTables))
    fun _ s' => SameRecords s.toAuthTables s'.toAuthTables

section Lawful

variable {α β : Type} {now : ℤ} {s : AuthState} {refused : α → Bool}

lemma lawful_pure (a : α) : Lawful refused now s (pure a) :=
  ⟨.same (.of_eq rfl), fun _ => .of_eq rfl⟩

lemma lawful_get {f : AuthState → AuthM α} (h : Lawful refused now s (f s)) :
    Lawful refused now s (get >>= f) := by
  unfold Lawful at h ⊢
  rw [ends_bind, ends_get]
  exact h

lemma lawful_map {p : AuthM β} {refused' : β → Bool} (h : Lawful refused' now s p) (f : β → α)
    (hf : ∀ b, refused (f b) = refused' b) :
    Lawful refused now s (do return f (← p)) := by
  unfold Lawful at h ⊢
  rw [ends_bind]
  refine h.mono (fun b s' hb => ?_) fun _ _ herr => herr
  rw [ends_pure, hf]
  exact hb

end Lawful

/-! ## The ends of sessions -/

variable {now : ℤ}

lemma dropSessionUnlessStranding_lawful {s : AuthState} (hcalm : Calm s)
    {row : StoredSession} (hrow : s.sessions.find row.sessionIdHash = some row) :
    Lawful (· ≠ .ok) now s (dropSessionUnlessStranding now row) := by
  refine lawful_get ?_
  split_ifs with hstrand
  · exact lawful_pure _
  · unfold Lawful
    rw [ends_bind]
    refine (saveSessions_ends hcalm _ _).mono (fun _ s' h => ?_) fun _ s' h => ?_
    · rw [ends_pure, h]
      exact ⟨.dropped _ (by simpa using hstrand), by simp⟩
    · rw [h]
      exact ⟨fun hash => KeyedTable.find_put_erase hrow, fun _ => rfl⟩

lemma find_of_filter_eq {s : AuthState} {p : StoredSession → Bool} {row : StoredSession}
    (h : s.sessions.rows.filter p = [row]) : s.sessions.find row.sessionIdHash = some row :=
  KeyedTable.find_of_mem (List.mem_of_mem_filter (h ▸ List.mem_singleton_self row))

lemma revokeSessionByPrefix_lawful {s : AuthState} (hcalm : Calm s)
    (prefix_ : JsString) : Lawful (· ≠ .ok) now s (revokeSessionByPrefix now prefix_) := by
  refine lawful_get ?_
  split
  · exact lawful_pure _
  · rename_i row hfilter
    exact dropSessionUnlessStranding_lawful hcalm (find_of_filter_eq hfilter)
  · exact lawful_pure _

lemma logoutBySessionHash_lawful {s : AuthState} (hcalm : Calm s) (hash : JsString) :
    Lawful (· ≠ .ok) now s (logoutBySessionHash now hash) := by
  refine lawful_get ?_
  split
  · exact lawful_pure _
  · rename_i row hfind
    refine dropSessionUnlessStranding_lawful hcalm ?_
    rw [(KeyedTable.find_eq_some_iff.1 hfind).2]
    exact hfind

lemma revokeActiveSessionByPrefixForUserId_lawful {s : AuthState} (hcalm : Calm s)
    (prefix_ userId : JsString) :
    Lawful (· ≠ .ok) now s (revokeActiveSessionByPrefixForUserId now prefix_ userId) := by
  refine lawful_get ?_
  split
  · exact lawful_pure _
  · rename_i row hfilter
    split_ifs
    · exact lawful_pure _
    · exact dropSessionUnlessStranding_lawful hcalm (find_of_filter_eq hfilter)
  · exact lawful_pure _

variable {userId : JsString} {v : StoredSession}

lemma evictSessionsForUserId_lawful {s : AuthState} (hcalm : Calm s)
    (hgone : s.getUserById userId = none) :
    Lawful (fun _ => false) now s (evictSessionsForUserId userId) := by
  refine lawful_get ?_
  dsimp only
  split_ifs
  · exact lawful_pure _
  · have hcalm' : Calm { s with sessions := s.sessions.filter fun v => v.userId ≠ userId } := hcalm
    unfold Lawful modifySessions
    rw [ends_bind, ends_modify, ends_bind]
    refine (orLog_persistSessions_ends hcalm').mono (fun _ s' h => ?_) fun _ _ h => h.elim
    rw [ends_pure, h]
    exact ⟨.evicted userId hgone, nofun⟩

lemma validateByHash_lawful {s : AuthState} (hcalm : Calm s) (hash : JsString) :
    Lawful (fun _ => false) now s (validateByHash now hash) := by
  refine lawful_get ?_
  cases hliveness : s.sessionLiveness hash now with
  | dead stale =>
    dsimp only
    cases stale with
    | false => exact lawful_pure _
    | true =>
      unfold Lawful modifySessions
      rw [if_pos rfl, ends_bind, ends_modify, ends_pure]
      exact ⟨.stale hash hliveness, nofun⟩
  | live session user =>
    have hchange := Change.touched hash hliveness
    unfold Lawful modifySessions
    rw [ends_bind, ends_modify]
    dsimp only
    split_ifs
    · have hcalm' : Calm { s with sessions := s.sessions.put (session.touched now)
                                  lastPersist := now } := hcalm
      rw [ends_bind, ends_modify, ends_bind]
      refine (orLog_persistSessions_ends hcalm').mono (fun _ s' h => ?_) fun _ _ h => h.elim
      rw [ends_pure, h]
      exact ⟨hchange, nofun⟩
    · exact ⟨hchange, nofun⟩

/-! ## The ends of the owners' role -/

/-- A program that changes one member's record, or refuses or throws and changes nothing. -/
def WritesOnly {α : Type} (refused : α → Bool) (userId : JsString) (s : AuthState) (p : AuthM α) :
    Prop :=
  Ends p s
    (fun a s' => (∃ users : KeyedTable UserRecord.id,
        s'.toAuthTables = { s.toAuthTables with users } ∧
          ∀ id, id ≠ userId → users.find id = s.users.find id) ∧
      (refused a = true → SameRecords s.toAuthTables s'.toAuthTables))
    fun _ s' => SameRecords s.toAuthTables s'.toAuthTables

lemma writesOnly_pure {α : Type} {refused : α → Bool} {s : AuthState} (a : α) :
    WritesOnly refused userId s (pure a) :=
  ⟨⟨s.users, rfl, fun _ _ => rfl⟩, fun _ => .of_eq rfl⟩

lemma removeOwnerUnlessStranding_lawful {α : Type} {refused : α → Bool} {s : AuthState}
    {apply : AuthM α} (happly : WritesOnly refused userId s apply) :
    Lawful (fun answer => answer.all refused) now s
      (removeOwnerUnlessStranding now userId apply) := by
  refine lawful_get ?_
  split_ifs with hstrand
  · exact lawful_pure _
  · unfold Lawful
    rw [ends_bind]
    refine Ends.mono happly (fun a s' h => ?_) fun _ _ herr => herr
    obtain ⟨⟨users, htables, hothers⟩, hrefused⟩ := h
    refine ⟨?_, hrefused⟩
    rw [htables]
    exact .removed userId users (by simpa using hstrand) hothers

lemma deleteUserById_writesOnly {s : AuthState} (hcalm : Calm s) (userId : JsString) :
    WritesOnly (fun _ => false) userId s (deleteUserById userId) := by
  unfold WritesOnly deleteUserById
  rw [ends_bind, ends_get]
  split
  · exact ⟨⟨s.users, rfl, fun _ _ => rfl⟩, fun h => absurd h Bool.false_ne_true⟩
  · rename_i existing hfind
    obtain ⟨-, rfl⟩ := KeyedTable.find_eq_some_iff.1 hfind
    rw [← bind_assoc, ends_bind]
    refine (saveUsers_ends hcalm _ _).mono (fun _ s' h => ?_) fun _ s' h => ?_
    · rw [ends_pure]
      refine ⟨⟨_, h, fun id hid => ?_⟩, fun h => absurd h Bool.false_ne_true⟩
      rw [KeyedTable.find_erase, if_neg hid]
    · rw [h]
      exact ⟨fun _ => rfl, fun id => KeyedTable.find_put_erase hfind⟩

lemma updateUserById_writesOnly {s : AuthState} (hcalm : Calm s)
    (userId : JsString) (changes : UserChanges) :
    WritesOnly (fun result => (!result.isOk)) userId s (updateUserById rt userId changes) := by
  unfold WritesOnly updateUserById
  rw [ends_bind, ends_get]
  split
  · exact writesOnly_pure _
  · rename_i existing hfind
    obtain ⟨-, rfl⟩ := KeyedTable.find_eq_some_iff.1 hfind
    split
    · exact writesOnly_pure _
    · rename_i name hname
      have hid : (nextRecord existing name changes).id = existing.id := rfl
      rw [← bind_assoc, ends_bind]
      refine (saveUsers_ends hcalm _ _).mono (fun _ s' h => ?_) fun _ s' h => ?_
      · rw [ends_pure]
        refine ⟨⟨_, h, fun id hne => ?_⟩, fun h => absurd h Bool.false_ne_true⟩
        rw [KeyedTable.find_put, if_neg fun heq => hne (heq.symm.trans hid)]
      · rw [h]
        refine ⟨fun _ => rfl, fun id => ?_⟩
        rw [KeyedTable.find_put, KeyedTable.find_put, hid]
        rcases eq_or_ne existing.id id with rfl | hne
        · rw [if_pos rfl, hfind]
        · rw [if_neg hne, if_neg hne]

lemma WritesOnly.map {α β : Type} {refused : α → Bool} {refused' : β → Bool}
    {s : AuthState} {p : AuthM α} (h : WritesOnly refused userId s p) (f : α → β)
    (hf : ∀ a, refused' (f a) = true → refused a = true) :
    WritesOnly refused' userId s (do return f (← p)) := by
  unfold WritesOnly at h ⊢
  rw [ends_bind]
  exact h.mono (fun a s' ha => ⟨ha.1, fun hrefused => ha.2 (hf a hrefused)⟩) fun _ _ herr => herr

lemma writeMember_writesOnly {s : AuthState} (hcalm : Calm s)
    (username userId : JsString) (changes : MemberEdit) :
    WritesOnly (fun result => (refusalOf result).isSome) userId s
      (writeMember rt username userId changes) := by
  unfold WritesOnly writeMember
  rw [ends_bind, ends_get]
  split
  · exact writesOnly_pure _
  · rename_i pre hpre
    have hid : pre.id = userId := by
      rw [AuthTables.getUserById] at hpre
      split_ifs at hpre
      exact (KeyedTable.find_eq_some_iff.1 hpre).2
    dsimp only
    split_ifs
    · exact writesOnly_pure _
    · exact writesOnly_pure _
    · rw [← hid]
      refine (updateUserById_writesOnly rt hcalm pre.id _).map _ fun result hrefused => ?_
      cases result with
      | ok user => cases hrefused
      | error refusal => rfl

lemma deleteMember_lawful {s : AuthState} (hcalm : Calm s) (userId : JsString) :
    Lawful (fun result => (refusalOf result).isSome) now s (deleteMember now userId) := by
  have happly : WritesOnly (fun result => (refusalOf result).isSome) userId s (do
      let s ← get
      if s.wouldDeleteLeaveNoOwner userId then pure (.error lastOwnerRecord)
      else
        let _ ← deleteUserById userId
        pure (.ok ())) := by
    unfold WritesOnly
    rw [ends_bind, ends_get]
    split_ifs
    · exact writesOnly_pure _
    · have hmap : WritesOnly (fun result : Except RouteRefusal Unit => (refusalOf result).isSome)
          userId s (do
            let _ ← deleteUserById userId
            pure (.ok ())) :=
        (deleteUserById_writesOnly hcalm userId).map (fun _ => (.ok () : Except RouteRefusal Unit))
          fun _ h => Bool.noConfusion h
      exact hmap
  refine lawful_map (removeOwnerUnlessStranding_lawful happly) _ fun result => ?_
  cases result <;> rfl

lemma demoteMember_lawful {s : AuthState} (hcalm : Calm s)
    (username userId : JsString) (changes : MemberEdit) :
    Lawful (fun result => (refusalOf result).isSome) now s
      (demoteMember rt now username userId changes) := by
  have happly := writeMember_writesOnly rt hcalm username userId
    { changes with role := some .member }
  refine lawful_map (removeOwnerUnlessStranding_lawful happly) _ fun result => ?_
  cases result <;> rfl

/-- **A call that is refused or throws leaves the records as they were, and another makes one of the
changes.** -/
theorem LockoutCall.lawful (now : ℤ) {s : AuthState} (hcalm : Calm s)
    (call : LockoutCall) : Lawful LockoutAnswer.refused now s (call.run rt now) := by
  cases call with
  | revokeSessionByPrefix prefix_ =>
    exact lawful_map (revokeSessionByPrefix_lawful hcalm prefix_) _ fun _ => rfl
  | logoutBySessionHash hash =>
    exact lawful_map (logoutBySessionHash_lawful hcalm hash) _ fun _ => rfl
  | revokeActiveSessionByPrefixForUserId prefix_ userId =>
    exact lawful_map (revokeActiveSessionByPrefixForUserId_lawful hcalm prefix_ userId) _
      fun _ => rfl
  | demoteMember username userId changes =>
    exact lawful_map (demoteMember_lawful rt hcalm username userId changes) _ fun _ => rfl
  | deleteMember userId =>
    exact lawful_map (deleteMember_lawful hcalm userId) _ fun _ => rfl
  | evictSessionsForUserId userId =>
    refine lawful_get ?_
    split_ifs with hthere
    · exact lawful_pure _
    · exact lawful_map (evictSessionsForUserId_lawful hcalm (by simpa using hthere)) _ fun _ => rfl
  | validateByHash hash =>
    exact lawful_map (validateByHash_lawful hcalm hash) _ fun _ => rfl

/-! ## An owner stays signed in -/

lemma ownerSignedIn_iff {s : AuthTables} : s.OwnerSignedIn now ↔
    ∃ v ∈ s.sessions.rows, v.expired now = false ∧ s.ownerBearing v = true := by
  constructor
  · rintro ⟨hash, session, user, hlive, hrole⟩
    rw [AuthTables.sessionLiveness] at hlive
    split at hlive
    · cases hlive
    · rename_i v hfind
      split_ifs at hlive with hexpired
      split at hlive
      · cases hlive
      · rename_i u huser
        cases hlive
        refine ⟨_, (KeyedTable.find_eq_some_iff.1 hfind).1, by simpa using hexpired, ?_⟩
        rw [AuthTables.ownerBearing, huser]
        exact decide_eq_true hrole
  · rintro ⟨v, hmem, hexpired, howner⟩
    rw [AuthTables.ownerBearing] at howner
    split at howner
    · cases howner
    · rename_i user huser
      refine ⟨v.sessionIdHash, v, user, ?_, of_decide_eq_true howner⟩
      rw [AuthTables.sessionLiveness, KeyedTable.find_of_mem hmem]
      simp [hexpired, huser]

/-- No session ends by itself, and an owner is signed in. -/
structure Reachable (first last : ℤ) (s : AuthTables) : Prop where
  noneExpires : s.NoneExpires first last
  signedIn : s.OwnerSignedIn first

lemma expired_mono {now later : ℤ} (hle : now ≤ later)
    (h : v.expired now = true) : v.expired later = true := by
  simp only [StoredSession.expired, Bool.or_eq_true, decide_eq_true_eq] at h ⊢
  omega

lemma AuthTables.NoneExpires.expired_eq {s : AuthTables} {first last now : ℤ}
    (h : s.NoneExpires first last) (hfirst : first ≤ now) (hlast : now ≤ last)
    (hv : v ∈ s.sessions.rows) : v.expired now = v.expired first := by
  rw [Bool.eq_iff_iff]
  exact ⟨fun hnow => h v hv (expired_mono hlast hnow), expired_mono hfirst⟩

lemma ownerBearing_congr {s s' : AuthTables} {v w : StoredSession} (hid : w.userId = v.userId)
    (h : s'.users.find v.userId = s.users.find v.userId) :
    s'.ownerBearing w = s.ownerBearing v := by
  simp only [AuthTables.ownerBearing, AuthTables.getUserById, hid, h]

lemma ownerBearing_isSome {s : AuthTables} (h : s.ownerBearing v = true) :
    (s.getUserById v.userId).isSome = true := by
  rw [AuthTables.ownerBearing] at h
  cases huser : s.getUserById v.userId with
  | none =>
    rw [huser] at h
    cases h
  | some user => rfl

lemma expired_touched {session : StoredSession} {now later : ℤ}
    (h : session.expired later = false) : (session.touched now).expired later = false := by
  simp only [StoredSession.expired, StoredSession.touched, StoredSession.needsRolling,
    Bool.or_eq_false_iff, decide_eq_false_iff_not, decide_eq_true_eq] at h ⊢
  refine ⟨?_, h.2⟩
  split_ifs <;> omega

section Change

variable {first last now : ℤ} {s : AuthTables}

variable {s' : AuthTables} {hash : JsString}

lemma AuthTables.NoneExpires.of_subset (h : s.NoneExpires first last)
    (hsubset : ∀ v ∈ s'.sessions.rows, v ∈ s.sessions.rows) : s'.NoneExpires first last :=
  fun v hv => h v (hsubset v hv)

lemma Reachable.same (h : Reachable first last s) (hsame : SameRecords s s') :
    Reachable first last s' := by
  have hmem (v : StoredSession) : v ∈ s'.sessions.rows ↔ v ∈ s.sessions.rows := by
    have hfind (t : KeyedTable StoredSession.sessionIdHash) :
        v ∈ t.rows ↔ t.find v.sessionIdHash = some v :=
      (KeyedTable.find_eq_some_iff.trans (and_iff_left rfl)).symm
    rw [hfind, hfind, hsame.1]
  obtain ⟨v, hv, hexpired, howner⟩ := ownerSignedIn_iff.1 h.signedIn
  refine ⟨h.noneExpires.of_subset fun v => (hmem v).1, ownerSignedIn_iff.2 ⟨v, (hmem v).2 hv, hexpired, ?_⟩⟩
  rw [ownerBearing_congr rfl (hsame.2 v.userId)]
  exact howner

variable (hfirst : first ≤ now) (hlast : now ≤ last)
include hfirst hlast

lemma Reachable.dropped (h : Reachable first last s)
    (hcheck : s.wouldRevokeLeaveOfficeUnreachable now hash = false) :
    Reachable first last { s with sessions := s.sessions.erase hash } := by
  refine ⟨h.noneExpires.of_subset fun v hv => (KeyedTable.mem_rows_erase.1 hv).1,
    ownerSignedIn_iff.2 ?_⟩
  obtain ⟨v, hv, hexpired, howner⟩ := ownerSignedIn_iff.1 h.signedIn
  rcases eq_or_ne v.sessionIdHash hash with rfl | hne
  · -- The session of the owner goes, so the check found another one.
    rw [AuthTables.wouldRevokeLeaveOfficeUnreachable, KeyedTable.find_of_mem hv] at hcheck
    simp only [howner, Bool.true_and, Bool.not_eq_false', List.any_eq_true, Bool.and_eq_true,
      decide_eq_true_eq, Bool.not_eq_true'] at hcheck
    obtain ⟨other, hother, ⟨hne, hlive⟩, hbearing⟩ := hcheck
    refine ⟨other, KeyedTable.mem_rows_erase.2 ⟨hother, hne⟩, ?_, hbearing⟩
    rw [← h.noneExpires.expired_eq hfirst hlast hother]
    exact hlive
  · exact ⟨v, KeyedTable.mem_rows_erase.2 ⟨hv, hne⟩, hexpired, howner⟩

/-- A record changes or goes, and the office is not stranded by it. -/
lemma Reachable.removed (h : Reachable first last s) {userId : JsString}
    {users : KeyedTable UserRecord.id} (hcheck : s.wouldRemovingOwnerStrandOffice now userId = false)
    (hothers : ∀ id, id ≠ userId → users.find id = s.users.find id) :
    Reachable first last { s with users } := by
  refine ⟨h.noneExpires, ownerSignedIn_iff.2 ?_⟩
  obtain ⟨v, hv, hexpired, howner⟩ := ownerSignedIn_iff.1 h.signedIn
  rcases eq_or_ne v.userId userId with rfl | hne
  · -- The owner who is signed in is the one it is about, so the check found another one.
    have hlive := h.noneExpires.expired_eq hfirst hlast hv
    rw [hexpired] at hlive
    have hthis : (s.sessions.rows.any fun w => !w.expired now && w.userId = v.userId) = true :=
      List.any_eq_true.2 ⟨v, hv, by simp [hlive]⟩
    rw [AuthTables.wouldRemovingOwnerStrandOffice] at hcheck
    rw [AuthTables.ownerBearing] at howner
    cases huser : s.getUserById v.userId with
    | none =>
      rw [huser] at howner
      cases howner
    | some user =>
      rw [huser] at howner hcheck
      simp only [howner, hthis, Bool.true_and, Bool.and_true, Bool.not_eq_false', List.any_eq_true,
        Bool.and_eq_true, decide_eq_true_eq, Bool.not_eq_true'] at hcheck
      obtain ⟨other, hother, ⟨hlive', hne⟩, hbearing⟩ := hcheck
      refine ⟨other, hother, ?_, ?_⟩
      · rw [← h.noneExpires.expired_eq hfirst hlast hother]
        exact hlive'
      · rw [ownerBearing_congr rfl (hothers other.userId hne)]
        exact hbearing
  · refine ⟨v, hv, hexpired, ?_⟩
    rw [ownerBearing_congr rfl (hothers v.userId hne)]
    exact howner

omit hfirst hlast in
lemma Reachable.evicted (h : Reachable first last s) {userId : JsString}
    (hgone : s.getUserById userId = none) :
    Reachable first last
      { s with sessions := s.sessions.filter fun v => v.userId ≠ userId } := by
  refine ⟨h.noneExpires.of_subset fun v hv => (KeyedTable.mem_rows_filter.1 hv).1,
    ownerSignedIn_iff.2 ?_⟩
  obtain ⟨v, hv, hexpired, howner⟩ := ownerSignedIn_iff.1 h.signedIn
  refine ⟨v, KeyedTable.mem_rows_filter.2 ⟨hv, decide_eq_true ?_⟩, hexpired, howner⟩
  rintro rfl
  have hsome := ownerBearing_isSome howner
  rw [hgone] at hsome
  cases hsome

lemma Reachable.stale (h : Reachable first last s)
    (hstale : s.sessionLiveness hash now = .dead true) :
    Reachable first last { s with sessions := s.sessions.erase hash } := by
  refine ⟨h.noneExpires.of_subset fun v hv => (KeyedTable.mem_rows_erase.1 hv).1,
    ownerSignedIn_iff.2 ?_⟩
  obtain ⟨v, hv, hexpired, howner⟩ := ownerSignedIn_iff.1 h.signedIn
  refine ⟨v, KeyedTable.mem_rows_erase.2 ⟨hv, ?_⟩, hexpired, howner⟩
  rintro rfl
  obtain ⟨user, huser⟩ := Option.isSome_iff_exists.1 (ownerBearing_isSome howner)
  have hlive := h.noneExpires.expired_eq hfirst hlast hv
  rw [AuthTables.sessionLiveness, KeyedTable.find_of_mem hv] at hstale
  simp [hlive, hexpired, huser] at hstale

/-- A session is used. -/
lemma Reachable.touched (h : Reachable first last s) {session : StoredSession}
    {user : UserRecord} (hlive : s.sessionLiveness hash now = .live session user) :
    Reachable first last { s with sessions := s.sessions.put (session.touched now) } := by
  have hsession : session ∈ s.sessions.rows ∧ session.expired now = false := by
    rw [AuthTables.sessionLiveness] at hlive
    split at hlive
    · cases hlive
    · rename_i v hfind
      split_ifs at hlive with hexpired
      split at hlive
      · cases hlive
      · cases hlive
        exact ⟨(KeyedTable.find_eq_some_iff.1 hfind).1, by simpa using hexpired⟩
  have hfirst' : session.expired first = false := by
    rw [← h.noneExpires.expired_eq hfirst hlast hsession.1]
    exact hsession.2
  have hlast' : session.expired last = false := by
    by_contra hexpired
    have := h.noneExpires session hsession.1 (by simpa using hexpired)
    rw [hfirst'] at this
    cases this
  refine ⟨fun v hv => ?_, ownerSignedIn_iff.2 ?_⟩
  · rcases KeyedTable.mem_rows_put.1 hv with rfl | hv
    · rw [expired_touched hlast']
      exact nofun
    · exact h.noneExpires v hv.1
  · obtain ⟨v, hv, hexpired, howner⟩ := ownerSignedIn_iff.1 h.signedIn
    by_cases hsame : v.sessionIdHash = session.sessionIdHash
    · have hrow : s.sessions.find session.sessionIdHash = some v :=
        KeyedTable.find_eq_some_iff.2 ⟨hv, hsame⟩
      obtain rfl := Option.some.inj (hrow.symm.trans (KeyedTable.find_of_mem hsession.1))
      exact ⟨_, KeyedTable.mem_rows_put.2 (.inl rfl), expired_touched hfirst', howner⟩
    · exact ⟨v, KeyedTable.mem_rows_put.2 (.inr ⟨hv, hsame⟩), hexpired, howner⟩

/-- **The changes keep an owner signed in.** -/
theorem Reachable.change (h : Reachable first last s)
    (hchange : Change now s s') : Reachable first last s' := by
  cases hchange with
  | same hsame => exact h.same hsame
  | dropped hash hcheck => exact h.dropped hfirst hlast hcheck
  | removed userId users hcheck hothers => exact h.removed hfirst hlast hcheck hothers
  | evicted userId hgone => exact h.evicted hgone
  | stale hash hstale => exact h.stale hfirst hlast hstale
  | touched hash hlive => exact h.touched hfirst hlast hlive

end Change

/-! ## Runs -/

lemma LockoutStep.calm (step : LockoutStep) (s : AuthState) : Calm (step.start s) := by
  intro outcome houtcome
  obtain ⟨saved, -, rfl⟩ := List.mem_map.1 houtcome
  cases saved <;> simp

lemma LockoutStep.change (step : LockoutStep) :
    Change step.now s.toAuthTables (step.next rt s).toAuthTables :=
  (Ends.mono (LockoutCall.lawful rt step.now (step.calm s) step.call) (fun _ _ h => h.1)
    fun _ _ h => Change.same h).after

lemma LockoutStep.same_of_refused {step : LockoutStep}
    (h : step.Refused rt s) : SameRecords s.toAuthTables (step.next rt s).toAuthTables := by
  have hlawful := LockoutCall.lawful rt step.now (step.calm s) step.call
  unfold LockoutStep.Refused at h
  unfold LockoutStep.next AllOrNothing.after
  unfold Lawful Ends at hlawful
  cases hrun : (step.call.run rt step.now).run (step.start s) with
  | ok answer s' =>
    rw [hrun] at h hlawful
    exact hlawful.2 h
  | error err s' =>
    rw [hrun] at hlawful
    exact hlawful

/-- **The office is never stranded.** Over a time in which no session ends by itself, an owner who
was signed in at its start leaves an owner signed in behind every run of the calls, and a call that
is refused or throws leaves sessions and members as they were. -/
theorem office_never_stranded (rt : MemberRuntime) (s : AuthState) (first last : ℤ)
    (hnone : s.NoneExpires first last) (howner : s.OwnerSignedIn first) (steps : List LockoutStep)
    (hperiod : ∀ step ∈ steps, first ≤ step.now ∧ step.now ≤ last) :
    (∀ now, first ≤ now → now ≤ last →
      (Machine.run (LockoutStep.next rt) s steps).OwnerSignedIn now) ∧
    ∀ before step after, steps = before ++ step :: after →
      step.Refused rt (Machine.run (LockoutStep.next rt) s before) →
      SameRecords (Machine.run (LockoutStep.next rt) s before).toAuthTables
        (Machine.run (LockoutStep.next rt) s (before ++ [step])).toAuthTables := by
  refine ⟨fun now hfirst hlast => ?_, fun before step after _ hrefused => ?_⟩
  · have hreachable : Reachable first last
        (Machine.run (LockoutStep.next rt) s steps).toAuthTables :=
      Machine.run_invariant_of_mem (P := fun s : AuthState => Reachable first last s.toAuthTables)
        (fun s step hstep h => h.change hstep.1 hstep.2 (step.change rt s)) ⟨hnone, howner⟩ hperiod
    obtain ⟨v, hv, hexpired, hbearing⟩ := ownerSignedIn_iff.1 hreachable.signedIn
    refine ownerSignedIn_iff.2 ⟨v, hv, ?_, hbearing⟩
    rw [hreachable.noneExpires.expired_eq hfirst hlast hv]
    exact hexpired
  · rw [Machine.run_append]
    exact LockoutStep.same_of_refused rt _ hrefused

/-- A runtime in which nothing was removed. -/
def plainRuntime : MemberRuntime where
  toLowerCase name := name
  isRemovedMemberName _ := false
  versionOf prompt := prompt
  clampNotifRooms user _ := user.notifRooms

def soleOwner : UserRecord where
  id := js "nil"
  name := js "Nil"
  role := .owner
  allowedRooms := []
  notifRooms := []
  memberPrompt := none
  language := none
  pendingSignIn := false
  pack := none

def soleSession : StoredSession where
  sessionIdHash := js "hash"
  sessionPrefix := js "prefix"
  userId := js "nil"
  createdAt := 0
  lastSeenAt := 0
  expiresAt := 100
  absoluteExpiresAt := 1000
  userAgent := none
  device := none

/-- An office with one owner, who has one session. -/
def soleOffice : AuthState where
  users := KeyedTable.empty.put soleOwner
  invites := KeyedTable.empty
  sessions := KeyedTable.empty.put soleSession
  files := ⟨KeyedTable.empty, KeyedTable.empty, KeyedTable.empty⟩
  lastPersist := 0
  saves := []

theorem office_never_stranded_sole :
    (Machine.run (LockoutStep.next plainRuntime) soleOffice
      [⟨.logoutBySessionHash (js "hash"), 10, [true]⟩, ⟨.deleteMember (js "nil"), 15, [false]⟩,
        ⟨.revokeSessionByPrefix (js "prefix"), 20, []⟩]).OwnerSignedIn 20 := by
  refine (office_never_stranded plainRuntime soleOffice 10 20 ?_ ?_ _ ?_).1 20 (by decide) (by decide)
  · intro v hv
    obtain rfl : v = soleSession := by
      simpa [soleOffice, KeyedTable.mem_rows_put, KeyedTable.empty] using hv
    decide
  · refine ownerSignedIn_iff.2 ⟨soleSession, KeyedTable.mem_rows_put.2 (.inl rfl), by decide, ?_⟩
    decide
  · decide

end Isomux.Auth
