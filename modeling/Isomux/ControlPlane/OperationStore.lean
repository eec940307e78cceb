import Isomux.ControlPlane.Lifecycle
import Isomux.Foundations.KeyedTable
import Isomux.Runtime.JsonText

set_option autoImplicit false

/-!
# The store of operations and intents

The part of the store of the control plane that the latch of the creates rests on: the operations
with their leases and versions, the intents of the creates, and the audit. A statement is one change
of the database, which the database makes in one piece or refuses. A transaction makes all its
statements or none.

The database is assumed to keep its primary keys and its unique index, and to run transactions as if
one came after the other. Texts of operations and rows are texts of the runtime, instants are whole
milliseconds.

## Main results

* `Isomux.ControlStore.updateOperation_ok` — what an update of an operation does.
* `Isomux.ControlStore.Fence.Overtaken.follows` — a fence that was overtaken stays so.
-/

namespace Isomux.ControlStore

/-! ## Rows -/

/-- A claim of a holder on a row: only this holder, at this version, may write. -/
structure Fence where
  id : JsString
  version : ℕ
  holder : JsString
  deriving DecidableEq

structure OperationRow where
  id : JsString
  instanceId : JsString
  kind : JsString
  status : OperationStatus
  attempt : ℕ
  nextAttemptAt : ℤ
  leaseUntil : Option ℤ
  leaseHolder : Option JsString
  inactivityDeadlineAt : ℤ
  absoluteDeadlineAt : ℤ
  evidence : JsString
  evidenceAt : ℤ
  inactivityFlagged : ℕ
  absoluteFlagged : ℕ
  version : ℕ
  createdAt : ℤ
  updatedAt : ℤ
  deriving DecidableEq

inductive IntentState where
  | intended
  | created
  | rejected
  | ambiguous
  deriving DecidableEq

structure IntentRow where
  intentId : JsString
  state : IntentState
  latchedAt : ℤ
  plan : JsString
  region : JsString
  providerId : Option JsString
  reason : Option JsString
  version : ℕ
  deriving DecidableEq

structure AuditRow where
  seq : ℕ
  ts : ℤ
  actor : JsString
  instanceId : Option JsString
  action : JsString
  target : JsString
  outcome : JsString
  detail : Option JsString
  deriving DecidableEq

def OperationRow.active (row : OperationRow) : Bool :=
  row.status = .pending || row.status = .running || row.status = .ambiguous

/-- No two operations of one kind are open for one instance: the index `operations_one_active`. -/
def OneActive (rows : List OperationRow) : Prop :=
  rows.Pairwise fun row row' =>
    ¬ (row.active = true ∧ row'.active = true ∧ row.instanceId = row'.instanceId ∧
      row.kind = row'.kind)

instance (rows : List OperationRow) : Decidable (OneActive rows) :=
  inferInstanceAs (Decidable (rows.Pairwise _))

structure Database where
  operations : KeyedTable OperationRow.id
  oneActive : OneActive operations.rows
  createIntents : KeyedTable IntentRow.intentId
  auditEvents : KeyedTable AuditRow.seq
  auditSequence : Option ℕ

inductive Failure where
  /-- A plain error, of the database or of the code. -/
  | error (message : JsString)
  | latchRefused (message : JsString)
  | fenceLost (message : JsString)
  deriving DecidableEq

def Failure.messageOf : Failure → JsString
  | error message => message
  | latchRefused message => message
  | fenceLost message => message

/-- What the database says about a key that is taken. -/
def uniqueViolation (constraint : JsString) : Failure :=
  .error (js "duplicate key value violates unique constraint \"" ++ constraint ++ js "\"")

/-- A transaction: a body that throws leaves the database as it was. -/
def tx {α : Type} (body : Database → Except Failure (α × Database)) (db : Database) :
    Except Failure α × Database :=
  match body db with
  | .ok (value, db') => (.ok value, db')
  | .error failure => (.error failure, db)

/-! ## Operations -/

def getOperation (db : Database) (id : JsString) : Option OperationRow := db.operations.find id

/-- The database with other operations, unless they break the index. -/
def writeOperations (db : Database) (operations : KeyedTable OperationRow.id) :
    Except Failure Database :=
  if h : OneActive operations.rows then .ok { db with operations, oneActive := h }
  else .error (uniqueViolation (js "operations_one_active"))

/-- The row that an update makes of a row: the id stays and the version rises. -/
def OperationRow.set (change : OperationRow → OperationRow) (row : OperationRow) : OperationRow :=
  { change row with id := row.id, version := row.version + 1 }

lemma OperationRow.set_id (change : OperationRow → OperationRow) (row : OperationRow) :
    (row.set change).id = row.id := rfl

/-- `update operations set .., version = version + 1 where id = .. and .. returning *`. -/
def updateOperation (db : Database) (id : JsString) (test : OperationRow → Bool)
    (change : OperationRow → OperationRow) : Except Failure (Option OperationRow × Database) :=
  match getOperation db id with
  | none => .ok (none, db)
  | some row =>
    if test row then do
      let db' ← writeOperations db
        (db.operations.update id (OperationRow.set change) (OperationRow.set_id change))
      return (some (row.set change), db')
    else .ok (none, db)

def enqueue (db : Database) (id instanceId kind : JsString) (status : Option OperationStatus)
    (nextAttemptAt : Option ℤ) (inactivityDeadlineAt absoluteDeadlineAt : ℤ)
    (evidence : Option JsString) (now : ℤ) : Except Failure (OperationRow × Database) :=
  let row : OperationRow :=
    { id, instanceId, kind, status := status.getD .pending, attempt := 0
      nextAttemptAt := nextAttemptAt.getD now, leaseUntil := none, leaseHolder := none
      inactivityDeadlineAt, absoluteDeadlineAt, evidence := evidence.getD (js "\x7b\x7d")
      evidenceAt := now, inactivityFlagged := 0, absoluteFlagged := 0, version := 1
      createdAt := now, updatedAt := now }
  match db.operations.insert row with
  | none => .error (uniqueViolation (js "operations_pkey"))
  | some operations => do
    let db' ← writeOperations db operations
    return (row, db')

def OperationRow.unleased (row : OperationRow) (now : ℤ) : Bool :=
  match row.leaseUntil with
  | none => true
  | some until_ => until_ ≤ now

def tryLease (db : Database) (id : JsString) (expectedVersion : ℕ) (holder : JsString)
    (leaseUntil now : ℤ) : Except Failure (Option OperationRow × Database) :=
  updateOperation db id (fun row => row.version = expectedVersion && row.unleased now) fun row =>
    { row with
      leaseUntil := some leaseUntil, leaseHolder := some holder
      status := if row.status = .pending then .running else row.status
      updatedAt := now }

def Fence.admits (fence : Fence) (row : OperationRow) : Bool :=
  row.version = fence.version && row.leaseHolder = some fence.holder

def renewLease (db : Database) (fence : Fence) (leaseUntil now : ℤ) :
    Except Failure (Option OperationRow × Database) :=
  updateOperation db fence.id fence.admits fun row =>
    { row with leaseUntil := some leaseUntil, updatedAt := now }

/-- What a write may change of an operation: a column that is left out stays. -/
structure OperationPatch where
  status : Option OperationStatus := none
  attempt : Option ℕ := none
  nextAttemptAt : Option ℤ := none
  leaseUntil : Option (Option ℤ) := none
  leaseHolder : Option (Option JsString) := none
  inactivityDeadlineAt : Option ℤ := none
  absoluteDeadlineAt : Option ℤ := none
  evidence : Option JsString := none
  evidenceAt : Option ℤ := none
  inactivityFlagged : Option ℕ := none
  absoluteFlagged : Option ℕ := none

def OperationPatch.applyTo (patch : OperationPatch) (row : OperationRow) : OperationRow :=
  { row with
    status := patch.status.getD row.status
    attempt := patch.attempt.getD row.attempt
    nextAttemptAt := patch.nextAttemptAt.getD row.nextAttemptAt
    leaseUntil := patch.leaseUntil.getD row.leaseUntil
    leaseHolder := patch.leaseHolder.getD row.leaseHolder
    inactivityDeadlineAt := patch.inactivityDeadlineAt.getD row.inactivityDeadlineAt
    absoluteDeadlineAt := patch.absoluteDeadlineAt.getD row.absoluteDeadlineAt
    evidence := patch.evidence.getD row.evidence
    evidenceAt := patch.evidenceAt.getD row.evidenceAt
    inactivityFlagged := patch.inactivityFlagged.getD row.inactivityFlagged
    absoluteFlagged := patch.absoluteFlagged.getD row.absoluteFlagged }

/-- Any other write to an operation, fenced by holder and version. -/
def casOperation (db : Database) (fence : Fence) (patch : OperationPatch) (now : ℤ) :
    Except Failure (Option OperationRow × Database) :=
  updateOperation db fence.id fence.admits fun row => { patch.applyTo row with updatedAt := now }

inductive Deadline where
  | inactivity
  | absolute
  deriving DecidableEq

/-- Mark an operation that nobody holds as having blown a deadline. -/
def flagDeadline (db : Database) (id : JsString) (expectedVersion : ℕ) (which : Deadline)
    (now : ℤ) : Except Failure (Option OperationRow × Database) :=
  match which with
  | .absolute =>
    updateOperation db id (fun row => row.version = expectedVersion && row.absoluteFlagged = 0 &&
      row.unleased now) fun row => { row with absoluteFlagged := 1, updatedAt := now }
  | .inactivity =>
    updateOperation db id (fun row => row.version = expectedVersion && row.inactivityFlagged = 0 &&
      row.unleased now) fun row => { row with inactivityFlagged := 1, updatedAt := now }

/-- A reboot that has not begun gives way to a power-off. -/
def supersedeReboot (db : Database) (id evidence : JsString) (now : ℤ) :
    Except Failure (Option OperationRow × Database) :=
  updateOperation db id (fun row => row.status = .pending) fun row =>
    { row with status := .failed, evidence, evidenceAt := now, updatedAt := now }

/-! ## Intents -/

def getIntent (db : Database) (intentId : JsString) : Option IntentRow :=
  db.createIntents.find intentId

/-- `insert into create_intents ..`: the primary key decides. -/
def insertIntent (db : Database) (row : IntentRow) : Except Failure Database :=
  match db.createIntents.insert row with
  | none => .error (uniqueViolation (js "create_intents_pkey"))
  | some createIntents => .ok { db with createIntents }

structure IntentPatch where
  state : Option IntentState := none
  providerId : Option (Option JsString) := none
  reason : Option (Option JsString) := none

/-- The row with the columns of a patch, at the next version. -/
def IntentPatch.applyTo (patch : IntentPatch) (row : IntentRow) : IntentRow :=
  { row with
    state := patch.state.getD row.state
    providerId := patch.providerId.getD row.providerId
    reason := patch.reason.getD row.reason
    version := row.version + 1 }

lemma IntentPatch.applyTo_intentId (patch : IntentPatch) (row : IntentRow) :
    (patch.applyTo row).intentId = row.intentId := rfl

def casIntent (db : Database) (intentId : JsString) (expectedVersion : ℕ) (patch : IntentPatch) :
    Except Failure (Option IntentRow × Database) :=
  if patch.state = some .intended then
    .error (.error (js "an intent may never be returned to the intended state"))
  else
    match getIntent db intentId with
    | none => .ok (none, db)
    | some row =>
      if row.version = expectedVersion then
        .ok (some (patch.applyTo row), { db with
          createIntents := db.createIntents.update intentId patch.applyTo patch.applyTo_intentId })
      else .ok (none, db)

/-! ## Audit -/

/-- The next number of the sequence `audit`. -/
def nextAuditSeq (db : Database) : Except Failure (ℕ × Database) :=
  match db.auditSequence with
  | none => .error (.error (js "no sequence named audit"))
  | some value => .ok (value + 1, { db with auditSequence := some (value + 1) })

/-- Append one event to the audit; `row` is the event but for its number. -/
def appendAudit (db : Database) (row : AuditRow) : Except Failure (AuditRow × Database) := do
  let (seq, db') ← nextAuditSeq db
  match db'.auditEvents.insert { row with seq } with
  | none => .error (uniqueViolation (js "audit_events_pkey"))
  | some auditEvents => return ({ row with seq }, { db' with auditEvents })

/-! ## What the statements do -/

variable {db db' db'' : Database} {fence : Fence}

/-- A database comes behind another one: an operation is still there, and it is as it was or its
version has risen. -/
def Follows (db db' : Database) : Prop :=
  ∀ id row, getOperation db id = some row →
    ∃ row', getOperation db' id = some row' ∧ (row' = row ∨ row.version < row'.version)

lemma Follows.refl (db : Database) : Follows db db := fun _ row h => ⟨row, h, Or.inl rfl⟩

lemma Follows.trans (h : Follows db db') (h' : Follows db' db'') : Follows db db'' := by
  intro id row hrow
  obtain ⟨row', hrow', hor⟩ := h id row hrow
  obtain ⟨row'', hrow'', hor'⟩ := h' id row' hrow'
  refine ⟨row'', hrow'', ?_⟩
  rcases hor with rfl | hlt
  · exact hor'
  · rcases hor' with rfl | hlt'
    · exact Or.inr hlt
    · exact Or.inr (hlt.trans hlt')

lemma Follows.of_eq (h : db'.operations = db.operations) : Follows db db' := by
  intro id row hrow
  exact ⟨row, by rwa [getOperation, h], Or.inl rfl⟩

/-- The fence stands: its operation is there at its version, held by its holder. -/
def Fence.Holds (fence : Fence) (db : Database) : Prop :=
  ∃ row, getOperation db fence.id = some row ∧ fence.admits row = true

instance (fence : Fence) (db : Database) : Decidable (fence.Holds db) :=
  match h : getOperation db fence.id with
  | none => isFalse (by rintro ⟨row, hrow, -⟩; simp [hrow] at h)
  | some row =>
    if hadmits : fence.admits row = true then isTrue ⟨row, h, hadmits⟩
    else isFalse (by
      rintro ⟨row', hrow, hadmits'⟩
      obtain rfl : row' = row := Option.some.inj (hrow.symm.trans h)
      exact hadmits hadmits')

/-- The operation has moved on since the fence was taken. -/
def Fence.Overtaken (fence : Fence) (db : Database) : Prop :=
  ∃ row, getOperation db fence.id = some row ∧ fence.version < row.version

lemma Fence.Overtaken.not_holds (h : fence.Overtaken db) : ¬ fence.Holds db := by
  obtain ⟨row, hrow, hlt⟩ := h
  rintro ⟨row', hrow', hadmits⟩
  obtain rfl : row' = row := Option.some.inj (hrow'.symm.trans hrow)
  rw [admits, Bool.and_eq_true, decide_eq_true_eq] at hadmits
  omega

lemma Fence.Overtaken.follows (h : fence.Overtaken db) (hdb : Follows db db') :
    fence.Overtaken db' := by
  obtain ⟨row, hrow, hlt⟩ := h
  obtain ⟨row', hrow', rfl | hlt'⟩ := hdb fence.id row hrow
  · exact ⟨row', hrow', hlt⟩
  · exact ⟨row', hrow', hlt.trans hlt'⟩

lemma bind_eq_ok {α β : Type} {x : Except Failure α} {f : α → Except Failure β} {b : β} :
    x >>= f = .ok b ↔ ∃ a, x = .ok a ∧ f a = .ok b := by
  cases x with
  | error failure =>
    constructor
    · intro h
      cases h
    · rintro ⟨a, ha, -⟩
      cases ha
  | ok a =>
    constructor
    · intro h
      exact ⟨a, rfl, h⟩
    · rintro ⟨a', ha, h⟩
      cases ha
      exact h

lemma map_eq_ok {α β : Type} {x : Except Failure α} {f : α → β} {b : β} :
    f <$> x = .ok b ↔ ∃ a, x = .ok a ∧ f a = b := by
  cases x with
  | error failure =>
    constructor
    · intro h
      cases h
    · rintro ⟨a, ha, -⟩
      cases ha
  | ok a =>
    constructor
    · intro h
      exact ⟨a, rfl, Except.ok.inj h⟩
    · rintro ⟨a', ha, rfl⟩
      cases ha
      rfl

lemma writeOperations_ok {operations : KeyedTable OperationRow.id}
    (h : writeOperations db operations = .ok db') :
    db'.operations = operations ∧ db'.createIntents = db.createIntents ∧
      db'.auditEvents = db.auditEvents := by
  unfold writeOperations at h
  split_ifs at h with hactive
  obtain rfl := Except.ok.inj h
  exact ⟨rfl, rfl, rfl⟩

variable {change : OperationRow → OperationRow} {test : OperationRow → Bool} {id : JsString}
  {row : OperationRow}

lemma id_of_getOperation (h : getOperation db id = some row) :
    row.id = id := by
  simpa using List.find?_some h

lemma getOperation_of_eq (h : db'.operations = db.operations) (k : JsString) :
    getOperation db' k = getOperation db k := by
  rw [getOperation, getOperation, h]

lemma updateOperation_made
    {written : OperationRow}
    (h : updateOperation db id test change = .ok (some written, db')) :
    (∃ row, getOperation db id = some row ∧ test row = true ∧ written = row.set change) ∧
      (∀ k, getOperation db' k = if k = id then some written else getOperation db k) ∧
      db'.createIntents = db.createIntents ∧ db'.auditEvents = db.auditEvents := by
  unfold updateOperation at h
  cases hrow : getOperation db id with
  | none =>
    rw [hrow] at h
    cases h
  | some row =>
    simp only [hrow] at h
    split_ifs at h with htest
    · obtain ⟨db₁, hwrite, hres⟩ := bind_eq_ok.1 h
      obtain ⟨hwritten, rfl⟩ := Prod.mk.inj (Except.ok.inj hres)
      obtain rfl := Option.some.inj hwritten
      obtain ⟨hoperations, hothers⟩ := writeOperations_ok hwrite
      refine ⟨⟨row, rfl, htest, rfl⟩, fun k => ?_, hothers⟩
      rw [getOperation, hoperations, KeyedTable.find_update]
      split_ifs with hk
      · subst hk
        exact congrArg (Option.map (OperationRow.set change)) hrow
      · rfl
    · cases h

lemma updateOperation_none
    (h : updateOperation db id test change = .ok (none, db')) : db' = db := by
  unfold updateOperation at h
  cases hrow : getOperation db id with
  | none =>
    rw [hrow] at h
    exact ((Prod.mk.inj (Except.ok.inj h)).2).symm
  | some row =>
    simp only [hrow] at h
    split_ifs at h
    · obtain ⟨db₁, -, hres⟩ := bind_eq_ok.1 h
      cases hres
    · exact ((Prod.mk.inj (Except.ok.inj h)).2).symm

/-- **What an update of an operation does.** It finds no row to change and changes nothing, or it
changes the row under the id, whose version rises by one. -/
theorem updateOperation_ok
    {result : Option OperationRow}
    (h : updateOperation db id test change = .ok (result, db')) :
    (result = none ∧ db' = db) ∨
      ∃ row, getOperation db id = some row ∧ test row = true ∧ result = some (row.set change) ∧
        getOperation db' id = result ∧ Follows db db' ∧ db'.createIntents = db.createIntents ∧
        db'.auditEvents = db.auditEvents := by
  cases result with
  | none => exact Or.inl ⟨rfl, updateOperation_none h⟩
  | some written =>
    obtain ⟨⟨row, hrow, htest, rfl⟩, hget, hothers⟩ := updateOperation_made h
    refine Or.inr ⟨row, hrow, htest, rfl, by rw [hget, if_pos rfl], ?_, hothers⟩
    intro k r hr
    rw [hget]
    split_ifs with hk
    · obtain rfl : r = row := Option.some.inj ((hk ▸ hr).symm.trans hrow)
      exact ⟨r.set change, rfl, Or.inr (Nat.lt_succ_self r.version)⟩
    · exact ⟨r, hr, Or.inl rfl⟩

lemma updateOperation_frame
    {result : Option OperationRow}
    (h : updateOperation db id test change = .ok (result, db')) :
    Follows db db' ∧ db'.createIntents = db.createIntents := by
  rcases updateOperation_ok h with ⟨-, rfl⟩ | ⟨row, -, -, -, -, hfollows, hintents, -⟩
  · exact ⟨Follows.refl db', rfl⟩
  · exact ⟨hfollows, hintents⟩

lemma enqueue_made {id instanceId kind : JsString} {status : Option OperationStatus}
    {nextAttemptAt : Option ℤ} {inactivityDeadlineAt absoluteDeadlineAt : ℤ}
    {evidence : Option JsString} {now : ℤ}
    (h : enqueue db id instanceId kind status nextAttemptAt inactivityDeadlineAt absoluteDeadlineAt
      evidence now = .ok (row, db')) :
    getOperation db id = none ∧ row.id = id ∧ row.leaseHolder = none ∧
      (∀ k, getOperation db' k = if k = id then some row else getOperation db k) ∧
      Follows db db' ∧ db'.createIntents = db.createIntents := by
  unfold enqueue at h
  dsimp only at h
  split at h
  · cases h
  · rename_i operations hinsert
    obtain ⟨db₁, hwrite, hres⟩ := bind_eq_ok.1 h
    obtain ⟨hrow, rfl⟩ := Prod.mk.inj (Except.ok.inj hres)
    obtain ⟨hoperations, hintents, -⟩ := writeOperations_ok hwrite
    have hfresh : getOperation db id = none := by
      by_contra hsome
      obtain ⟨r, hr⟩ := Option.ne_none_iff_exists'.1 hsome
      exact (KeyedTable.insert_eq_some hinsert).1 (KeyedTable.has_iff_find.2 ⟨r, hr⟩)
    have hget : ∀ k, getOperation db₁ k = if k = id then some row else getOperation db k := by
      intro k
      rw [getOperation, hoperations, KeyedTable.find_insert hinsert, ← hrow]
      simp only [eq_comm (a := id)]
      rfl
    refine ⟨hfresh, hrow ▸ rfl, hrow ▸ rfl, hget, fun k r hr => ⟨r, ?_, Or.inl rfl⟩, hintents⟩
    rw [hget, if_neg, hr]
    rintro rfl
    cases hfresh.symm.trans hr

lemma insertIntent_ok {row : IntentRow} (h : insertIntent db row = .ok db') :
    getIntent db row.intentId = none ∧ getIntent db' row.intentId = some row ∧
      (∀ k, db.createIntents.Has k → db'.createIntents.Has k) ∧
      db'.operations = db.operations ∧ db'.auditEvents = db.auditEvents := by
  unfold insertIntent at h
  split at h
  · cases h
  · rename_i createIntents hinsert
    obtain rfl := Except.ok.inj h
    obtain ⟨hfresh, -⟩ := KeyedTable.insert_eq_some hinsert
    refine ⟨?_, ?_, fun k hk => (KeyedTable.has_insert hinsert).2 (Or.inl hk), rfl, rfl⟩
    · by_contra hsome
      obtain ⟨found, hfound⟩ := Option.ne_none_iff_exists'.1 hsome
      exact hfresh (KeyedTable.has_iff_find.2 ⟨found, hfound⟩)
    · rw [getIntent, KeyedTable.find_insert hinsert, if_pos rfl]

lemma casIntent_frame {intentId : JsString} {expectedVersion : ℕ} {patch : IntentPatch}
    {result : Option IntentRow}
    (h : casIntent db intentId expectedVersion patch = .ok (result, db')) :
    (∀ k, db.createIntents.Has k → db'.createIntents.Has k) ∧ db'.operations = db.operations := by
  unfold casIntent at h
  split_ifs at h
  cases hrow : getIntent db intentId with
  | none =>
    simp only [hrow] at h
    obtain ⟨-, rfl⟩ := Prod.mk.inj (Except.ok.inj h)
    exact ⟨fun k hk => hk, rfl⟩
  | some row =>
    simp only [hrow] at h
    split_ifs at h
    · obtain ⟨-, rfl⟩ := Prod.mk.inj (Except.ok.inj h)
      exact ⟨fun k hk => by simpa only [KeyedTable.has_update] using hk, rfl⟩
    · obtain ⟨-, rfl⟩ := Prod.mk.inj (Except.ok.inj h)
      exact ⟨fun k hk => hk, rfl⟩

lemma nextAuditSeq_ok {seq : ℕ} (h : nextAuditSeq db = .ok (seq, db')) :
    db'.operations = db.operations ∧ db'.createIntents = db.createIntents ∧
      db'.auditEvents = db.auditEvents := by
  unfold nextAuditSeq at h
  cases hvalue : db.auditSequence with
  | none =>
    rw [hvalue] at h
    cases h
  | some value =>
    rw [hvalue] at h
    obtain ⟨-, rfl⟩ := Prod.mk.inj (Except.ok.inj h)
    exact ⟨rfl, rfl, rfl⟩

lemma appendAudit_ok {row written : AuditRow} (h : appendAudit db row = .ok (written, db')) :
    db'.operations = db.operations ∧ db'.createIntents = db.createIntents ∧
      db'.auditEvents.rows = db.auditEvents.rows ++ [written] ∧
      written = { row with seq := written.seq } := by
  obtain ⟨⟨seq, db₁⟩, hseq, hinsert⟩ := bind_eq_ok.1 h
  obtain ⟨hoperations, hintents, haudits⟩ := nextAuditSeq_ok hseq
  dsimp only at hinsert
  split at hinsert
  · cases hinsert
  · rename_i auditEvents hrow
    obtain ⟨rfl, rfl⟩ := Prod.mk.inj (Except.ok.inj hinsert)
    refine ⟨hoperations, hintents, ?_, rfl⟩
    rw [← haudits]
    exact (KeyedTable.insert_eq_some hrow).2

end Isomux.ControlStore
