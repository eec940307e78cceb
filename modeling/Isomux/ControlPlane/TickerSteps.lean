import Isomux.ControlPlane.Ticker
import Isomux.Foundations.Tenure
import Isomux.Foundations.Trace

set_option autoImplicit false

/-!
# What an event does to the operations

Every event of a run makes some statements on operations, and each statement adds a line to the
history. What a line says bounds what its statement did to the row: a lease is taken of a row that is
active and that nobody holds, only the holder of a row renews, writes and records, and a flag
changes nothing but flags.

## Main results

* `Isomux.Ticker.step_effect` — what every event does to the operations.
* `Isomux.Ticker.step_tickers_of_ne` — an event of one ticker leaves the others alone.
-/

namespace Isomux.Ticker

open ControlStore

/-! ## Lines of the history -/

def Act.holder : Act → Option JsString
  | .opened => none
  | .leased h => some h
  | .renewed h => some h
  | .wrote h => some h
  | .recorded h _ _ => some h
  | .flagged _ => none
  | .superseded => none

/-- The rows differ at most in what a flag changes. -/
def SameButFlags (row row' : ControlStore.OperationRow) : Prop :=
  row' = { row with
    inactivityFlagged := row'.inactivityFlagged, absoluteFlagged := row'.absoluteFlagged
    version := row'.version, updatedAt := row'.updatedAt }

lemma SameButFlags.refl (row : ControlStore.OperationRow) : SameButFlags row row := rfl

lemma SameButFlags.trans {row row' row'' : ControlStore.OperationRow} (h : SameButFlags row row')
    (h' : SameButFlags row' row'') : SameButFlags row row'' := by
  unfold SameButFlags at h h' ⊢
  rw [h', h]

lemma SameButFlags.kept {row row' : ControlStore.OperationRow} (h : SameButFlags row row') :
    row'.active = row.active ∧ row'.leaseHolder = row.leaseHolder ∧
      row'.leaseUntil = row.leaseUntil := by
  rw [h]
  exact ⟨rfl, rfl, rfl⟩

/-- What a line of the history says about the row before its statement and behind it. -/
def Done (clock : ℤ) (row row' : ControlStore.OperationRow) : Act → Prop
  | .opened => False
  | .leased h => row.active = true ∧ (∃ now ≤ clock, row.unleased now = true) ∧
      row'.leaseHolder = some h
  | .renewed h => row.leaseHolder = some h ∧ row'.leaseHolder = some h
  | .wrote h => row.leaseHolder = some h ∧ row'.leaseHolder = some h ∧
      row'.leaseUntil = row.leaseUntil
  | .recorded h result successor => row.leaseHolder = some h ∧ row'.leaseHolder = none ∧
      (result.terminal = true → row'.active = false) ∧
      (successor.isSome = true → result.terminal = true)
  | .flagged _ => SameButFlags row row'
  | .superseded => row.active = true ∧ row'.leaseHolder = row.leaseHolder ∧
      row'.leaseUntil = row.leaseUntil

/-- The statement behind a line of the history. -/
inductive Made (clock : ℤ) (db db' : Database) (entry : Entry) : Prop
  | opened (row : ControlStore.OperationRow) (hact : entry.act = .opened)
      (hfresh : getOperation db entry.op = none) (hfree : row.leaseHolder = none)
      (hget : ∀ k, getOperation db' k = if k = entry.op then some row else getOperation db k)
  | changed (row row' : ControlStore.OperationRow) (hrow : getOperation db entry.op = some row)
      (hversion : row'.version = row.version + 1) (hdone : Done clock row row' entry.act)
      (hget : ∀ k, getOperation db' k = if k = entry.op then some row' else getOperation db k)

/-- The statements behind some lines of the history. -/
inductive MadeAll (clock : ℤ) : Database → List Entry → Database → Prop
  | nil {db db' : Database} (hget : ∀ k, getOperation db' k = getOperation db k) :
    MadeAll clock db [] db'
  | cons {db db₁ db' : Database} {entry : Entry} {entries : List Entry}
    (hmade : Made clock db db₁ entry) (hrest : MadeAll clock db₁ entries db') :
    MadeAll clock db (entry :: entries) db'

variable {clock : ℤ} {db db' db₁ : Database} {entry : Entry} {entries : List Entry}

lemma MadeAll.one (h : Made clock db db' entry) : MadeAll clock db [entry] db' :=
  .cons h (.nil fun _ => rfl)

lemma MadeAll.of_same (hget : ∀ k, getOperation db₁ k = getOperation db k)
    (h : MadeAll clock db₁ entries db') : MadeAll clock db entries db' := by
  cases h with
  | nil hget' => exact .nil fun k => (hget' k).trans (hget k)
  | cons hmade hrest =>
    refine .cons ?_ hrest
    cases hmade with
    | opened row hact hfresh hfree hget' =>
      exact .opened row hact ((hget _).symm.trans hfresh) hfree fun k => by rw [hget' k, hget k]
    | changed row row' hrow hversion hdone hget' =>
      exact .changed row row' ((hget _).symm.trans hrow) hversion hdone fun k => by
        rw [hget' k, hget k]

/-- Somebody has changed the operation. -/
def Touched (id : JsString) (lines : List Entry) : Prop := ∃ entry ∈ lines, entry.op = id

/-- What some lines do to a row: a line on its operation raises its version, the others leave it. -/
def Carried (id : JsString) (lines : List Entry) (row row' : ControlStore.OperationRow) : Prop :=
  (Touched id lines → row.version < row'.version) ∧ (¬ Touched id lines → row' = row)

variable {id : JsString} {lines lines' : List Entry} {row row' row'' : ControlStore.OperationRow}

lemma Carried.nil : Carried id [] row row := ⟨by simp [Touched], fun _ => rfl⟩

lemma Carried.le (h : Carried id lines row row') : row.version ≤ row'.version := by
  by_cases htouched : Touched id lines
  · exact (h.1 htouched).le
  · rw [h.2 htouched]

lemma Carried.trans (h : Carried id lines row row') (h' : Carried id lines' row' row'') :
    Carried id (lines ++ lines') row row'' := by
  have happend : Touched id (lines ++ lines') ↔ Touched id lines ∨ Touched id lines' := by
    simp only [Touched, List.mem_append, or_and_right, exists_or]
  refine ⟨fun htouched => ?_, fun hnot => ?_⟩
  · rcases happend.1 htouched with hfirst | hlater
    · exact (h.1 hfirst).trans_le h'.le
    · exact h.le.trans_lt (h'.1 hlater)
  · rw [happend, not_or] at hnot
    rw [h'.2 hnot.2, h.2 hnot.1]

lemma Carried.same_or_later (h : Carried id lines row row') :
    row' = row ∨ row.version < row'.version := by
  by_cases htouched : Touched id lines
  · exact Or.inr (h.1 htouched)
  · exact Or.inl (h.2 htouched)

lemma Made.carried (hmade : Made clock db db' entry) (hrow : getOperation db id = some row) :
    ∃ row', getOperation db' id = some row' ∧ Carried id [entry] row row' := by
  have hsingle : Touched id [entry] ↔ id = entry.op := by simp [Touched, eq_comm]
  cases hmade with
  | opened new hact hfresh hfree hget =>
    have hne : id ≠ entry.op := by
      rintro rfl
      rw [hfresh] at hrow
      cases hrow
    exact ⟨row, by rw [hget, if_neg hne, hrow], fun h => absurd (hsingle.1 h) hne, fun _ => rfl⟩
  | changed old new hold hversion hdone hget =>
    by_cases hid : id = entry.op
    · subst hid
      obtain rfl : old = row := Option.some.inj (hold.symm.trans hrow)
      exact ⟨new, by rw [hget, if_pos rfl], fun _ => by omega, fun h => absurd (hsingle.2 rfl) h⟩
    · exact ⟨row, by rw [hget, if_neg hid, hrow], fun h => absurd (hsingle.1 h) hid, fun _ => rfl⟩

lemma MadeAll.carried (hmade : MadeAll clock db entries db')
    (hrow : getOperation db id = some row) :
    ∃ row', getOperation db' id = some row' ∧ Carried id entries row row' := by
  induction hmade generalizing row with
  | nil hget => exact ⟨row, (hget id).trans hrow, .nil⟩
  | cons hmade _ ih =>
    obtain ⟨row₁, hrow₁, hfirst⟩ := hmade.carried hrow
    obtain ⟨row', hrow', hlater⟩ := ih hrow₁
    exact ⟨row', hrow', hfirst.trans hlater⟩

lemma MadeAll.follows (h : MadeAll clock db entries db') : Follows db db' := by
  intro id row hrow
  obtain ⟨row', hrow', hcarried⟩ := h.carried hrow
  exact ⟨row', hrow', hcarried.same_or_later⟩

lemma Made.follows (h : Made clock db db' entry) : Follows db db' := (MadeAll.one h).follows

/-! ## Statements -/

variable {successor : Option ControlStore.OperationRow} {op : ControlStore.OperationRow}
  {result : HandlerResult} {now now' : ℤ} {others : Others}

lemma active_eq_false_iff :
    row.active = false ↔ row.status = .succeeded ∨ row.status = .failed := by
  unfold OperationRow.active
  cases row.status <;> simp

lemma made_of_update {id : JsString} {test : ControlStore.OperationRow → Bool}
    {change : ControlStore.OperationRow → ControlStore.OperationRow}
    {written : ControlStore.OperationRow} {act : Act}
    (h : updateOperation db id test change = .ok (some written, db'))
    (hdone : ∀ row, getOperation db id = some row → test row = true →
      Done clock row (row.set change) act) :
    Made clock db db' { op := id, act } := by
  obtain ⟨⟨row, hrow, htest, rfl⟩, hget, -⟩ := updateOperation_made h
  exact .changed row _ hrow rfl (hdone row hrow htest) hget

lemma made_of_enqueue {id instanceId kind : JsString} {status : Option OperationStatus}
    {nextAttemptAt : Option ℤ} {inactivityDeadlineAt absoluteDeadlineAt : ℤ}
    {evidence : Option JsString} {now : ℤ}
    (h : enqueue db id instanceId kind status nextAttemptAt inactivityDeadlineAt absoluteDeadlineAt
      evidence now = .ok (row, db')) :
    Made clock db db' { op := row.id, act := .opened } := by
  obtain ⟨hfresh, hid, hfree, hget, -⟩ := enqueue_made h
  rw [← hid] at hfresh hget
  exact .opened row rfl hfresh hfree hget

lemma appendAudits_ok {rows : List AuditRow} (h : appendAudits db rows = .ok db') :
    db'.operations = db.operations := by
  induction rows generalizing db with
  | nil => rw [Except.ok.inj h]
  | cons row rows ih =>
    obtain ⟨⟨written, db₁⟩, happend, hrest⟩ := bind_eq_ok.1 h
    exact (ih hrest).trans (appendAudit_ok happend).1

lemma enqueueSuccessor_made {goal : Option Goal}
    (h : enqueueSuccessor op goal now now' db = .ok (successor, db')) :
    MadeAll clock db (successor.map fun row => { op := row.id, act := .opened }).toList db' := by
  unfold enqueueSuccessor at h
  split at h
  · obtain ⟨rfl, rfl⟩ := Prod.mk.inj (Except.ok.inj h)
    exact .nil fun _ => rfl
  · obtain ⟨⟨seq, db₁⟩, hseq, h⟩ := bind_eq_ok.1 h
    obtain ⟨⟨row, db₂⟩, hrow, h⟩ := bind_eq_ok.1 h
    obtain ⟨rfl, rfl⟩ := Prod.mk.inj (Except.ok.inj h)
    exact .of_same (getOperation_of_eq (nextAuditSeq_ok hseq).1) (.one (made_of_enqueue hrow))

lemma finishOthers_made
    (h : finishOthers op result others now now' db = .ok (successor, db')) :
    MadeAll clock db (successor.map fun row => { op := row.id, act := .opened }).toList db' := by
  obtain ⟨rows, -, h⟩ := bind_eq_ok.1 h
  obtain ⟨db₁, hattention, h⟩ := bind_eq_ok.1 h
  have hsame := appendAudits_ok hattention
  have hnothing : ∀ {db₂ : Database}, db₂.operations = db.operations →
      (Except.ok (none, db₂) : Except Failure (Option ControlStore.OperationRow × Database)) =
        .ok (successor, db') →
      MadeAll clock db (successor.map fun row => { op := row.id, act := .opened }).toList db' := by
    intro db₂ heq hok
    obtain ⟨rfl, rfl⟩ := Prod.mk.inj (Except.ok.inj hok)
    exact .nil (getOperation_of_eq heq)
  cases result with
  | done evidence =>
    obtain ⟨⟨row, db₂⟩, haudit, h⟩ := bind_eq_ok.1 h
    obtain ⟨rows', -, h⟩ := bind_eq_ok.1 h
    obtain ⟨db₃, hservice, h⟩ := bind_eq_ok.1 h
    have hsame' : db₃.operations = db.operations :=
      (appendAudits_ok hservice).trans ((appendAudit_ok haudit).1.trans hsame)
    exact .of_same (getOperation_of_eq hsame') (enqueueSuccessor_made h)
  | fatal reason evidence =>
    obtain ⟨⟨row, db₂⟩, haudit, h⟩ := bind_eq_ok.1 h
    exact hnothing ((appendAudit_ok haudit).1.trans hsame) h
  | progress evidence | waiting evidence | retry reason evidence | ambiguous reason evidence =>
    exact hnothing hsame h

lemma terminal_of_successor
    (h : finishOthers op result others now now' db = .ok (successor, db'))
    (hsome : successor.isSome = true) : result.terminal = true := by
  obtain ⟨rows, -, h⟩ := bind_eq_ok.1 h
  obtain ⟨db₁, -, h⟩ := bind_eq_ok.1 h
  cases result with
  | done evidence => rfl
  | fatal reason evidence => rfl
  | progress evidence | waiting evidence | retry reason evidence | ambiguous reason evidence =>
    simp [← (Prod.mk.inj (Except.ok.inj h)).1] at hsome

lemma withNotedFailure_ok
    {failure : Option Json} {current : Option ControlStore.OperationRow} {now : ℤ}
    {patch patch' : OperationPatch}
    (h : withNotedFailure op result failure current now patch = .ok patch') :
    patch'.status = patch.status ∧ patch'.leaseUntil = patch.leaseUntil ∧
      patch'.leaseHolder = patch.leaseHolder := by
  unfold withNotedFailure at h
  split at h
  · rw [Except.ok.inj h]
    exact ⟨rfl, rfl, rfl⟩
  · split_ifs at h
    · dsimp only at h
      split at h
      · cases h
      · rw [← Except.ok.inj h]
        exact ⟨rfl, rfl, rfl⟩
    · rw [Except.ok.inj h]
      exact ⟨rfl, rfl, rfl⟩

lemma resultPatch_applyTo (d : Deadlines) (op : ControlStore.OperationRow) (result : HandlerResult)
    (now : ℤ) :
    (resultPatch d op result now).leaseUntil = some none ∧
      (resultPatch d op result now).leaseHolder = some none ∧
      (result.terminal = true → (resultPatch d op result now).status = some .succeeded ∨
        (resultPatch d op result now).status = some .failed) := by
  cases result <;> simp [resultPatch, HandlerResult.terminal]

/-- **A result that is recorded.** Its holder held the row, which is released; what follows the
operation is opened. -/
theorem finishBody_made {d : Deadlines} {fence : Fence}
    {failure : Option Json} {current : Option ControlStore.OperationRow}
        (h : finishBody d fence op result failure current others now now' db = .ok (successor, db')) :
    MadeAll clock db ({ op := fence.id, act := .recorded fence.holder result (successor.map (·.id)) } ::
      ((successor.map (·.id)).map fun id => { op := id, act := .opened : Entry }).toList) db' := by
  obtain ⟨patch, hpatch, h⟩ := bind_eq_ok.1 h
  obtain ⟨hstatus, huntil, hholder⟩ := withNotedFailure_ok hpatch
  obtain ⟨huntil', hholder', hterminal⟩ := resultPatch_applyTo d op result now
  obtain ⟨⟨written, db₁⟩, hcas, h⟩ := bind_eq_ok.1 h
  cases written with
  | none => cases h
  | some row =>
    refine .cons (made_of_update hcas fun old _ hadmits => ?_) ?_
    · rw [Fence.admits, Bool.and_eq_true, decide_eq_true_eq, decide_eq_true_eq] at hadmits
      have hstatus' : ∀ status, (resultPatch d op result now).status = some status →
          patch.status.getD old.status = status := by
        intro status heq
        rw [hstatus, heq, Option.getD_some]
      refine ⟨hadmits.2, ?_, fun hconcludes => active_eq_false_iff.2 ?_, fun hopens => ?_⟩
      · change patch.leaseHolder.getD old.leaseHolder = none
        rw [hholder, hholder', Option.getD_some]
      · exact (hterminal hconcludes).imp (hstatus' _) (hstatus' _)
      · exact terminal_of_successor h (by simpa using hopens)
    · rw [Option.map_map]
      exact finishOthers_made h

/-! ## What a ticker may rely on -/

/-- A row that a ticker has read: it was active then. -/
def Seen (db : Database) (row : ControlStore.OperationRow) : Prop :=
  row.active = true ∧
    ∃ row', getOperation db row.id = some row' ∧ (row' = row ∨ row.version < row'.version)

lemma Seen.follows (h : Seen db row) (hdb : Follows db db') :
    Seen db' row := by
  obtain ⟨hactive, row', hrow', hor⟩ := h
  obtain ⟨row'', hrow'', hor'⟩ := hdb row.id row' hrow'
  refine ⟨hactive, row'', hrow'', ?_⟩
  rcases hor with rfl | hlt
  · exact hor'
  · rcases hor' with rfl | hlt'
    · exact Or.inr hlt
    · exact Or.inr (hlt.trans hlt')

/-- The lease of a ticker on an operation lasts until an instant, unless that has passed. -/
def Guard (clock : ℤ) (db : Database) (h id : JsString) (leaseUntil : ℤ) : Prop :=
  clock < leaseUntil → ∃ row, getOperation db id = some row ∧ row.leaseHolder = some h ∧
    row.leaseUntil = some leaseUntil

/-- What a ticker has in hand in a phase: its fence is its own, and it knows when its lease ends. -/
def PhaseOk (clock : ℤ) (db : Database) (h : JsString) : Phase → Prop
  | .idle => True
  | .leased op => Guard clock db h op.id (op.leaseUntil.getD 0)
  | .renewed op renewed => renewed.id = op.id ∧ Guard clock db h op.id (renewed.leaseUntil.getD 0)
  | .ready fence _ leaseUntil => fence.holder = h ∧ Guard clock db h fence.id leaseUntil
  | .acting fence _ budget => fence.holder = h ∧ Guard clock db h fence.id budget.leaseUntil
  | .settled fence _ _ _ => fence.holder = h
  | .recording fence _ _ _ _ => fence.holder = h
  | .dead => True

structure TickerOk (w : World) (h : JsString) : Prop where
  seen : ∀ row ∈ (w.tickers h).candidates, Seen w.db row
  phase : PhaseOk w.clock w.db h (w.phase h)

/-! ## Events -/

def Event.ticker : Event → Option JsString
  | .advance _ => none
  | .enqueue .. => none
  | .supersedeReboot .. => none
  | .readDue h _ => some h
  | .lease h _ _ => some h
  | .headroom h _ _ _ => some h
  | .recheck h _ => some h
  | .begin h _ _ => some h
  | .remote h _ => some h
  | .callEnds _ => none
  | .handlerWrites h _ _ => some h
  | .handlerEnds h _ _ => some h
  | .reread h => some h
  | .record h _ _ => some h
  | .abandon h => some h
  | .crash h => some h
  | .readLive h => some h
  | .flag h _ _ _ _ _ => some h

/-- An event that lets time pass, or begins or ends a remote call. -/
def Event.timed : Event → Bool
  | .advance _ => true
  | .remote _ _ => true
  | .callEnds _ => true
  | _ => false

/-- A handler of the ticker runs, or its process died. -/
def Busy : Phase → Prop
  | .acting _ _ _ => True
  | .dead => True
  | _ => False

/-- What an event does to the operations: it makes statements, and their lines are its own. A ticker
whose handler runs only writes. -/
structure Effect (w w' : World) (ticker : Option JsString) : Prop where
  clock : w'.clock = w.clock
  calls : w'.calls = w.calls
  made : ∃ entries, w'.log = w.log ++ entries ∧ MadeAll w.clock w.db entries w'.db ∧
    (∀ entry ∈ entries, ∀ h, entry.act.holder = some h →
      ticker = some h ∧ (Busy (w.phase h) → entry.act = .wrote h)) ∧
    ∀ entry ∈ entries, ∀ h, entry.act = .leased h → entries = [entry]

variable {w w' : World} {ticker : Option JsString} {h : JsString}

lemma Effect.quiet (hclock : w'.clock = w.clock) (hcalls : w'.calls = w.calls) (hdb : w'.db = w.db)
    (hlog : w'.log = w.log) : Effect w w' ticker :=
  ⟨hclock, hcalls, [], by rw [hlog, List.append_nil], .nil fun k => by rw [hdb], by simp, by simp⟩

lemma Effect.one (hclock : w'.clock = w.clock) (hcalls : w'.calls = w.calls)
    (hlog : w'.log = w.log ++ [entry]) (hmade : Made w.clock w.db w'.db entry)
    (hholder : ∀ h, entry.act.holder = some h →
      ticker = some h ∧ (Busy (w.phase h) → entry.act = .wrote h)) : Effect w w' ticker :=
  ⟨hclock, hcalls, [entry], hlog, .one hmade, by simpa using hholder, by simp⟩

lemma own_of_not_busy {act : Act} (hphase : ¬ Busy (w.phase h)) (hact : act.holder = some h) :
    ∀ k, act.holder = some k → some h = some k ∧ (Busy (w.phase k) → act = .wrote k) := by
  intro k hk
  obtain rfl : h = k := Option.some.inj (hact.symm.trans hk)
  exact ⟨rfl, fun hbusy => absurd hbusy hphase⟩

lemma lease_effect (hok : TickerOk w h) (lag : ℕ) (answered : Bool) :
    Effect w (w.lease h lag answered) (some h) := by
  unfold World.lease
  split
  · rename_i candidate rest hphase hcandidates
    dsimp only
    split
    · rename_i op db hlease
      have hseen := hok.seen candidate (by rw [hcandidates]; exact List.mem_cons_self)
      have hmade : Made w.clock w.db db { op := candidate.id, act := .leased h } := by
        refine made_of_update hlease fun row hrow htest => ?_
        rw [Bool.and_eq_true, decide_eq_true_eq] at htest
        obtain ⟨hactive, row', hrow', hor⟩ := hseen
        obtain rfl : row' = row := Option.some.inj (hrow'.symm.trans hrow)
        obtain rfl : row' = candidate := hor.resolve_right (by omega)
        exact ⟨hactive, ⟨w.clock - lag, by omega, htest.2⟩, rfl⟩
      have hbusy : ¬ Busy (w.phase h) := by simp [hphase, Busy]
      split <;> exact .one rfl rfl rfl hmade (own_of_not_busy hbusy rfl)
    · exact .quiet rfl rfl rfl rfl
    · exact .quiet rfl rfl rfl rfl
  · exact .quiet rfl rfl rfl rfl

variable {handlers : JsString → JsString → Option Handler}

lemma headroom_effect (lag lagOfRenewal : ℕ) (answered : Bool) :
    Effect w (w.headroom handlers h lag lagOfRenewal answered) (some h) := by
  unfold World.headroom
  split
  · rename_i op hphase
    split
    · exact .quiet rfl rfl rfl rfl
    · split
      · exact .quiet rfl rfl rfl rfl
      · split
        · exact .quiet rfl rfl rfl rfl
        · split
          · rename_i renewed db hrenew
            have hmade : Made w.clock w.db db { op := op.id, act := .renewed h } := by
              refine made_of_update hrenew fun row _ hadmits => ?_
              rw [Fence.admits, Bool.and_eq_true, decide_eq_true_eq, decide_eq_true_eq] at hadmits
              exact ⟨hadmits.2, hadmits.2⟩
            have hbusy : ¬ Busy (w.phase h) := by simp [hphase, Busy]
            dsimp only
            split <;> exact .one rfl rfl rfl hmade (own_of_not_busy hbusy rfl)
          · exact .quiet rfl rfl rfl rfl
          · exact .quiet rfl rfl rfl rfl
  · exact .quiet rfl rfl rfl rfl

lemma handlerWrites_effect (hok : TickerOk w h) (version : ℕ) (write : World.HandlerWrite) :
    Effect w (w.handlerWrites h version write) (some h) := by
  have hphase := hok.phase
  unfold World.handlerWrites
  split
  · rename_i fence op budget heq
    rw [heq] at hphase
    split
    · rename_i row db hcas
      have hmade : Made w.clock w.db db { op := fence.id, act := .wrote h } := by
        refine made_of_update hcas fun row _ hadmits => ?_
        rw [Fence.admits, Bool.and_eq_true, decide_eq_true_eq, decide_eq_true_eq, hphase.1] at hadmits
        exact ⟨hadmits.2, hadmits.2, rfl⟩
      refine .one rfl rfl rfl hmade fun k hk => ⟨hk, fun _ => ?_⟩
      rw [Option.some.inj hk]
    · exact .quiet rfl rfl rfl rfl
  · exact .quiet rfl rfl rfl rfl

/-- A result is recorded by the holder of the row. -/
lemma record_effect (hok : TickerOk w h) (lag : ℕ) (others : Others) :
    Effect w (w.record h lag others) (some h) := by
  have hphase := hok.phase
  unfold World.record
  split
  · rename_i fence op result failure current heq
    rw [heq] at hphase
    split
    · exact .quiet rfl rfl rfl rfl
    · rename_i d hd
      unfold tx
      cases hbody : finishBody d fence op result failure current others (w.clock - lag) w.clock
          w.db with
      | error message => exact .quiet rfl rfl rfl rfl
      | ok outcome =>
        obtain ⟨successor, db⟩ := outcome
        refine ⟨rfl, rfl, _, rfl, ?_, ?_, ?_⟩
        · have hmade : MadeAll w.clock w.db _ db := finishBody_made hbody
          rw [show fence.holder = h from hphase] at hmade
          exact hmade
        · intro entry hentry k hk
          rcases List.mem_cons.1 hentry with rfl | hopened
          · exact own_of_not_busy (by simp [heq, Busy]) rfl k hk
          · cases successor with
            | none => cases hopened
            | some row =>
              obtain rfl := List.mem_singleton.1 hopened
              cases hk
        · intro entry hentry k hk
          rcases List.mem_cons.1 hentry with rfl | hopened
          · cases hk
          · cases successor with
            | none => cases hopened
            | some row =>
              obtain rfl := List.mem_singleton.1 hopened
              cases hk
  · exact .quiet rfl rfl rfl rfl

/-- A flag changes nothing but flags. -/
lemma flag_effect (n version : ℕ) (which : Deadline) (raised : Except Failure (List AuditRow))
    (lag : ℕ) : Effect w (w.flag h n version which raised lag) (some h) := by
  unfold World.flag
  split
  · rename_i row hphase hlive
    split_ifs
    · unfold tx
      cases hbody : World.flagBody row.id version which raised (w.clock - lag) w.db with
      | error message => exact .quiet rfl rfl rfl rfl
      | ok outcome =>
        obtain ⟨flagged, db⟩ := outcome
        cases flagged with
        | false => exact .quiet rfl rfl rfl rfl
        | true =>
          obtain ⟨⟨found, db₁⟩, hflag, hrest⟩ := bind_eq_ok.1 hbody
          cases found with
          | none => cases hrest
          | some written =>
            obtain ⟨rows, -, hrest⟩ := bind_eq_ok.1 hrest
            obtain ⟨db₂, haudits, hrest⟩ := bind_eq_ok.1 hrest
            obtain ⟨-, rfl⟩ := Prod.mk.inj (Except.ok.inj hrest)
            have hsame := getOperation_of_eq (appendAudits_ok haudits)
            have hmade : Made w.clock w.db db₁ { op := row.id, act := .flagged which } := by
              cases which <;> exact made_of_update hflag fun _ _ _ => rfl
            refine .one rfl rfl rfl ?_ nofun
            cases hmade with
            | opened _ hact => cases hact
            | changed old new hold hversion hdone hget =>
              exact .changed old new hold hversion hdone fun k => (hsame k).trans (hget k)
    · exact .quiet rfl rfl rfl rfl
  · exact .quiet rfl rfl rfl rfl

/-- **What an event does to the operations.** -/
theorem step_effect (hok : ∀ h, TickerOk w h) {event : Event} (htimed : event.timed = false) :
    Effect w (step handlers w event) event.ticker := by
  cases event with
  | advance ms => cases htimed
  | enqueue id instanceId kind status nextAttemptAt inactivity absolute evidence =>
    simp only [step, World.enqueue]
    split
    · rename_i row db henqueue
      have hmade : Made w.clock w.db db { op := row.id, act := .opened } := made_of_enqueue henqueue
      rw [(enqueue_made henqueue).2.1] at hmade
      exact .one rfl rfl rfl hmade nofun
    · exact .quiet rfl rfl rfl rfl
  | supersedeReboot id evidence =>
    simp only [step, World.supersedeReboot]
    split
    · rename_i row db hupdate
      have hmade : Made w.clock w.db db { op := id, act := .superseded } :=
        made_of_update hupdate fun row _ htest =>
          ⟨by simp [OperationRow.active, of_decide_eq_true htest], rfl, rfl⟩
      exact .one rfl rfl rfl hmade nofun
    · exact .quiet rfl rfl rfl rfl
  | readDue h lag | abandon h | readLive h =>
    simp only [step, World.readDue, World.abandon, World.readLive]
    split <;> exact .quiet rfl rfl rfl rfl
  | lease h lag answered => exact lease_effect (hok h) lag answered
  | headroom h lag lagOfRenewal answered => exact headroom_effect lag lagOfRenewal answered
  | recheck h lag =>
    simp only [step, World.recheck]
    split
    · split
      · exact .quiet rfl rfl rfl rfl
      · split_ifs <;> exact .quiet rfl rfl rfl rfl
    · exact .quiet rfl rfl rfl rfl
  | begin h lag hasInstance =>
    simp only [step, World.begin]
    split
    · split_ifs
      · split
        · split <;> exact .quiet rfl rfl rfl rfl
        · exact .quiet rfl rfl rfl rfl
      · exact .quiet rfl rfl rfl rfl
    · exact .quiet rfl rfl rfl rfl
  | remote h what => cases htimed
  | callEnds n => cases htimed
  | handlerWrites h version write => exact handlerWrites_effect (hok h) version write
  | handlerEnds h outcome failure =>
    simp only [step, World.handlerEnds]
    split
    · split_ifs
      · split
        · exact .quiet rfl rfl rfl rfl
        · split <;> exact .quiet rfl rfl rfl rfl
      · exact .quiet rfl rfl rfl rfl
    · exact .quiet rfl rfl rfl rfl
  | reread h =>
    simp only [step, World.reread]
    split
    · split <;> exact .quiet rfl rfl rfl rfl
    · exact .quiet rfl rfl rfl rfl
  | record h lag others => exact record_effect (hok h) lag others
  | crash h => exact .quiet rfl rfl rfl rfl
  | flag h n version which raised lag => exact flag_effect n version which raised lag

lemma step_timed {event : Event} (htimed : event.timed = true) :
    (step handlers w event).db = w.db ∧ (step handlers w event).log = w.log := by
  cases event with
  | advance ms =>
    simp only [step, World.advance]
    split_ifs <;> exact ⟨rfl, rfl⟩
  | remote h what =>
    simp only [step, World.remote]
    split
    · split <;> exact ⟨rfl, rfl⟩
    · exact ⟨rfl, rfl⟩
  | callEnds n => exact ⟨rfl, rfl⟩
  | _ => cases htimed

/-- **An event of one ticker leaves the others alone.** -/
theorem step_tickers_of_ne {event : Event} (hne : event.ticker ≠ some h) :
    (step handlers w event).tickers h = w.tickers h := by
  have hput : ∀ {k} (w' : World) (ticker : TickerState), some k ≠ some h →
      (w'.put k ticker).tickers h = w'.tickers h :=
    fun w' ticker hk => w'.put_of_ne ticker fun heq => hk (congrArg some heq.symm)
  cases event with
  | advance ms =>
    simp only [step, World.advance]
    split_ifs <;> rfl
  | enqueue | supersedeReboot =>
    simp only [step, World.enqueue, World.supersedeReboot]
    split <;> rfl
  | callEnds n => rfl
  | readDue k lag | readLive k =>
    simp only [step, World.readDue, World.readLive]
    split
    · exact hput _ _ hne
    · rfl
  | lease k lag answered =>
    simp only [step, World.lease]
    split
    · split
      · split_ifs <;> exact (hput _ _ hne).trans (hput _ _ hne)
      · exact hput _ _ hne
      · exact (hput _ _ hne).trans (hput _ _ hne)
    · rfl
  | headroom k lag lagOfRenewal answered =>
    simp only [step, World.headroom]
    split
    · split
      · exact hput _ _ hne
      · split
        · exact hput _ _ hne
        · split
          · exact hput _ _ hne
          · split
            · split <;> exact hput _ _ hne
            · exact hput _ _ hne
            · exact hput _ _ hne
    · rfl
  | recheck k lag | record k lag others =>
    simp only [step, World.recheck, World.record]
    split
    · split
      · exact hput _ _ hne
      · split <;> exact hput _ _ hne
    · rfl
  | begin k lag hasInstance =>
    simp only [step, World.begin]
    split
    · split
      · split
        · split
          · exact hput _ _ hne
          · rfl
        · exact hput _ _ hne
      · exact hput _ _ hne
    · rfl
  | remote k what | handlerWrites k version write =>
    simp only [step, World.remote, World.handlerWrites]
    split
    · split <;> rfl
    · rfl
  | handlerEnds k outcome failure =>
    simp only [step, World.handlerEnds]
    split
    · split
      · split
        · exact hput _ _ hne
        · split
          · exact hput _ _ hne
          · rfl
      · rfl
    · rfl
  | reread k =>
    simp only [step, World.reread]
    split
    · split <;> exact hput _ _ hne
    · rfl
  | abandon k =>
    simp only [step, World.abandon]
    split
    · rfl
    · rfl
    · exact hput _ _ hne
  | crash k => exact hput _ _ hne
  | flag k n version which raised lag =>
    simp only [step, World.flag]
    split
    · split_ifs
      · split <;> rfl
      · rfl
    · rfl

end Isomux.Ticker
