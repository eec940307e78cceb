import Isomux.ControlPlane.TickerSteps

set_option autoImplicit false

/-!
# What holds among tickers

Whatever the tickers do, the holder in a row is the one whose lease is the last in the history of the
operation and has not been released by a result. Until a lease ends nobody else takes the row, and
every remote call of its holder is over by then, so that calls of two tickers on one operation are
apart. A row that a result has concluded is held by nobody and is not active: nothing but a flag
comes behind that.

## Main results

* `Isomux.Ticker.Made.over` — what is over and released stays so.
* `Isomux.Ticker.Guard.made` — nobody else takes a row before its lease ends.
* `Isomux.Ticker.Inv.step` — every event keeps the invariant.
-/

namespace Isomux.Ticker

open ControlStore

/-! ## The history and the rows -/

/-- What a line says about the holder of its operation. -/
def Act.turn : Act → Option (Option JsString)
  | .leased h => some (some h)
  | .recorded _ _ _ => some none
  | _ => none

/-- What a line of the history says about the holder of an operation. -/
def turn (id : JsString) (entry : Entry) : Option (Option JsString) :=
  if entry.op = id then entry.act.turn else none

/-- The ticker that had to hold the row for a line. -/
def Act.fencedBy : Act → Option JsString
  | .renewed h => some h
  | .wrote h => some h
  | .recorded h _ _ => some h
  | _ => none

def Act.concludes : Act → Bool
  | .recorded _ result _ => result.terminal
  | _ => false

variable {clock : ℤ} {db db' : Database} {log : List Entry} {entry : Entry} {entries : List Entry}
  {id h : JsString} {leaseUntil : ℤ} {row row' : ControlStore.OperationRow} {act : Act}

lemma Done.holder (hdone : Done clock row row' act) :
    row'.leaseHolder = act.turn.getD row.leaseHolder := by
  cases act with
  | opened => exact hdone.elim
  | leased h => exact hdone.2.2
  | renewed h => exact hdone.2.trans hdone.1.symm
  | wrote h => exact hdone.2.1.trans hdone.1.symm
  | recorded h result successor => exact hdone.2.1
  | flagged which => exact (SameButFlags.kept hdone).2.1
  | superseded => exact hdone.2.1

lemma Done.held (hdone : Done clock row row' act) (hact : act.fencedBy = some h) :
    row.leaseHolder = some h := by
  cases act with
  | renewed k => exact hact ▸ hdone.1
  | wrote k => exact hact ▸ hdone.1
  | recorded k result successor => exact hact ▸ hdone.1
  | opened => cases hact
  | leased k => cases hact
  | flagged which => cases hact
  | superseded => cases hact

lemma Done.concluded (hdone : Done clock row row' act) (hact : act.concludes = true) :
    row'.active = false ∧ row'.leaseHolder = none := by
  cases act with
  | recorded h result successor => exact ⟨hdone.2.2.1 hact, hdone.2.1⟩
  | opened => cases hact
  | leased h => cases hact
  | renewed h => cases hact
  | wrote h => cases hact
  | flagged which => cases hact
  | superseded => cases hact

lemma Done.flagged (hdone : Done clock row row' act) (hactive : row.active = false)
    (hfree : row.leaseHolder = none) : ∃ which, act = .flagged which := by
  cases act with
  | flagged which => exact ⟨which, rfl⟩
  | opened => exact hdone.elim
  | leased h => exact absurd hdone.1 (by simp [hactive])
  | renewed h | wrote h | recorded h result successor => exact absurd hdone.1 (by simp [hfree])
  | superseded => exact absurd hdone.1 (by simp [hactive])

structure History (db : Database) (log : List Entry) : Prop where
  holder : ∀ id, (getOperation db id).bind (·.leaseHolder) = Tenure.tenant (turn id) log
  fenced : Trace.Each (fun before entry => ∀ h, entry.act.fencedBy = some h →
    Tenure.tenant (turn entry.op) before = some h) log
  concluded : ∀ entry ∈ log, entry.act.concludes = true →
    ∃ row, getOperation db entry.op = some row ∧ row.active = false ∧ row.leaseHolder = none
  settled : Trace.Each (fun before entry =>
    (∃ earlier ∈ before, earlier.op = entry.op ∧ earlier.act.concludes = true) →
      ∃ which, entry.act = .flagged which) log
  opens : ∀ entry ∈ log, ∀ h result successor,
    entry.act = .recorded h result (some successor) → result.terminal = true

/-- **What is over and released stays so**: a statement on it changes at most flags. -/
lemma Made.over (hmade : Made clock db db' entry) (hrow : getOperation db id = some row)
    (hactive : row.active = false) (hfree : row.leaseHolder = none) :
    ∃ row', getOperation db' id = some row' ∧ SameButFlags row row' := by
  cases hmade with
  | opened new hact hfresh _ hget =>
    refine ⟨row, ?_, .refl row⟩
    rw [hget, if_neg, hrow]
    rintro rfl
    rw [hfresh] at hrow
    cases hrow
  | changed old new hold hversion hdone hget =>
    by_cases hid : id = entry.op
    · subst hid
      obtain rfl : old = row := Option.some.inj (hold.symm.trans hrow)
      obtain ⟨which, hact⟩ := hdone.flagged hactive hfree
      rw [hact] at hdone
      exact ⟨new, by rw [hget, if_pos rfl], hdone⟩
    · exact ⟨row, by rw [hget, if_neg hid, hrow], .refl row⟩

/-- A statement and its line keep the rows as the history says. -/
lemma History.made (hist : History db log) (hmade : Made clock db db' entry) :
    History db' (log ++ [entry]) := by
  refine ⟨fun id => ?_, Trace.each_concat.2 ⟨hist.fenced, fun h hfenced => ?_⟩, ?_,
    Trace.each_concat.2 ⟨hist.settled, ?_⟩, ?_⟩
  · rw [Tenure.tenant_concat, ← hist.holder id]
    cases hmade with
    | opened new hact hfresh hfree hget =>
      have hquiet : turn id entry = none := by simp [turn, hact, Act.turn]
      rw [hget, hquiet, Option.getD_none]
      split_ifs with hid
      · rw [hid, hfresh]
        exact hfree
      · rfl
    | changed old new hold hversion hdone hget =>
      rw [hget, turn]
      split_ifs with hid hop hop
      · rw [hid, hold]
        exact hdone.holder
      · exact absurd hid.symm hop
      · exact absurd hop.symm hid
      · rfl
  · rw [← hist.holder]
    cases hmade with
    | opened new hact => simp [hact, Act.fencedBy] at hfenced
    | changed old new hold hversion hdone hget =>
      rw [hold]
      exact hdone.held hfenced
  · intro e he hconcludes
    rcases List.mem_append.1 he with hbefore | hnew
    · obtain ⟨row, hrow, hactive, hfree⟩ := hist.concluded e hbefore hconcludes
      obtain ⟨row', hrow', hsame⟩ := hmade.over hrow hactive hfree
      exact ⟨row', hrow', hsame.kept.1.trans hactive, hsame.kept.2.1.trans hfree⟩
    · obtain rfl := List.mem_singleton.1 hnew
      cases hmade with
      | opened new hact => simp [hact, Act.concludes] at hconcludes
      | changed old new hold hversion hdone hget =>
        exact ⟨new, by rw [hget, if_pos rfl], hdone.concluded hconcludes⟩
  · rintro ⟨earlier, hearlier, hop, hconcludes⟩
    obtain ⟨row, hrow, hactive, hfree⟩ := hist.concluded earlier hearlier hconcludes
    rw [hop] at hrow
    cases hmade with
    | opened new hact hfresh =>
      rw [hfresh] at hrow
      cases hrow
    | changed old new hold hversion hdone hget =>
      obtain rfl : old = row := Option.some.inj (hold.symm.trans hrow)
      exact hdone.flagged hactive hfree
  · intro e he k result successor hact
    rcases List.mem_append.1 he with hbefore | hnew
    · exact hist.opens e hbefore k result successor hact
    · obtain rfl := List.mem_singleton.1 hnew
      cases hmade with
      | opened new hact' => simp [hact] at hact'
      | changed old new hold hversion hdone hget =>
        rw [hact] at hdone
        exact hdone.2.2.2 rfl

lemma History.madeAll (hist : History db log) (hmade : MadeAll clock db entries db') :
    History db' (log ++ entries) := by
  induction hmade generalizing log with
  | nil hget =>
    rw [List.append_nil]
    refine ⟨fun id => by rw [hget]; exact hist.holder id, hist.fenced, fun e he hconcludes => ?_,
      hist.settled, hist.opens⟩
    obtain ⟨row, hrow, hover⟩ := hist.concluded e he hconcludes
    exact ⟨row, (hget _).trans hrow, hover⟩
  | cons hmade _ ih =>
    rw [List.append_cons]
    exact ih (hist.made hmade)

lemma MadeAll.over (hmade : MadeAll clock db entries db') (hrow : getOperation db id = some row)
    (hactive : row.active = false) (hfree : row.leaseHolder = none) :
    ∃ row', getOperation db' id = some row' ∧ SameButFlags row row' := by
  induction hmade generalizing row with
  | nil hget => exact ⟨row, (hget id).trans hrow, .refl row⟩
  | cons hmade _ ih =>
    obtain ⟨row₁, hrow₁, hsame⟩ := hmade.over hrow hactive hfree
    obtain ⟨row', hrow', hsame'⟩ :=
      ih hrow₁ (hsame.kept.1.trans hactive) (hsame.kept.2.1.trans hfree)
    exact ⟨row', hrow', hsame.trans hsame'⟩

/-! ## The lease -/

/-- **Nobody else takes a row before its lease ends**: a statement that is not the holder's own
renewal or result leaves the lease. -/
lemma Guard.made (hguard : Guard clock db h id leaseUntil) (hmade : Made clock db db' entry)
    (hown : entry.act.holder ≠ some h ∨ entry.act = .wrote h) :
    Guard clock db' h id leaseUntil := by
  intro hlt
  obtain ⟨row, hrow, hholder, huntil⟩ := hguard hlt
  cases hmade with
  | opened new hact hfresh _ hget =>
    refine ⟨row, ?_, hholder, huntil⟩
    rw [hget, if_neg, hrow]
    rintro rfl
    rw [hfresh] at hrow
    cases hrow
  | changed old new hold hversion hdone hget =>
    by_cases hid : id = entry.op
    · subst hid
      obtain rfl : old = row := Option.some.inj (hold.symm.trans hrow)
      refine ⟨new, by rw [hget, if_pos rfl], ?_⟩
      have hfenced : entry.act.fencedBy ≠ none → entry.act = .wrote h := by
        intro hne
        obtain ⟨k, hk⟩ := Option.ne_none_iff_exists'.1 hne
        obtain rfl : h = k := Option.some.inj (hholder.symm.trans (hdone.held hk))
        refine hown.resolve_left fun hnot => hnot ?_
        revert hk
        cases entry.act <;> simp [Act.fencedBy, Act.holder]
      cases hact : entry.act with
      | opened => exact absurd hdone (by simp [hact, Done])
      | leased k =>
        -- nobody holds a row whose lease has run out by the clock
        rw [hact] at hdone
        obtain ⟨-, ⟨now, hnow, hunleased⟩, -⟩ := hdone
        simp only [OperationRow.unleased, huntil, decide_eq_true_eq] at hunleased
        omega
      | renewed k => exact absurd (hfenced (by simp [hact, Act.fencedBy])) (by simp [hact])
      | wrote k =>
        obtain rfl : k = h := by simpa [hact] using hfenced (by simp [hact, Act.fencedBy])
        rw [hact] at hdone
        exact ⟨hdone.2.1, hdone.2.2.trans huntil⟩
      | recorded k result successor =>
        exact absurd (hfenced (by simp [hact, Act.fencedBy])) (by simp [hact])
      | flagged which =>
        rw [hact] at hdone
        have hkept := SameButFlags.kept hdone
        exact ⟨hkept.2.1.trans hholder, hkept.2.2.trans huntil⟩
      | superseded =>
        rw [hact] at hdone
        exact ⟨hdone.2.1.trans hholder, hdone.2.2.trans huntil⟩
    · exact ⟨row, by rw [hget, if_neg hid, hrow], hholder, huntil⟩

lemma Guard.madeAll (hguard : Guard clock db h id leaseUntil) (hmade : MadeAll clock db entries db')
    (hown : ∀ entry ∈ entries, entry.act.holder ≠ some h ∨ entry.act = .wrote h) :
    Guard clock db' h id leaseUntil := by
  induction hmade with
  | nil hget =>
    intro hlt
    rw [hget]
    exact hguard hlt
  | cons hmade _ ih =>
    exact ih (hguard.made hmade (hown _ List.mem_cons_self)) fun e he =>
      hown e (List.mem_cons_of_mem _ he)

lemma Guard.later {clock' : ℤ} (hguard : Guard clock db h id leaseUntil) (hle : clock ≤ clock') :
    Guard clock' db h id leaseUntil := fun hlt => hguard (by omega)

lemma PhaseOk.imp {clock' : ℤ} {phase : Phase} (hphase : PhaseOk clock db h phase)
    (hguard : ∀ id leaseUntil, Guard clock db h id leaseUntil → Guard clock' db' h id leaseUntil) :
    PhaseOk clock' db' h phase := by
  cases phase with
  | idle => exact hphase
  | leased op => exact hguard _ _ hphase
  | renewed op renewed | ready fence op leaseUntil | acting fence op budget =>
    exact hphase.imp_right (hguard _ _)
  | settled fence op result failure => exact hphase
  | recording fence op result failure current => exact hphase
  | dead => exact hphase

/-! ## What a ticker has in hand -/

variable {w w' : World} {handlers : JsString → JsString → Option Handler}

lemma tickerOk_put {ticker : TickerState} (hseen : ∀ row ∈ ticker.candidates, Seen w.db row)
    (hphase : PhaseOk w.clock w.db h ticker.phase) : TickerOk (w.put h ticker) h := by
  refine ⟨?_, ?_⟩
  · rw [w.put_self]
    exact hseen
  · rw [World.phase, w.put_self]
    exact hphase

lemma TickerOk.move {phase : Phase} (hok : TickerOk w h) (hphase : PhaseOk w.clock w.db h phase) :
    TickerOk (w.move h phase) h :=
  tickerOk_put hok.seen hphase

lemma tickerOk_giveUp : TickerOk (w.giveUp h) h := tickerOk_put (by simp) trivial

lemma seen_of_due {now : ℤ} {limit : ℕ} (hrow : row ∈ World.dueOperations db now limit) :
    Seen db row := by
  have hmem := List.mem_of_mem_take hrow
  rw [List.mem_insertionSort, List.mem_filter] at hmem
  obtain ⟨hrows, hdue⟩ := hmem
  simp only [World.due, Bool.and_eq_true] at hdue
  exact ⟨hdue.1.1, row, KeyedTable.find_of_mem hrows, Or.inl rfl⟩

lemma guard_of_update {test : ControlStore.OperationRow → Bool}
    {change : ControlStore.OperationRow → ControlStore.OperationRow}
    {written : ControlStore.OperationRow} {until_ : ℤ}
    (hupdate : updateOperation db id test change = .ok (some written, db'))
    (hholder : written.leaseHolder = some h) (huntil : written.leaseUntil = some until_) :
    written.id = id ∧ Guard clock db' h id (written.leaseUntil.getD 0) := by
  obtain ⟨⟨row, hrow, -, hwritten⟩, hget, -⟩ := updateOperation_made hupdate
  have hid : written.id = id := by
    rw [hwritten, OperationRow.set_id]
    exact id_of_getOperation hrow
  refine ⟨hid, fun _ => ⟨written, by rw [hget, if_pos rfl], hholder, ?_⟩⟩
  rw [huntil, Option.getD_some]

lemma TickerOk.lease (hok : TickerOk w h) (lag : ℕ) (answered : Bool) :
    TickerOk (w.lease h lag answered) h := by
  unfold World.lease
  split
  · rename_i candidate rest hphase hcandidates
    have hrest : ∀ row ∈ rest, Seen w.db row := fun row hrow =>
      hok.seen row (by rw [hcandidates]; exact List.mem_cons_of_mem _ hrow)
    dsimp only
    split
    · rename_i op db hlease
      split_ifs
      · have hfollows : Follows w.db db := (updateOperation_frame hlease).1
        have hholder : op.leaseHolder = some h ∧
            op.leaseUntil = some (w.clock - lag + LEASE_MS) := by
          obtain ⟨⟨row, -, -, rfl⟩, -⟩ := updateOperation_made hlease
          exact ⟨rfl, rfl⟩
        have hwritten : op.id = candidate.id ∧
            Guard w.clock db h candidate.id (op.leaseUntil.getD 0) :=
          guard_of_update hlease hholder.1 hholder.2
        refine tickerOk_put ?_ ?_
        · intro row hrow
          refine (hrest row ?_).follows hfollows
          simpa [World.note, w.put_self] using hrow
        · change Guard _ _ _ _ _
          rw [hwritten.1]
          exact hwritten.2
      · exact tickerOk_giveUp
    · exact tickerOk_put hrest (by rw [show (w.tickers h).phase = .idle from hphase]; trivial)
    · exact tickerOk_giveUp
  · exact hok

lemma TickerOk.headroom (hok : TickerOk w h) (lag lagOfRenewal : ℕ) (answered : Bool) :
    TickerOk (w.headroom handlers h lag lagOfRenewal answered) h := by
  have hphase := hok.phase
  unfold World.headroom
  split
  · rename_i op heq
    rw [heq] at hphase
    split
    · exact hok.move rfl
    · split
      · exact tickerOk_giveUp
      · split
        · exact hok.move ⟨rfl, hphase⟩
        · split
          · rename_i renewed db hrenew
            dsimp only
            split
            · have hfollows : Follows w.db db := (updateOperation_frame hrenew).1
              have hholder : renewed.leaseHolder = some h ∧
                  renewed.leaseUntil = some (w.clock - lagOfRenewal + LEASE_MS) := by
                obtain ⟨⟨row, -, hadmits, rfl⟩, -⟩ := updateOperation_made hrenew
                rw [Fence.admits, Bool.and_eq_true, decide_eq_true_eq, decide_eq_true_eq] at hadmits
                exact ⟨hadmits.2, rfl⟩
              exact tickerOk_put (fun row hrow => (hok.seen row hrow).follows hfollows)
                (guard_of_update hrenew hholder.1 hholder.2)
            · exact tickerOk_giveUp
          · exact hok.move trivial
          · exact tickerOk_giveUp
  · exact hok

/-- **A ticker knows what it has in hand** behind an event of its own. -/
lemma TickerOk.step_self (hok : TickerOk w h) {event : Event} (hevent : event.ticker = some h) :
    TickerOk (Ticker.step handlers w event) h := by
  have hphase := hok.phase
  cases event <;> cases hevent
  case readDue lag =>
    simp only [Ticker.step, World.readDue]
    split
    · exact tickerOk_put (fun row hrow => seen_of_due hrow) hphase
    · exact hok
  case lease lag answered =>
    exact hok.lease lag answered
  case headroom lag lagOfRenewal answered =>
    exact hok.headroom lag lagOfRenewal answered
  case recheck lag =>
    simp only [Ticker.step, World.recheck]
    split
    · rename_i op renewed heq
      rw [heq] at hphase
      split
      · exact tickerOk_giveUp
      · split
        · exact hok.move trivial
        · refine hok.move ⟨rfl, ?_⟩
          change Guard _ _ _ renewed.id _
          rw [hphase.1]
          exact hphase.2
    · exact hok
  case begin lag hasInstance =>
    simp only [Ticker.step, World.begin]
    split
    · rename_i fence op leaseUntil heq
      rw [heq] at hphase
      split
      · split
        · split
          · exact hok.move hphase.1
          · exact hok
        · exact hok.move hphase
      · exact hok.move hphase.1
    · exact hok
  case remote what =>
    simp only [Ticker.step, World.remote]
    split
    · split <;> exact ⟨hok.seen, hok.phase⟩
    · exact hok
  case handlerWrites version write =>
    have heffect := handlerWrites_effect hok version write
    obtain ⟨entries, -, hmade, hown, -⟩ := heffect.made
    have htickers : (w.handlerWrites h version write).tickers = w.tickers := by
      unfold World.handlerWrites
      split
      · split <;> rfl
      · rfl
    refine ⟨fun row hrow => ?_, ?_⟩
    · simp only [Ticker.step, htickers] at hrow
      exact (hok.seen row hrow).follows hmade.follows
    · simp only [Ticker.step, World.phase, htickers]
      by_cases hbusy : Busy (w.phase h)
      · refine hphase.imp fun id leaseUntil hguard => ?_
        rw [heffect.clock]
        refine hguard.madeAll hmade fun entry hentry => ?_
        by_cases hholder : entry.act.holder = some h
        · exact Or.inr ((hown entry hentry h hholder).2 hbusy)
        · exact Or.inl hholder
      · have hnone : w.handlerWrites h version write = w := by
          unfold World.handlerWrites
          split
          · rename_i fence op budget heq
            exact absurd (by rw [heq]; trivial) hbusy
          · rfl
        rw [hnone]
        exact hphase
  case handlerEnds outcome failure =>
    simp only [Ticker.step, World.handlerEnds]
    split
    · rename_i fence op budget heq
      rw [heq] at hphase
      split
      · split
        · exact hok.move hphase.1
        · split
          · exact hok.move hphase.1
          · exact hok
      · exact hok
    · exact hok
  case reread =>
    simp only [Ticker.step, World.reread]
    split
    · rename_i fence op result failure heq
      rw [heq] at hphase
      split
      · exact tickerOk_giveUp
      · exact hok.move hphase
    · exact hok
  case record lag others =>
    have heffect := record_effect hok lag others
    obtain ⟨entries, -, hmade, -⟩ := heffect.made
    have hfollows := hmade.follows
    simp only [Ticker.step]
    revert hfollows
    unfold World.record
    split
    · split
      · exact fun _ => tickerOk_giveUp
      · split
        · exact fun hfollows => tickerOk_put
            (fun row hrow => (hok.seen row hrow).follows hfollows) trivial
        · exact fun _ => hok.move trivial
    · exact fun _ => hok
  case abandon =>
    simp only [Ticker.step, World.abandon]
    split
    · exact hok
    · exact hok
    · exact tickerOk_giveUp
  case crash =>
    exact hok.move trivial
  case readLive =>
    simp only [Ticker.step, World.readLive]
    split
    · exact tickerOk_put hok.seen hphase
    · exact hok
  case flag n version which raised lag =>
    have heffect : Effect w (w.flag h n version which raised lag) (some h) :=
      flag_effect n version which raised lag
    obtain ⟨entries, -, hmade, -⟩ := heffect.made
    have htickers : (w.flag h n version which raised lag).tickers = w.tickers := by
      unfold World.flag
      split
      · split_ifs
        · split <;> rfl
        · rfl
      · rfl
    refine ⟨fun row hrow => ?_, ?_⟩
    · simp only [Ticker.step, htickers] at hrow
      exact (hok.seen row hrow).follows hmade.follows
    · have hidle : w.phase h = .idle ∨ w.flag h n version which raised lag = w := by
        unfold World.flag
        split
        · exact Or.inl (by assumption)
        · exact Or.inr rfl
      rcases hidle with hidle | hsame
      · simp only [Ticker.step, World.phase, htickers]
        rw [show (w.tickers h).phase = .idle from hidle]
        trivial
      · simp only [Ticker.step, hsame]
        exact hphase

/-! ## Remote calls -/

/-- Two calls on one operation are by one ticker, or the first is over when the second begins. -/
def Apart (call call' : RemoteCall) : Prop :=
  call.op = call'.op → call.holder ≠ call'.holder →
    ∃ ended, call.ended = some ended ∧ ended ≤ call'.start

/-- A remote call: it has ended, or its holder is busy and has a lease that outlasts it. -/
structure CallOk (w : World) (call : RemoteCall) : Prop where
  ended : ∀ ended, call.ended = some ended → ended ≤ w.clock
  open_ : call.ended = none → w.clock ≤ call.deadline ∧ Busy (w.phase call.holder) ∧
    ∃ leaseUntil, call.deadline + LEASE_SAFETY_MS ≤ leaseUntil ∧
      Guard w.clock w.db call.holder call.op leaseUntil

structure Inv (w : World) : Prop where
  tickers : ∀ h, TickerOk w h
  history : History w.db w.log
  calls : ∀ call ∈ w.calls, CallOk w call
  apart : w.calls.Pairwise Apart

lemma CallOk.held {call : RemoteCall} (hcall : CallOk w call) (hopen : call.ended = none) :
    ∃ row, getOperation w.db call.op = some row ∧ row.leaseHolder = some call.holder := by
  obtain ⟨hclock, -, leaseUntil, hle, hguard⟩ := hcall.open_ hopen
  have hsafety : 0 < LEASE_SAFETY_MS := by decide
  obtain ⟨row, hrow, hholder, -⟩ := hguard (by omega)
  exact ⟨row, hrow, hholder⟩

/-- A ticker that is busy while a call of its own is open stays busy. -/
lemma busy_step_self (hcalls : w.openCalls h ≠ []) (hbusy : Busy (w.phase h)) {event : Event}
    (hevent : event.ticker = some h) : Busy ((step handlers w event).phase h) := by
  cases event <;> cases hevent
  case remote what =>
    simp only [step, World.remote]
    split
    · split <;> exact hbusy
    · exact hbusy
  case handlerWrites version write =>
    simp only [step, World.handlerWrites]
    split
    · split <;> exact hbusy
    · exact hbusy
  case handlerEnds outcome failure =>
    simp only [step, World.handlerEnds]
    split
    · rw [if_neg hcalls]
      exact hbusy
    · exact hbusy
  case crash =>
    rw [step, World.crash, World.phase, World.move, World.put_self]
    trivial
  -- the other events are of phases in which the ticker is not busy
  all_goals
    cases hphase : w.phase h with
    | acting fence op budget | dead =>
      simp only [step, World.readDue, World.lease, World.headroom, World.recheck, World.begin,
        World.reread, World.record, World.abandon, World.readLive, World.flag, hphase]
      trivial
    | _ =>
      rw [hphase] at hbusy
      cases hbusy

lemma busy_step {call : RemoteCall} (hcall : call ∈ w.calls) (hopen : call.ended = none)
    (hbusy : Busy (w.phase call.holder)) (event : Event) :
    Busy ((step handlers w event).phase call.holder) := by
  by_cases hevent : event.ticker = some call.holder
  · refine busy_step_self (List.ne_nil_of_mem (List.mem_filter.2 ⟨hcall, ?_⟩)) hbusy hevent
    simp [hopen]
  · rw [World.phase, step_tickers_of_ne hevent]
    exact hbusy

/-- An event that makes statements keeps the invariant. -/
lemma Inv.step_of_effect (hinv : Inv w) {event : Event} (htimed : event.timed = false) :
    Inv (step handlers w event) := by
  have heffect : Effect w (step handlers w event) event.ticker := step_effect hinv.tickers htimed
  obtain ⟨entries, hlog, hmade, hown, -⟩ := heffect.made
  have hothers : ∀ h, event.ticker ≠ some h → ∀ entry ∈ entries,
      entry.act.holder ≠ some h ∨ entry.act = .wrote h :=
    fun h hne entry hentry => Or.inl fun hholder => hne (hown entry hentry h hholder).1
  have hbusy : ∀ h, Busy (w.phase h) → ∀ entry ∈ entries,
      entry.act.holder ≠ some h ∨ entry.act = .wrote h := by
    intro h hbusy entry hentry
    by_cases hholder : entry.act.holder = some h
    · exact Or.inr ((hown entry hentry h hholder).2 hbusy)
    · exact Or.inl hholder
  refine ⟨fun h => ?_, ?_, fun call hcall => ?_, ?_⟩
  · by_cases hevent : event.ticker = some h
    · exact (hinv.tickers h).step_self hevent
    · refine ⟨fun row hrow => ?_, ?_⟩
      · rw [step_tickers_of_ne hevent] at hrow
        exact ((hinv.tickers h).seen row hrow).follows hmade.follows
      · rw [World.phase, step_tickers_of_ne hevent, heffect.clock]
        exact (hinv.tickers h).phase.imp fun _ _ hguard =>
          hguard.madeAll hmade (hothers h hevent)
  · rw [hlog]
    exact hinv.history.madeAll hmade
  · rw [heffect.calls] at hcall
    have hok := hinv.calls call hcall
    refine ⟨by rw [heffect.clock]; exact hok.ended, fun hopen => ?_⟩
    obtain ⟨hclock, hphase, leaseUntil, hle, hguard⟩ := hok.open_ hopen
    rw [heffect.clock]
    exact ⟨hclock, busy_step hcall hopen hphase event, leaseUntil, hle,
      hguard.madeAll hmade (hbusy _ hphase)⟩
  · rw [heffect.calls]
    exact hinv.apart

lemma Inv.advance (hinv : Inv w) (ms : ℕ) : Inv (w.advance ms) := by
  unfold World.advance
  split_ifs with hopen
  · have hle : w.clock ≤ w.clock + ms := by omega
    refine ⟨fun h => ⟨(hinv.tickers h).seen, ?_⟩, hinv.history, fun call hcall => ?_, hinv.apart⟩
    · exact (hinv.tickers h).phase.imp fun _ _ hguard => hguard.later hle
    · have hok := hinv.calls call hcall
      refine ⟨fun ended hended => (hok.ended ended hended).trans hle, fun hnone => ?_⟩
      obtain ⟨-, hbusy, leaseUntil, hlong, hguard⟩ := hok.open_ hnone
      exact ⟨hopen call hcall hnone, hbusy, leaseUntil, hlong, hguard.later hle⟩
  · exact hinv

lemma TickerOk.claim (hok : TickerOk w h) {fence : Fence} {op : ControlStore.OperationRow}
    {budget : RemoteBudget} (hphase : w.phase h = .acting fence op budget) {what : JsString}
    {timeout : ℤ} (hclaim : budget.claim what w.clock = .ok timeout) :
    0 < timeout ∧ w.clock + timeout + LEASE_SAFETY_MS ≤ budget.leaseUntil ∧
      Guard w.clock w.db h fence.id budget.leaseUntil := by
  have hok' := hok.phase
  rw [hphase] at hok'
  unfold RemoteBudget.claim at hclaim
  split_ifs at hclaim with hleft
  obtain rfl := Except.ok.inj hclaim
  have hmin := min_le_right budget.deadlineAt (budget.leaseUntil - LEASE_SAFETY_MS)
  refine ⟨by omega, ?_, hok'.2⟩
  unfold RemoteBudget.remaining
  omega

/-- A remote call that begins keeps the invariant: every call of another ticker on the operation is
over. -/
lemma Inv.remote (hinv : Inv w) (h what : JsString) : Inv (w.remote h what) := by
  unfold World.remote
  split
  · rename_i fence op budget hphase
    split
    · rename_i timeout hclaim
      obtain ⟨hpos, hend, hguard⟩ := (hinv.tickers h).claim hphase hclaim
      have hsafety : 0 < LEASE_SAFETY_MS := by decide
      refine ⟨fun k => ⟨(hinv.tickers k).seen, (hinv.tickers k).phase⟩, hinv.history,
        fun call hcall => ?_, List.pairwise_append.2 ⟨hinv.apart, List.pairwise_singleton _ _, ?_⟩⟩
      · rcases List.mem_append.1 hcall with hold | hnew
        · have hok := hinv.calls call hold
          exact ⟨hok.ended, hok.open_⟩
        · obtain rfl := List.mem_singleton.1 hnew
          have hbusy : Busy (w.phase h) := by
            rw [hphase]
            trivial
          exact ⟨nofun, fun _ => ⟨by simp only [RemoteCall.deadline]; omega, hbusy,
            budget.leaseUntil, hend, hguard⟩⟩
      · intro call hcall call' hcall' hop hne
        obtain rfl := List.mem_singleton.1 hcall'
        have hok := hinv.calls call hcall
        cases hended : call.ended with
        | some ended => exact ⟨ended, rfl, hok.ended ended hended⟩
        | none =>
          -- two open calls would mean two holders of one row
          obtain ⟨row, hrow, hholder⟩ := hok.held hended
          obtain ⟨row', hrow', hholder', -⟩ := hguard (by omega)
          rw [hop] at hrow
          obtain rfl : row = row' := Option.some.inj (hrow.symm.trans hrow')
          exact absurd (Option.some.inj (hholder.symm.trans hholder')) hne
    · exact hinv
  · exact hinv

lemma mem_of_mem_modify {α : Type} {f : α → α} {l : List α} {n : ℕ} {b : α}
    (hb : b ∈ l.modify n f) : ∃ a ∈ l, b = a ∨ b = f a := by
  induction l generalizing n with
  | nil => simp at hb
  | cons a l ih =>
    cases n with
    | zero =>
      rcases List.mem_cons.1 hb with rfl | hrest
      · exact ⟨a, List.mem_cons_self, Or.inr rfl⟩
      · exact ⟨b, List.mem_cons_of_mem _ hrest, Or.inl rfl⟩
    | succ n =>
      rcases List.mem_cons.1 hb with rfl | hrest
      · exact ⟨b, List.mem_cons_self, Or.inl rfl⟩
      · obtain ⟨c, hc, hor⟩ := ih hrest
        exact ⟨c, List.mem_cons_of_mem _ hc, hor⟩

lemma pairwise_modify {α : Type} {R : α → α → Prop} {f : α → α} {l : List α}
    (hl : ∀ a b, R a b → R (f a) b) (hr : ∀ a b, R a b → R a (f b)) (h : l.Pairwise R) (n : ℕ) :
    (l.modify n f).Pairwise R := by
  induction l generalizing n with
  | nil => simp
  | cons a l ih =>
    obtain ⟨ha, hrest⟩ := List.pairwise_cons.1 h
    cases n with
    | zero => exact List.pairwise_cons.2 ⟨fun b hb => hl a b (ha b hb), hrest⟩
    | succ n =>
      refine List.pairwise_cons.2 ⟨fun b hb => ?_, ih hrest n⟩
      obtain ⟨c, hc, rfl | rfl⟩ := mem_of_mem_modify hb
      · exact ha b hc
      · exact hr a c (ha c hc)

lemma Inv.callEnds (hinv : Inv w) (n : ℕ) : Inv (w.callEnds n) := by
  refine ⟨fun h => ⟨(hinv.tickers h).seen, (hinv.tickers h).phase⟩, hinv.history,
    fun call hcall => ?_, pairwise_modify ?_ ?_ hinv.apart n⟩
  · obtain ⟨old, hold, rfl | rfl⟩ := mem_of_mem_modify hcall
    · exact ⟨(hinv.calls call hold).ended, (hinv.calls call hold).open_⟩
    · have hok := hinv.calls old hold
      cases hended : old.ended with
      | some ended => exact ⟨fun e he => hok.ended e (by simpa [hended] using he), by simp⟩
      | none => exact ⟨by simp [World.callEnds], by simp⟩
  · intro call call' hapart hop hne
    obtain ⟨ended, hended, hle⟩ := hapart hop hne
    exact ⟨ended, by simp [hended], hle⟩
  · exact fun call call' hapart => hapart

/-- **Every event keeps the invariant.** -/
theorem Inv.step (hinv : Inv w) (event : Event) : Inv (Ticker.step handlers w event) := by
  cases htimed : event.timed with
  | false => exact hinv.step_of_effect htimed
  | true =>
    cases event with
    | advance ms => exact hinv.advance ms
    | remote h what => exact hinv.remote h what
    | callEnds n => exact hinv.callEnds n
    | _ => cases htimed

lemma inv_start (clock : ℤ) (auditSequence : Option ℕ) : Inv (start clock auditSequence) :=
  { tickers := fun _ => ⟨by simp [start], trivial⟩
    history := ⟨fun _ => rfl, Trace.each_nil _, by simp [start], Trace.each_nil _, by simp [start]⟩
    calls := by simp [start]
    apart := List.Pairwise.nil }

lemma Inv.run (hinv : Inv w) (events : List Event) : Inv (Ticker.run handlers w events) :=
  Machine.run_invariant (fun _ event hs => hs.step event) hinv

end Isomux.Ticker
