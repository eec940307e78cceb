import Isomux.ControlPlane.TickerSafety

set_option autoImplicit false

/-!
# Only the leaseholder acts and records

What the invariant of the tickers comes to over all runs: remote calls of different tickers on one
operation are apart and within the lease of their holder, a result is the first of the last lease
term, and what is concluded stays so and is followed at most once.

A result is fenced by its holder and by a version that is read in its own transaction. So a late
result is refused when another ticker has leased the operation, and not when a flag has changed it
before that read.

## Main results

* `Isomux.Ticker.leaseholder_alone` — acting and recording over all runs.
* `Isomux.Ticker.late_result_refused_iff` — when a late result is refused.
* `Isomux.Ticker.operations_move_on` — a fence that was overtaken stays so, over all runs.
-/

namespace Isomux.Ticker

open ControlStore

variable {handlers : JsString → JsString → Option Handler} {w : World} {h id : JsString}
  {log before since : List Entry} {own : Entry}

/-! ## Acting and recording -/

/-- A result belongs to the last lease term of its operation, and is the first of it: behind the
lease of its holder nobody has leased the operation, and no result was recorded. -/
def OwnTerm (before : List Entry) (entry : Entry) : Prop :=
  ∀ h result successor, entry.act = .recorded h result successor →
    ∃ earlier since, before = earlier ++ { op := entry.op, act := .leased h } :: since ∧
      ∀ e ∈ since, e.op = entry.op → ∀ k,
        e.act ≠ .leased k ∧ ∀ result' successor', e.act ≠ .recorded k result' successor'

lemma turn_eq_leased {entry : Entry} (hturn : turn id entry = some (some h)) :
    entry = { op := id, act := .leased h } := by
  obtain ⟨op, act⟩ := entry
  unfold turn at hturn
  split_ifs at hturn with hop
  cases act with
  | leased k =>
    obtain rfl : k = h := by simpa [Act.turn] using hturn
    rw [← show op = id from hop]
  | opened => cases hturn
  | renewed k => cases hturn
  | wrote k => cases hturn
  | recorded k result successor => simp [Act.turn] at hturn
  | flagged which => cases hturn
  | superseded => cases hturn

variable {current : Option ControlStore.OperationRow} {op : ControlStore.OperationRow}
  {result : HandlerResult} {failure : Option Json} {row : ControlStore.OperationRow}
  {others : Others} {db : Database} {fence : Fence} {d : Deadlines} {lag : ℕ}

lemma History.ownTerm (hist : History db log) : Trace.Each OwnTerm log := by
  refine hist.fenced.imp fun before entry hfenced h result successor hact => ?_
  have htenant := hfenced h (by rw [hact]; rfl)
  obtain ⟨earlier, a, since, rfl, hturn, hidle⟩ := Tenure.tenant_eq_some_iff.1 htenant
  refine ⟨earlier, since, by rw [turn_eq_leased hturn], fun e he hop k => ?_⟩
  have hquiet := hidle e he
  rw [turn, if_pos hop] at hquiet
  constructor
  · intro hleased
    rw [hleased] at hquiet
    cases hquiet
  · intro result' successor' hrecorded
    rw [hrecorded] at hquiet
    cases hquiet

/-- A result that opens what follows an operation. -/
def opensSuccessor (id : JsString) (entry : Entry) : Bool :=
  decide (entry.op = id) &&
    match entry.act with
    | .recorded _ _ (some _) => true
    | _ => false

lemma History.concludes (hist : History db log) {entry : Entry}
    (hentry : entry ∈ log) (hopens : opensSuccessor id entry = true) :
    entry.op = id ∧ entry.act.concludes = true := by
  obtain ⟨op, act⟩ := entry
  rw [opensSuccessor, Bool.and_eq_true, decide_eq_true_eq] at hopens
  refine ⟨hopens.1, ?_⟩
  split at hopens
  · rename_i h result successor hact
    obtain rfl : act = .recorded h result (some successor) := hact
    exact hist.opens _ hentry h result successor rfl
  · exact absurd hopens.2 (by simp)

lemma History.opensSuccessor_le_one (hist : History db log) (id : JsString) :
    (log.filter (opensSuccessor id)).length ≤ 1 := by
  have hall : ∀ l, l <+: log → (l.filter (opensSuccessor id)).length ≤ 1 := by
    intro l
    induction l using List.reverseRecOn with
    | nil => simp
    | append_singleton l entry ih =>
      intro hl
      have hfront : l <+: log := (List.prefix_append l [entry]).trans hl
      have hmem : entry ∈ log := hl.subset (by simp)
      by_cases hopens : opensSuccessor id entry = true
      · -- an earlier one would have left only flags for this line
        have hnil : l.filter (opensSuccessor id) = [] := by
          rw [List.filter_eq_nil_iff]
          intro earlier hearlier hopens'
          obtain ⟨hop, -⟩ := hist.concludes hmem hopens
          obtain ⟨hop', hconcludes'⟩ := hist.concludes (hfront.subset hearlier) hopens'
          obtain ⟨which, hact⟩ := (Trace.each_concat.1 (hist.settled.of_prefix hl)).2
            ⟨earlier, hearlier, hop'.trans hop.symm, hconcludes'⟩
          simp [opensSuccessor, hact] at hopens
        rw [List.filter_append, hnil]
        simpa using List.length_filter_le (opensSuccessor id) [entry]
      · rw [List.filter_append, List.filter_cons_of_neg hopens, List.filter_nil, List.append_nil]
        exact ih hfront
  exact hall log List.prefix_rfl

lemma Inv.not_leased (hinv : Inv w)
    (hrow : getOperation w.db id = some row) (hover : row.active = false) (event : Event) :
    ∀ entry ∈ (Ticker.step handlers w event).log.drop w.log.length, entry.op = id →
      ∀ k, entry.act ≠ .leased k := by
  intro entry hentry hop k hact
  cases htimed : event.timed with
  | true =>
    rw [(step_timed htimed).2, List.drop_length] at hentry
    cases hentry
  | false =>
    have heffect : Effect w (Ticker.step handlers w event) event.ticker :=
      step_effect hinv.tickers htimed
    obtain ⟨entries, hlog, hmade, -, halone⟩ := heffect.made
    rw [hlog, List.drop_left] at hentry
    obtain rfl := halone entry hentry k hact
    cases hmade with
    | cons hmade _ =>
      cases hmade with
      | opened new hact' => simp [hact] at hact'
      | changed old new hold hversion hdone hget =>
        rw [hop] at hold
        obtain rfl : old = row := Option.some.inj (hold.symm.trans hrow)
        rw [hact] at hdone
        exact absurd hdone.1 (by simp [hover])

lemma Inv.over_step (hinv : Inv w)
    (hrow : getOperation w.db id = some row) (hover : row.active = false)
    (hfree : row.leaseHolder = none) (event : Event) :
    ∃ row', getOperation (Ticker.step handlers w event).db id = some row' ∧
      SameButFlags row row' := by
  cases htimed : event.timed with
  | true => exact ⟨row, by rw [(step_timed htimed).1, hrow], .refl row⟩
  | false =>
    have heffect : Effect w (Ticker.step handlers w event) event.ticker :=
      step_effect hinv.tickers htimed
    obtain ⟨entries, -, hmade, -⟩ := heffect.made
    exact hmade.over hrow hover hfree

lemma Inv.over_run (hinv : Inv w)
    (hrow : getOperation w.db id = some row) (hover : row.active = false)
    (hfree : row.leaseHolder = none) (events : List Event) :
    ∃ row', getOperation (Ticker.run handlers w events).db id = some row' ∧
      SameButFlags row row' := by
  induction events generalizing w row with
  | nil => exact ⟨row, hrow, .refl row⟩
  | cons event events ih =>
    obtain ⟨row₁, hrow₁, hsame⟩ := hinv.over_step hrow hover hfree event
    obtain ⟨row', hrow', hsame'⟩ := ih (hinv.step event) hrow₁ (hsame.kept.1.trans hover)
      (hsame.kept.2.1.trans hfree)
    exact ⟨row', hrow', hsame.trans hsame'⟩

/-- **Only the leaseholder acts, and only it records.** In every run of any number of tickers:

* when a remote call begins, every earlier call of another ticker on the operation has ended;
* the time that a call is given ends before the lease that its holder then holds, by the margin;
* a result is the first of its lease term, and nobody has leased the operation since the lease;
* an operation that is over is not leased, and once a result has concluded it, it is released and
  nothing but its flags changes;
* what follows an operation is opened at most once. -/
theorem leaseholder_alone (handlers : JsString → JsString → Option Handler) (clock : ℤ)
    (auditSequence : Option ℕ) (events : List Event) :
    let w := run handlers (start clock auditSequence) events
    w.calls.Pairwise Apart ∧
    (∀ h fence op budget what timeout, w.phase h = .acting fence op budget →
      budget.claim what w.clock = .ok timeout →
      ∃ row leaseUntil, getOperation w.db fence.id = some row ∧ row.leaseHolder = some h ∧
        row.leaseUntil = some leaseUntil ∧ w.clock + timeout ≤ leaseUntil - LEASE_SAFETY_MS) ∧
    Trace.Each OwnTerm w.log ∧
    (∀ id row, getOperation w.db id = some row → row.active = false → ∀ event,
      ∀ entry ∈ (step handlers w event).log.drop w.log.length, entry.op = id →
        ∀ k, entry.act ≠ .leased k) ∧
    (∀ entry ∈ w.log, entry.act.concludes = true → ∃ row, getOperation w.db entry.op = some row ∧
      row.active = false ∧ row.leaseHolder = none ∧ ∀ more, ∃ row',
        getOperation (run handlers w more).db entry.op = some row' ∧ SameButFlags row row') ∧
    ∀ id, (w.log.filter (opensSuccessor id)).length ≤ 1 := by
  intro w
  have hinv : Inv w := (inv_start clock auditSequence).run events
  refine ⟨hinv.apart, ?_, hinv.history.ownTerm, ?_, ?_, hinv.history.opensSuccessor_le_one⟩
  · intro h fence op budget what timeout hphase hclaim
    obtain ⟨hpos, hend, hguard⟩ := (hinv.tickers h).claim hphase hclaim
    have hsafety : 0 < LEASE_SAFETY_MS := by decide
    obtain ⟨row, hrow, hholder, huntil⟩ := hguard (by omega)
    exact ⟨row, budget.leaseUntil, hrow, hholder, huntil, by omega⟩
  · exact fun id row hrow hover event => hinv.not_leased hrow hover event
  · intro entry hentry hconcludes
    obtain ⟨row, hrow, hover, hfree⟩ := hinv.history.concluded entry hentry hconcludes
    exact ⟨row, hrow, hover, hfree, fun more => hinv.over_run hrow hover hfree more⟩

def tickerA : JsString := js "a"

def tickerB : JsString := js "b"

/-- A roster on which every kind has a handler. -/
def everyHandler : JsString → JsString → Option Handler :=
  fun _ _ => some { timeoutIsRetryable := false }

/-- The rest of a transaction that goes through, for an instance that is to go live. -/
def othersMade : Others := { attention := .ok [], service := .ok [], goal := some .live }

/-- A create that the provider rejects: its settlement marks the operation as failed, and the
result is about to be recorded. -/
def rejectedCreate : List Event :=
  [.enqueue (js "op") (js "inst") (js "create_instance") none none 900000 900000 none,
    .readDue tickerA 0, .lease tickerA 0 true, .headroom tickerA 0 0 true, .begin tickerA 0 true,
    .remote tickerA (js "create"), .callEnds 0,
    .handlerWrites tickerA 2
      { status := some ⟨.failed, Or.inr (Or.inl rfl)⟩, evidence := .object [], evidenceAt := 0 },
    .handlerEnds tickerA (.ok (.fatal (js "provider rejected: quota") none)) none, .reread tickerA]

/-- A failed operation is written again: the settlement of a create that was rejected marks it as
failed before the result of the same dispatch is recorded. -/
theorem failed_is_written_again : ¬ ∀ (handlers : JsString → JsString → Option Handler) (clock : ℤ)
    (auditSequence : Option ℕ) (events : List Event) (event : Event) (id : JsString)
    (row : ControlStore.OperationRow),
    getOperation (run handlers (start clock auditSequence) events).db id = some row →
      row.active = false → event.ticker ≠ none →
      getOperation (step handlers (run handlers (start clock auditSequence) events) event).db id =
        some row := by
  intro hclaim
  have hrow : ((getOperation (run everyHandler (start 0 (some 0)) rejectedCreate).db
      (js "op")).map fun row => (row.active, row.version)) = some (false, 3) := by decide +kernel
  have hafter : ((getOperation (step everyHandler
      (run everyHandler (start 0 (some 0)) rejectedCreate) (.record tickerA 0 othersMade)).db
      (js "op")).map (·.version)) = some 4 := by decide +kernel
  obtain ⟨row, hfound, hfields⟩ := Option.map_eq_some_iff.1 hrow
  obtain ⟨hactive, hversion⟩ := Prod.mk.inj hfields
  rw [hclaim everyHandler 0 (some 0) rejectedCreate _ (js "op") row hfound hactive
    (by simp [Event.ticker])] at hafter
  have hagain : row.version = 4 := Option.some.inj hafter
  omega

/-! ## Late results -/

/-- The transaction of a result from its write on, without the fence. -/
def restOfFinish (d : Deadlines) (fence : Fence) (op : ControlStore.OperationRow)
    (result : HandlerResult) (failure : Option Json) (current : Option ControlStore.OperationRow)
    (others : Others) (now clock : ℤ) (db : Database) :
    Except Failure (Option ControlStore.OperationRow × Database) := do
  let patch ← withNotedFailure op result failure current now (resultPatch d op result now)
  match ← updateOperation db fence.id (fun _ => true)
      fun row => { patch.applyTo row with updatedAt := clock } with
  | (none, _) => .error (.error (js "lost the fence on " ++ fence.id ++
      js " while recording a result"))
  | (some _, written) => finishOthers op result others now clock written

def liveFence (fence : Fence) (current : Option ControlStore.OperationRow) : Fence :=
  { fence with version := (current.map (·.version)).getD fence.version }

lemma finishBody_of_admits
        {now clock : ℤ}
    (hrow : getOperation db fence.id = some row)
    (hadmits : (liveFence fence current).admits row = true) :
    finishBody d fence op result failure current others now clock db =
      restOfFinish d fence op result failure current others now clock db := by
  have hcas : ∀ patch : OperationPatch, casOperation db (liveFence fence current) patch clock =
      updateOperation db fence.id (fun _ => true)
        fun row => { patch.applyTo row with updatedAt := clock } := by
    intro patch
    unfold casOperation updateOperation
    rw [show (liveFence fence current).id = fence.id from rfl, hrow]
    simp [hadmits]
  unfold finishBody restOfFinish
  refine bind_congr fun patch => ?_
  refine Eq.trans (congrArg (fun written => written >>= _) (hcas patch)) ?_
  rfl

lemma finishBody_of_not_holds
        {now clock : ℤ}
    (hholds : ¬ (liveFence fence current).Holds db) :
    ∃ message, finishBody d fence op result failure current others now clock db =
      .error message := by
  cases hbody : finishBody d fence op result failure current others now clock db with
  | error message => exact ⟨message, rfl⟩
  | ok outcome =>
    obtain ⟨patch, -, h⟩ := bind_eq_ok.1 hbody
    obtain ⟨⟨written, db₁⟩, hcas, h⟩ := bind_eq_ok.1 h
    cases written with
    | none => cases h
    | some row =>
      obtain ⟨⟨old, hold, hadmits, -⟩, -⟩ := updateOperation_made hcas
      exact absurd ⟨old, hold, hadmits⟩ hholds

/-- **Who holds an operation behind the last line of a ticker.** The ticker does, unless another one
has leased it since. -/
lemma Inv.held_iff (hinv : Inv w) (hlog : w.log = before ++ own :: since) (hop : own.op = id)
    (hown : own.act = .leased h ∨ own.act = .renewed h ∨ own.act = .wrote h)
    (hlast : ∀ entry ∈ since, entry.op = id → entry.act.holder ≠ some h) :
    (getOperation w.db id).bind (·.leaseHolder) = some h ↔
      ¬ ∃ entry ∈ since, entry.op = id ∧ ∃ k, entry.act = .leased k := by
  have hhist := hinv.history
  rw [hhist.holder]
  have hfenced := hhist.fenced
  rw [hlog] at hfenced ⊢
  have hthen : Tenure.tenant (turn id) (before ++ [own]) = some h := by
    have hbefore : own.act.fencedBy = some h → Tenure.tenant (turn id) before = some h :=
      fun hact => hop ▸ hfenced before own since rfl h hact
    rw [Tenure.tenant_concat, turn, if_pos hop]
    rcases hown with hact | hact | hact
    · rw [hact]
      rfl
    · rw [hbefore (by rw [hact]; rfl), hact]
      rfl
    · rw [hbefore (by rw [hact]; rfl), hact]
      rfl
  have hidOf : ∀ {entry : Entry} {holder : Option JsString}, turn id entry = some holder →
      entry.op = id ∧ entry.act.turn = some holder := by
    intro entry holder hturn
    unfold turn at hturn
    split_ifs at hturn with hid
    exact ⟨hid, hturn⟩
  rw [List.append_cons, Tenure.tenant_append_eq_some_iff hthen ?_ ?_]
  · constructor
    · rintro hnone ⟨entry, hentry, hid, k, hact⟩
      exact hnone entry hentry k (by rw [turn, if_pos hid, hact]; rfl)
    · intro hnone entry hentry k hturn
      exact hnone ⟨entry, hentry, (hidOf hturn).1, k, congrArg Entry.act (turn_eq_leased hturn)⟩
  · intro entry hentry hturn
    have hleased := turn_eq_leased hturn
    exact hlast entry hentry (hidOf hturn).1 (by rw [hleased]; rfl)
  · intro between entry after hsince hturn
    obtain ⟨hid, hact⟩ := hidOf hturn
    have hentry : entry ∈ since := by simp [hsince]
    cases hrecorded : entry.act with
    | recorded k result successor =>
      have hholder := hfenced (before ++ own :: between) entry after (by simp [hsince]) k
        (by rw [hrecorded]; rfl)
      rw [hid] at hholder
      rw [← List.append_cons, hholder]
      intro heq
      exact hlast entry hentry hid (by rw [hrecorded]; exact heq)
    | opened | leased k | renewed k | wrote k | flagged which | superseded =>
      simp [hrecorded, Act.turn] at hact

lemma record_of_error
        {message : Failure}
    (hphase : w.phase h = .recording fence op result failure current)
    (hd : deadlinesFor op.kind = .ok d)
    (hbody : finishBody d fence op result failure current others (w.clock - lag) w.clock w.db =
      .error message) : w.record h lag others = w.move h .idle := by
  unfold World.record
  simp only [hphase, hd, tx, hbody]

lemma record_of_ok
        {current successor : Option ControlStore.OperationRow}
    (hphase : w.phase h = .recording fence op result failure current)
    (hd : deadlinesFor op.kind = .ok d)
    (hbody : finishBody d fence op result failure current others (w.clock - lag) w.clock w.db =
      .ok (successor, db)) :
    w.record h lag others =
      (w.noteResult db fence.id h result (successor.map (·.id))).move h .idle := by
  unfold World.record
  simp only [hphase, hd, tx, hbody]

lemma record_of_no_deadlines
        {message : Failure}
    (hphase : w.phase h = .recording fence op result failure current)
    (hd : deadlinesFor op.kind = .error message) : w.record h lag others = w.giveUp h := by
  unfold World.record
  simp only [hphase, hd]

/-- The result is dropped: nothing is recorded, and the operation stays as the others left it. -/
def Refused (w : World) (h id : JsString) (lag : ℕ) (others : Others) : Prop :=
  (w.record h lag others).log = w.log ∧
    getOperation (w.record h lag others).db id = getOperation w.db id

/-- Of the lines behind the last line of a ticker one is a lease of the operation, or it is a line
on the operation behind the read of the ticker's last transaction. -/
def Outdated (id : JsString) (since meanwhile : List Entry) : Prop :=
  (∃ entry ∈ since ++ meanwhile, entry.op = id ∧ ∃ k, entry.act = .leased k) ∨ Touched id meanwhile

lemma refused_of_not_holds (hphase : w.phase h = .recording fence op result failure current)
    (hholds : ¬ (liveFence fence current).Holds w.db) : Refused w h fence.id lag others := by
  unfold Refused
  cases hd : deadlinesFor op.kind with
  | error message =>
    rw [record_of_no_deadlines hphase hd]
    exact ⟨rfl, rfl⟩
  | ok d =>
    have hbody : ∃ message, finishBody d fence op result failure current others (w.clock - lag)
        w.clock w.db = .error message := finishBody_of_not_holds hholds
    obtain ⟨message, hbody⟩ := hbody
    rw [record_of_error hphase hd hbody]
    exact ⟨rfl, rfl⟩

lemma not_refused_of_holds {outcome : Option ControlStore.OperationRow × Database}
    (hphase : w.phase h = .recording fence op result failure current)
    (hholds : (liveFence fence current).Holds w.db) (hd : deadlinesFor op.kind = .ok d)
    (hrest : restOfFinish d fence op result failure current others (w.clock - lag) w.clock w.db =
      .ok outcome) : ¬ Refused w h fence.id lag others := by
  obtain ⟨row, hrow, hadmits⟩ := hholds
  obtain ⟨successor, db⟩ := outcome
  have hbody : finishBody d fence op result failure current others (w.clock - lag) w.clock w.db =
      restOfFinish d fence op result failure current others (w.clock - lag) w.clock w.db :=
    finishBody_of_admits hrow hadmits
  rintro ⟨hsame, -⟩
  rw [record_of_ok hphase hd (hbody.trans hrest)] at hsame
  have hlength := congrArg List.length hsame
  simp [World.noteResult, World.move, World.put] at hlength

/-! ### The lines of others -/

/-- What an event adds to the history, on behalf of its ticker, and does to the operations. -/
lemma Inv.step_lines (hinv : Inv w) (event : Event) : ∃ lines,
    (Ticker.step handlers w event).log = w.log ++ lines ∧
    (∀ entry ∈ lines, ∀ k, entry.act.holder = some k → event.ticker = some k) ∧
    ∀ id row, getOperation w.db id = some row → ∃ row',
      getOperation (Ticker.step handlers w event).db id = some row' ∧ Carried id lines row row' := by
  cases htimed : event.timed with
  | false =>
    have heffect : Effect w (Ticker.step handlers w event) _ := step_effect hinv.tickers htimed
    obtain ⟨lines, hlog, hmade, hholder, -⟩ := heffect.made
    exact ⟨lines, hlog, fun entry hentry k hk => (hholder entry hentry k hk).1,
      fun id row hrow => hmade.carried hrow⟩
  | true =>
    have hsame : (Ticker.step handlers w event).db = w.db ∧ _ := step_timed htimed
    exact ⟨[], by rw [hsame.2, List.append_nil], by simp,
      fun id row hrow => ⟨row, by rw [hsame.1, hrow], .nil⟩⟩

lemma Inv.run_lines (hinv : Inv w) (events : List Event) : ∃ lines,
    (Ticker.run handlers w events).log = w.log ++ lines ∧
    (∀ entry ∈ lines, ∀ k, entry.act.holder = some k → ∃ event ∈ events, event.ticker = some k) ∧
    ∀ id row, getOperation w.db id = some row → ∃ row',
      getOperation (Ticker.run handlers w events).db id = some row' ∧ Carried id lines row row' := by
  induction events generalizing w with
  | nil => exact ⟨[], (List.append_nil _).symm, by simp, fun id row hrow => ⟨row, hrow, .nil⟩⟩
  | cons event events ih =>
    obtain ⟨lines, hlog, hholder, hrows⟩ : ∃ lines, (Ticker.step handlers w event).log = _ ∧ _ :=
      hinv.step_lines event
    obtain ⟨lines', hlog', hholder', hrows'⟩ := ih (hinv.step event)
    refine ⟨lines ++ lines', ?_, fun entry hentry k hk => ?_, fun id row hrow => ?_⟩
    · rw [← List.append_assoc, ← hlog]
      exact hlog'
    · rcases List.mem_append.1 hentry with hfirst | hlater
      · exact ⟨event, List.mem_cons_self, hholder entry hfirst k hk⟩
      · obtain ⟨later, hmem, hticker⟩ := hholder' entry hlater k hk
        exact ⟨later, List.mem_cons_of_mem _ hmem, hticker⟩
    · obtain ⟨row₁, hrow₁, hfirst⟩ := hrows id row hrow
      obtain ⟨row', hrow', hlater⟩ := hrows' id row₁ hrow₁
      exact ⟨row', hrow', hfirst.trans hlater⟩

lemma run_tickers_of_ne {events : List Event} (hne : ∀ event ∈ events, event.ticker ≠ some h) :
    (run handlers w events).tickers h = w.tickers h := by
  induction events generalizing w with
  | nil => rfl
  | cons event events ih =>
    obtain ⟨hevent, hrest⟩ := List.forall_mem_cons.1 hne
    exact (ih hrest).trans (step_tickers_of_ne hevent)

/-! ### Others in between -/

/-- The transaction of a result has read the row when others go on. -/
lemma Inv.refused_iff {during : List Event} (hinv : Inv w)
    (hphase : w.phase h = .settled fence op result failure)
    (hlog : w.log = before ++ own :: since) (hop : own.op = fence.id)
    (hown : own.act = .leased h ∨ own.act = .renewed h ∨ own.act = .wrote h)
    (hlast : ∀ entry ∈ since, entry.op = fence.id → entry.act.holder ≠ some h)
    (hduring : ∀ event ∈ during, event.ticker ≠ some h) (lag : ℕ) (others : Others) :
    let w' := Ticker.run handlers w (.reread h :: during)
    let meanwhile := w'.log.drop w.log.length
    (Outdated fence.id since meanwhile → Refused w' h fence.id lag others) ∧
    ∀ d outcome, deadlinesFor op.kind = .ok d →
      restOfFinish d fence op result failure (getOperation w'.db fence.id) others (w'.clock - lag)
        w'.clock w'.db = .ok outcome →
      Refused w' h fence.id lag others → Outdated fence.id since meanwhile := by
  intro w' meanwhile
  have hfence : fence.holder = h := by
    have hok := (hinv.tickers h).phase
    rwa [hphase] at hok
  have hkept : w'.tickers h = (Ticker.step handlers w (.reread h)).tickers h :=
    run_tickers_of_ne hduring
  cases hd : deadlinesFor op.kind with
  | error message =>
    -- no deadlines: the ticker has given up
    have hidle : w'.phase h = .idle := by
      rw [World.phase, hkept]
      simp [Ticker.step, World.reread, hphase, hd, World.giveUp, World.put]
    refine ⟨fun _ => ?_, fun d outcome hd' => by cases hd'⟩
    simp [Refused, World.record, hidle]
  | ok d =>
    have hstep : Ticker.step handlers w (.reread h) =
        w.move h (.recording fence op result failure (getOperation w.db fence.id)) := by
      simp [Ticker.step, World.reread, hphase, hd]
    have hphase' : w'.phase h =
        .recording fence op result failure (getOperation w.db fence.id) := by
      rw [World.phase, hkept, hstep, World.move, World.put_self]
    obtain ⟨lines, hlines, hholders, hrows⟩ : ∃ lines, w'.log = _ ∧ _ ∧
        ∀ id row, _ → ∃ row', getOperation w'.db id = some row' ∧ Carried id lines row row' :=
      (hinv.step (.reread h)).run_lines during
    rw [hstep] at hlines hrows
    have hmeanwhile : meanwhile = lines := (congrArg (List.drop _) hlines).trans List.drop_left
    rw [hmeanwhile]
    have hlog' : w'.log = before ++ own :: (since ++ lines) := by
      rw [hlines, show (w.move h _).log = _ from hlog, List.append_assoc, List.cons_append]
    have hlast' : ∀ entry ∈ since ++ lines, entry.op = fence.id →
        entry.act.holder ≠ some h := by
      intro entry hentry hid hholder
      rcases List.mem_append.1 hentry with hsince | hline
      · exact hlast entry hsince hid hholder
      · obtain ⟨event, hevent, hticker⟩ := hholders entry hline h hholder
        exact hduring event hevent hticker
    have hinv' : Inv w' := hinv.run _
    have hheld' := hinv'.held_iff hlog' hop hown hlast'
    -- the row was there when it was read
    have hread : (¬ ∃ entry ∈ since ++ lines, entry.op = fence.id ∧ ∃ k, entry.act = .leased k) →
        ∃ row, getOperation w.db fence.id = some row ∧
          (liveFence fence (getOperation w.db fence.id)).version = row.version := by
      intro hnone
      have hheld := (hinv.held_iff hlog hop hown hlast).2 <| by
        rintro ⟨entry, hentry, hleased⟩
        exact hnone ⟨entry, List.mem_append_left _ hentry, hleased⟩
      obtain ⟨row, hrow, -⟩ := Option.bind_eq_some_iff.1 hheld
      exact ⟨row, hrow, by rw [hrow]; rfl⟩
    constructor
    · intro houtdated
      refine refused_of_not_holds hphase' ?_
      rintro ⟨row', hrow', hadmits⟩
      rw [Fence.admits, Bool.and_eq_true, decide_eq_true_eq, decide_eq_true_eq] at hadmits
      have hrow' : getOperation w'.db fence.id = some row' := hrow'
      have hnone : ¬ ∃ entry ∈ since ++ lines, entry.op = fence.id ∧ ∃ k, entry.act = .leased k := by
        rw [← hheld', hrow', Option.bind_some, ← hfence]
        exact hadmits.2
      -- nobody has leased it, so its version has gone on since it was read
      have htouched := houtdated.resolve_left hnone
      obtain ⟨row, hrow, hversion⟩ := hread hnone
      obtain ⟨row'', hrow'', hcarried⟩ := hrows fence.id row hrow
      obtain rfl : row'' = row' := Option.some.inj (hrow''.symm.trans hrow')
      have hlt := hcarried.1 htouched
      rw [hversion] at hadmits
      omega
    · intro d' outcome hd' hrest hrefused
      obtain rfl := Except.ok.inj hd'
      by_contra hnot
      obtain ⟨hnone, huntouched⟩ := not_or.1 hnot
      obtain ⟨row, hrow, hversion⟩ := hread hnone
      obtain ⟨row', hrow', hcarried⟩ := hrows fence.id row hrow
      obtain rfl : row' = row := hcarried.2 huntouched
      have hholder := hheld'.2 hnone
      rw [show getOperation w'.db fence.id = some row' from hrow'] at hholder hrest
      rw [← hrow] at hrest
      refine not_refused_of_holds hphase' ⟨row', hrow', ?_⟩ hd hrest hrefused
      rw [Fence.admits, Bool.and_eq_true, decide_eq_true_eq, decide_eq_true_eq]
      exact ⟨hversion.symm, hholder.trans (congrArg some hfence.symm)⟩

/-- **When a late result is refused.** The handler of a ticker has ended; `own` is the last line of
the ticker on the operation: its lease, its renewal or a write of the handler. The transaction of the
result reads the operation, others go on, and the result is to be recorded. (The ticker itself does
nothing in between, unless it gives up.)

A result is refused if somebody has leased the operation since the own line, or changed it behind the
read. Where what else the transaction does goes through, the rule that a result is refused once the
operation was touched holds exactly if nobody touched it, or somebody did so in one of these ways. -/
theorem late_result_refused_iff (handlers : JsString → JsString → Option Handler) (clock : ℤ)
    (auditSequence : Option ℕ) (events during : List Event) {h : JsString} {fence : Fence}
    {op : ControlStore.OperationRow} {result : HandlerResult} {failure : Option Json}
    {before since : List Entry} {own : Entry}
    (hphase : (run handlers (start clock auditSequence) events).phase h =
      .settled fence op result failure)
    (hlog : (run handlers (start clock auditSequence) events).log = before ++ own :: since)
    (hop : own.op = fence.id)
    (hown : own.act = .leased h ∨ own.act = .renewed h ∨ own.act = .wrote h)
    (hlast : ∀ entry ∈ since, entry.op = fence.id → entry.act.holder ≠ some h)
    (hduring : ∀ event ∈ during, event.ticker ≠ some h) (lag : ℕ) (others : Others) :
    let w := run handlers (start clock auditSequence) events
    let w' := run handlers w (.reread h :: during)
    let meanwhile := w'.log.drop w.log.length
    (Outdated fence.id since meanwhile → Refused w' h fence.id lag others) ∧
    ∀ d outcome, deadlinesFor op.kind = .ok d →
      restOfFinish d fence op result failure (getOperation w'.db fence.id) others (w'.clock - lag)
        w'.clock w'.db = .ok outcome →
      ((Touched fence.id (since ++ meanwhile) → Refused w' h fence.id lag others) ↔
        (Touched fence.id (since ++ meanwhile) → Outdated fence.id since meanwhile)) := by
  intro w w' meanwhile
  have hinv : Inv w := (inv_start clock auditSequence).run events
  obtain ⟨hrefused, honly⟩ := hinv.refused_iff hphase hlog hop hown hlast hduring lag others
  refine ⟨hrefused, fun d outcome hd hrest => ?_⟩
  exact ⟨fun h htouched => honly d outcome hd hrest (h htouched),
    fun h htouched => hrefused (h htouched)⟩

/-- A power-off whose lease runs out while its handler runs, so that another ticker flags it as
inactive; then its handler ends with progress. -/
def lateProgress : List Event :=
  [.enqueue (js "op") (js "inst") (js "power_off") none none 10 1800000 none,
    .readDue tickerA 0, .lease tickerA 0 true, .headroom tickerA 0 0 true, .begin tickerA 0 true,
    .advance 300000, .readLive tickerB, .flag tickerB 0 2 .inactivity (.ok []) 0,
    .handlerEnds tickerA (.ok (.progress (.object []))) none]

lemma phase_lateProgress : ∃ fence op result failure,
    (run everyHandler (start 0 (some 0)) lateProgress).phase tickerA =
      .settled fence op result failure ∧ fence.id = js "op" :=
  ⟨_, _, _, _, rfl, rfl⟩

lemma log_lateProgress : (run everyHandler (start 0 (some 0)) lateProgress).log =
    [{ op := js "op", act := .opened }] ++ { op := js "op", act := .leased tickerA } ::
      [{ op := js "op", act := .flagged .inactivity }] := rfl

/-- Another ticker leases the operation between the read and the write of the late result. -/
theorem late_result_refused_iff_leased : ∃ fence op result failure,
    (run everyHandler (start 0 (some 0)) lateProgress).phase tickerA =
      .settled fence op result failure ∧
    Refused (run everyHandler (run everyHandler (start 0 (some 0)) lateProgress)
      [.reread tickerA, .readDue tickerB 0, .lease tickerB 0 true]) tickerA fence.id 0
        othersMade := by
  obtain ⟨fence, op, result, failure, hphase, hid⟩ := phase_lateProgress
  refine ⟨fence, op, result, failure, hphase, (late_result_refused_iff everyHandler 0 (some 0)
    lateProgress [.readDue tickerB 0, .lease tickerB 0 true] hphase log_lateProgress hid.symm
    (Or.inl rfl) (by simp [Act.holder]) (by decide) 0 othersMade).1 ?_⟩
  exact Or.inr ⟨{ op := js "op", act := .leased tickerB }, List.mem_singleton_self _, hid.symm⟩

theorem late_result_is_recorded : ¬ ∀ (handlers : JsString → JsString → Option Handler) (clock : ℤ)
    (auditSequence : Option ℕ) (events during : List Event) (h : JsString) (fence : Fence)
    (op : ControlStore.OperationRow) (result : HandlerResult) (failure : Option Json)
    (before since : List Entry) (own : Entry) (lag : ℕ) (others : Others),
    (run handlers (start clock auditSequence) events).phase h = .settled fence op result failure →
    (run handlers (start clock auditSequence) events).log = before ++ own :: since →
    own.op = fence.id →
    (own.act = .leased h ∨ own.act = .renewed h ∨ own.act = .wrote h) →
    (∀ entry ∈ since, entry.op = fence.id → entry.act.holder ≠ some h) →
    (∀ event ∈ during, event.ticker ≠ some h) →
    Touched fence.id since →
    Refused (run handlers (run handlers (start clock auditSequence) events) (.reread h :: during))
      h fence.id lag others := by
  intro hclaim
  obtain ⟨fence, op, result, failure, hphase, hid⟩ := phase_lateProgress
  obtain ⟨-, hkept⟩ := hclaim everyHandler 0 (some 0) lateProgress [] tickerA fence op result failure
    _ _ _ 0 othersMade hphase log_lateProgress hid.symm (Or.inl rfl) (by simp [Act.holder])
    (by simp) ⟨_, List.mem_singleton_self _, hid.symm⟩
  rw [hid] at hkept
  have hbefore : (getOperation (run everyHandler (run everyHandler (start 0 (some 0)) lateProgress)
      [.reread tickerA]).db (js "op")).map (·.inactivityFlagged) = some 1 := by decide +kernel
  have hbehind : (getOperation (World.record (run everyHandler (run everyHandler (start 0 (some 0))
      lateProgress) [.reread tickerA]) tickerA 0 othersMade).db (js "op")).map
        (·.inactivityFlagged) = some 0 := by decide +kernel
  rw [hkept, hbefore] at hbehind
  cases hbehind

/-! ## Operations move on -/

/-- In an event an operation stays, and stays as it was or gets a later version. -/
lemma follows_step (hinv : Inv w) (event : Event) : Follows w.db (step handlers w event).db := by
  obtain ⟨lines, -, -, hrows⟩ := hinv.step_lines event
  intro id row hrow
  obtain ⟨row', hrow', hcarried⟩ := hrows id row hrow
  exact ⟨row', hrow', hcarried.same_or_later⟩

/-- **Operations only move on.** Along every run, whatever tickers, handlers and crashes there are,
an operation stays, and stays as it was or gets a later version; and a fence that was overtaken
admits nobody any more. -/
theorem operations_move_on (handlers : JsString → JsString → Option Handler) (clock : ℤ)
    (auditSequence : Option ℕ) (events later : List Event) :
    let db := (run handlers (start clock auditSequence) events).db
    let db' := (run handlers (start clock auditSequence) (events ++ later)).db
    Follows db db' ∧ ∀ fence : Fence, fence.Overtaken db → ¬ fence.Holds db' := by
  intro db db'
  have hinv : Inv (run handlers _ events) := (inv_start clock auditSequence).run events
  have hfollows : Follows db db' := by
    rw [show db' = (run handlers (run handlers (start clock auditSequence) events) later).db from
      congrArg World.db (Machine.run_append ..)]
    exact (Machine.run_invariant (P := fun w => Inv w ∧ Follows db w.db)
      (fun _ event h => ⟨h.1.step event, h.2.trans (follows_step h.1 event)⟩)
      ⟨hinv, .refl db⟩).2
  exact ⟨hfollows, fun fence h => (h.follows hfollows).not_holds⟩

end Isomux.Ticker
