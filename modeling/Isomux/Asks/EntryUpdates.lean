import Isomux.Asks.Store

set_option autoImplicit false

/-!
# What the operations make of an ask

Some operations check the entry they made, others do not: they may change the prompt, the times, the
runs and the alarm of an ask only. Of these the check asks little more than what their types say.

## Main results

* `Isomux.isAskPage_toJs` — what the check asks of an alarm.
* `Isomux.Became.update` — an entry whose prompt, times, runs and alarm were changed.
-/

namespace Isomux

open JsValue (isOptional isListOf ofOption ofList everyValue)

/-! ## What the check asks of typed values -/

lemma isOptional_number (o : Option JsDouble) :
    isOptional JsValue.isNumber (ofOption JsDouble.toJs o) = true := by
  cases o with
  | none => rfl
  | some n => simp [isOptional, ofOption]

lemma isOptional_text (o : Option JsString) :
    isOptional JsValue.isString (ofOption .string o) = true := by
  cases o <;> rfl

lemma isPageDelivery_toJs (d : PagerDelivery) : isPageDelivery d.toJs = true := by
  have hstate : (JsValue.string d.state.text).isOneOf PAGE_DELIVERY_STATES = true := by
    cases d.state <;> decide
  have hfailure : isOptional JsValue.isString
      (ofOption (fun f : PagerDeliveryFailure => .string f.text) d.lastFailure) = true := by
    cases d.lastFailure <;> rfl
  have hnotice : isOptional (JsValue.isOneOf [js "pending", js "done"])
      (ofOption (fun n : ResolvedNotice => .string n.text) d.resolvedNotice) = true := by
    cases d.resolvedNotice with
    | none => rfl
    | some n => cases n <;> decide
  unfold isPageDelivery
  simp only [Bool.and_eq_true]
  exact ⟨⟨⟨⟨⟨rfl, hstate⟩, JsValue.isNumber_toJs d.sends⟩, isOptional_number d.lastAttemptAt⟩,
    hfailure⟩, hnotice⟩

lemma isAskCommandRun_toJs (r : AskCommandRun) : isAskCommandRun r.toJs = true := by
  have hstate : (JsValue.string r.state.text).isOneOf RUN_STATES = true := by
    cases r.state <;> decide
  have hcode : isOptional (isNullOr JsValue.isNumber)
      (ofOption (orNull JsDouble.toJs) r.exitCode) = true := by
    rcases r.exitCode with _ | _ | code
    · rfl
    · rfl
    · simp [isOptional, ofOption, isNullOr, orNull]
  have hsignal : isOptional (isNullOr JsValue.isString)
      (ofOption (orNull .string) r.signal) = true := by
    rcases r.signal with _ | _ | name <;> rfl
  have htimedOut : isOptional JsValue.isTrue (JsValue.ofFlag r.timedOut) = true := by
    cases r.timedOut <;> rfl
  unfold isAskCommandRun
  simp only [Bool.and_eq_true]
  exact ⟨⟨⟨⟨⟨⟨⟨⟨⟨rfl, rfl⟩, rfl⟩, JsValue.isNumber_toJs r.startedAt⟩, hstate⟩, hcode⟩, hsignal⟩,
    htimedOut⟩, isOptional_number r.durationMs⟩, isOptional_text r.output⟩

lemma isOptional_runs (runs : Option (List AskCommandRun)) :
    isOptional (isListOf isAskCommandRun) (ofOption (ofList AskCommandRun.toJs) runs) = true ↔
      runs ≠ some [] := by
  cases runs with
  | none => exact iff_of_true rfl (by simp)
  | some runs =>
    have hall : (runs.map AskCommandRun.toJs).all isAskCommandRun = true := by
      simp [isAskCommandRun_toJs]
    change (!(runs.map AskCommandRun.toJs).isEmpty &&
      (runs.map AskCommandRun.toJs).all isAskCommandRun) = true ↔ _
    rw [hall]
    cases runs <;> simp

/-- Who acked an alarm and when is known of an acked one only. -/
def AskPage.settled (p : AskPage) : Prop :=
  match p.state with
  | .ringing => p.ackedByUserId = none ∧ p.ackedAt = none
  | .acked => p.ackedByUserId.isSome ∧ p.ackedAt.isSome

/-- **What the check asks of an alarm**: its id is not empty, and who acked it and when is known of an
acked one only. -/
theorem isAskPage_toJs (p : AskPage) :
    isAskPage p.toJs = true ↔ p.pageId ≠ some [] ∧ p.settled := by
  have hdelivery : everyValue isPageDelivery
      (.object (p.delivery.map fun d => (fieldName d.1, d.2.toJs))) = true := by
    simp [everyValue, isPageDelivery_toJs]
  have hid : isOptional JsValue.isNonEmptyString (ofOption .string p.pageId) = true ↔
      p.pageId ≠ some [] := by
    cases p.pageId with
    | none => exact iff_of_true rfl (by simp)
    | some id => simp [isOptional, ofOption, JsValue.isUndefined, JsValue.isNonEmptyString,
        JsValue.isStringWith]
  have hstate : pageStateOk p.toJs = true ↔ p.settled := by
    have hfield : p.toJs.field "state" = .string p.state.text := rfl
    have hby : p.toJs.field "ackedByUserId" = ofOption .string p.ackedByUserId := rfl
    have hat : p.toJs.field "ackedAt" = ofOption JsDouble.toJs p.ackedAt := rfl
    unfold pageStateOk AskPage.settled JsValue.lacks
    simp only [List.all_cons, List.all_nil, Bool.and_true, hfield, hby, hat]
    cases p.state with
    | ringing =>
      rw [if_pos (show (JsValue.string AskPageState.ringing.text).isText _ = true by decide)]
      have htext (s : JsString) : (JsValue.string s).isUndefined = false := rfl
      have hnone : JsValue.isUndefined .undefined = true := rfl
      cases p.ackedByUserId <;> cases p.ackedAt <;> simp [ofOption, htext, hnone]
    | acked =>
      have hacked : (JsValue.string AskPageState.acked.text).isText (js "acked") = true := by decide
      rw [if_neg (show ¬(JsValue.string AskPageState.acked.text).isText _ = true by decide), hacked]
      have htext (s : JsString) : (JsValue.string s).isString = true := rfl
      have hnone : JsValue.isString .undefined = false := rfl
      have hnoNumber : JsValue.isNumber .undefined = false := rfl
      cases p.ackedByUserId <;> cases p.ackedAt <;> simp [ofOption, htext, hnone, hnoNumber]
  unfold isAskPage
  simp only [Bool.and_eq_true]
  constructor
  · rintro ⟨⟨⟨⟨⟨⟨⟨-, -⟩, -⟩, hpageId⟩, -⟩, -⟩, -⟩, hok⟩
    exact ⟨hid.1 hpageId, hstate.1 hok⟩
  · rintro ⟨hpageId, hok⟩
    exact ⟨⟨⟨⟨⟨⟨⟨rfl, rfl⟩, isOptional_text p.key⟩, hid.2 hpageId⟩, isOptional_number p.raiseCount⟩,
      isOptional_number p.lastRaisedAt⟩, hdelivery⟩, hstate.2 hok⟩

/-! ## What the check asks of an entry after some fields changed -/

lemma runs_of_isAskEntry {e : AskEntry} (h : isAskEntry e.toJs = true) : e.runs ≠ some [] := by
  unfold isAskEntry at h
  simp only [Bool.and_eq_true] at h
  exact (isOptional_runs e.runs).1 h.1.1.1.1.1.2

lemma page_of_isAskEntry {e : AskEntry} (h : isAskEntry e.toJs = true) :
    ∀ page ∈ e.page, isAskPage page.toJs = true := by
  intro page hpage
  unfold isAskEntry at h
  simp only [Bool.and_eq_true] at h
  have hok := h.1.2
  have hfield : e.toJs.field "page" = page.toJs :=
    congrArg (ofOption AskPage.toJs) hpage
  unfold pageOk at hok
  rw [hfield] at hok
  exact (Bool.and_eq_true_iff.1 hok).1

variable {now : JsDouble} {page : Option AskPage} {p : AskPage}

/-- An ask is one after its prompt, its times, its runs and its alarm changed. -/
lemma isAskEntry_update {e : AskEntry} (h : isAskEntry e.toJs = true) (prompt : JsString)
    (updatedAt : JsDouble) (simplifyRequestedAt : Option JsDouble) {runs : Option (List AskCommandRun)}
    (hruns : runs ≠ some []) (hthere : page.isSome = e.page.isSome)
    (hpage : ∀ p ∈ page, isAskPage p.toJs = true) :
    isAskEntry { e with
      prompt := prompt
      updatedAt := updatedAt
      simplifyRequestedAt := simplifyRequestedAt
      runs := runs
      page := page : AskEntry }.toJs = true := by
  have hundefined : (ofOption AskPage.toJs page).isUndefined =
      (ofOption AskPage.toJs e.page).isUndefined := by
    cases page with
    | none =>
      have hnone : e.page = none := by simpa using hthere.symm
      rw [hnone]
    | some p =>
      obtain ⟨p', hp'⟩ := Option.isSome_iff_exists.1 hthere.symm
      rw [hp']
      rfl
  unfold isAskEntry at h ⊢
  simp only [Bool.and_eq_true] at h ⊢
  obtain ⟨⟨⟨⟨⟨⟨⟨⟨⟨⟨⟨⟨⟨⟨⟨⟨⟨⟨-, hcore⟩, hoffice⟩, hagent⟩, hshared⟩, hlink⟩, hsession⟩, happ⟩, hstep⟩,
    hoptions⟩, hrecommended⟩, hpriority⟩, haffordances⟩, -⟩, -⟩, horiginal⟩, hmessaging⟩, hpageOk⟩,
    hrequest⟩ := h
  unfold hasCoreFields at hcore ⊢
  simp only [Bool.and_eq_true] at hcore ⊢
  obtain ⟨⟨⟨⟨hid, hagentId⟩, -⟩, hcreated⟩, -⟩ := hcore
  -- the other parts of the check look at fields that did not change
  refine ⟨⟨⟨⟨⟨⟨⟨⟨⟨⟨⟨⟨⟨⟨⟨⟨⟨⟨rfl, ⟨⟨⟨⟨hid, hagentId⟩, rfl⟩, hcreated⟩,
    JsValue.isNumber_toJs updatedAt⟩⟩, hoffice⟩, ?_⟩, hshared⟩, hlink⟩, hsession⟩, happ⟩,
    hstep⟩, hoptions⟩, hrecommended⟩, hpriority⟩, haffordances⟩, (isOptional_runs runs).2 hruns⟩,
    isOptional_number simplifyRequestedAt⟩, horiginal⟩, hmessaging⟩, ?_⟩, hrequest⟩
  · unfold agentOk at hagent ⊢
    change (if _ then _ && !(ofOption AskPage.toJs page).isUndefined && _ && _ else _) = true
    rw [hundefined]
    exact hagent
  · unfold pageOk at hpageOk ⊢
    cases page with
    | none => rfl
    | some p =>
      obtain ⟨p', hp'⟩ := Option.isSome_iff_exists.1 hthere.symm
      have hfield : e.toJs.field "page" = p'.toJs := congrArg (ofOption AskPage.toJs) hp'
      rw [hfield] at hpageOk
      exact Bool.and_eq_true_iff.2 ⟨hpage p rfl, (Bool.and_eq_true_iff.1 hpageOk).2⟩

/-! ## What became of an entry -/

/-- An operation made an entry of another one: it is the ask it was, opened by the same source, with
its agent or without one. Its numbers are finite if those of the entry and of the call are. -/
structure Became (finite : Prop) (e e' : AskEntry) : Prop where
  id : e'.id = e.id
  source : e'.source = e.source
  agent : e'.agentId = e.agentId ∨ e'.agentId = []
  page : e'.page.isSome = e.page.isSome
  valid : isAskEntry e.toJs = true → isAskEntry e'.toJs = true
  isFinite : finite → e.isFinite = true → e'.isFinite = true

namespace Became

variable {finite : Prop} {e : AskEntry}

lemma refl (e : AskEntry) : Became finite e e :=
  ⟨rfl, rfl, .inl rfl, rfl, fun h => h, fun _ h => h⟩

/-- **The prompt, the times, the runs and the alarm** of an entry were changed. -/
theorem update (prompt : JsString) (updatedAt : JsDouble) (simplifyRequestedAt : Option JsDouble)
    {runs : Option (List AskCommandRun)} {page : Option AskPage}
    (hruns : e.runs ≠ some [] → runs ≠ some []) (hthere : page.isSome = e.page.isSome)
    (hpage : (∀ p ∈ e.page, isAskPage p.toJs = true) → ∀ p ∈ page, isAskPage p.toJs = true)
    (hfinite : finite → e.isFinite = true → updatedAt.isFinite = true ∧
      simplifyRequestedAt.all JsDouble.isFinite = true ∧
      runs.all (·.all AskCommandRun.isFinite) = true ∧ page.all AskPage.isFinite = true) :
    Became finite e { e with
      prompt := prompt
      updatedAt := updatedAt
      simplifyRequestedAt := simplifyRequestedAt
      runs := runs
      page := page } where
  id := rfl
  source := rfl
  agent := .inl rfl
  page := hthere
  valid h := isAskEntry_update h prompt updatedAt simplifyRequestedAt
    (hruns (runs_of_isAskEntry h)) hthere (hpage (page_of_isAskEntry h))
  isFinite hfin h := by
    obtain ⟨hupdated, hsimplify, hrunsFinite, hpageFinite⟩ := hfinite hfin h
    obtain ⟨hcreated, -, hsecret, hreadFiles, -, happ, -, -⟩ := AskEntry.isFinite_iff.1 h
    exact AskEntry.isFinite_iff.2 ⟨hcreated, hupdated, hsecret, hreadFiles, hrunsFinite, happ,
      hsimplify, hpageFinite⟩

lemma times {updatedAt : JsDouble} {simplifyRequestedAt : Option JsDouble}
    (hfinite : finite → updatedAt.isFinite = true ∧
      simplifyRequestedAt.all JsDouble.isFinite = true) :
    Became finite e
      { e with updatedAt := updatedAt, simplifyRequestedAt := simplifyRequestedAt } := by
  refine update e.prompt updatedAt simplifyRequestedAt (fun h => h) rfl (fun h => h) fun hfin h => ?_
  obtain ⟨-, -, -, -, hruns, -, -, hpage⟩ := AskEntry.isFinite_iff.1 h
  exact ⟨(hfinite hfin).1, (hfinite hfin).2, hruns, hpage⟩

lemma alarm {page page' : AskPage} (hpage : e.page = some page) (prompt : JsString)
    {updatedAt : JsDouble} (hok : isAskPage page.toJs = true → isAskPage page'.toJs = true)
    (hupdated : finite → e.updatedAt.isFinite = true → updatedAt.isFinite = true)
    (hfinite : finite → page.isFinite = true → page'.isFinite = true) :
    Became finite e { e with prompt := prompt, updatedAt := updatedAt, page := some page' } := by
  refine update prompt updatedAt e.simplifyRequestedAt (fun h => h) (by rw [hpage]; rfl)
    (fun h p hp => ?_) fun hfin h => ?_
  · obtain rfl : page' = p := Option.some.inj hp
    exact hok (h page hpage)
  · obtain ⟨-, hold, -, -, hruns, -, hsimplify, hpages⟩ := AskEntry.isFinite_iff.1 h
    rw [hpage] at hpages
    exact ⟨hupdated hfin hold, hsimplify, hruns, hfinite hfin hpages⟩

lemma lostRuns (e : AskEntry) : Became finite e e.lostRuns := by
  unfold AskEntry.lostRuns
  split_ifs with hrunning
  · refine update e.prompt e.updatedAt e.simplifyRequestedAt (fun h => ?_) rfl (fun h => h)
      fun _ h => ?_
    · cases hruns : e.runs with
      | none => exact nofun
      | some runs =>
        cases runs with
        | nil => exact absurd hruns h
        | cons r runs => simp
    · obtain ⟨-, hupdated, -, -, hruns, -, hsimplify, hpage⟩ := AskEntry.isFinite_iff.1 h
      refine ⟨hupdated, hsimplify, ?_, hpage⟩
      have hlost : ∀ r : AskCommandRun, r.lost.isFinite = r.isFinite := by
        intro r
        unfold AskCommandRun.lost
        split_ifs <;> rfl
      cases heq : e.runs with
      | none => rfl
      | some runs =>
        rw [heq] at hruns
        simpa [hlost] using hruns
  · exact refl e

lemma checked {e' : AskEntry} (hid : e'.id = e.id) (hsource : e'.source = e.source)
    (hagent : e'.agentId = e.agentId ∨ e'.agentId = []) (hpage : e'.page = e.page)
    (hvalid : isAskEntry e'.toJs = true)
    (hfinite : finite → e.isFinite = true → e'.isFinite = true) : Became finite e e' :=
  ⟨hid, hsource, hagent, by rw [hpage], fun _ => hvalid, hfinite⟩

lemma orphan {e' : AskEntry} (h : e.orphan = some e') : Became finite e e' := by
  unfold AskEntry.orphan at h
  dsimp only at h
  split_ifs at h with hneither hvalid
  obtain rfl := Option.some.inj h
  obtain ⟨happ, -⟩ := not_or.1 (by simpa using hneither)
  obtain ⟨app, happ⟩ := Option.ne_none_iff_exists'.1 happ
  refine checked rfl ?_ (.inr rfl) rfl hvalid fun _ h => h
  unfold AskEntry.source askPageSource
  rw [happ]

end Became

/-! ## Alarms -/

lemma isAskPage_reraised {page : AskPage} (h : isAskPage page.toJs = true) :
    isAskPage (page.reraised now).toJs = true :=
  (isAskPage_toJs _).2 ((isAskPage_toJs page).1 h)

lemma isAskPage_acked {page : AskPage} {byUserId : JsString}
    (h : isAskPage page.toJs = true) : isAskPage (page.acked byUserId now).toJs = true :=
  (isAskPage_toJs _).2 ⟨((isAskPage_toJs page).1 h).1, rfl, rfl⟩

lemma isAskPage_delivery {page : AskPage} {delivery : JsMap JsString PagerDelivery}
    (h : isAskPage page.toJs = true) :
    isAskPage { page with delivery := delivery : AskPage }.toJs = true :=
  (isAskPage_toJs _).2 ((isAskPage_toJs page).1 h)

lemma isAskPage_pageId {page : AskPage} {pageId : JsString} (hid : pageId ≠ [])
    (h : isAskPage page.toJs = true) :
    isAskPage { page with pageId := some pageId : AskPage }.toJs = true :=
  (isAskPage_toJs _).2 ⟨fun heq => hid (Option.some.inj heq), ((isAskPage_toJs page).1 h).2⟩

/-! ## Finite numbers -/

lemma isFinite_succ {n : JsDouble} (h : n.isFinite = true) : n.succ.isFinite = true := by
  cases n with
  | finite n => rfl
  | _ => cases h

lemma AskPage.isFinite_iff : p.isFinite = true ↔
    p.ackedAt.all JsDouble.isFinite = true ∧ p.raiseCount.all JsDouble.isFinite = true ∧
      p.lastRaisedAt.all JsDouble.isFinite = true ∧ ∀ d ∈ p.delivery, d.2.isFinite = true := by
  simp only [AskPage.isFinite, Bool.and_eq_true, and_assoc, List.all_eq_true]

lemma AskPage.isFinite_reraised (hnow : now.isFinite = true)
    (h : p.isFinite = true) : (p.reraised now).isFinite = true := by
  obtain ⟨hacked, hcount, -, hdelivery⟩ := AskPage.isFinite_iff.1 h
  refine AskPage.isFinite_iff.2 ⟨hacked, ?_, hnow, hdelivery⟩
  refine isFinite_succ ?_
  cases hraise : p.raiseCount with
  | none => rfl
  | some count =>
    rw [hraise] at hcount
    exact hcount

lemma AskPage.isFinite_acked {byUserId : JsString}
    (hnow : now.isFinite = true) (h : p.isFinite = true) :
    (p.acked byUserId now).isFinite = true := by
  obtain ⟨-, hcount, hraised, hdelivery⟩ := AskPage.isFinite_iff.1 h
  exact AskPage.isFinite_iff.2 ⟨hnow, hcount, hraised, hdelivery⟩

lemma AskPage.isFinite_delivery {userId : JsString} {delivery : PagerDelivery}
    (hdelivery : delivery.isFinite = true) (h : p.isFinite = true) :
    { p with delivery := JsMap.set p.delivery userId delivery : AskPage }.isFinite = true := by
  obtain ⟨hacked, hcount, hraised, hold⟩ := AskPage.isFinite_iff.1 h
  refine AskPage.isFinite_iff.2 ⟨hacked, hcount, hraised, fun d hd => ?_⟩
  rcases JsMap.mem_set hd with hd | rfl
  · exact hold d hd
  · exact hdelivery

lemma all_listOrNone {α : Type} {list : List α} {p : α → Bool} (h : list.all p = true) :
    (listOrNone list).all (·.all p) = true := by
  unfold listOrNone
  split_ifs
  · rfl
  · exact h

lemma all_afterEdit {α : Type} {edit : Option (Option α)} {value : Option α} {p : α → Bool}
    (hedit : edit.all (·.all p) = true) (hvalue : value.all p = true) :
    (afterEdit edit value).all p = true := by
  cases edit with
  | none => exact hvalue
  | some edit => exact hedit

lemma AskEdit.isFinite_entry {edit : AskEdit} {prev : AskEntry}
    (hnow : now.isFinite = true)
    (hedit : edit.readFiles.all (·.all (·.all AskReadFile.isFinite)) = true)
    (h : prev.isFinite = true) : (edit.entry prev now).isFinite = true := by
  obtain ⟨hcreated, -, hsecret, hreadFiles, hruns, happ, hsimplify, hpage⟩ :=
    AskEntry.isFinite_iff.1 h
  refine AskEntry.isFinite_iff.2 ⟨hcreated, hnow, hsecret, all_afterEdit hedit hreadFiles, ?_, happ,
    ?_, hpage⟩
  · change (prev.runs.bind _).all _ = true
    cases heq : prev.runs with
    | none => rfl
    | some runs =>
      rw [heq] at hruns
      exact all_listOrNone (List.all_eq_true.2 fun r hr =>
        List.all_eq_true.1 hruns r (List.mem_of_mem_filter hr))
  · change (if edit.rewrites prev then none else prev.simplifyRequestedAt).all _ = true
    split_ifs
    · rfl
    · exact hsimplify

lemma AskEntry.isFinite_setRun {prev : AskEntry} {command : JsString}
    {run : Option AskCommandRun} (hrun : run.all AskCommandRun.isFinite = true)
    (h : prev.isFinite = true) :
    { prev with
      runs := listOrNone (((prev.runs.getD []).filter fun r => r.command ≠ command) ++
        (run.map fun r => { r with command := command }).toList) : AskEntry }.isFinite = true := by
  obtain ⟨hcreated, hupdated, hsecret, hreadFiles, hruns, happ, hsimplify, hpage⟩ :=
    AskEntry.isFinite_iff.1 h
  refine AskEntry.isFinite_iff.2 ⟨hcreated, hupdated, hsecret, hreadFiles, all_listOrNone ?_, happ,
    hsimplify, hpage⟩
  rw [List.all_append, Bool.and_eq_true]
  constructor
  · refine List.all_eq_true.2 fun r hr => ?_
    have hmem := List.mem_of_mem_filter hr
    cases heq : prev.runs with
    | none =>
      rw [heq] at hmem
      cases hmem
    | some runs =>
      rw [heq] at hruns hmem
      exact List.all_eq_true.1 hruns r hmem
  · cases run with
    | none => rfl
    | some r =>
      exact List.all_eq_true.2 fun x hx => by
        rw [List.mem_singleton.1 hx]
        exact hrun

lemma NewAsk.isFinite_entry {n : NewAsk} {id : JsString} {createdAt : JsDouble}
    (hcreated : createdAt.isFinite = true) (h : n.isFinite = true)
    (hpage : page.all AskPage.isFinite = true) : (n.entry id createdAt page).isFinite = true := by
  unfold NewAsk.isFinite at h
  simp only [Bool.and_eq_true] at h
  obtain ⟨⟨⟨hsecret, happ⟩, hreadFiles⟩, -⟩ := h
  exact AskEntry.isFinite_iff.2 ⟨hcreated, hcreated, hsecret, hreadFiles, rfl, happ, rfl, hpage⟩

lemma NewAsk.isFinite_migrated {n : NewAsk} (h : n.isFinite = true) : ∀ m ∈ n.migrated,
    m.createdAt.isFinite = true ∧ m.raiseCount.isFinite = true ∧ m.lastRaisedAt.isFinite = true ∧
      m.delivery.isFinite = true ∧ m.acked.all (·.ackedAt.isFinite) = true := by
  intro m hm
  unfold NewAsk.isFinite at h
  simp only [Bool.and_eq_true] at h
  have hmigrated := (Option.all_eq_true _ _).1 h.2 m hm
  simpa only [Bool.and_eq_true, and_assoc] using hmigrated

lemma isFinite_newAskPage {page : NewPage} {migrated : Option MigratedPage} {pageId : JsString}
    (h : ∀ m ∈ migrated, m.raiseCount.isFinite = true ∧ m.lastRaisedAt.isFinite = true ∧
      m.delivery.isFinite = true ∧ m.acked.all (·.ackedAt.isFinite) = true) :
    (newAskPage page migrated pageId).isFinite = true := by
  have hdelivery : ∀ delivery : PagerDelivery, delivery.isFinite = true →
      ∀ d ∈ page.recipients.foldl (fun m userId => JsMap.set m userId delivery) [],
        d.2.isFinite = true := by
    intro delivery hfinite
    refine JsMap.forall_mem_foldl page.recipients (fun m userId _ hm d hd => ?_) fun _ h => nomatch h
    rcases JsMap.mem_set hd with hd | rfl
    · exact hm d hd
    · exact hfinite
  cases migrated with
  | none => exact AskPage.isFinite_iff.2 ⟨rfl, rfl, rfl, hdelivery _ rfl⟩
  | some m =>
    obtain ⟨hcount, hraised, hsends, hacked⟩ := h m rfl
    refine AskPage.isFinite_iff.2 ⟨?_, hcount, hraised, hdelivery _ hsends⟩
    change (m.acked.map (·.ackedAt)).all _ = true
    cases hack : m.acked with
    | none => rfl
    | some ack =>
      rw [hack] at hacked
      exact hacked

lemma NewAsk.isFinite_drawPage {n : NewAsk} {entries : List AskEntry} {pageIds : List (IdDraw 8)}
    (h : n.isFinite = true)
    (hpage : n.drawPage entries pageIds = some page) : page.all AskPage.isFinite = true := by
  unfold NewAsk.drawPage at hpage
  cases hnew : n.page with
  | none =>
    simp only [hnew, Option.some.injEq] at hpage
    rw [← hpage]
    rfl
  | some newPage =>
    simp only [hnew] at hpage
    cases hmigrated : n.migrated with
    | some m =>
      simp only [hmigrated, Option.some.injEq] at hpage
      rw [← hpage]
      refine isFinite_newAskPage fun m' hm' => ?_
      exact (NewAsk.isFinite_migrated h m' (hmigrated.trans hm')).2
    | none =>
      simp only [hmigrated] at hpage
      obtain ⟨drawn, -, rfl⟩ := Option.map_eq_some_iff.1 hpage
      exact isFinite_newAskPage fun _ h => nomatch h

end Isomux
