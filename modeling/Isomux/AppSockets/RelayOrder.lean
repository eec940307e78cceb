import Mathlib.Data.List.Induction
import Isomux.AppSockets.Relay

set_option autoImplicit false

/-!
# What a relayed socket delivers to the browser

A message of the app waits in front of the relay object, then in the buffer of the relay, and goes
straight out once the browser's socket is attached. The end of the app's connection waits behind it.

## Main results

* `Isomux.RelayRun.Inv.step` — every event keeps the place of every message.
* `Isomux.relayDelivery` — the promise holds in every run.
-/

namespace Isomux

/-! ## What a log says -/

variable (log : List RelayEffect)

/-- The messages that were sent to the browser. -/
def sentToBrowser : List DataMessage :=
  log.filterMap fun
    | .browserSend message => some message
    | _ => none

/-- Whether the effect is for the browser: a message or a close. -/
def RelayEffect.isForBrowser : RelayEffect → Bool
  | .browserSend _ | .browserClose _ => true
  | _ => false

def NotClosed : Prop := ∀ ending, .browserClose ending ∉ log

def SilentAfterClose : Prop :=
  ∀ front ending back, log = front ++ .browserClose ending :: back → sentToBrowser back = []

/-- The browser stopped reading: the next message does not fit under the ceiling, or the runtime
dropped the last one. -/
def BrowserStopped (env : RelayEnv) (ceiling : ℕ) (messages : List DataMessage)
    (log : List RelayEffect) : Prop :=
  (∃ message, sentToBrowser log ++ [message] <+: messages ∧
    ceiling < env.bufferedAmount log + sizeOfMessage message) ∨
  (∃ front message, log = front ++ [.browserSend message] ∧ 0 < sizeOfMessage message ∧
    env.browserSend log = 0)

/-- Every close stands behind all messages, unless the browser stopped reading. -/
def ClosesLast (env : RelayEnv) (ceiling : ℕ) (messages : List DataMessage)
    (log : List RelayEffect) : Prop :=
  ∀ front ending back, log = front ++ .browserClose ending :: back →
    sentToBrowser front = messages ∨
      ending = .close CLOSE_BACKPRESSURE (js "browser stopped reading") ∧
        BrowserStopped env ceiling messages front

variable {log back : List RelayEffect} {e : RelayEffect} {env : RelayEnv} {ceiling : ℕ}
  {messages : List DataMessage}

@[simp] lemma sentToBrowser_append (log back : List RelayEffect) :
    sentToBrowser (log ++ back) = sentToBrowser log ++ sentToBrowser back :=
  List.filterMap_append

lemma sentToBrowser_of_others (h : ∀ e ∈ log, e.isForBrowser = false) :
    sentToBrowser log = [] := by
  refine List.filterMap_eq_nil_iff.2 fun e he => ?_
  have hother := h e he
  cases e <;> first | rfl | simp [RelayEffect.isForBrowser] at hother

lemma notClosed_of_others (h : ∀ e ∈ log, e.isForBrowser = false) : NotClosed log := by
  intro ending hmem
  have hother := h _ hmem
  simp [RelayEffect.isForBrowser] at hother

lemma NotClosed.ne (h : NotClosed log) (front : List RelayEffect) (ending : BrowserEnding)
    (back : List RelayEffect) : log ≠ front ++ .browserClose ending :: back := by
  rintro rfl
  exact h ending (by simp)

lemma eq_of_others (h : ∀ e ∈ back, e.isForBrowser = false) {front rest : List RelayEffect}
    {ending : BrowserEnding} (heq : log ++ back = front ++ .browserClose ending :: rest) :
    ∃ between, log = front ++ .browserClose ending :: between ∧ rest = between ++ back := by
  rcases List.append_eq_append_iff.1 heq with ⟨middle, rfl, hback⟩ | ⟨middle, rfl, hrest⟩
  · exact absurd hback (notClosed_of_others h |>.ne _ _ _)
  · cases middle with
    | nil => exact absurd hrest.symm (notClosed_of_others h |>.ne [] _ _)
    | cons x between =>
      obtain ⟨rfl, rfl⟩ := List.cons.inj hrest
      exact ⟨between, rfl, rfl⟩

lemma SilentAfterClose.append (h : SilentAfterClose log)
    (hback : ∀ e ∈ back, e.isForBrowser = false) : SilentAfterClose (log ++ back) := by
  intro front ending rest heq
  obtain ⟨between, hlog, rfl⟩ := eq_of_others hback heq
  rw [sentToBrowser_append, h front ending between hlog, sentToBrowser_of_others hback]
  rfl

lemma ClosesLast.append (h : ClosesLast env ceiling messages log)
    (hback : ∀ e ∈ back, e.isForBrowser = false) :
    ClosesLast env ceiling messages (log ++ back) := by
  intro front ending rest heq
  obtain ⟨between, hlog, -⟩ := eq_of_others hback heq
  exact h front ending between hlog

lemma eq_of_notClosed (h : NotClosed log) {front rest : List RelayEffect}
    {ending ending' : BrowserEnding}
    (heq : log ++ [.browserClose ending] = front ++ .browserClose ending' :: rest) :
    front = log ∧ ending' = ending ∧ rest = [] := by
  rcases List.eq_nil_or_concat rest with rfl | ⟨rest, x, rfl⟩
  · obtain ⟨rfl, hlast⟩ := List.append_inj' heq rfl
    simpa using hlast.symm
  · have heq' : log ++ [.browserClose ending] =
        (front ++ .browserClose ending' :: rest) ++ [x] := by simpa using heq
    exact absurd (List.append_inj' heq' rfl).1 (h.ne _ _ _)

namespace RelayRun

/-! ## The messages of the app -/

/-- The messages of the app, in their order. -/
def received (env : RelayEnv) (r : RelayRun) : List RelayEvent → List DataMessage
  | [] => []
  | event :: events => r.taken event ++ (r.step env event).received env events

lemma received_concat (r : RelayRun) (events : List RelayEvent) (event : RelayEvent) :
    r.received env (events ++ [event]) =
      r.received env events ++ (r.run env events).taken event := by
  induction events generalizing r with
  | nil => simp [received, run]
  | cons first events ih =>
    rw [List.cons_append, received, received, ih, List.append_assoc]
    rfl

/-! ## A relay that ended -/

/-- A relay object and the function behind it. -/
structure Object (o : ℕ × RelayStage) (down ws : Bool) (r : RelayRun) : Prop where
  made : r.made = true
  stage_eq : r.stage = o.2
  ceiling_eq : r.bufferMaxBytes = o.1
  down_eq : r.relay.shuttingDown = down
  ws_eq : r.relay.ws = ws

/-- A relay that shuts down, and what it did since. -/
structure Ended (o : ℕ × RelayStage) (front : List RelayEffect) (r : RelayRun) : Prop
    extends Object o true false r where
  log : ∃ back, r.log = front ++ back ∧ ∀ e ∈ back, e.isForBrowser = false

variable {o : ℕ × RelayStage} {r : RelayRun} {front : List RelayEffect} {down ws : Bool}

namespace Ended

lemma of_object (h : r.Object o true false) : r.Ended o r.log :=
  { h with log := ⟨[], by simp⟩ }

lemma emit (h : r.Ended o front) (he : e.isForBrowser = false) :
    (r.emit e).Ended o front := by
  obtain ⟨back, hlog, hback⟩ := h.log
  refine { h with log := ⟨back ++ [e], by simp [RelayRun.emit, hlog], ?_⟩ }
  simpa [or_imp, forall_and] using ⟨hback, he⟩

lemma releaseIfBothLegsEnded (h : r.Ended o front) :
    r.releaseIfBothLegsEnded.Ended o front := by
  unfold RelayRun.releaseIfBothLegsEnded releasePermit
  split_ifs
  · exact h
  · exact h
  · exact h
  · exact emit (r := { r with released := true, pool := r.pool.release r.key }) { h with } rfl

lemma upstreamClosedInShutdown (h : r.Ended o front) :
    r.upstreamClosedInShutdown.Ended o front :=
  releaseIfBothLegsEnded { h with }

lemma browserClosedInShutdown (h : r.Ended o front) :
    r.browserClosedInShutdown.Ended o front :=
  releaseIfBothLegsEnded { h with ws_eq := rfl }

lemma endUpstreamLeg (h : r.Ended o front) (detail : JsString)
    (ending : Option (CloseCode × JsString)) :
    (r.endUpstreamLeg env detail ending).Ended o front := by
  cases ending with
  | none => exact h
  | some ending =>
    unfold RelayRun.endUpstreamLeg sendCloseUpstream
    split_ifs
    · exact h
    · have hsent : ({ r with upstream := some .closing }.emit
          (.upstreamSendClose (some ending.1) ending.2 detail)).Ended o front :=
        emit { h with } rfl
      dsimp only
      split
      · exact hsent
      · refine upstreamClosedInShutdown (emit ?_ rfl)
        exact { hsent with }

end Ended

lemma Object.closeBrowser (h : r.Object o true false) (ending : BrowserEnding) :
    (r.closeBrowser env ending).Ended o (r.log ++ [.browserClose ending]) := by
  have hsent : (r.emit (.browserClose ending)).Ended o (r.log ++ [.browserClose ending]) :=
    Ended.of_object (r := r.emit _) { h with }
  unfold RelayRun.closeBrowser
  dsimp only
  split_ifs
  · refine (Ended.emit ?_ rfl).browserClosedInShutdown
    exact { hsent with }
  · exact hsent

/-- What a browser is told whose socket was attached. -/
def farewell : Bool → Option BrowserEnding → List RelayEffect
  | true, some ending => [.browserClose ending]
  | _, _ => []

variable (env) in
/-- **The one exit.** -/
lemma Object.finish (h : r.Object o false ws) (ending : RelayEnding)
    (detail : JsString) :
    (r.finish env ending detail).Ended o (r.log ++ farewell ws ending.browser) := by
  have hstop : r.stopRelay.Object o true false :=
    { h with down_eq := rfl, ws_eq := rfl }
  have hleg : (r.stopRelay.endBrowserLeg env r.relay.ws ending.browser).Ended o
      (r.log ++ farewell ws ending.browser) := by
    rw [h.ws_eq]
    have hsilent : r.stopRelay.Ended o (r.log ++ []) := by
      rw [List.append_nil]
      exact .of_object hstop
    cases ending.browser with
    | none => cases ws <;> exact hsilent
    | some ending =>
      cases ws with
      | false => exact hsilent
      | true => exact hstop.closeBrowser ending
  unfold RelayRun.finish
  rw [if_neg (by simp [h.down_eq])]
  exact (hleg.endUpstreamLeg detail ending.upstream).releaseIfBothLegsEnded

/-! ## Where the messages are -/

/-- The browser is not there: all messages are in the buffer of the relay. -/
structure Waiting (o : ℕ × RelayStage) (messages : List DataMessage)
    (r : RelayRun) : Prop extends Object o false false r where
  state : r.relay.state ≠ .opened
  others : ∀ e ∈ r.log, e.isForBrowser = false
  buffer : r.relay.buffer = messages

/-- The relay sends: all messages but the pending ones are sent. -/
structure Serving (o : ℕ × RelayStage) (ws : Bool)
    (messages pending : List DataMessage) (r : RelayRun) : Prop
    extends Object o false ws r where
  state : r.relay.state = .opened
  notClosed : NotClosed r.log
  empty : r.relay.buffer = []
  sent : sentToBrowser r.log ++ pending = messages

/-- The relay shuts down: what was sent came first, and nothing is sent behind a close. -/
structure Over (o : ℕ × RelayStage) (messages : List DataMessage) (r : RelayRun) :
    Prop extends Object o true false r where
  ordered : sentToBrowser r.log <+: messages
  silent : SilentAfterClose r.log

/-- The relay just shut down, with its close behind all messages. -/
def Finished (env : RelayEnv) (o : ℕ × RelayStage) (messages : List DataMessage)
    (r : RelayRun) : Prop :=
  r.Over o messages ∧ ClosesLast env o.1 messages r.log

variable {pending : List DataMessage}

lemma Ended.finished_of_notClosed (h : r.Ended o front) (hfront : NotClosed front)
    (hsent : sentToBrowser front <+: messages) : r.Finished env o messages := by
  obtain ⟨back, hlog, hback⟩ := h.log
  have hsilent : SilentAfterClose front := fun _ _ _ heq => absurd heq (hfront.ne _ _ _)
  have hlast : ClosesLast env o.1 messages front := fun _ _ _ heq => absurd heq (hfront.ne _ _ _)
  refine ⟨{ h with ordered := ?_, silent := ?_ }, ?_⟩
  · rw [hlog, sentToBrowser_append, sentToBrowser_of_others hback, List.append_nil]
    exact hsent
  · exact hlog ▸ hsilent.append hback
  · exact hlog ▸ hlast.append hback

lemma Ended.finished {ending : BrowserEnding}
    (h : r.Ended o (front ++ [.browserClose ending])) (hfront : NotClosed front)
    (hsent : sentToBrowser front <+: messages)
    (hlast : sentToBrowser front = messages ∨
      ending = .close CLOSE_BACKPRESSURE (js "browser stopped reading") ∧
        BrowserStopped env o.1 messages front) :
    r.Finished env o messages := by
  obtain ⟨back, hlog, hback⟩ := h.log
  refine ⟨{ h with ordered := ?_, silent := ?_ }, ?_⟩
  · rw [hlog, sentToBrowser_append, sentToBrowser_append, sentToBrowser_of_others hback,
      List.append_nil]
    simpa [sentToBrowser] using hsent
  · refine hlog ▸ SilentAfterClose.append (fun before ending' rest heq => ?_) hback
    rw [(eq_of_notClosed hfront heq).2.2]
    rfl
  · refine hlog ▸ ClosesLast.append (fun before ending' rest heq => ?_) hback
    obtain ⟨rfl, rfl, -⟩ := eq_of_notClosed hfront heq
    exact hlast

lemma Waiting.finish (h : r.Waiting o messages) (ending : RelayEnding)
    (detail : JsString) (messages' : List DataMessage) :
    (r.finish env ending detail).Finished env o messages' := by
  have hended := h.toObject.finish env ending detail
  rw [farewell, List.append_nil] at hended
  · refine hended.finished_of_notClosed (notClosed_of_others h.others) ?_
    rw [sentToBrowser_of_others h.others]
    exact List.nil_prefix
  · simp

lemma Serving.finish (h : r.Serving o ws messages pending) (ending : RelayEnding)
    (detail : JsString)
    (hlast : ws = false ∨ ending.browser = none ∨ pending = [] ∨
      ending.browser = some (.close CLOSE_BACKPRESSURE (js "browser stopped reading")) ∧
        BrowserStopped env o.1 messages r.log) :
    (r.finish env ending detail).Finished env o messages := by
  have hended := h.toObject.finish env ending detail
  have hprefix : sentToBrowser r.log <+: messages := ⟨pending, h.sent⟩
  rcases hbrowser : ending.browser with _ | told <;> rcases ws with _ | _
  case some.true =>
    rw [hbrowser] at hended
    refine hended.finished h.notClosed hprefix ?_
    rcases hlast with hws | hnone | hpending | ⟨htold, hstopped⟩
    · cases hws
    · rw [hbrowser] at hnone
      cases hnone
    · exact .inl (by simpa [hpending] using h.sent)
    · rw [hbrowser] at htold
      exact .inr ⟨Option.some.inj htold, hstopped⟩
  all_goals
    rw [hbrowser, show farewell _ _ = [] from rfl, List.append_nil] at hended
    exact hended.finished_of_notClosed h.notClosed hprefix

/-! ## The methods -/

lemma Waiting.emit (h : r.Waiting o messages) (he : e.isForBrowser = false) :
    (r.emit e).Waiting o messages :=
  { h with others := by simpa [RelayRun.emit, or_imp, forall_and] using ⟨h.others, he⟩ }

lemma Serving.emit (h : r.Serving o ws messages pending) (he : e.isForBrowser = false) :
    (r.emit e).Serving o ws messages pending := by
  have hothers : ∀ e' ∈ [e], e'.isForBrowser = false := by simpa using he
  refine { h with notClosed := fun ending hmem => ?_, sent := ?_ }
  · rcases List.mem_append.1 hmem with hmem | hmem
    · exact h.notClosed ending hmem
    · exact notClosed_of_others hothers ending hmem
  · rw [RelayRun.emit, sentToBrowser_append, sentToBrowser_of_others hothers, List.append_nil]
    exact h.sent

lemma Waiting.phase (h : r.Waiting o messages) (phase : Option UpstreamPhase) :
    { r with upstream := phase }.Waiting o messages := { h with }

lemma Serving.phase (h : r.Serving o ws messages pending)
    (phase : Option UpstreamPhase) :
    { r with upstream := phase }.Serving o ws messages pending := { h with }

lemma Ended.over (hended : r.Ended o log) (hsent : sentToBrowser log <+: messages)
    (hsilent : SilentAfterClose log) : r.Over o messages := by
  obtain ⟨back, hlog, hback⟩ := hended.log
  refine { hended with ordered := ?_, silent := hlog ▸ hsilent.append hback }
  rw [hlog, sentToBrowser_append, sentToBrowser_of_others hback, List.append_nil]
  exact hsent

lemma finish_of_down (hdown : r.relay.shuttingDown = true) (ending : RelayEnding)
    (detail : JsString) : r.finish env ending detail = r := if_pos hdown

/-- **The next pending message.** -/
lemma Serving.sendToBrowser {message : DataMessage}
    (h : r.Serving o true messages (message :: pending)) :
    (r.sendToBrowser env message).Serving o true messages pending ∨
      (r.sendToBrowser env message).Finished env o messages := by
  have hsent : (r.emit (.browserSend message)).Serving o true messages pending := by
    refine { h with notClosed := fun ending hmem => ?_, sent := ?_ }
    · exact h.notClosed ending (by simpa [RelayRun.emit] using hmem)
    · simpa [RelayRun.emit, sentToBrowser] using h.sent
  unfold RelayRun.sendToBrowser
  dsimp only
  split_ifs with hws hfull hdropped
  · simp [h.ws_eq] at hws
  · rw [h.ceiling_eq] at hfull
    have hnext : sentToBrowser r.log ++ [message] <+: messages := ⟨pending, by simp [← h.sent]⟩
    exact .inr (h.finish _ _ (.inr (.inr (.inr ⟨rfl, .inl ⟨message, hnext, hfull⟩⟩))))
  · have hstopped : BrowserStopped env o.1 messages (r.emit (.browserSend message)).log :=
      .inr ⟨r.log, message, rfl, hdropped⟩
    exact .inr (hsent.finish _ _ (.inr (.inr (.inr ⟨rfl, hstopped⟩))))
  · exact .inl hsent

/-- What a method makes of a relay that sends. -/
def Kept (env : RelayEnv) (o : ℕ × RelayStage) (messages : List DataMessage)
    (r : RelayRun) : Prop :=
  r.Serving o true messages [] ∨ r.Finished env o messages

lemma Kept.afterFlush (h : r.Kept env o messages) :
    (r.afterFlush env).Kept env o messages := by
  unfold RelayRun.afterFlush
  rcases h with h | ⟨hover, hlast⟩
  · split
    · have hserving : { r with relay.recorded := none }.Serving o true messages [] := { h with }
      exact .inr (hserving.finish _ _ (.inr (.inr (.inl rfl))))
    · exact .inl { h with }
  · split
    · rw [finish_of_down (by exact hover.down_eq)]
      exact .inr ⟨{ hover with }, hlast⟩
    · exact .inr ⟨{ hover with }, hlast⟩

lemma Serving.flushPending (h : r.Serving o true messages pending) :
    (r.flushPending env pending).Kept env o messages := by
  induction pending generalizing r with
  | nil => exact Kept.afterFlush (.inl h)
  | cons message pending ih =>
    rw [RelayRun.flushPending, if_neg (by simp [h.down_eq])]
    obtain hnext | hfinished : (r.sendToBrowser env message).Serving o true messages pending ∨ _ :=
      h.sendToBrowser
    · exact ih hnext
    · cases pending with
      | nil => exact Kept.afterFlush (.inr hfinished)
      | cons next pending =>
        rw [RelayRun.flushPending, if_pos hfinished.1.down_eq]
        exact .inr hfinished

lemma Waiting.attachBrowser (h : r.Waiting o messages) :
    (r.attachBrowser env).Kept env o messages := by
  unfold RelayRun.attachBrowser
  rw [if_neg (by simp [h.down_eq])]
  refine Serving.flushPending { h with
    ws_eq := rfl, state := rfl, notClosed := notClosed_of_others h.others, empty := rfl
    sent := ?_ }
  rw [sentToBrowser_of_others h.others]
  exact h.buffer

lemma Waiting.onUpstreamMessage (h : r.Waiting o messages) (message : DataMessage)
    (messages' : List DataMessage) :
    (r.onUpstreamMessage env message).Waiting o (messages ++ [message]) ∨
      (r.onUpstreamMessage env message).Finished env o messages' := by
  unfold RelayRun.onUpstreamMessage
  dsimp only
  rw [if_neg (by simp [h.down_eq]), if_neg h.state]
  split_ifs
  · exact .inr (h.finish _ _ _)
  · exact .inl { h with buffer := by simp [h.buffer] }

lemma Waiting.onUpstreamClose (h : r.Waiting o messages) (event : UpstreamCloseEvent) :
    (r.onUpstreamClose env event).Waiting o messages := by
  unfold RelayRun.onUpstreamClose
  dsimp only
  rw [if_neg (by simp [h.down_eq]), if_pos h.state]
  exact { h with }

lemma Serving.onUpstreamClose (h : r.Serving o ws messages [])
    (event : UpstreamCloseEvent) :
    (r.onUpstreamClose env event).Finished env o messages := by
  unfold RelayRun.onUpstreamClose
  dsimp only
  rw [if_neg (by simp [h.down_eq]), if_neg (not_not.2 h.state)]
  have hserving : { r with relay.upstreamLive := false }.Serving o ws messages [] := { h with }
  exact hserving.finish _ _ (.inr (.inr (.inl rfl)))

lemma Serving.browserMessage (h : r.Serving o true messages []) (data : DataMessage) :
    (r.browserMessage env data).Kept env o messages := by
  have hsent : ((r.sendUpstream env (RelayRun.onUpstreamClose env) data).1).Kept env o
      messages := by
    unfold RelayRun.sendUpstream
    split_ifs
    · exact .inl h
    · have hemit : (r.emit (.upstreamSend data)).Serving o true messages [] := h.emit rfl
      dsimp only
      split
      · exact .inl hemit
      · exact .inr (((hemit.phase _).emit rfl).onUpstreamClose _)
  have hfinish : ∀ (r' : RelayRun) (ending : RelayEnding) (detail : JsString),
      r'.Kept env o messages → (r'.finish env ending detail).Kept env o
        messages := by
    rintro r' ending detail (hserving | hfinished)
    · exact .inr (hserving.finish _ _ (.inr (.inr (.inl rfl))))
    · rw [finish_of_down hfinished.1.down_eq]
      exact .inr hfinished
  unfold RelayRun.browserMessage
  rw [if_neg (by simp [h.down_eq, h.state])]
  split <;> rename_i heq <;> rw [heq] at hsent
  · exact hfinish _ _ _ hsent
  · exact hfinish _ _ _ hsent
  · exact hsent

lemma tellUpstream_cases {P : RelayRun → Prop} (hlive : P r)
    (hend : ∀ event,
      P ({ r with upstream := some .closed }.emit .upstreamEnded |>.onUpstreamClose env event))
    (hclosing : ∀ code reason detail, P ({ r with upstream := some .closing }.emit
      (.upstreamSendClose code reason detail)) ∧ ∀ event,
        P ({ { r with upstream := some .closing }.emit (.upstreamSendClose code reason detail) with
          upstream := some .closed }.emit .upstreamEnded |>.onUpstreamClose env event))
    (code : CloseCode) (reason : JsString) : P (r.tellUpstream env code reason) := by
  have hsend : ∀ code reason detail,
      P (r.sendCloseUpstream env (RelayRun.onUpstreamClose env) code reason detail) := by
    intro code reason detail
    unfold sendCloseUpstream
    split_ifs
    · exact hlive
    · dsimp only
      split
      · exact (hclosing _ _ _).1
      · exact (hclosing _ _ _).2 _
  unfold tellUpstream terminateUpstream
  split_ifs
  · exact hlive
  · exact hend _
  · exact hsend _ _ _
  · exact hsend _ _ _

lemma Waiting.tellUpstream (h : r.Waiting o messages) (code : CloseCode)
    (reason : JsString) : (r.tellUpstream env code reason).Waiting o messages :=
  tellUpstream_cases h (fun event => ((h.phase _).emit rfl).onUpstreamClose event)
    (fun _ _ _ => ⟨(h.phase _).emit rfl,
      fun event => ((((h.phase _).emit rfl).phase _).emit rfl).onUpstreamClose event⟩) code reason

lemma Serving.tellUpstream (h : r.Serving o false messages []) (code : CloseCode)
    (reason : JsString) :
    (r.tellUpstream env code reason).Serving o false messages [] ∨
      (r.tellUpstream env code reason).Finished env o messages :=
  tellUpstream_cases (P := fun r => r.Serving o false messages [] ∨
      r.Finished env o messages) (.inl h)
    (fun event => .inr (((h.phase _).emit rfl).onUpstreamClose event))
    (fun _ _ _ => ⟨.inl ((h.phase _).emit rfl),
      fun event => .inr (((((h.phase _).emit rfl).phase _).emit rfl).onUpstreamClose event)⟩)
    code reason

lemma browserClosed_finished (code : CloseCode) (reason : JsString)
    (h : r.Waiting o messages ∨ r.Serving o true messages []) :
    (r.browserClosed env code reason).Finished env o messages := by
  have hdown : r.relay.shuttingDown = false := h.elim (·.down_eq) (·.down_eq)
  unfold RelayRun.browserClosed
  rw [if_neg (by simp [hdown])]
  rcases h with h | h
  · have hgone : { r with relay.browserLive := false, relay.ws := false }.Waiting o
        messages := { h with ws_eq := rfl }
    exact (hgone.tellUpstream code reason).finish _ _ _
  · have hgone : { r with relay.browserLive := false, relay.ws := false }.Serving o false
        messages [] := { h with ws_eq := rfl }
    obtain htold | htold : RelayRun.Serving o false messages [] (RelayRun.tellUpstream env _ _ _) ∨ _ :=
      hgone.tellUpstream code reason
    · exact htold.finish _ _ (.inl rfl)
    · rw [finish_of_down htold.1.down_eq]
      exact htold

lemma Finished.of_ended (h : r.Finished env o messages) {r' : RelayRun}
    (hended : r'.Ended o r.log) : r'.Finished env o messages := by
  obtain ⟨back, hlog, hback⟩ := hended.log
  exact ⟨hended.over h.1.ordered h.1.silent, hlog ▸ h.2.append hback⟩

lemma Over.onUpstreamClose (h : r.Over o messages) (event : UpstreamCloseEvent) :
    (r.onUpstreamClose env event).Ended o r.log := by
  unfold RelayRun.onUpstreamClose
  rw [if_pos h.down_eq]
  exact (Ended.of_object h.toObject).upstreamClosedInShutdown

/-- The early messages and the early end. -/
lemma Waiting.handOver (h : r.Waiting o []) (messages' : List DataMessage) :
    (r.handOver env).Waiting o r.early ∨
      (r.handOver env).Finished env o messages' := by
  have hstay : ∀ (early : List DataMessage) (r : RelayRun), r.relay.shuttingDown = true →
      early.foldl (RelayRun.onUpstreamMessage env) r = r := by
    intro early
    induction early with
    | nil => exact fun _ _ => rfl
    | cons message early ih =>
      intro r hdown
      rw [List.foldl_cons, show r.onUpstreamMessage env message = r from if_pos hdown, ih r hdown]
  have hfold : ∀ (early messages : List DataMessage) (r : RelayRun),
      r.Waiting o messages →
      (early.foldl (RelayRun.onUpstreamMessage env) r).Waiting o (messages ++ early) ∨
        (early.foldl (RelayRun.onUpstreamMessage env) r).Finished env o messages' := by
    intro early
    induction early with
    | nil => exact fun messages r h => .inl (by simpa using h)
    | cons message early ih =>
      intro messages r h
      obtain hnext | hfinished : (r.onUpstreamMessage env message).Waiting o _ ∨ _ :=
        h.onUpstreamMessage message messages'
      · simpa using ih _ _ hnext
      · rw [List.foldl_cons, hstay _ _ hfinished.1.down_eq]
        exact .inr hfinished
  unfold RelayRun.handOver
  rcases hfold r.early [] r h with h | h
  · dsimp only
    split
    · exact .inl (h.onUpstreamClose _)
    · exact .inl h
  · dsimp only
    split
    · exact .inr (h.of_ended (h.1.onUpstreamClose _))
    · exact .inr h

/-! ## Every event -/

/-- A run without a relay object: all messages are early ones. -/
structure Early (ceiling : ℕ) (messages : List DataMessage) (r : RelayRun) : Prop where
  notMade : r.made = false
  ceiling_eq : r.bufferMaxBytes = ceiling
  ws_eq : r.relay.ws = false
  browser : r.browser = .absent
  others : ∀ e ∈ r.log, e.isForBrowser = false
  early : r.earlyOverflow = false → r.early = messages

/-- Where the messages are between two events. -/
def Inv (ceiling : ℕ) (messages : List DataMessage) (r : RelayRun) : Prop :=
  r.Early ceiling messages ∨ ∃ response, r.Waiting (ceiling, .returned response) messages ∨
    r.Serving (ceiling, .returned response) true messages [] ∨
    r.Over (ceiling, .returned response) messages

/-- A relay that had shut down before the browser's socket came. -/
def CameLate (before : RelayRun) (ending : BrowserEnding) : Prop :=
  before.relay.shuttingDown = true ∧ ending = .close CLOSE_GOING_AWAY (js "app closed")

/-- What an event makes of a run: a first close stands behind all messages, unless a fault cut the
browser off. -/
def Next (env : RelayEnv) (before : RelayRun) (ceiling : ℕ) (messages : List DataMessage)
    (r : RelayRun) : Prop :=
  r.Inv ceiling messages ∧ (NotClosed before.log →
    ∀ front ending back, r.log = front ++ .browserClose ending :: back →
      sentToBrowser front = messages ∨ CameLate before ending ∨
        ending = .close CLOSE_BACKPRESSURE (js "browser stopped reading") ∧
          BrowserStopped env ceiling messages front)

section Next

variable {before : RelayRun} {response : Option Refusal} {stage : RelayStage}

lemma Early.next (h : r.Early ceiling messages) : Next env before ceiling messages r :=
  ⟨.inl h, fun _ front _ _ heq => absurd heq ((notClosed_of_others h.others).ne front _ _)⟩

lemma Waiting.next (h : r.Waiting (ceiling, .returned response) messages) :
    Next env before ceiling messages r :=
  ⟨.inr ⟨response, .inl h⟩,
    fun _ front _ _ heq => absurd heq ((notClosed_of_others h.others).ne front _ _)⟩

lemma Finished.next (h : r.Finished env (ceiling, .returned response) messages) :
    Next env before ceiling messages r :=
  ⟨.inr ⟨response, .inr (.inr h.1)⟩,
    fun _ front ending back heq => (h.2 front ending back heq).imp_right .inr⟩

lemma Kept.next (h : r.Kept env (ceiling, .returned response) messages) :
    Next env before ceiling messages r := by
  rcases h with h | h
  · exact ⟨.inr ⟨response, .inr (.inl h)⟩,
      fun _ front _ _ heq => absurd heq (h.notClosed.ne front _ _)⟩
  · exact h.next

lemma Over.next_of_ended (h : before.Over (ceiling, .returned response) messages)
    {messages' : List DataMessage} (hmore : messages <+: messages')
    (hended : r.Ended (ceiling, .returned response) before.log) :
    Next env before ceiling messages' r := by
  refine ⟨.inr ⟨response, .inr (.inr ?_)⟩, fun hnot front ending back heq => ?_⟩
  · exact hended.over (h.ordered.trans hmore) h.silent
  · obtain ⟨rest, hlog, hrest⟩ := hended.log
    obtain ⟨between, hbefore, -⟩ := eq_of_others hrest (hlog ▸ heq)
    exact absurd hbefore (hnot.ne _ _ _)

lemma Over.next_of_late (h : before.Over (ceiling, .returned response) messages)
    {messages' : List DataMessage} (hmore : messages <+: messages') {ending : BrowserEnding}
    (hended : r.Ended (ceiling, .returned response) (before.log ++ [.browserClose ending]))
    (hlate : CameLate before ending) : Next env before ceiling messages' r := by
  have hsilent : SilentAfterClose (before.log ++ [.browserClose ending]) := by
    intro front ending' rest heq
    rcases List.eq_nil_or_concat rest with rfl | ⟨rest, x, rfl⟩
    · rfl
    · have heq' : before.log ++ [.browserClose ending] =
          (front ++ .browserClose ending' :: rest) ++ [x] := by simpa using heq
      obtain ⟨hbefore, hx⟩ := List.append_inj' heq' rfl
      obtain rfl := List.singleton_inj.1 hx
      rw [List.concat_eq_append, sentToBrowser_append, h.silent front ending' rest hbefore]
      rfl
  refine ⟨.inr ⟨response, .inr (.inr ?_)⟩, fun hnot front ending' back heq => ?_⟩
  · refine hended.over ?_ hsilent
    rw [sentToBrowser_append]
    simpa [sentToBrowser] using h.ordered.trans hmore
  · obtain ⟨rest, hlog, hrest⟩ := hended.log
    obtain ⟨between, hbefore, -⟩ := eq_of_others hrest (hlog ▸ heq)
    obtain ⟨-, rfl, -⟩ := eq_of_notClosed hnot hbefore
    exact .inr (.inl hlate)

lemma Waiting.respond (h : r.Waiting (ceiling, stage) messages) (response : Option Refusal) :
    (r.respond response).Waiting (ceiling, .returned response) messages :=
  { h with stage_eq := rfl }

lemma Finished.respond (h : r.Finished env (ceiling, stage) messages) (response : Option Refusal) :
    (r.respond response).Finished env (ceiling, .returned response) messages :=
  ⟨{ h.1 with stage_eq := rfl }, h.2⟩

lemma Kept.respond (h : r.Kept env (ceiling, stage) messages) (response : Option Refusal) :
    (r.respond response).Kept env (ceiling, .returned response) messages :=
  h.imp (fun h => { h with stage_eq := rfl }) (·.respond response)

lemma Early.emit (h : r.Early ceiling messages) (he : e.isForBrowser = false) :
    (r.emit e).Early ceiling messages :=
  { h with others := by simpa [RelayRun.emit, or_imp, forall_and] using ⟨h.others, he⟩ }

lemma Early.refuse (h : r.Early ceiling messages) (status : ℕ) (body : String) :
    (r.refuse status body).Early ceiling messages := by
  unfold RelayRun.refuse releasePermit
  split_ifs
  · exact { h with }
  · have hreleased : ({ r with released := true, pool := r.pool.release r.key }.emit
        .released).Early ceiling messages := Early.emit { h with } rfl
    exact { hreleased with }

lemma Early.endUpstream (h : r.Early ceiling messages) (event : UpstreamCloseEvent) :
    (r.endUpstream (dialOnClose env) event).Early ceiling messages := by
  have hended : ({ r with upstream := some .closed }.emit .upstreamEnded).Early ceiling messages :=
    Early.emit { h with } rfl
  unfold RelayRun.endUpstream dialOnClose
  rw [if_neg (by simp [hended.notMade])]
  exact { hended with }

lemma Waiting.upgrade (h : r.Waiting (ceiling, stage) messages) :
    Next env before ceiling messages (r.upgrade env) := by
  have hbegun : r.beginUpgrade.Waiting (ceiling, stage) messages := by
    refine { h with state := ?_ }
    have hstate := h.state
    simp only [beginUpgrade]
    split_ifs
    · simp
    · exact hstate
  have hfailed : ∀ detail : String, Next env before ceiling messages
      ((r.beginUpgrade.upgradeRejected.finish env (goingAway "office closed the socket")
        (js detail)).respond (some ⟨500, APP_WS_UPGRADE_FAILED_BODY⟩)) := by
    intro detail
    have hrejected : r.beginUpgrade.upgradeRejected.Waiting (ceiling, stage) messages :=
      { hbegun with }
    exact ((hrejected.finish _ _ messages).respond _).next
  unfold RelayRun.upgrade
  dsimp only
  split
  · exact hfailed _
  · exact hfailed _
  · have htaken : ({ r.beginUpgrade with browser := .upgraded }.emit .browserUpgraded).Waiting
        (ceiling, stage) messages := Waiting.emit { hbegun with } rfl
    split_ifs
    · have hopen : { ({ r.beginUpgrade with browser := .upgraded }.emit .browserUpgraded) with
          browser := .opened }.Waiting (ceiling, stage) messages := { htaken with }
      exact (hopen.attachBrowser.respond none).next
    · exact (htaken.respond none).next

lemma Early.resume (h : r.Early ceiling messages) :
    Next env before ceiling messages (r.resume env) := by
  have hgiveUp : ∀ (detail : String) (status : ℕ) (body : String), Next env before ceiling messages
      ((r.terminateUpstream (dialOnClose env) detail).refuse status body) := by
    intro detail status body
    unfold terminateUpstream
    split_ifs
    · exact (h.refuse _ _).next
    · exact ((h.endUpstream _).refuse _ _).next
  have hmade : r.makeRelay.Waiting (ceiling, r.stage) [] :=
    ⟨⟨rfl, rfl, h.ceiling_eq, rfl, rfl⟩, by simp [makeRelay], h.others, rfl⟩
  unfold RelayRun.resume
  dsimp only
  split_ifs with haborted hprotocol hoverflow hlive
  · exact hgiveUp _ _ _
  · exact hgiveUp _ _ _
  · exact ((hmade.finish _ _ messages).respond _).next
  all_goals
    have hearly : r.makeRelay.early = messages := h.early (Bool.eq_false_iff.2 hoverflow)
    obtain hwaiting | hfinished : (r.makeRelay.handOver env).Waiting (ceiling, r.stage) _ ∨ _ :=
      hmade.handOver messages
  · exact ((hearly ▸ hwaiting).respond _).next
  · exact (hfinished.respond _).next
  · exact (hearly ▸ hwaiting).upgrade
  · simp [isLive, hfinished.1.down_eq] at hlive

/-- An event of a run without a relay object. -/
lemma Early.step (h : r.Early ceiling messages) (event : RelayEvent) :
    Next env r ceiling (messages ++ r.taken event) (r.step env event) := by
  cases event with
  | upstreamMessage message =>
    simp only [RelayRun.step, taken]
    split_ifs
    · unfold dialOnMessage
      rw [if_neg (by simp [h.notMade])]
      dsimp only
      split_ifs with hfull
      · exact Early.next { h with early := by simp }
      · have hroom : r.earlyOverflow = false := by simpa using fun hover => hfull (.inl hover)
        exact Early.next { h with early := fun _ => by rw [h.early hroom] }
    · rw [List.append_nil]
      exact h.next
  | dialFailed failure =>
    simp only [RelayRun.step, taken, List.append_nil]
    split_ifs
    · exact (h.refuse _ _).next
    · exact h.next
  | dialConnected protocol =>
    simp only [RelayRun.step, taken, List.append_nil]
    split_ifs
    · have hopened : ({ r with stage := .connected, upstream := some .opened, protocol }.emit
          .upstreamOpened).Early ceiling messages := Early.emit { h with } rfl
      exact hopened.next
    · exact h.next
  | resume =>
    simp only [RelayRun.step, taken, List.append_nil]
    split_ifs
    · exact h.resume
    · exact h.next
  | upstreamClosing =>
    simp only [RelayRun.step, taken, List.append_nil]
    split_ifs
    · exact Early.next { h with }
    · exact h.next
  | upstreamClose event =>
    simp only [RelayRun.step, taken, List.append_nil]
    split_ifs
    · exact (h.endUpstream _).next
    · exact h.next
  | browserOpen | browserMessage | browserClose =>
    simp only [RelayRun.step, taken, List.append_nil]
    rw [if_neg (by simp [h.browser])]
    exact h.next
  | recheck liveApp stillAllowed =>
    simp only [RelayRun.step, taken, List.append_nil]
    rw [if_neg (by simp [h.notMade])]
    exact h.next
  | retire =>
    simp only [RelayRun.step, taken, List.append_nil]
    split_ifs with hwatching hmade
    · simp [h.notMade] at hmade
    · exact Early.next { h with }
    · exact h.next

variable {response : Option Refusal}

/-- An event of a run whose browser is not there. -/
lemma Waiting.step (h : r.Waiting (ceiling, .returned response) messages)
    (event : RelayEvent) : Next env r ceiling (messages ++ r.taken event) (r.step env event) := by
  refine (step_of_made env (P := Next env r ceiling messages) h.made h.stage_eq h.next ?closing
    ?close ?opens ?data ?gone ?recheck ?retire event).elim ?message ?rest
  case message =>
    rintro ⟨message, htaken, hstep⟩
    rw [htaken, hstep]
    exact (h.onUpstreamMessage message _).elim (·.next) (·.next)
  case rest => exact fun ⟨htaken, hnext⟩ => by rwa [htaken, List.append_nil]
  case closing => exact fun _ => (h.phase _).next
  case close => exact fun _ event => (((h.phase _).emit rfl).onUpstreamClose event).next
  case opens =>
    have hopen : { r with browser := .opened }.Waiting (ceiling, .returned response)
        messages := { h with }
    exact fun _ => hopen.attachBrowser.next
  case data =>
    intro data
    rw [RelayRun.browserMessage, if_pos (.inr h.state)]
    exact h.next
  case gone =>
    have hgone : ({ r with browser := .gone }.emit .browserEnded).Waiting
        (ceiling, .returned response) messages := Waiting.emit { h with } rfl
    exact fun _ code reason => (browserClosed_finished code reason (.inl hgone)).next
  case recheck =>
    intro liveApp stillAllowed
    unfold RelayRun.recheck
    split
    · exact h.next
    · exact (h.finish _ _ _).next
  case retire =>
    have haborted : { r with aborted := true }.Waiting (ceiling, .returned response)
        messages := { h with }
    exact (haborted.finish _ _ _).next

/-- An event of a run whose relay sends. -/
lemma Serving.step (h : r.Serving (ceiling, .returned response) true messages [])
    (event : RelayEvent) : Next env r ceiling (messages ++ r.taken event) (r.step env event) := by
  refine (step_of_made env (P := Next env r ceiling messages) h.made h.stage_eq
    (Kept.next (.inl h)) ?closing ?close ?opens ?data ?gone ?recheck ?retire event).elim ?message
    ?rest
  case message =>
    rintro ⟨message, htaken, hstep⟩
    have hpending : r.Serving (ceiling, .returned response) true (messages ++ [message])
        [message] := { h with sent := by simp [← h.sent] }
    rw [htaken, hstep, RelayRun.onUpstreamMessage, if_neg (by simp [h.down_eq]), if_pos h.state]
    exact Kept.next hpending.sendToBrowser
  case rest => exact fun ⟨htaken, hnext⟩ => by rwa [htaken, List.append_nil]
  case closing => exact fun _ => Kept.next (.inl (h.phase _))
  case close => exact fun _ event => (((h.phase _).emit rfl).onUpstreamClose event).next
  case opens =>
    intro _
    rw [RelayRun.attachBrowser, if_neg (by simp [h.down_eq])]
    dsimp only
    rw [h.empty]
    refine Kept.next (Serving.flushPending (o := (ceiling, .returned response)) ?_)
    exact { h with ws_eq := rfl, state := rfl, empty := rfl }
  case data => exact fun data => (h.browserMessage data).next
  case gone =>
    have hgone : ({ r with browser := .gone }.emit .browserEnded).Serving
        (ceiling, .returned response) true messages [] := Serving.emit { h with } rfl
    exact fun _ code reason => (browserClosed_finished code reason (.inr hgone)).next
  case recheck =>
    intro liveApp stillAllowed
    unfold RelayRun.recheck
    split
    · exact Kept.next (.inl h)
    · exact (h.finish _ _ (.inr (.inr (.inl rfl)))).next
  case retire =>
    have haborted : { r with aborted := true }.Serving (ceiling, .returned response) true
        messages [] := { h with }
    exact (haborted.finish _ _ (.inr (.inr (.inl rfl)))).next

/-- An event of a run whose relay shut down. -/
lemma Over.step (h : r.Over (ceiling, .returned response) messages) (event : RelayEvent) :
    Next env r ceiling (messages ++ r.taken event) (r.step env event) := by
  have hended : r.Ended (ceiling, .returned response) r.log := .of_object h.toObject
  have hquiet : ∀ {r' : RelayRun} {messages' : List DataMessage}, messages <+: messages' →
      r'.Ended (ceiling, .returned response) r.log → Next env r ceiling messages' r' :=
    h.next_of_ended
  have hsame : Next env r ceiling messages r := hquiet List.prefix_rfl hended
  refine (step_of_made env (P := Next env r ceiling messages) h.made h.stage_eq hsame ?closing
    ?close ?opens ?data ?gone ?recheck ?retire event).elim ?message ?rest
  case message =>
    rintro ⟨message, htaken, hstep⟩
    rw [htaken, hstep, RelayRun.onUpstreamMessage, if_pos h.down_eq]
    exact hquiet (List.prefix_append _ _) hended
  case rest => exact fun ⟨htaken, hnext⟩ => by rwa [htaken, List.append_nil]
  case closing => exact fun _ => hquiet List.prefix_rfl { hended with }
  case close =>
    intro _ event
    have hclosed : ({ r with upstream := some .closed }.emit .upstreamEnded).Ended
        (ceiling, .returned response) r.log := Ended.emit { hended with } rfl
    rw [RelayRun.onUpstreamClose, if_pos hclosed.down_eq]
    exact hquiet List.prefix_rfl hclosed.upstreamClosedInShutdown
  case opens =>
    intro _
    have hopen : { r with browser := .opened }.Object (ceiling, .returned response) true
        false := { h.toObject with }
    rw [RelayRun.attachBrowser, if_pos h.down_eq]
    exact h.next_of_late List.prefix_rfl (hopen.closeBrowser _) ⟨h.down_eq, rfl⟩
  case data =>
    intro data
    rwa [RelayRun.browserMessage, if_pos (.inl h.down_eq)]
  case gone =>
    intro _ code reason
    have hgone : ({ r with browser := .gone }.emit .browserEnded).Ended
        (ceiling, .returned response) r.log := Ended.emit { hended with } rfl
    rw [RelayRun.browserClosed, if_pos hgone.down_eq]
    exact hquiet List.prefix_rfl hgone.browserClosedInShutdown
  case recheck =>
    intro liveApp stillAllowed
    rwa [RelayRun.recheck, if_pos (.inl h.down_eq)]
  case retire =>
    have haborted : { r with aborted := true }.Ended (ceiling, .returned response) r.log :=
      { hended with }
    rw [finish_of_down haborted.down_eq]
    exact hquiet List.prefix_rfl haborted

/-- **Every event keeps the place of every message.** -/
theorem Inv.step (h : r.Inv ceiling messages) (event : RelayEvent) :
    Next env r ceiling (messages ++ r.taken event) (r.step env event) := by
  rcases h with h | ⟨response, h | h | h⟩
  · exact h.step event
  · exact h.step event
  · exact h.step event
  · exact h.step event

end Next

lemma Inv.run (h : r.Inv ceiling []) (events : List RelayEvent) :
    (r.run env events).Inv ceiling (r.received env events) := by
  induction events using List.reverseRecOn with
  | nil => exact h
  | append_singleton events event ih =>
    have hrun : r.run env (events ++ [event]) = (r.run env events).step env event := by
      simp [RelayRun.run]
    rw [received_concat, hrun]
    exact (ih.step event).1

variable (env) in
lemma Inv.waits (h : r.Inv ceiling messages) (hdown : r.relay.shuttingDown = false)
    (hws : r.relay.ws = false) (event : UpstreamCloseEvent) :
    (r.step env (.upstreamClose event)).relay.shuttingDown = false := by
  simp only [RelayRun.step]
  split_ifs
  · unfold RelayRun.endUpstream dialOnClose
    rcases h with h | ⟨response, h | h | h⟩
    · rw [if_neg (by simp [RelayRun.emit, h.notMade])]
      exact hdown
    · have hended := (h.phase (some .closed)).emit (e := .upstreamEnded) rfl
      rw [if_pos hended.made]
      exact (hended.onUpstreamClose event).down_eq
    · simp [h.ws_eq] at hws
    · simp [h.down_eq] at hdown
  · exact hdown

end RelayRun

/-- What is promised of the delivery to the browser, after any events:

* what was sent is the beginning of what the app sent, and all of it while the browser's socket is
  attached;
* nothing is sent behind a close;
* when the last event closes the browser's socket, everything the app sent so far is sent before
  the close, unless a fault cut the browser off: the relay had shut down before the socket came, or
  the browser stopped reading;
* the end of the app's connection does not shut down a relay whose browser is not there yet. -/
structure DeliveryKept (env : RelayEnv) (start : RelayRun) (events : List RelayEvent) : Prop where
  ordered : sentToBrowser (start.run env events).log <+: start.received env events
  current : (start.run env events).relay.ws = true →
    sentToBrowser (start.run env events).log = start.received env events
  silent : SilentAfterClose (start.run env events).log
  complete : ∀ before event, events = before ++ [event] → NotClosed (start.run env before).log →
    ∀ front ending back, (start.run env events).log = front ++ .browserClose ending :: back →
      sentToBrowser front = start.received env events ∨
        (start.run env before).CameLate ending ∨
        ending = .close CLOSE_BACKPRESSURE (js "browser stopped reading") ∧
          BrowserStopped env start.bufferMaxBytes (start.received env events) front
  waits : ∀ before event, events = before ++ [.upstreamClose event] →
    (start.run env before).relay.shuttingDown = false → (start.run env before).relay.ws = false →
      (start.run env events).relay.shuttingDown = false

namespace RelayRun

variable {r : RelayRun}

lemma early_start (req : UpgradeRequest) (limits : SocketLimits) (ceiling : ℕ) (pool : SocketPool) :
    (start req limits ceiling pool).Early ceiling [] := by
  unfold start
  dsimp only
  split_ifs
  · exact ⟨rfl, rfl, rfl, rfl, by simp, fun _ => rfl⟩
  · exact ⟨rfl, rfl, rfl, rfl, by simp, fun _ => rfl⟩
  · exact ⟨rfl, rfl, rfl, rfl, by simp, fun _ => rfl⟩
  all_goals split <;> exact ⟨rfl, rfl, rfl, rfl, by simp, fun _ => rfl⟩

lemma Inv.logged (h : r.Inv ceiling messages) :
    sentToBrowser r.log <+: messages ∧ (r.relay.ws = true → sentToBrowser r.log = messages) ∧
      SilentAfterClose r.log := by
  have hothers : (∀ e ∈ r.log, e.isForBrowser = false) → r.relay.ws = false →
      sentToBrowser r.log <+: messages ∧ (r.relay.ws = true → sentToBrowser r.log = messages) ∧
        SilentAfterClose r.log := by
    intro hothers hws
    refine ⟨?_, by simp [hws], fun front _ _ heq => ?_⟩
    · rw [sentToBrowser_of_others hothers]
      exact List.nil_prefix
    · exact absurd heq ((notClosed_of_others hothers).ne front _ _)
  rcases h with h | ⟨response, h | h | h⟩
  · exact hothers h.others h.ws_eq
  · exact hothers h.others h.ws_eq
  · have hsent : sentToBrowser r.log = messages := by simpa using h.sent
    exact ⟨⟨[], by simpa using hsent⟩, fun _ => hsent, fun _ _ _ heq =>
      absurd heq (h.notClosed.ne _ _ _)⟩
  · exact ⟨h.ordered, by simp [h.ws_eq], h.silent⟩

end RelayRun

/-- **The delivery of a relayed socket.** In every run of `relayWsToApp`, in any order of what the
browser, the app, the timer and the retirement of the app do, and with any answers of the
transports, the promise about the delivery to the browser holds after every event. -/
theorem relayDelivery (env : RelayEnv) (req : RelayRun.UpgradeRequest) (limits : SocketLimits)
    (bufferMaxBytes : ℕ) (pool : SocketPool) (events : List RelayEvent) :
    DeliveryKept env (RelayRun.start req limits bufferMaxBytes pool) events := by
  have hstart : (RelayRun.start req limits bufferMaxBytes pool).Inv bufferMaxBytes [] :=
    .inl (RelayRun.early_start req limits bufferMaxBytes pool)
  have hrun : ∀ events, ((RelayRun.start req limits bufferMaxBytes pool).run env events).Inv
      bufferMaxBytes _ := hstart.run
  obtain ⟨hordered, hcurrent, hsilent⟩ := (hrun events).logged
  refine ⟨hordered, hcurrent, hsilent, ?_, ?_⟩
  · rintro before event rfl
    obtain ⟨-, hcloses⟩ := (hrun before).step event
    rw [← RelayRun.received_concat] at hcloses
    rw [(RelayRun.early_start req limits bufferMaxBytes pool).ceiling_eq]
    simpa [RelayRun.run] using hcloses
  · rintro before event rfl hdown hws
    have hwaits := (hrun before).waits env hdown hws event
    simpa [RelayRun.run] using hwaits

end Isomux
