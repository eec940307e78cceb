import Isomux.AppSockets.Relay
import Isomux.Foundations.Trace

set_option autoImplicit false

/-!
# The permit of a relayed socket

The permit stands for two sockets, and goes back when the second of them is gone. The relay object
keeps the account of the two legs; an end of the app's leg that came before the object exists is
handed over to it, except on the way out that refuses a flood of early messages.

## Main results

* `Isomux.RelayRun.Settled.step` — every event keeps the account of a relay object.
* `Isomux.relayPermit_iff` — the permit is sound in a whole run if and only if no step of it forgets
  the app's end.
-/

namespace Isomux

open Trace

/-! ## What a log says -/

/-- The app's leg is live after these effects. -/
def UpstreamLiveIn (log : List RelayEffect) : Prop :=
  .upstreamOpened ∈ log ∧ .upstreamEnded ∉ log

/-- The browser's leg is live after these effects. -/
def BrowserLiveIn (log : List RelayEffect) : Prop :=
  .browserUpgraded ∈ log ∧ .browserEnded ∉ log

/-- The permit goes back once, with no live leg, and no leg comes after it. -/
def RelayEffect.Lawful (before : List RelayEffect) : RelayEffect → Prop
  | .released => .released ∉ before ∧ ¬ UpstreamLiveIn before ∧ ¬ BrowserLiveIn before
  | .upstreamOpened | .browserUpgraded => .released ∉ before
  | _ => True

/-- Whether the effect is a turn of a leg or of the permit. -/
def RelayEffect.isTurn : RelayEffect → Bool
  | .upstreamOpened | .upstreamEnded | .browserUpgraded | .browserEnded | .released => true
  | _ => false

theorem count_released_le_one {log : List RelayEffect} (h : Each RelayEffect.Lawful log) :
    log.count .released ≤ 1 := by
  induction log using List.reverseRecOn with
  | nil => simp
  | append_singleton log e ih =>
    obtain ⟨hlog, he⟩ := each_concat.mp h
    rw [List.count_append]
    by_cases hr : e = .released
    · subst hr
      rw [List.count_eq_zero.mpr he.1]
      simp
    · simpa [List.count_singleton, hr] using ih hlog

theorem not_live_of_released {log : List RelayEffect} (h : Each RelayEffect.Lawful log)
    (hr : .released ∈ log) : ¬ UpstreamLiveIn log ∧ ¬ BrowserLiveIn log := by
  induction log using List.reverseRecOn with
  | nil => simp at hr
  | append_singleton log e ih =>
    obtain ⟨hlog, he⟩ := each_concat.mp h
    by_cases hbefore : .released ∈ log
    · obtain ⟨hup, hbr⟩ := ih hlog hbefore
      cases e <;> simp_all [RelayEffect.Lawful, UpstreamLiveIn, BrowserLiveIn]
    · obtain rfl : RelayEffect.released = e := by simpa [hbefore] using hr
      simpa [UpstreamLiveIn, BrowserLiveIn] using he.2

namespace RelayRun

/-! ## The run and its log -/

/-- What a run and its log agree on; `start` is the pool before the run. -/
structure Sound (start : SocketPool) (r : RelayRun) : Prop where
  lawful : Each RelayEffect.Lawful r.log
  released_iff : .released ∈ r.log ↔ r.released = true
  upstreamOpened_iff : .upstreamOpened ∈ r.log ↔ r.upstream ≠ none
  upstreamEnded_iff : .upstreamEnded ∈ r.log ↔ r.upstream = some .closed
  browserUpgraded_iff : .browserUpgraded ∈ r.log ↔ r.browser ≠ .absent
  browserEnded_iff : .browserEnded ∈ r.log ↔ r.browser = .gone
  accounts : r.acquired = true →
    (if r.released then r.pool else r.pool.release r.key) = start

variable {start : SocketPool} {stage : RelayStage} {env : RelayEnv} {r : RelayRun}

namespace Sound

theorem upstreamLiveIn_iff (h : r.Sound start) : UpstreamLiveIn r.log ↔ r.upstreamIsLive = true := by
  rw [UpstreamLiveIn, h.upstreamOpened_iff, h.upstreamEnded_iff, upstreamIsLive]
  rcases r.upstream with _ | _ | _ | _ <;> simp

theorem browserLiveIn_iff (h : r.Sound start) : BrowserLiveIn r.log ↔ r.browserIsLive = true := by
  rw [BrowserLiveIn, h.browserUpgraded_iff, h.browserEnded_iff, browserIsLive]
  cases r.browser <;> simp

theorem emit (h : r.Sound start) {e : RelayEffect} (he : e.isTurn = false) :
    (r.emit e).Sound start := by
  have hlawful : e.Lawful r.log := by cases e <;> simp_all [RelayEffect.isTurn, RelayEffect.Lawful]
  have hne : ∀ e' : RelayEffect, e'.isTurn = true → (e' ∈ r.log ++ [e] ↔ e' ∈ r.log) := by
    rintro e' he'
    have : e' ≠ e := by rintro rfl; simp [he'] at he
    simp [this]
  exact {
    lawful := each_concat.mpr ⟨h.lawful, hlawful⟩
    released_iff := (hne _ rfl).trans h.released_iff
    upstreamOpened_iff := (hne _ rfl).trans h.upstreamOpened_iff
    upstreamEnded_iff := (hne _ rfl).trans h.upstreamEnded_iff
    browserUpgraded_iff := (hne _ rfl).trans h.browserUpgraded_iff
    browserEnded_iff := (hne _ rfl).trans h.browserEnded_iff
    accounts := h.accounts }

theorem releasePermit (h : r.Sound start) (hup : r.upstreamIsLive = false)
    (hbr : r.browserIsLive = false) : r.releasePermit.Sound start := by
  unfold RelayRun.releasePermit
  split_ifs with hr
  · exact h
  · have hlawful : RelayEffect.Lawful r.log .released :=
      ⟨fun hmem => hr (h.released_iff.mp hmem), by simp [h.upstreamLiveIn_iff, hup],
        by simp [h.browserLiveIn_iff, hbr]⟩
    have haccounts := h.accounts
    constructor
    case lawful => exact each_concat.mpr ⟨h.lawful, hlawful⟩
    case accounts => simpa [RelayRun.emit, hr] using haccounts
    all_goals simp [RelayRun.emit, h.upstreamOpened_iff, h.upstreamEnded_iff,
      h.browserUpgraded_iff, h.browserEnded_iff]

theorem upstreamEnds (h : r.Sound start) (hup : r.upstreamIsLive = true) :
    ({ r with upstream := some .closed }.emit .upstreamEnded).Sound start := by
  have hopened : r.upstream ≠ none := by
    rintro heq
    simp [upstreamIsLive, heq] at hup
  constructor
  case lawful => exact each_concat.mpr ⟨h.lawful, trivial⟩
  case accounts => exact h.accounts
  all_goals simp [RelayRun.emit, h.upstreamOpened_iff, h.browserUpgraded_iff, h.browserEnded_iff,
    h.released_iff, hopened]

theorem browserEnds (h : r.Sound start) (hbr : r.browserIsLive = true) :
    ({ r with browser := .gone }.emit .browserEnded).Sound start := by
  have hupgraded : r.browser ≠ .absent := by
    rintro heq
    simp [browserIsLive, heq] at hbr
  constructor
  case lawful => exact each_concat.mpr ⟨h.lawful, trivial⟩
  case accounts => exact h.accounts
  all_goals simp [RelayRun.emit, h.upstreamOpened_iff, h.upstreamEnded_iff, h.browserUpgraded_iff,
    h.released_iff, hupgraded]

end Sound

theorem upstream_cases (hup : r.upstream ≠ none) :
    r.upstream = some .opened ∨ r.upstream = some .closing ∨ r.upstream = some .closed := by
  rcases hu : r.upstream with _ | _ | _ | _ <;> simp_all

/-! ## The account of a relay object -/

/-- The account inside a method: the flags of the object are the state of the legs, and the permit
went back only with both legs gone. -/
structure Wired (start : SocketPool) (stage : RelayStage) (r : RelayRun) : Prop where
  sound : r.Sound start
  made : r.made = true
  stage_eq : r.stage = stage
  connected : r.upstream ≠ none
  upstreamLive : r.relay.upstreamLive = r.upstreamIsLive
  browserLive : r.relay.browserLive = r.browserIsLive
  ws : r.relay.ws = true → r.browser = .opened
  shuttingDown : r.released = true → r.relay.shuttingDown = true

/-- The account behind a method: in a shutdown without a live leg the permit went back. -/
structure Settled (start : SocketPool) (stage : RelayStage) (r : RelayRun) : Prop extends
    Wired start stage r where
  prompt : r.relay.shuttingDown = true → r.upstreamIsLive = false → r.browserIsLive = false →
    r.released = true

namespace Wired

theorem settled (h : r.Wired start stage) (hs : r.relay.shuttingDown = false) : r.Settled start stage :=
  { h with prompt := by simp [hs] }

theorem not_released (h : r.Wired start stage) (hs : r.relay.shuttingDown = false) :
    r.released = false := by
  rw [Bool.eq_false_iff]
  exact fun hr => by simp [h.shuttingDown hr] at hs

theorem emit (h : r.Wired start stage) {e : RelayEffect} (he : e.isTurn = false) :
    (r.emit e).Wired start stage := { h with sound := h.sound.emit he }

/-- **The one place that gives the permit back.** -/
theorem releaseIfBothLegsEnded (h : r.Wired start stage) : r.releaseIfBothLegsEnded.Settled start stage := by
  unfold RelayRun.releaseIfBothLegsEnded
  split_ifs with hs hlive
  · exact h.settled (by simpa using hs)
  · refine { h with prompt := fun _ hup hbr => ?_ }
    simp [h.upstreamLive, h.browserLive, hup, hbr] at hlive
  · obtain ⟨hup, hbr⟩ : r.upstreamIsLive = false ∧ r.browserIsLive = false := by
      simpa [h.upstreamLive, h.browserLive] using hlive
    have hsound := h.sound.releasePermit hup hbr
    have hs : r.relay.shuttingDown = true := by simpa using hs
    revert hsound
    unfold RelayRun.releasePermit
    split_ifs with hr
    · exact fun _ => { h with prompt := fun _ _ _ => hr }
    · exact fun hsound => { h with
        sound := hsound, shuttingDown := fun _ => hs, prompt := fun _ _ _ => rfl }

theorem upstreamEnds (h : r.Wired start stage) (hup : r.upstreamIsLive = true) :
    Wired start stage
      { { r with upstream := some .closed }.emit .upstreamEnded with
        relay.upstreamLive := false } :=
  { h with
    sound := { h.sound.upstreamEnds hup with }
    upstreamLive := rfl
    connected := by simp [RelayRun.emit] }

theorem browserEnds (h : r.Wired start stage) (hbr : r.browserIsLive = true) :
    Wired start stage
      { { r with browser := .gone }.emit .browserEnded with
        relay.browserLive := false, relay.ws := false } :=
  { h with sound := { h.sound.browserEnds hbr with }, browserLive := rfl, ws := by simp }

theorem upstreamCloses (h : r.Wired start stage) (hup : r.upstream = some .opened) :
    Settled start stage { r with upstream := some .closing } := by
  have hup' := h.upstreamLive
  simp only [upstreamIsLive, hup] at hup'
  refine { h with
    sound := { h.sound with upstreamOpened_iff := ?_, upstreamEnded_iff := ?_ }
    upstreamLive := by simp [hup', upstreamIsLive]
    connected := by simp
    prompt := by simp [upstreamIsLive] }
  · simp [h.sound.upstreamOpened_iff, hup]
  · simp [h.sound.upstreamEnded_iff, hup]

end Wired

theorem Settled.emit (h : r.Settled start stage) {e : RelayEffect} (he : e.isTurn = false) :
    (r.emit e).Settled start stage := { h.toWired.emit he with prompt := h.prompt }

/-! ## Calls of the transports -/

section Calls

variable {onClose : RelayRun → UpstreamCloseEvent → RelayRun}
  (hclose : ∀ r event, Wired start stage { r with relay.upstreamLive := false } →
    Settled start stage (onClose r event))

include hclose

theorem Wired.endUpstream (h : r.Wired start stage) (hup : r.upstreamIsLive = true)
    (event : UpstreamCloseEvent) : (r.endUpstream onClose event).Settled start stage :=
  hclose _ event (h.upstreamEnds hup)

variable (env) in
theorem Wired.sendCloseUpstream (h : r.Wired start stage) (code : Option CloseCode)
    (reason detail : JsString) :
    r.sendCloseUpstream env onClose code reason detail = r ∨
      (r.sendCloseUpstream env onClose code reason detail).Settled start stage := by
  unfold RelayRun.sendCloseUpstream
  split_ifs with hup
  · exact .inl rfl
  · right
    have hclosing := (h.upstreamCloses (not_not.mp hup)).emit
      (e := .upstreamSendClose code reason detail) rfl
    simp only
    split
    · exact hclosing
    · exact hclosing.toWired.endUpstream hclose rfl _

theorem Settled.sendCloseUpstream (h : r.Settled start stage) (code : Option CloseCode)
    (reason detail : JsString) :
    (r.sendCloseUpstream env onClose code reason detail).Settled start stage := by
  have hcases : r.sendCloseUpstream env onClose code reason detail = r ∨
      (r.sendCloseUpstream env onClose code reason detail).Settled start stage :=
    h.toWired.sendCloseUpstream env hclose code reason detail
  rcases hcases with heq | hs
  · rwa [heq]
  · exact hs

theorem Settled.terminateUpstream (h : r.Settled start stage) (detail : String) :
    (r.terminateUpstream onClose detail).Settled start stage := by
  unfold RelayRun.terminateUpstream
  split_ifs with hclosed
  · exact h
  · refine h.toWired.endUpstream hclose ?_ _
    have hup := h.connected
    obtain hu | hu | hu := upstream_cases hup <;> simp_all [upstreamIsLive]

variable (env) in
theorem Settled.sendUpstream (h : r.Settled start stage) (message : DataMessage) :
    (r.sendUpstream env onClose message).1.Settled start stage := by
  unfold RelayRun.sendUpstream
  split_ifs with hup
  · exact h
  · have hsent := h.emit (e := .upstreamSend message) rfl
    simp only
    split
    · exact hsent
    · exact hsent.toWired.endUpstream hclose (by simp_all [upstreamIsLive, RelayRun.emit]) _

end Calls

theorem settled_upstreamClosedInShutdown (r : RelayRun) (_ : UpstreamCloseEvent)
    (h : Wired start stage { r with relay.upstreamLive := false }) :
    r.upstreamClosedInShutdown.Settled start stage := h.releaseIfBothLegsEnded

variable (env) in
theorem Wired.closeBrowser (h : r.Wired start stage) (hbr : r.browser = .opened)
    (ending : BrowserEnding) :
    r.closeBrowser env ending = r.emit (.browserClose ending) ∨
      (r.closeBrowser env ending).Settled start stage := by
  unfold RelayRun.closeBrowser
  simp only
  split_ifs
  · have hemit := h.emit (e := .browserClose ending) rfl
    have hlive : (r.emit (.browserClose ending)).browserIsLive = true := by
      simp [browserIsLive, RelayRun.emit, hbr]
    exact .inr (hemit.browserEnds hlive).releaseIfBothLegsEnded
  · exact .inl rfl

/-! ## The methods of the relay -/

theorem Wired.endBrowserLeg (h : r.Wired start stage) {ws : Bool} (hws : ws = true → r.browser = .opened)
    (ending : Option BrowserEnding) : (r.endBrowserLeg env ws ending).Wired start stage := by
  cases ending with
  | none => exact h
  | some ending =>
    simp only [RelayRun.endBrowserLeg]
    split_ifs with hw
    · have hcases : r.closeBrowser env ending = r.emit (.browserClose ending) ∨
          (r.closeBrowser env ending).Settled start stage := h.closeBrowser env (hws hw) ending
      rcases hcases with heq | hs
      · rw [heq]
        exact h.emit rfl
      · exact hs.toWired
    · exact h

theorem Wired.endUpstreamLeg (h : r.Wired start stage) (ending : Option (CloseCode × JsString))
    (detail : JsString) : (r.endUpstreamLeg env detail ending).Wired start stage := by
  rcases ending with _ | ⟨code, reason⟩
  · exact h
  · have hcases := h.sendCloseUpstream env settled_upstreamClosedInShutdown (some code) reason detail
    rcases hcases with heq | hs
    · simp only [RelayRun.endUpstreamLeg]
      rwa [heq]
    · exact hs.toWired

/-- **The one exit.** -/
theorem Settled.finish (h : r.Settled start stage) (ending : RelayEnding) (detail : JsString) :
    (r.finish env ending detail).Settled start stage := by
  unfold RelayRun.finish
  split_ifs with hs
  · exact h
  · have hr := h.not_released (by simpa using hs)
    have hstopped : r.stopRelay.Wired start stage :=
      { h.toWired with
        sound := { h.sound with }
        ws := by simp [stopRelay]
        shuttingDown := by simp [stopRelay, hr] }
    exact ((hstopped.endBrowserLeg h.ws _).endUpstreamLeg _ _).releaseIfBothLegsEnded

theorem Settled.sendToBrowser (h : r.Settled start stage) (message : DataMessage) :
    (r.sendToBrowser env message).Settled start stage := by
  have hsent := h.emit (e := .browserSend message) rfl
  unfold RelayRun.sendToBrowser
  simp only
  split_ifs
  · exact h
  · exact h.finish _ _
  · exact hsent.finish _ _
  · exact hsent

theorem Settled.onUpstreamMessage (h : r.Settled start stage) (message : DataMessage) :
    (r.onUpstreamMessage env message).Settled start stage := by
  unfold RelayRun.onUpstreamMessage
  simp only
  split_ifs
  · exact h
  · exact h.sendToBrowser message
  · exact h.finish _ _
  · exact { h with sound := { h.sound with } }

variable (env) in
theorem settled_onUpstreamClose (r : RelayRun) (event : UpstreamCloseEvent)
    (h : Wired start stage { r with relay.upstreamLive := false }) :
    (r.onUpstreamClose env event).Settled start stage := by
  unfold RelayRun.onUpstreamClose
  simp only
  split_ifs with hs hstate
  · exact h.releaseIfBothLegsEnded
  · refine Wired.settled ?_ (by simpa using hs)
    exact { h with sound := { h.sound with } }
  · exact (h.settled (by simpa using hs)).finish _ _

theorem Settled.flushPending (h : r.Settled start stage) (pending : List DataMessage) :
    (r.flushPending env pending).Settled start stage := by
  induction pending generalizing r with
  | nil =>
    unfold RelayRun.flushPending RelayRun.afterFlush
    split
    · refine Settled.finish ?_ _ _
      exact { h with sound := { h.sound with } }
    · exact { h with sound := { h.sound with } }
  | cons message pending ih =>
    unfold RelayRun.flushPending
    split_ifs
    · exact h
    · exact ih (h.sendToBrowser message)

theorem Settled.attachBrowser (h : r.Settled start stage) (hbr : r.browser = .opened) :
    (r.attachBrowser env).Settled start stage := by
  unfold RelayRun.attachBrowser
  simp only
  split_ifs with hs
  · have hcases := h.toWired.closeBrowser env hbr (.close CLOSE_GOING_AWAY (js "app closed"))
    rcases hcases with heq | hclosed
    · rw [heq]
      exact h.emit rfl
    · exact hclosed
  · refine Settled.flushPending ?_ _
    exact { h with
      sound := { h.sound with }
      browserLive := by simp [browserIsLive, hbr]
      ws := fun _ => hbr }

theorem Settled.browserMessage (h : r.Settled start stage) (data : DataMessage) :
    (r.browserMessage env data).Settled start stage := by
  have hsent := h.sendUpstream env (settled_onUpstreamClose env) data
  unfold RelayRun.browserMessage
  split_ifs
  · exact h
  · split
    all_goals
      rename_i heq
      rw [heq] at hsent
    · exact hsent.finish _ _
    · exact hsent.finish _ _
    · exact hsent

theorem settled_browserClosed (code : CloseCode) (reason : JsString)
    (h : Wired start stage { r with relay.browserLive := false, relay.ws := false }) :
    (r.browserClosed env code reason).Settled start stage := by
  unfold RelayRun.browserClosed
  split_ifs with hs
  · exact h.releaseIfBothLegsEnded
  · refine Settled.finish ?_ _ _
    have hsettled := h.settled (by simpa using hs)
    unfold RelayRun.tellUpstream
    split_ifs
    · exact hsettled.terminateUpstream (settled_onUpstreamClose env) _
    · exact hsettled.sendCloseUpstream (settled_onUpstreamClose env) _ _ _
    · exact hsettled.sendCloseUpstream (settled_onUpstreamClose env) _ _ _

theorem Settled.recheck (h : r.Settled start stage) (liveApp stillAllowed : Bool) :
    (r.recheck env liveApp stillAllowed).Settled start stage := by
  unfold RelayRun.recheck
  split_ifs
  · exact h
  all_goals exact h.finish _ _

/-! ## Before the relay object -/

structure Unmade (start : SocketPool) (r : RelayRun) : Prop where
  sound : r.Sound start
  made : r.made = false
  browser : r.browser = .absent
  holds : r.stage = .dialing ∨ r.stage = .connected → r.acquired = true ∧ r.released = false
  dialing : r.stage = .dialing → r.upstream = none
  connected : r.stage = .connected → r.upstream ≠ none
  ended : r.stage ≠ .dialing → r.stage ≠ .connected →
    r.upstreamIsLive = false ∧ (r.acquired = true → r.released = true)
  earlyClose_iff : r.earlyClose.isSome = true ↔ r.upstream = some .closed
  earlyBytes_eq : r.earlyBytes = (r.early.map sizeOfMessage).sum
  earlyBytes_le : r.earlyBytes ≤ r.bufferMaxBytes

/-- The upgrade gets a permit, and the name of its member has a lone surrogate: the headers for the
app are not built. -/
def UpgradeRequest.LosesPermit (req : UpgradeRequest) (limits : SocketLimits) (pool : SocketPool) :
    Prop :=
  req.authenticated = true ∧ req.originAllowed = true ∧ req.offered.isSome = true ∧
    req.notRunning = none ∧ (pool.acquire req.key limits).isSome = true ∧
    encodeURIComponent req.memberName = none

theorem unmade_start {req : UpgradeRequest} {limits : SocketLimits} (bufferMaxBytes : ℕ)
    {pool : SocketPool} (hkeeps : ¬ req.LosesPermit limits pool) :
    (RelayRun.start req limits bufferMaxBytes pool).Unmade pool := by
  have hrefused : ∀ refusal : Refusal, Unmade pool
      { bufferMaxBytes, offered := req.offered.getD [], key := req.key,
        stage := .returned (some refusal), watching := false, acquired := false, pool } := by
    intro refusal
    constructor
    case sound => constructor <;> simp
    all_goals simp [upstreamIsLive]
  unfold RelayRun.start
  simp only
  split_ifs with hauth horigin hoffered hname
  · exact hrefused _
  · exact hrefused _
  · exact hrefused _
  · split
    · exact hrefused _
    · exact hrefused _
    · rename_i taken _ htaken
      have hpool := SocketPool.release_of_acquire htaken
      constructor
      case sound => constructor <;> simp [hpool]
      all_goals simp
  · split
    · exact hrefused _
    · exact hrefused _
    · rename_i taken hrunning htaken
      exact absurd ⟨by simpa using hauth, by simpa using horigin,
        by simpa [Option.isSome_iff_ne_none] using hoffered, hrunning, by simp [htaken],
        by simpa using hname⟩ hkeeps

namespace Unmade

theorem dialOnMessage (h : r.Unmade start) (message : DataMessage) :
    (r.dialOnMessage env message).Unmade start := by
  unfold RelayRun.dialOnMessage
  rw [if_neg (by simp [h.made])]
  simp only
  split_ifs with hfull
  · exact { h with sound := { h.sound with } }
  · exact { h with
      sound := { h.sound with }
      earlyBytes_eq := by simp [h.earlyBytes_eq]
      earlyBytes_le := by simp only; omega }

theorem endUpstream (h : r.Unmade start) (hup : r.upstreamIsLive = true)
    (event : UpstreamCloseEvent) :
    (r.endUpstream (dialOnClose env) event).Unmade start := by
  have hended := h.sound.upstreamEnds hup
  unfold RelayRun.endUpstream RelayRun.dialOnClose
  rw [if_neg (by simp [RelayRun.emit, h.made])]
  exact {
    sound := { hended with }
    made := h.made
    browser := h.browser
    holds := h.holds
    dialing := fun hstage => by simp [upstreamIsLive, h.dialing hstage] at hup
    connected := by simp [RelayRun.emit]
    ended := fun hdialing hconnected => by simp [(h.ended hdialing hconnected).1] at hup
    earlyClose_iff := by simp [RelayRun.emit]
    earlyBytes_eq := h.earlyBytes_eq
    earlyBytes_le := h.earlyBytes_le }

theorem refuse (h : r.Unmade start) (hup : r.upstreamIsLive = false) (status : ℕ)
    (body : String) : (r.refuse status body).Unmade start := by
  have hreleased : r.releasePermit.released = true := by
    unfold RelayRun.releasePermit
    split_ifs with hr
    · exact hr
    · rfl
  have hrest : r.releasePermit = { r with
      released := r.releasePermit.released
      pool := r.releasePermit.pool
      log := r.releasePermit.log } := by
    unfold RelayRun.releasePermit
    split_ifs <;> rfl
  have hsound := h.sound.releasePermit hup (by simp [browserIsLive, h.browser])
  unfold RelayRun.refuse
  rw [hrest] at hsound ⊢
  exact { h with
    sound := { hsound with }
    holds := by simp [respond]
    dialing := by simp [respond]
    connected := by simp [respond]
    ended := fun _ _ => ⟨hup, fun _ => hreleased⟩ }

theorem refuse_connected (h : r.Unmade start) (hstage : r.stage = .connected) (detail : String)
    (status : ℕ) (body : String) :
    ((r.terminateUpstream (RelayRun.dialOnClose env) detail).refuse status body).Unmade start := by
  unfold RelayRun.terminateUpstream
  split_ifs with hclosed
  · exact h.refuse (by simp [upstreamIsLive, hclosed]) status body
  · have hlive : r.upstreamIsLive = true := by
      have hup := h.connected hstage
      obtain hu | hu | hu := upstream_cases hup <;> simp_all [upstreamIsLive]
    refine (h.endUpstream hlive _).refuse ?_ status body
    unfold RelayRun.endUpstream RelayRun.dialOnClose
    rw [if_neg (by simp [RelayRun.emit, h.made])]
    rfl

theorem upstreamCloses (h : r.Unmade start) (hup : r.upstream = some .opened) :
    Unmade start { r with upstream := some .closing } :=
  { h with
    sound := { h.sound with
      upstreamOpened_iff := by simp [h.sound.upstreamOpened_iff, hup]
      upstreamEnded_iff := by simp [h.sound.upstreamEnded_iff, hup] }
    dialing := fun hstage => by simp [h.dialing hstage] at hup
    connected := by simp
    ended := fun hdialing hconnected =>
      absurd (h.ended hdialing hconnected).1 (by simp [upstreamIsLive, hup])
    earlyClose_iff := by simp [h.earlyClose_iff, hup] }

end Unmade

/-! ## The relay object is made -/

/-- The relay object with further messages in its buffer. -/
def bufferAll (r : RelayRun) (messages : List DataMessage) : RelayRun :=
  { r with
    relay.buffer := r.relay.buffer ++ messages
    relay.bufferedBytes := r.relay.bufferedBytes + (messages.map sizeOfMessage).sum }

theorem foldl_onUpstreamMessage (env : RelayEnv) (messages : List DataMessage) (r : RelayRun)
    (hs : r.relay.shuttingDown = false) (hstate : r.relay.state = .preOpen)
    (hfit : r.relay.bufferedBytes + (messages.map sizeOfMessage).sum ≤ r.bufferMaxBytes) :
    messages.foldl (onUpstreamMessage env) r = r.bufferAll messages := by
  induction messages generalizing r with
  | nil => simp [bufferAll]
  | cons message messages ih =>
    simp only [List.map_cons, List.sum_cons] at hfit
    have hstep : r.onUpstreamMessage env message = r.bufferAll [message] := by
      unfold RelayRun.onUpstreamMessage
      rw [if_neg (by simp [hs]), if_neg (by simp [hstate])]
      simp only
      rw [if_neg (by omega)]
      simp [bufferAll]
    rw [List.foldl_cons, hstep, ih (r.bufferAll [message]) hs hstate]
    · simp [bufferAll, Nat.add_assoc]
    · simp only [bufferAll, List.map_cons, List.map_nil, List.sum_cons, List.sum_nil]
      omega

/-- What the relay object has got when everything early is handed over: nothing was finished, so
the function goes on to the upgrade. -/
theorem Unmade.handOver_eq (h : r.Unmade start) :
    r.makeRelay.handOver env =
      { r.makeRelay with
        relay.buffer := r.early
        relay.bufferedBytes := r.earlyBytes
        relay.upstreamLive := r.earlyClose.isNone
        relay.recorded := r.earlyClose } := by
  have hle : (r.early.map sizeOfMessage).sum ≤ r.bufferMaxBytes := by
    rw [← h.earlyBytes_eq]
    exact h.earlyBytes_le
  have hreplay := foldl_onUpstreamMessage env r.early r.makeRelay rfl rfl
    (by simpa [makeRelay] using hle)
  have hbytes := h.earlyBytes_eq
  unfold handOver
  rw [show r.makeRelay.early = r.early from rfl, hreplay]
  cases hclose : r.earlyClose with
  | none => simp [bufferAll, makeRelay, hclose, hbytes]
  | some event => simp [bufferAll, makeRelay, hclose, hbytes, RelayRun.onUpstreamClose]

theorem Unmade.settled_handOver (h : r.Unmade start) (hstage : r.stage = .connected) :
    (r.makeRelay.handOver env).Settled start .connected := by
  rw [h.handOver_eq]
  refine Wired.settled ?_ rfl
  have hup := h.connected hstage
  have hclose := h.earlyClose_iff
  constructor
  case sound => exact { h.sound with }
  case upstreamLive =>
    obtain hu | hu | hu := upstream_cases hup <;>
      cases he : r.earlyClose <;> simp_all [upstreamIsLive, makeRelay]
  case shuttingDown =>
    exact fun hr => by simp [(h.holds (by simp [hstage])).2, makeRelay] at hr
  all_goals simp [makeRelay, hstage, hup, browserIsLive, h.browser]

theorem Settled.respond (h : r.Settled start stage) (response : Option Refusal) :
    (r.respond response).Settled start (.returned response) :=
  { h with sound := { h.sound with }, stage_eq := rfl }

/-- The runtime is asked to take the socket. -/
theorem Settled.upgrade (h : r.Settled start stage) (hs : r.relay.shuttingDown = false)
    (hws : r.relay.ws = false) (hbr : r.browser = .absent) :
    ∃ response, (r.upgrade env).Settled start (.returned response) := by
  have hreleased := h.not_released hs
  unfold RelayRun.upgrade
  simp only
  split
  case h_3 openInside =>
    refine ⟨none, (?_ : Settled start stage _).respond none⟩
    have hlawful : RelayEffect.Lawful r.log .browserUpgraded :=
      fun hmem => by simp [h.sound.released_iff.mp hmem] at hreleased
    have htaken : ∀ leg : BrowserLeg, leg = .upgraded ∨ leg = .opened →
        Settled start stage
          { ({ r.beginUpgrade with browser := .upgraded }.emit .browserUpgraded) with
            browser := leg } := by
      intro leg hleg
      have hne : leg ≠ .absent ∧ leg ≠ .gone := by rcases hleg with rfl | rfl <;> simp
      refine Wired.settled ?_ hs
      constructor
      case sound =>
        constructor
        case lawful => exact each_concat.mpr ⟨h.sound.lawful, hlawful⟩
        case accounts => exact h.sound.accounts
        all_goals simp [beginUpgrade, RelayRun.emit, h.sound.upstreamOpened_iff,
          h.sound.upstreamEnded_iff, h.sound.browserEnded_iff, h.sound.released_iff, hne, hbr]
      case browserLive =>
        rcases hleg with rfl | rfl <;> simp [beginUpgrade, RelayRun.emit, browserIsLive]
      case ws => simp [beginUpgrade, RelayRun.emit, hws]
      case shuttingDown => simp [beginUpgrade, RelayRun.emit, hreleased]
      case made => exact h.made
      case stage_eq => exact h.stage_eq
      case connected => exact h.connected
      case upstreamLive => exact h.upstreamLive
    split_ifs
    · exact (htaken .opened (.inr rfl)).attachBrowser rfl
    · exact htaken .upgraded (.inl rfl)
  all_goals
    refine ⟨_, ((?_ : Settled start stage _).finish _ _).respond _⟩
    exact { h with
      sound := { h.sound with }
      browserLive := by simp [beginUpgrade, upgradeRejected, browserIsLive, hbr]
      ws := by simp [beginUpgrade, upgradeRejected, hws] }

/-! ## Every run -/

/-- The step that forgets the app's end: the function runs on with a connection it would relay, and
more messages came than there was room for, and the connection has ended. -/
def LosesEnd (r : RelayRun) (event : RelayEvent) : Prop :=
  event = .resume ∧ r.stage = .connected ∧ r.aborted = false ∧
    ¬ (r.protocol = none ∧ 0 < r.offered.length) ∧ r.earlyOverflow = true ∧
    r.earlyClose.isSome = true

/-- What is promised of the permit: it goes back at most once; from its return on no leg is live;
and once the function has ended, both legs too, and the relay is shut down or was never made, a
permit that was taken has gone back, and the pool is what it was. -/
structure PermitKept (start : SocketPool) (r : RelayRun) : Prop where
  once : r.log.count .released ≤ 1
  notLive : ∀ log, log <+: r.log → .released ∈ log → ¬ UpstreamLiveIn log ∧ ¬ BrowserLiveIn log
  given : r.stage ≠ .dialing → r.stage ≠ .connected → r.acquired = true →
    r.upstreamIsLive = false → r.browserIsLive = false →
    (r.made = true → r.relay.shuttingDown = true) → .released ∈ r.log ∧ r.pool = start

/-- A run that forgot nothing: without a relay object, or with one whose account is settled. -/
def Good (start : SocketPool) (r : RelayRun) : Prop :=
  r.Unmade start ∨ ∃ response, r.Settled start (.returned response)

theorem Good.permitKept (h : r.Good start) : r.PermitKept start := by
  have hsound : r.Sound start := h.elim (·.sound) fun ⟨_, hs⟩ => hs.sound
  refine ⟨count_released_le_one hsound.lawful,
    fun log hlog => not_live_of_released (hsound.lawful.of_prefix hlog), ?_⟩
  intro hdialing hconnected hacquired hup hbr hdown
  have hreleased : r.released = true := by
    rcases h with hun | ⟨_, hs⟩
    · exact (hun.ended hdialing hconnected).2 hacquired
    · exact hs.prompt (hdown hs.made) hup hbr
  exact ⟨hsound.released_iff.mpr hreleased, by simpa [hreleased] using hsound.accounts hacquired⟩

theorem Unmade.resume (h : r.Unmade start) (hstage : r.stage = .connected)
    (hkeeps : ¬ r.LosesEnd .resume) : (r.resume env).Good start := by
  unfold RelayRun.resume
  simp only
  split_ifs with haborted hprotocol hoverflow hlive
  · exact .inl (h.refuse_connected hstage _ _ _)
  · exact .inl (h.refuse_connected hstage _ _ _)
  · have hclose : r.earlyClose = none := by
      by_contra hsome
      exact hkeeps ⟨rfl, hstage, by simpa using haborted, by simpa using hprotocol, hoverflow,
        by simpa [Option.isSome_iff_ne_none] using hsome⟩
    refine .inr ⟨_, ((?_ : Settled start .connected _).finish _ _).respond _⟩
    have hsettled : (r.makeRelay.handOver env).Settled start .connected :=
      h.settled_handOver hstage
    rw [h.handOver_eq, hclose] at hsettled
    exact { hsettled with sound := { hsettled.sound with } }
  · exact .inr ⟨_, (h.settled_handOver hstage).respond _⟩
  · refine .inr ?_
    have hsettled : (r.makeRelay.handOver env).Settled start .connected :=
      h.settled_handOver hstage
    refine hsettled.upgrade ?_ ?_ ?_ <;> rw [h.handOver_eq]
    exacts [rfl, rfl, h.browser]

theorem Unmade.not_permitKept_of_losesEnd (h : r.Unmade start) (hloses : r.LosesEnd .resume) :
    ¬ (r.resume env).PermitKept start := by
  obtain ⟨-, hstage, haborted, hprotocol, hoverflow, hclose⟩ := hloses
  have hup : r.upstream = some .closed := h.earlyClose_iff.mp hclose
  have hnot : .released ∉ r.log := by simp [h.sound.released_iff, (h.holds (by simp [hstage])).2]
  have hresume : r.resume env =
      { r.makeRelay.stopRelay with
        stage := .returned (some ⟨503, APP_BUSY_BODY⟩) } := by
    unfold RelayRun.resume
    rw [if_neg (by simp [haborted]), if_neg (by simpa using hprotocol)]
    simp only
    rw [if_pos (show r.makeRelay.earlyOverflow = true from hoverflow)]
    simp [RelayRun.finish, RelayRun.endBrowserLeg, RelayRun.endUpstreamLeg,
      RelayRun.sendCloseUpstream, RelayRun.releaseIfBothLegsEnded, stopRelay, makeRelay,
      RelayRun.respond, hup]
  intro hkept
  rw [hresume] at hkept
  refine hnot (hkept.given nofun nofun (h.holds (by simp [hstage])).1 ?_ ?_ fun _ => rfl).1
  · simp [upstreamIsLive, stopRelay, makeRelay, hup]
  · simp [browserIsLive, stopRelay, makeRelay, h.browser]

/-- A function that throws behind its permit keeps it. -/
theorem not_permitKept_start {req : UpgradeRequest} {limits : SocketLimits} (bufferMaxBytes : ℕ)
    {pool : SocketPool} (h : req.LosesPermit limits pool) :
    ¬ (RelayRun.start req limits bufferMaxBytes pool).PermitKept pool := by
  obtain ⟨hauth, horigin, hoffered, hrunning, hpool, hname⟩ := h
  obtain ⟨taken, htaken⟩ := Option.isSome_iff_exists.1 hpool
  have hstart : RelayRun.start req limits bufferMaxBytes pool =
      { bufferMaxBytes, offered := req.offered.getD [], key := req.key, stage := .threw,
        watching := true, acquired := true, pool := taken } := by
    simp [RelayRun.start, hauth, horigin, Option.isSome_iff_ne_none.1 hoffered, hrunning, htaken,
      hname]
  rw [hstart]
  exact fun hkept => List.not_mem_nil (hkept.given nofun nofun rfl rfl rfl nofun).1

/-- An event of a run without a relay object. -/
theorem Unmade.step (h : r.Unmade start) {event : RelayEvent} (hkeeps : ¬ r.LosesEnd event) :
    (r.step env event).Good start := by
  have hlive : r.upstream = some .opened → r.upstreamIsLive = true := by
    intro hup
    simp [upstreamIsLive, hup]
  cases event with
  | dialFailed failure =>
    simp only [RelayRun.step]
    split_ifs with hstage
    · exact .inl (h.refuse (by simp [upstreamIsLive, h.dialing hstage]) _ _)
    · exact .inl h
  | dialConnected protocol =>
    simp only [RelayRun.step]
    split_ifs with hstage
    · obtain ⟨hacquired, hreleased⟩ := h.holds (by simp [hstage])
      have hup := h.dialing hstage
      have hlawful : RelayEffect.Lawful r.log .upstreamOpened :=
        fun hmem => by simp [h.sound.released_iff.mp hmem] at hreleased
      refine .inl { h with
        sound := ?_, holds := fun _ => ⟨hacquired, hreleased⟩, dialing := by simp [RelayRun.emit]
        connected := by simp [RelayRun.emit], ended := by simp [RelayRun.emit]
        earlyClose_iff := by simp [RelayRun.emit, h.earlyClose_iff, hup] }
      constructor
      case lawful => exact each_concat.mpr ⟨h.sound.lawful, hlawful⟩
      case accounts => exact h.sound.accounts
      all_goals simp [RelayRun.emit, h.sound.released_iff, h.sound.upstreamEnded_iff,
        h.sound.browserUpgraded_iff, h.sound.browserEnded_iff, hup]
    · exact .inl h
  | resume =>
    simp only [RelayRun.step]
    split_ifs with hstage
    · exact h.resume hstage hkeeps
    · exact .inl h
  | upstreamMessage message =>
    simp only [RelayRun.step]
    split_ifs
    · exact .inl (h.dialOnMessage message)
    · exact .inl h
  | upstreamClosing =>
    simp only [RelayRun.step]
    split_ifs with hup
    · exact .inl (h.upstreamCloses hup)
    · exact .inl h
  | upstreamClose event =>
    simp only [RelayRun.step]
    split_ifs with hup
    · exact .inl (h.endUpstream hup event)
    · exact .inl h
  | browserOpen | browserMessage | browserClose =>
    simp only [RelayRun.step]
    rw [if_neg (by simp [h.browser])]
    exact .inl h
  | recheck liveApp stillAllowed =>
    simp only [RelayRun.step]
    rw [if_neg (by simp [h.made])]
    exact .inl h
  | retire =>
    simp only [RelayRun.step]
    split_ifs with hw hm
    · simp [h.made] at hm
    · exact .inl { h with sound := { h.sound with } }
    · exact .inl h

/-- **Every event keeps the account of a relay object.** -/
theorem Settled.step {response : Option Refusal} (h : r.Settled start (.returned response))
    (event : RelayEvent) : (r.step env event).Settled start (.returned response) := by
  refine (step_of_made env (P := Settled start (.returned response)) h.made h.stage_eq h
    ?closing ?close ?opens ?data ?gone ?recheck ?retire event).elim ?message (·.2)
  case message =>
    rintro ⟨message, -, hstep⟩
    rw [hstep]
    exact h.onUpstreamMessage message
  case closing => exact h.upstreamCloses
  case close => exact fun hup event => settled_onUpstreamClose _ _ event (h.upstreamEnds hup)
  case opens =>
    intro hbr
    refine Settled.attachBrowser ?_ rfl
    have hlive := h.browserLive
    exact { h with
      sound := { h.sound with
        browserUpgraded_iff := by simp [h.sound.browserUpgraded_iff, hbr]
        browserEnded_iff := by simp [h.sound.browserEnded_iff, hbr] }
      browserLive := by simp [hlive, browserIsLive, hbr]
      ws := fun _ => rfl
      prompt := by simp [browserIsLive] }
  case data => exact h.browserMessage
  case gone =>
    exact fun hbr code reason =>
      settled_browserClosed code reason (h.browserEnds (by simp [browserIsLive, hbr]))
  case recheck => exact h.recheck
  case retire =>
    refine Settled.finish ?_ _ _
    exact { h with sound := { h.sound with } }

/-- A run from the start breaks the promise at the first step that forgets the app's end, and only
there.

**Proof sketch.** Induction on the events from the back. A run that forgot nothing is `Good`, so it
keeps the promise, and the next step either keeps it `Good` or forgets the app's end, and then the
permit stays taken (`Unmade.not_permitKept_of_losesEnd`). -/
theorem Unmade.run_iff (h : r.Unmade start) (events : List RelayEvent) :
    (Throughout (fun front => (r.run env front).PermitKept start) events ↔
      Each (fun front event => ¬ (r.run env front).LosesEnd event) events) ∧
    (Each (fun front event => ¬ (r.run env front).LosesEnd event) events →
      (r.run env events).Good start) := by
  induction events using List.reverseRecOn with
  | nil =>
    have hgood : (r.run env []).Good start := .inl h
    simpa using ⟨hgood.permitKept, hgood⟩
  | append_singleton events event ih =>
    obtain ⟨hiff, hgood⟩ := ih
    have hrun : r.run env (events ++ [event]) = (r.run env events).step env event := by
      simp [run]
    have hnext : Each (fun front event => ¬ (r.run env front).LosesEnd event) (events ++ [event]) →
        (r.run env (events ++ [event])).Good start := by
      intro heach
      obtain ⟨hbefore, hkeeps⟩ := each_concat.mp heach
      rw [hrun]
      rcases hgood hbefore with hun | ⟨response, hs⟩
      · exact hun.step hkeeps
      · exact .inr ⟨response, hs.step event⟩
    refine ⟨⟨fun hkept => ?_, fun heach => ?_⟩, hnext⟩
    · obtain ⟨hbefore, hlast⟩ := throughout_concat.mp hkept
      have heach := hiff.mp hbefore
      refine each_concat.mpr ⟨heach, fun hloses => ?_⟩
      rcases hgood heach with hun | ⟨response, hs⟩
      · obtain ⟨rfl, hstage, -⟩ := id hloses
        rw [hrun] at hlast
        simp only [RelayRun.step, hstage, if_true] at hlast
        exact hun.not_permitKept_of_losesEnd hloses hlast
      · simp [LosesEnd, hs.stage_eq] at hloses
    · exact throughout_concat.mpr ⟨hiff.mpr (each_concat.mp heach).1, (hnext heach).permitKept⟩

end RelayRun

/-- **The permit of a relayed socket.** In every run of `relayWsToApp`, in any order of what the
browser, the app, the timer and the retirement of the app do, the promise about the permit holds
after every event if and only if the headers for the app are built and no event of the run is the
one that forgets the app's end. -/
theorem relayPermit_iff (env : RelayEnv) (req : RelayRun.UpgradeRequest) (limits : SocketLimits)
    (bufferMaxBytes : ℕ) (pool : SocketPool) (events : List RelayEvent) :
    let r := RelayRun.start req limits bufferMaxBytes pool
    (∀ front, front <+: events → (r.run env front).PermitKept pool) ↔
      ¬ req.LosesPermit limits pool ∧
        ∀ front event rest, events = front ++ event :: rest →
          ¬ (r.run env front).LosesEnd event := by
  intro r
  by_cases hloses : req.LosesPermit limits pool
  · refine iff_of_false (fun hkept => ?_) fun h => h.1 hloses
    exact RelayRun.not_permitKept_start bufferMaxBytes hloses (hkept [] List.nil_prefix)
  · rw [and_iff_right hloses]
    exact ((RelayRun.unmade_start bufferMaxBytes hloses).run_iff events).1

/-- An app that floods the early buffer and hangs up before the dial's caller runs on. The run
refuses the upgrade, no leg is live, the relay is shut down, and the permit is not given back. -/
theorem relayPermit_leaks :
    ∃ (env : RelayEnv) (req : RelayRun.UpgradeRequest) (limits : SocketLimits)
      (bufferMaxBytes : ℕ) (pool : SocketPool) (events : List RelayEvent),
      let r := (RelayRun.start req limits bufferMaxBytes pool).run env events
      r.acquired = true ∧ r.stage = .returned (some ⟨503, APP_BUSY_BODY⟩) ∧
        r.upstreamIsLive = false ∧ r.browserIsLive = false ∧ r.relay.shuttingDown = true ∧
        .released ∉ r.log ∧ ¬ r.PermitKept pool := by
  let env : RelayEnv :=
    { upstreamSend := fun _ => (.sent, none), upstreamSendClose := fun _ => none,
      bufferedAmount := fun _ => 0, browserSend := fun _ => 1, browserClose := fun _ => false,
      upgrade := fun _ => .taken true }
  let req : RelayRun.UpgradeRequest :=
    { authenticated := true, originAllowed := true, offered := some [], notRunning := none,
      key := [], memberName := js "Ada" }
  let events : List RelayEvent :=
    [.dialConnected none, .upstreamMessage (.binary [1, 2, 3]),
      .upstreamClose { code := some 1000, reason := [], abnormal := false, detail := none },
      .resume]
  let r := (RelayRun.start req ⟨32, 64⟩ 2 ⟨fun _ => 0, 0⟩).run env events
  have hlog : .released ∉ r.log := by decide
  refine ⟨env, req, ⟨32, 64⟩, 2, ⟨fun _ => 0, 0⟩, events, rfl, rfl, rfl, rfl, rfl, hlog, ?_⟩
  exact fun hkept => hlog (hkept.given nofun nofun rfl rfl rfl fun _ => rfl).1

end Isomux
