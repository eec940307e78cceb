import Isomux.AppSockets.Upstream

set_option autoImplicit false

/-!
# One relayed socket (`src/server/app-ws-relay.ts`)

A browser's upgrade on an app host takes a permit from the socket pool, dials the app, and joins the
two connections in an `AppWsRelay`. The app may talk, and hang up, before that object exists.

The two transports stand here with what the relay sees of them. Of the connection to the app that
is its phase: it delivers messages in the first phase only and reports its end once
(`Isomux.appUpstream_sound`). What it does to the outside the relay reports in `log`, and the answers
of the transports and of the runtime are functions of this log.

## Main definitions

* `Isomux.SocketPool` — the counters behind the permits.
* `Isomux.AppWsRelay` — the fields of the relay object.
* `Isomux.RelayRun` — one run of `relayWsToApp` with its relay object, permit and transports, and
  the methods of the relay on it.
* `Isomux.RelayEvent`, `Isomux.RelayRun.run` — what can happen to a run, in any order.
-/

namespace Isomux

/-! ## The pool -/

structure SocketPool where
  perApp : JsString → ℕ
  totalOpen : ℤ

structure SocketLimits where
  perApp : ℕ
  total : ℕ

/-- `acquireSocketPermit(key, limits)`: the counters with the permit taken. -/
def SocketPool.acquire (pool : SocketPool) (key : JsString) (limits : SocketLimits) :
    Option SocketPool :=
  if limits.perApp ≤ pool.perApp key then none
  else if (limits.total : ℤ) ≤ pool.totalOpen then none
  else
    some {
      perApp := Function.update pool.perApp key (pool.perApp key + 1)
      totalOpen := pool.totalOpen + 1 }

/-- The body of a permit's `release()`. An app without sockets has no entry, which reads as zero. -/
def SocketPool.release (pool : SocketPool) (key : JsString) : SocketPool where
  perApp := Function.update pool.perApp key (pool.perApp key - 1)
  totalOpen := pool.totalOpen - 1

theorem SocketPool.release_of_acquire {pool taken : SocketPool} {key : JsString}
    {limits : SocketLimits} (h : pool.acquire key limits = some taken) :
    taken.release key = pool := by
  unfold acquire at h
  split_ifs at h
  obtain rfl := Option.some.inj h
  simp [release]

/-! ## Constants -/

def CLOSE_BACKPRESSURE : CloseCode := 1011

def CLOSE_TOO_LARGE : CloseCode := 1009

def CLOSE_REVOKED : CloseCode := 1008

def CLOSE_GOING_AWAY : CloseCode := 1001

structure Refusal where
  status : ℕ
  body : String
  deriving DecidableEq

def AUTH_REQUIRED_BODY : String := "authentication required\n"

def BAD_REQUEST_BODY : String := "bad request\n"

def APP_BAD_ORIGIN_BODY : String := "bad origin\n"

def APP_UNREACHABLE_BODY : String := "this app did not respond\n"

def APP_BUSY_BODY : String := "this app is busy; try again\n"

def APP_WS_PROTOCOL_MISMATCH_BODY : String :=
  "this app did not select an offered websocket protocol\n"

def APP_WS_UPGRADE_FAILED_BODY : String := "websocket upgrade failed\n"

/-! ## The relay object -/

inductive BrowserEnding where
  | close (code : CloseCode) (reason : JsString)
  | terminate
  deriving DecidableEq

/-- How both legs are ended; `none` is nothing to say to that leg. -/
structure RelayEnding where
  browser : Option BrowserEnding
  upstream : Option (CloseCode × JsString)

/-- `fault(code, reason)`: both ends hear the same. -/
def fault (code : CloseCode) (reason : String) : RelayEnding :=
  ⟨some (.close code (js reason)), some (code, js reason)⟩

/-- `goingAway(reason)`: only the app hears it. -/
def goingAway (reason : String) : RelayEnding := ⟨none, some (CLOSE_GOING_AWAY, js reason)⟩

/-- `endingFor(event)`: how an end of the app's connection reaches the browser. -/
def endingFor (event : UpstreamCloseEvent) : BrowserEnding :=
  if event.abnormal then .terminate
  else
    match event.code with
    | none => .close 1000 []
    | some code =>
      if !isTransmittableCloseCode code then .terminate
      else .close code (truncateCloseReason event.reason)

/-- `sizeOf(message)`. -/
def sizeOfMessage : DataMessage → ℕ
  | .text text => text.toUtf8.length
  | .binary data => data.length

inductive RelayState where
  | preOpen
  | awaitingOpen
  | opened
  | closed
  deriving DecidableEq

structure AppWsRelay where
  state : RelayState := .preOpen
  ws : Bool := false
  buffer : List DataMessage := []
  bufferedBytes : ℕ := 0
  recorded : Option UpstreamCloseEvent := none
  recheckTimer : Bool := false
  shuttingDown : Bool := false
  upstreamLive : Bool := true
  browserLive : Bool := false

/-! ## The run -/

inductive BrowserLeg where
  | absent
  /-- The runtime took the socket and has not called `open`. -/
  | upgraded
  | opened
  | gone
  deriving DecidableEq

/-- Where `relayWsToApp` is. -/
inductive RelayStage where
  | dialing
  /-- The dial has a connection, and the function has not run on yet. -/
  | connected
  /-- It returned; `none` is a socket that the runtime took. -/
  | returned (response : Option Refusal)
  | threw
  deriving DecidableEq

/-- What a run does to the outside, and the turns of its two legs. -/
inductive RelayEffect where
  | upstreamOpened
  /-- `upstream.sendText` or `upstream.sendBinary` is called. -/
  | upstreamSend (message : DataMessage)
  /-- `upstream.sendClose` is called on an open connection. -/
  | upstreamSendClose (code : Option CloseCode) (reason : JsString) (detail : JsString)
  | upstreamEnded
  | browserUpgraded
  | browserSend (message : DataMessage)
  | browserClose (ending : BrowserEnding)
  | browserEnded
  | released
  deriving DecidableEq

/-- What the runtime does with the socket it is asked to take. -/
inductive UpgradeOutcome where
  | threw
  | refused
  /-- It returns `true`, and calls `open` inside the call or later. -/
  | taken (openInside : Bool)
  deriving DecidableEq

/-- The answers of the transports and of the runtime. -/
structure RelayEnv where
  upstreamSend : List RelayEffect → SendOutcome × Option UpstreamCloseEvent
  upstreamSendClose : List RelayEffect → Option UpstreamCloseEvent
  bufferedAmount : List RelayEffect → ℕ
  browserSend : List RelayEffect → ℤ
  browserClose : List RelayEffect → Bool
  upgrade : List RelayEffect → UpgradeOutcome

/-- One run of `relayWsToApp`: its variables, its relay object, its permit and its transports. -/
structure RelayRun where
  bufferMaxBytes : ℕ
  offered : List JsString
  key : JsString
  stage : RelayStage
  early : List DataMessage := []
  earlyBytes : ℕ := 0
  earlyOverflow : Bool := false
  earlyClose : Option UpstreamCloseEvent := none
  aborted : Bool := false
  watching : Bool
  made : Bool := false
  relay : AppWsRelay := {}
  upstream : Option UpstreamPhase := none
  protocol : Option JsString := none
  browser : BrowserLeg := .absent
  acquired : Bool
  released : Bool := false
  pool : SocketPool
  log : List RelayEffect := []

namespace RelayRun

variable (r : RelayRun)

def emit (e : RelayEffect) : RelayRun := { r with log := r.log ++ [e] }

/-- `permit.release()`. -/
def releasePermit : RelayRun :=
  if r.released then r
  else { r with released := true, pool := r.pool.release r.key }.emit .released

/-- `releaseIfBothLegsEnded()`. -/
def releaseIfBothLegsEnded : RelayRun :=
  if !r.relay.shuttingDown then r
  else if r.relay.upstreamLive || r.relay.browserLive then r
  else r.releasePermit

/-! ## The transports

The relay's handlers run inside some of these calls, so the calls take the handler. -/

/-- The app's connection ends and calls `onClose`. -/
def endUpstream (onClose : RelayRun → UpstreamCloseEvent → RelayRun) (r : RelayRun)
    (event : UpstreamCloseEvent) : RelayRun :=
  onClose ({ r with upstream := some .closed }.emit .upstreamEnded) event

/-- `upstream.terminate(detail)`. -/
def terminateUpstream (onClose : RelayRun → UpstreamCloseEvent → RelayRun) (r : RelayRun)
    (detail : String) : RelayRun :=
  if r.upstream = some .closed then r
  else
    r.endUpstream onClose
      { code := none, reason := [], abnormal := true, detail := some (js detail) }

variable (env : RelayEnv)

/-- `upstream.sendClose(code, reason, detail)`. -/
def sendCloseUpstream (onClose : RelayRun → UpstreamCloseEvent → RelayRun)
    (r : RelayRun) (code : Option CloseCode) (reason detail : JsString) : RelayRun :=
  if r.upstream ≠ some .opened then r
  else
    let r := { r with upstream := some .closing }.emit (.upstreamSendClose code reason detail)
    match env.upstreamSendClose r.log with
    | none => r
    | some event => r.endUpstream onClose event

/-- `upstream.sendText(text)` or `upstream.sendBinary(data)`. -/
def sendUpstream (onClose : RelayRun → UpstreamCloseEvent → RelayRun)
    (r : RelayRun) (message : DataMessage) : RelayRun × SendOutcome :=
  if r.upstream ≠ some .opened then (r, .closing)
  else
    let r := r.emit (.upstreamSend message)
    match env.upstreamSend r.log with
    | (outcome, none) => (r, outcome)
    | (outcome, some event) => (r.endUpstream onClose event, outcome)

/-- `onUpstreamClose` of a relay that is shutting down. -/
def upstreamClosedInShutdown : RelayRun :=
  { r with relay.upstreamLive := false }.releaseIfBothLegsEnded

/-- `browserClosed` of a relay that is shutting down. -/
def browserClosedInShutdown : RelayRun :=
  { r with relay.browserLive := false, relay.ws := false }.releaseIfBothLegsEnded

/-- `ws.close(code, reason)` or `ws.terminate()`, which only a relay that is shutting down calls. -/
def closeBrowser (r : RelayRun) (ending : BrowserEnding) : RelayRun :=
  let r := r.emit (.browserClose ending)
  if env.browserClose r.log then
    ({ r with browser := .gone }.emit .browserEnded).browserClosedInShutdown
  else r

/-! ## The methods of the relay -/

/-- The part of `finish` that ends the browser's leg, if its socket was attached. -/
def endBrowserLeg (r : RelayRun) (ws : Bool) : Option BrowserEnding → RelayRun
  | some ending => if ws then r.closeBrowser env ending else r
  | none => r

/-- The part of `finish` that ends the app's leg. -/
def endUpstreamLeg (r : RelayRun) (detail : JsString) : Option (CloseCode × JsString) → RelayRun
  | some (code, reason) =>
    r.sendCloseUpstream env (fun r _ => r.upstreamClosedInShutdown) (some code) reason detail
  | none => r

/-- The part of `finish` that stops the relay, with its `onFinish`. -/
def stopRelay : RelayRun :=
  let relay : AppWsRelay :=
    { r.relay with
      shuttingDown := true
      state := .closed
      recheckTimer := false
      buffer := []
      bufferedBytes := 0
      recorded := none
      ws := false }
  { r with relay, watching := false }

/-- `finish(ending, detail)`: the one exit. -/
def finish (r : RelayRun) (ending : RelayEnding) (detail : JsString) : RelayRun :=
  if r.relay.shuttingDown then r
  else
    ((r.stopRelay.endBrowserLeg env r.relay.ws ending.browser).endUpstreamLeg env detail
      ending.upstream).releaseIfBothLegsEnded

/-- `sendToBrowser(message)`. -/
def sendToBrowser (r : RelayRun) (message : DataMessage) : RelayRun :=
  if !r.relay.ws then r
  else
    let size := sizeOfMessage message
    if r.bufferMaxBytes < env.bufferedAmount r.log + size then
      r.finish env (fault CLOSE_BACKPRESSURE "browser stopped reading")
        (js "browser leg is over its buffer ceiling")
    else
      let r := r.emit (.browserSend message)
      let written := env.browserSend r.log
      if 0 < size ∧ written = 0 then
        r.finish env (fault CLOSE_BACKPRESSURE "browser stopped reading")
          (js "the runtime dropped a message on the browser leg")
      else r

/-- `onUpstreamMessage(message)`. -/
def onUpstreamMessage (r : RelayRun) (message : DataMessage) : RelayRun :=
  if r.relay.shuttingDown then r
  else if r.relay.state = .opened then r.sendToBrowser env message
  else
    let size := sizeOfMessage message
    if r.bufferMaxBytes < r.relay.bufferedBytes + size then
      let limit := r.bufferMaxBytes
      r.finish env (fault CLOSE_BACKPRESSURE "app is too fast")
        (js s!"app sent more than {limit} bytes before the socket opened")
    else
      { r with
        relay.buffer := r.relay.buffer ++ [message]
        relay.bufferedBytes := r.relay.bufferedBytes + size }

/-- `onUpstreamClose(event)`. -/
def onUpstreamClose (r : RelayRun) (event : UpstreamCloseEvent) : RelayRun :=
  if r.relay.shuttingDown then r.upstreamClosedInShutdown
  else
    let r := { r with relay.upstreamLive := false }
    if r.relay.state ≠ .opened then { r with relay.recorded := some event }
    else
      r.finish env ⟨some (endingFor event), none⟩
        (event.detail.getD (js "the app closed the socket"))

/-- `armRecheck()`. -/
def armRecheck : RelayRun := { r with relay.recheckTimer := true }

/-- The part of `attachBrowser` behind the loop. -/
def afterFlush (r : RelayRun) : RelayRun :=
  match r.relay.recorded with
  | some event =>
    { r with relay.recorded := none }.finish env ⟨some (endingFor event), none⟩
      (event.detail.getD (js "the app closed the socket"))
  | none => r.armRecheck

/-- The loop of `attachBrowser`, which returns as soon as the relay shuts down, and what comes
behind it. -/
def flushPending (env : RelayEnv) : List DataMessage → RelayRun → RelayRun
  | [], r => r.afterFlush env
  | message :: pending, r =>
    if r.relay.shuttingDown then r else flushPending env pending (r.sendToBrowser env message)

/-- `attachBrowser(ws)`. -/
def attachBrowser (r : RelayRun) : RelayRun :=
  if r.relay.shuttingDown then r.closeBrowser env (.close CLOSE_GOING_AWAY (js "app closed"))
  else
    let pending := r.relay.buffer
    flushPending env pending
      { r with
        relay.ws := true
        relay.state := .opened
        relay.browserLive := true
        relay.buffer := []
        relay.bufferedBytes := 0 }

/-- `browserMessage(data)`. -/
def browserMessage (r : RelayRun) (data : DataMessage) : RelayRun :=
  if r.relay.shuttingDown ∨ r.relay.state ≠ .opened then r
  else
    match r.sendUpstream env (onUpstreamClose env) data with
    | (r, .queueFull) =>
      r.finish env (fault CLOSE_BACKPRESSURE "app stopped reading")
        (js "upstream write queue is full")
    | (r, .tooLarge) =>
      r.finish env (fault CLOSE_TOO_LARGE "message too large")
        (js "browser sent a message over the relay's message cap")
    | (r, _) => r

/-- How `browserClosed` tells the app. -/
def tellUpstream (r : RelayRun) (code : CloseCode) (reason : JsString) : RelayRun :=
  if code = 1006 then r.terminateUpstream (onUpstreamClose env) "browser socket dropped"
  else if code = 1005 then
    r.sendCloseUpstream env (onUpstreamClose env) none [] (js "browser closed without a status")
  else
    r.sendCloseUpstream env (onUpstreamClose env) (some code) reason
      (js "browser closed the socket")

/-- `browserClosed(code, reason)`. -/
def browserClosed (r : RelayRun) (code : CloseCode) (reason : JsString) : RelayRun :=
  if r.relay.shuttingDown then r.browserClosedInShutdown
  else
    ({ r with relay.browserLive := false, relay.ws := false }.tellUpstream env code reason).finish
      env ⟨none, none⟩ (js s!"browser closed ({code})")

/-- `beginUpgrade()`. -/
def beginUpgrade : RelayRun :=
  { r with
    relay.browserLive := true
    relay.state := if r.relay.state = .preOpen then .awaitingOpen else r.relay.state }

/-- `upgradeRejected()`. -/
def upgradeRejected : RelayRun := { r with relay.browserLive := false }

/-- `isLive()`. -/
def isLive : Bool := !r.relay.shuttingDown && r.relay.state == .preOpen

/-- `recheck()`, by what the registry and the session say at that time. -/
def recheck (r : RelayRun) (liveApp stillAllowed : Bool) : RelayRun :=
  if r.relay.shuttingDown ∨ (liveApp ∧ stillAllowed) then r
  else
    r.finish env (fault CLOSE_REVOKED "session ended")
      (js (if liveApp then "app session is no longer valid" else "app is gone"))

/-! ## The function -/

/-- `onMessage` of the dial. -/
def dialOnMessage (r : RelayRun) (message : DataMessage) : RelayRun :=
  if r.made then r.onUpstreamMessage env message
  else
    let size := sizeOfMessage message
    if r.earlyOverflow ∨ r.bufferMaxBytes < r.earlyBytes + size then { r with earlyOverflow := true }
    else { r with early := r.early ++ [message], earlyBytes := r.earlyBytes + size }

/-- `onClose` of the dial. -/
def dialOnClose (r : RelayRun) (event : UpstreamCloseEvent) : RelayRun :=
  if r.made then r.onUpstreamClose env event else { r with earlyClose := some event }

/-- `return response`. -/
def respond (response : Option Refusal) : RelayRun :=
  { r with stage := .returned response }

/-- Giving up before there is a relay object. -/
def refuse (status : ℕ) (body : String) : RelayRun :=
  { r.releasePermit with watching := false }.respond (some ⟨status, body⟩)

/-- Why a dial fails, as far as the answer depends on it. -/
inductive DialFailure where
  /-- The app chose a subprotocol that was not offered. -/
  | handshakeProtocol
  | other
  deriving DecidableEq

/-- The function runs on with a failed dial. -/
def resumeFailed (failure : DialFailure) : RelayRun :=
  r.refuse 502
    (if failure = .handshakeProtocol then APP_WS_PROTOCOL_MISMATCH_BODY else APP_UNREACHABLE_BODY)

/-- The runtime is asked to take the socket. A runtime that takes it owns a browser leg from then
on; one that refuses has none. -/
def upgrade (env : RelayEnv) (r : RelayRun) : RelayRun :=
  let r := r.beginUpgrade
  let failed := fun detail : String =>
    (r.upgradeRejected.finish env (goingAway "office closed the socket") (js detail)).respond
      (some ⟨500, APP_WS_UPGRADE_FAILED_BODY⟩)
  match env.upgrade r.log with
  | .threw => failed "the runtime threw on upgrade"
  | .refused => failed "the runtime refused the upgrade"
  | .taken openInside =>
    let r := { r with browser := .upgraded }.emit .browserUpgraded
    (if openInside then { r with browser := .opened }.attachBrowser env else r).respond none

/-- `new AppWsRelay(...)`. -/
def makeRelay : RelayRun := { r with made := true, relay := {} }

/-- The early messages and the early end are handed to the new relay object. -/
def handOver (r : RelayRun) : RelayRun :=
  let r := r.early.foldl (onUpstreamMessage env) r
  match r.earlyClose with
  | some event => r.onUpstreamClose env event
  | none => r

/-- The function runs on with a connection: everything up to its end is one synchronous block. -/
def resume (r : RelayRun) : RelayRun :=
  if r.aborted then
    (r.terminateUpstream (dialOnClose env) "app registration retired").refuse 502
      APP_UNREACHABLE_BODY
  else if r.protocol.isNone ∧ 0 < r.offered.length then
    (r.terminateUpstream (dialOnClose env) "no subprotocol agreed").refuse 502
      APP_WS_PROTOCOL_MISMATCH_BODY
  else
    let r := r.makeRelay
    if r.earlyOverflow then
      (r.finish env ⟨none, some (CLOSE_BACKPRESSURE, js "app is too fast")⟩
        (js "the app sent more than the buffer ceiling before the upgrade")).respond
        (some ⟨503, APP_BUSY_BODY⟩)
    else
      let r := r.handOver env
      if !r.isLive then r.respond (some ⟨502, APP_UNREACHABLE_BODY⟩) else r.upgrade env

/-- What the checks in front of the permit found. -/
structure UpgradeRequest where
  authenticated : Bool
  originAllowed : Bool
  offered : Option (List JsString)
  notRunning : Option Refusal
  key : JsString
  memberName : JsString

/-- `relayWsToApp(req, ctx)` up to the dial. -/
def start (req : UpgradeRequest) (limits : SocketLimits) (bufferMaxBytes : ℕ) (pool : SocketPool) :
    RelayRun :=
  let offered := req.offered.getD []
  let refused := fun refusal : Refusal =>
    ({ bufferMaxBytes, offered, key := req.key, stage := .returned (some refusal),
       watching := false, acquired := false, pool } : RelayRun)
  if !req.authenticated then refused ⟨401, AUTH_REQUIRED_BODY⟩
  else if !req.originAllowed then refused ⟨403, APP_BAD_ORIGIN_BODY⟩
  else if req.offered.isNone then refused ⟨400, BAD_REQUEST_BODY⟩
  else
    match req.notRunning, pool.acquire req.key limits with
    | some refusal, _ => refused refusal
    | none, none => refused ⟨429, APP_BUSY_BODY⟩
    | none, some taken =>
      { bufferMaxBytes, offered, key := req.key, watching := true, acquired := true, pool := taken,
        -- `buildUpstreamHeaders` encodes the name, outside of any `try`
        stage := if (encodeURIComponent req.memberName).isSome then .dialing else .threw }

end RelayRun

/-! ## Runs -/

inductive RelayEvent where
  | dialFailed (failure : RelayRun.DialFailure)
  /-- The dial has a connection, with the subprotocol the app selected. -/
  | dialConnected (protocol : Option JsString)
  | resume
  | upstreamMessage (message : DataMessage)
  /-- The app's connection begins its closing handshake. -/
  | upstreamClosing
  | upstreamClose (event : UpstreamCloseEvent)
  | browserOpen
  | browserMessage (data : DataMessage)
  | browserClose (code : CloseCode) (reason : JsString)
  /-- The session and the app are looked at again, by the timer or on a change. -/
  | recheck (liveApp stillAllowed : Bool)
  | retire

namespace RelayRun

def upstreamIsLive (r : RelayRun) : Bool :=
  r.upstream = some .opened || r.upstream = some .closing

def browserIsLive (r : RelayRun) : Bool := r.browser = .upgraded || r.browser = .opened

def step (env : RelayEnv) (r : RelayRun) : RelayEvent → RelayRun
  | .dialFailed failure => if r.stage = .dialing then r.resumeFailed failure else r
  | .dialConnected protocol =>
    if r.stage = .dialing then
      { r with stage := .connected, upstream := some .opened, protocol }.emit .upstreamOpened
    else r
  | .resume => if r.stage = .connected then r.resume env else r
  | .upstreamMessage message =>
    if r.upstream = some .opened then r.dialOnMessage env message else r
  | .upstreamClosing =>
    if r.upstream = some .opened then { r with upstream := some .closing } else r
  | .upstreamClose event =>
    if r.upstreamIsLive then r.endUpstream (dialOnClose env) event else r
  | .browserOpen =>
    if r.browser = .upgraded then { r with browser := .opened }.attachBrowser env else r
  | .browserMessage data => if r.browser = .opened then r.browserMessage env data else r
  | .browserClose code reason =>
    if r.browser = .opened then
      ({ r with browser := .gone }.emit .browserEnded).browserClosed env code reason
    else r
  | .recheck liveApp stillAllowed =>
    if r.made then r.recheck env liveApp stillAllowed else r
  | .retire =>
    if r.watching then
      let r := { r with aborted := true }
      if r.made then
        r.finish env (fault CLOSE_REVOKED "app registration retired")
          (js "app registration retired")
      else r
    else r

/-- The message of an event, where the app's connection delivers it. -/
def taken (r : RelayRun) : RelayEvent → List DataMessage
  | .upstreamMessage message => if r.upstream = some .opened then [message] else []
  | _ => []

/-- **What an event makes of a run that has a relay object**: it delivers a message of the app, or
calls another method. -/
theorem step_of_made (env : RelayEnv) {r : RelayRun} {response : Option Refusal}
    {P : RelayRun → Prop} (hmade : r.made = true) (hstage : r.stage = .returned response)
    (hsame : P r) (hclosing : r.upstream = some .opened → P { r with upstream := some .closing })
    (hclose : r.upstreamIsLive → ∀ event,
      P (({ r with upstream := some .closed }.emit .upstreamEnded).onUpstreamClose env event))
    (hopen : r.browser = .upgraded → P ({ r with browser := .opened }.attachBrowser env))
    (hdata : ∀ data, P (r.browserMessage env data))
    (hgone : r.browser = .opened → ∀ code reason,
      P (({ r with browser := .gone }.emit .browserEnded).browserClosed env code reason))
    (hrecheck : ∀ liveApp stillAllowed, P (r.recheck env liveApp stillAllowed))
    (hretire : P ({ r with aborted := true }.finish env
      (fault CLOSE_REVOKED "app registration retired") (js "app registration retired")))
    (event : RelayEvent) :
    (∃ message, r.taken event = [message] ∧
      r.step env event = r.onUpstreamMessage env message) ∨
    r.taken event = [] ∧ P (r.step env event) := by
  cases event with
  | dialFailed | dialConnected | resume => exact .inr ⟨rfl, by simpa [step, hstage] using hsame⟩
  | upstreamMessage message =>
    by_cases hup : r.upstream = some .opened
    · exact .inl ⟨message, if_pos hup, by simp [step, hup, dialOnMessage, hmade]⟩
    · exact .inr ⟨if_neg hup, by simpa [step, hup] using hsame⟩
  | upstreamClosing =>
    simp only [step]
    split_ifs with hup
    · exact .inr ⟨rfl, hclosing hup⟩
    · exact .inr ⟨rfl, hsame⟩
  | upstreamClose event =>
    simp only [step]
    split_ifs with hup
    · rw [endUpstream, dialOnClose, if_pos (by exact hmade)]
      exact .inr ⟨rfl, hclose hup event⟩
    · exact .inr ⟨rfl, hsame⟩
  | browserOpen =>
    simp only [step]
    split_ifs with hbr
    · exact .inr ⟨rfl, hopen hbr⟩
    · exact .inr ⟨rfl, hsame⟩
  | browserMessage data =>
    simp only [step]
    split_ifs
    · exact .inr ⟨rfl, hdata data⟩
    · exact .inr ⟨rfl, hsame⟩
  | browserClose code reason =>
    simp only [step]
    split_ifs with hbr
    · exact .inr ⟨rfl, hgone hbr code reason⟩
    · exact .inr ⟨rfl, hsame⟩
  | recheck liveApp stillAllowed =>
    simp only [step, if_pos hmade]
    exact .inr ⟨rfl, hrecheck liveApp stillAllowed⟩
  | retire =>
    simp only [step]
    split_ifs
    · exact .inr ⟨rfl, hretire⟩
    · exact .inr ⟨rfl, hsame⟩

def run (env : RelayEnv) (r : RelayRun) (events : List RelayEvent) : RelayRun :=
  events.foldl (step env) r

end RelayRun

end Isomux
