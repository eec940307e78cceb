import Isomux.AppSockets.Frames

set_option autoImplicit false

/-!
# The connection to an app (`AppUpstream` of `src/server/app-ws-upstream.ts`)

One live connection: a write queue in front of a socket that takes what it likes, the decoder of the
app's frames, the closing handshake with its timer, and the one exit `finish`.

Everything the connection does to the outside is reported in `log`, which the source does not have:
the frames that enter the queue, the bytes the socket took, the calls of the two handlers, the
changes of the phase. The socket and the handlers are functions of this log, so they may behave in
any way from call to call.

## Main results

* `Isomux.AppUpstream.step_of_finished` — a finished connection ignores everything. This is why the
  calls that come back into the connection from `socket.end` and from `onClose` are no part of
  `finish` here.
-/

namespace Isomux

/-! ## The outside -/

/-- The limits a live connection works with. -/
structure AppUpstreamLimits where
  maxMessageBytes : ℕ
  queueMaxBytes : ℕ
  controlReserveBytes : ℕ
  deriving DecidableEq

inductive SendOutcome where
  | sent
  | queueFull
  | tooLarge
  | closing
  deriving DecidableEq

structure UpstreamCloseEvent where
  code : Option CloseCode
  reason : JsString
  abnormal : Bool
  detail : Option JsString
  deriving DecidableEq

inductive DataMessage where
  | text (text : JsString)
  | binary (data : Buffer)
  deriving DecidableEq

inductive UpstreamPhase where
  | opened
  | closing
  | closed
  deriving DecidableEq

/-- What a connection does to the outside, and the turns of its own life. -/
inductive UpstreamEffect where
  | enqueued (frame : Buffer)
  /-- A call of `socket.write` took these bytes. -/
  | wrote (bytes : Buffer)
  | message (message : DataMessage)
  | phase (next : UpstreamPhase)
  | peerClose (code : Option CloseCode) (reason : JsString)
  | socketEnd
  | onClose (event : UpstreamCloseEvent)
  deriving DecidableEq

/-- The methods a user of the connection may call. -/
inductive UpstreamCall where
  | sendText (text : JsString)
  | sendBinary (data : Buffer)
  | sendClose (code : Option CloseCode) (reason : JsString) (detail : Option JsString)
  | terminate (detail : JsString)

/-- What a call of `socket.write` does. -/
inductive WriteResult where
  | threw (err : JsString)
  /-- It returns a count, which no type keeps between `0` and the length. -/
  | returned (written : ℤ)

/-- What is outside the connection: the masking keys, the socket, and what the message handler calls
on the connection before it returns. -/
structure UpstreamEnv where
  mask : List UpstreamEffect → Mask
  write : List UpstreamEffect → Buffer → WriteResult
  onMessage : List UpstreamEffect → DataMessage → List UpstreamCall

/-- `withCause(existing, cause)`. -/
def withCause (existing : Option JsString) (cause : JsString) : JsString :=
  match existing with
  | none => cause
  | some existing => existing ++ js "; " ++ cause

/-! ## The connection -/

structure AppUpstream where
  limits : AppUpstreamLimits
  decoder : FrameDecoder
  queue : List Buffer
  queuedBytesValue : ℤ
  state : UpstreamPhase
  closeTimer : Option UpstreamCloseEvent
  finished : Bool
  pendingClose : Option UpstreamCloseEvent
  leftover : Buffer
  finalizeWhenFlushed : Option UpstreamCloseEvent
  log : List UpstreamEffect

namespace AppUpstream

/-- `new AppUpstream(init)`. -/
def new (limits : AppUpstreamLimits) (leftover : Buffer) : AppUpstream where
  limits := limits
  decoder := { maxMessageBytes := limits.maxMessageBytes }
  queue := []
  queuedBytesValue := 0
  state := .opened
  closeTimer := none
  finished := false
  pendingClose := none
  leftover := leftover
  finalizeWhenFlushed := none
  log := []

variable (s : AppUpstream)

def emit (e : UpstreamEffect) : AppUpstream := { s with log := s.log ++ [e] }

/-- `this.state = phase`. -/
def setState (phase : UpstreamPhase) : AppUpstream :=
  { s with state := phase }.emit (.phase phase)

/-- `queuedBytes()`. -/
def queuedBytes : ℤ := s.queuedBytesValue

/-- `heldBytes()`: the write queue and what the decoder holds. -/
def heldBytes : ℤ := s.queuedBytesValue + s.decoder.pendingBytes

/-- `isOpen()`. -/
def isOpen : Bool := s.state == .opened

/-- `finish(event)`: the one exit. -/
def finish (event : UpstreamCloseEvent) : AppUpstream :=
  if s.finished then s
  else
    let s := { s with finished := true }.setState .closed
    let s := { s with closeTimer := none, finalizeWhenFlushed := none, queue := [],
                      queuedBytesValue := 0 }
    (s.emit .socketEnd).emit (.onClose event)

/-- `terminate(detail)`: end the transport without a close frame. -/
def terminate (detail : JsString) : AppUpstream :=
  s.finish { code := none, reason := [], abnormal := true, detail := some detail }

/-- The loop of `flush` on the queue `q`, and what it does when the queue is empty. -/
def flushQueue (env : UpstreamEnv) : List Buffer → AppUpstream → AppUpstream
  | [], s =>
    match s.finalizeWhenFlushed with
    | none => s
    | some waiting => { s with finalizeWhenFlushed := none }.finish waiting
  | head :: rest, s =>
    match env.write s.log head with
    | .threw err => s.terminate (js "socket write failed: " ++ err.take 120)
    | .returned written =>
      if head.length ≤ written then
        let s := { s with queue := rest, queuedBytesValue := s.queuedBytesValue - head.length }
        flushQueue env rest (s.emit (.wrote head))
      else if 0 < written then
        let s := { s with queue := head.drop written.toNat :: rest,
                          queuedBytesValue := s.queuedBytesValue - written }
        s.emit (.wrote (head.take written.toNat))
      else s.emit (.wrote [])

variable (env : UpstreamEnv)

/-- `flush()`: write as much as the socket will take. -/
def flush (s : AppUpstream) : AppUpstream :=
  if s.state = .closed then s else flushQueue env s.queue s

/-- `enqueue(frame, isControl)`. -/
def enqueue (s : AppUpstream) (frame : Buffer) (isControl : Bool) : AppUpstream × SendOutcome :=
  let ceiling : ℤ :=
    if isControl then s.limits.queueMaxBytes
    else s.limits.queueMaxBytes - s.limits.controlReserveBytes
  if ceiling < s.queuedBytesValue + frame.length then
    if !isControl then (s, .queueFull)
    else (s.terminate (js "control frame over the queue ceiling"), .queueFull)
  else
    let s := { s with queue := s.queue ++ [frame],
                      queuedBytesValue := s.queuedBytesValue + frame.length }
    ((s.emit (.enqueued frame)).flush env, .sent)

/-- `sendText(text)`. -/
def sendText (s : AppUpstream) (text : JsString) : AppUpstream × SendOutcome :=
  if s.state ≠ .opened then (s, .closing)
  else if s.limits.maxMessageBytes < text.toUtf8.length then (s, .tooLarge)
  else s.enqueue env (encodeTextFrame (env.mask s.log) text) false

/-- `sendBinary(data)`. -/
def sendBinary (s : AppUpstream) (data : Buffer) : AppUpstream × SendOutcome :=
  if s.state ≠ .opened then (s, .closing)
  else if s.limits.maxMessageBytes < data.length then (s, .tooLarge)
  else s.enqueue env (encodeBinaryFrame (env.mask s.log) data) false

/-- `armCloseTimer(event, because)`. -/
def armCloseTimer (event : UpstreamCloseEvent) (because : JsString) : AppUpstream :=
  if s.closeTimer.isSome then s
  else
    let detail := some (because ++ js "; close handshake timed out")
    { s with closeTimer := some { event with abnormal := true, detail := detail } }

/-- `sendClose(code, reason, detail)`: begin the closing handshake. -/
def sendClose (s : AppUpstream) (code : Option CloseCode) (reason : JsString)
    (detail : Option JsString) : AppUpstream :=
  if !s.isOpen then s
  else
    let event : UpstreamCloseEvent :=
      { code, reason := truncateCloseReason reason, abnormal := false, detail }
    let s := { s.setState .closing with pendingClose := some event }
    let mask := env.mask s.log
    let frame :=
      match code with
      | some c =>
        if isTransmittableCloseCode c then encodeCloseFrame mask (some c) reason
        else encodeCloseFrame mask none []
      | none => encodeCloseFrame mask none []
    match frame with
    | none => s
    | some frame =>
      let s := (s.enqueue env frame true).1
      if s.finished then s else s.armCloseTimer event (detail.getD (js "closing"))

/-- `onPeerClose(code, reason)`. -/
def onPeerClose (s : AppUpstream) (code : Option CloseCode) (reason : JsString) : AppUpstream :=
  let event : UpstreamCloseEvent := { code, reason, abnormal := false, detail := none }
  if s.state ≠ .opened then s.finish (s.pendingClose.getD event)
  else
    let s := { s.setState .closing with pendingClose := some event,
                                        finalizeWhenFlushed := some event }
    let mask := env.mask s.log
    let frame :=
      match code with
      | none => encodeCloseFrame mask none []
      | some c => encodeCloseFrame mask (some c) reason
    match frame with
    | none => s
    | some frame =>
      let s := (s.enqueue env frame true).1
      if s.finished then s else s.armCloseTimer event (js "echoing the app's close")

def call (s : AppUpstream) : UpstreamCall → AppUpstream
  | .sendText text => (s.sendText env text).1
  | .sendBinary data => (s.sendBinary env data).1
  | .sendClose code reason detail => s.sendClose env code reason detail
  | .terminate detail => s.terminate detail

/-- `handlers.onMessage(message)`: the handler may call the connection. -/
def onMessage (env : UpstreamEnv) (s : AppUpstream) (message : DataMessage) : AppUpstream :=
  (env.onMessage s.log message).foldl (call env) (s.emit (.message message))

/-- `handle(message)`. -/
def handle (s : AppUpstream) : DecodedMessage → AppUpstream
  | .text text => if s.state = .opened then s.onMessage env (.text text) else s
  | .binary data => if s.state = .opened then s.onMessage env (.binary data) else s
  | .ping payload =>
    if s.state = .opened ∧ payload.length ≤ MAX_CONTROL_PAYLOAD_BYTES then
      (s.enqueue env (encodePongFrame (env.mask s.log) payload) true).1
    else s
  | .pong _ => s
  | .close code reason => (s.emit (.peerClose code reason)).onPeerClose env code reason

/-- What `receive` passes to the decoder. -/
def deliver (s : AppUpstream) (message : DecodedMessage) : AppUpstream × DeliverVerdict :=
  let s := s.handle env message
  (s, if s.finished then .stop else .continue)

/-- `receive(chunk)`. -/
def receive (s : AppUpstream) (chunk : Buffer) : AppUpstream :=
  if s.finished then s
  else
    match s.decoder.push chunk (deliver env) s with
    | (decoder, s, .ok _) => { s with decoder }
    | (decoder, s, .failed failure) =>
      { s with decoder }.sendClose env (some failure.code) []
        (some (js "protocol error: " ++ failure.detail))

/-- `begin()`: the bytes that came with the handshake. -/
def begin (s : AppUpstream) : AppUpstream :=
  let bytes := s.leftover
  let s := { s with leftover := [] }
  if 0 < bytes.length then s.receive env bytes else s

/-- `transportDied(cause)`. -/
def transportDied (cause : JsString) : AppUpstream :=
  match s.pendingClose with
  | some ours =>
    s.finish { ours with
      abnormal := true
      detail := some (withCause ours.detail
        (cause ++ js " before the close handshake completed")) }
  | none =>
    s.finish { code := none, reason := [], abnormal := true,
               detail := some (cause ++ js " without a close frame") }

/-- `onSocketClose()`. -/
def onSocketClose : AppUpstream := s.transportDied (js "socket closed")

/-- `onSocketError(err)`. -/
def onSocketError (err : JsString) : AppUpstream :=
  s.transportDied (js "socket error: " ++ err.take 120)

def onCloseTimer : AppUpstream :=
  match s.closeTimer with
  | none => s
  | some event => s.finish event

end AppUpstream

/-! ## Runs -/

inductive UpstreamEvent where
  | call (call : UpstreamCall)
  | begin
  | received (chunk : Buffer)
  | drain
  | socketClose
  | socketError (err : JsString)
  | closeTimer

namespace AppUpstream

variable (env : UpstreamEnv)

def step (s : AppUpstream) : UpstreamEvent → AppUpstream
  | .call c => s.call env c
  | .begin => s.begin env
  | .received chunk => s.receive env chunk
  | .drain => s.flush env
  | .socketClose => s.onSocketClose
  | .socketError err => s.onSocketError err
  | .closeTimer => s.onCloseTimer

def run (s : AppUpstream) (events : List UpstreamEvent) : AppUpstream :=
  events.foldl (step env) s

@[simp] theorem finish_finished (s : AppUpstream) (event : UpstreamCloseEvent) :
    (s.finish event).finished = true := by
  unfold finish
  split_ifs with h
  · exact h
  · rfl

theorem finish_of_finished {s : AppUpstream} (h : s.finished = true) (event : UpstreamCloseEvent) :
    s.finish event = s := if_pos h

/-- **A finished connection ignores everything** but the call that takes the leftover bytes. -/
theorem step_of_finished {s : AppUpstream} (hs : s.finished = true)
    (hstate : s.state = .closed) (htimer : s.closeTimer = none) (event : UpstreamEvent) :
    s.step env event = s ∨ s.step env event = { s with leftover := [] } := by
  cases event with
  | call c =>
    left
    cases c <;>
      simp [step, call, sendText, sendBinary, sendClose, terminate, isOpen, hstate,
        finish_of_finished hs]
  | begin =>
    right
    simp only [step, begin]
    split_ifs
    · exact if_pos hs
    · rfl
  | received chunk => exact .inl (if_pos hs)
  | drain => exact .inl (if_pos hstate)
  | socketClose =>
    left
    simp only [step, onSocketClose, transportDied]
    split <;> exact finish_of_finished hs _
  | socketError err =>
    left
    simp only [step, onSocketError, transportDied]
    split <;> exact finish_of_finished hs _
  | closeTimer =>
    left
    simp [step, onCloseTimer, htimer]

end AppUpstream

end Isomux
