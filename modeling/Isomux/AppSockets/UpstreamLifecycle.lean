import Isomux.AppSockets.Upstream
import Isomux.Foundations.Trace
import Mathlib.Tactic.Ring

set_option autoImplicit false

/-!
# The life of a connection to an app

In every order of calls, reads, drains, timer firings and transport failures the write queue keeps
its accounts and the connection ends once.

## Main results

* `Isomux.AppUpstream.Sound.step` — every event keeps the invariant.
* `Isomux.appUpstream_sound` — the queue, the bytes on the wire, the messages and the end in every
  run.
-/

namespace Isomux

open Trace

/-! ## What a log says -/

variable (log : List UpstreamEffect)

def acceptedBytes : Buffer :=
  log.flatMap fun
    | .wrote bytes => bytes
    | _ => []

/-- The bytes of the frames that entered the queue, in order. -/
def enqueuedBytes : Buffer :=
  log.flatMap fun
    | .enqueued frame => frame
    | _ => []

/-- Whether the effect is a call of `onClose`. -/
def UpstreamEffect.isCloseReport : UpstreamEffect → Bool
  | .onClose _ => true
  | _ => false

/-- How often `onClose` was called. -/
def closeReports : ℕ := log.countP UpstreamEffect.isCloseReport

/-- The phase never changed, so it is still the first one. -/
def StillOpen : Prop := ∀ phase, .phase phase ∉ log

def PeerClosed : Prop := ∃ code reason, .peerClose code reason ∈ log

/-- What an effect may be after the effects `before`: the socket takes the bytes that are next, a
message is delivered in the first phase only, and the end is reported once, behind the end of the
socket, as a normal one only after the peer's close frame. -/
def UpstreamEffect.Lawful (before : List UpstreamEffect) : UpstreamEffect → Prop
  | .wrote bytes => acceptedBytes before ++ bytes <+: enqueuedBytes before
  | .message _ => StillOpen before
  | .onClose event =>
    closeReports before = 0 ∧ .socketEnd ∈ before ∧ (event.abnormal = false → PeerClosed before)
  | _ => True

variable (e : UpstreamEffect)

@[simp] theorem acceptedBytes_concat :
    acceptedBytes (log ++ [e]) = acceptedBytes log ++ acceptedBytes [e] := by
  simp [acceptedBytes]

@[simp] theorem enqueuedBytes_concat :
    enqueuedBytes (log ++ [e]) = enqueuedBytes log ++ enqueuedBytes [e] := by
  simp [enqueuedBytes]

@[simp] theorem closeReports_concat :
    closeReports (log ++ [e]) = closeReports log + if e.isCloseReport then 1 else 0 := by
  simp [closeReports, List.countP_append, List.countP_singleton]

@[simp] theorem stillOpen_concat :
    StillOpen (log ++ [e]) ↔ StillOpen log ∧ ∀ phase, e ≠ .phase phase := by
  simp only [StillOpen, List.mem_append, List.mem_singleton, not_or, forall_and]
  exact and_congr_right fun _ => forall_congr' fun _ => not_congr eq_comm

theorem PeerClosed.concat {log : List UpstreamEffect} (h : PeerClosed log) (e : UpstreamEffect) :
    PeerClosed (log ++ [e]) := by
  obtain ⟨code, reason, hmem⟩ := h
  exact ⟨code, reason, List.mem_append_left _ hmem⟩

/-- In a log of lawful effects the bytes the socket took are a front part of the bytes enqueued, at
every moment. -/
theorem acceptedBytes_prefix {log : List UpstreamEffect}
    (h : Each UpstreamEffect.Lawful log) : acceptedBytes log <+: enqueuedBytes log := by
  induction log using List.reverseRecOn with
  | nil => simp [acceptedBytes]
  | append_singleton log e ih =>
    obtain ⟨hlog, he⟩ := each_concat.mp h
    have hprefix := ih hlog
    cases e with
    | wrote bytes => simpa [acceptedBytes, enqueuedBytes, UpstreamEffect.Lawful] using he
    | enqueued frame =>
      simpa [acceptedBytes, enqueuedBytes] using hprefix.trans (List.prefix_append _ frame)
    | message | phase | peerClose | socketEnd | onClose =>
      simpa [acceptedBytes, enqueuedBytes] using hprefix

namespace AppUpstream

/-! ## The invariant -/

/-- The invariant of a connection with these limits. -/
structure Sound (limits : AppUpstreamLimits) (s : AppUpstream) : Prop where
  limits_eq : s.limits = limits
  counter : s.queuedBytesValue = (s.queue.map List.length).sum
  ceiling : s.queuedBytesValue ≤ limits.queueMaxBytes
  closed_iff : s.state = .closed ↔ s.finished = true
  dropped : s.finished = true →
    s.queue = [] ∧ s.closeTimer = none ∧ s.finalizeWhenFlushed = none
  pending : s.finished = false → acceptedBytes s.log ++ s.queue.flatten = enqueuedBytes s.log
  reported : closeReports s.log = s.finished.toNat
  stillOpen : s.state = .opened → StillOpen s.log
  waiting : s.finalizeWhenFlushed.isSome → PeerClosed s.log
  timer : ∀ event, s.closeTimer = some event → event.abnormal = true
  lawful : Each UpstreamEffect.Lawful s.log

variable {limits : AppUpstreamLimits} {env : UpstreamEnv} {s : AppUpstream}

theorem sound_new (limits : AppUpstreamLimits) (leftover : Buffer) :
    (new limits leftover).Sound limits := by
  constructor <;> simp [new, acceptedBytes, enqueuedBytes, closeReports, StillOpen]

namespace Sound

theorem finished_eq_false (h : s.Sound limits) (hs : s.state ≠ .closed) : s.finished = false := by
  simpa using fun hf => hs (h.closed_iff.mpr hf)

theorem congr_decoder (h : s.Sound limits) (decoder : FrameDecoder) (leftover : Buffer) :
    Sound limits { s with decoder, leftover } := { h with }

/-- **The one exit.** An end may be reported if it is abnormal or the peer's close was decoded. -/
theorem finish (h : s.Sound limits) {event : UpstreamCloseEvent}
    (hevent : event.abnormal = true ∨ PeerClosed s.log) : (s.finish event).Sound limits := by
  unfold AppUpstream.finish
  split_ifs with hf
  · exact h
  have hf : s.finished = false := by simpa using hf
  have hreported : closeReports s.log = 0 := by simpa [hf] using h.reported
  have hpeer : event.abnormal = false → PeerClosed s.log :=
    fun h => hevent.resolve_left (by simp [h])
  constructor
  case lawful =>
    simp only [setState, emit, each_concat, UpstreamEffect.Lawful, and_true, closeReports_concat]
    refine ⟨h.lawful, by simp [hreported, UpstreamEffect.isCloseReport], by simp, fun habnormal => ?_⟩
    exact ((hpeer habnormal).concat _).concat _
  all_goals simp [setState, emit, h.limits_eq, hreported, UpstreamEffect.isCloseReport,
    -List.append_assoc]

theorem terminate (h : s.Sound limits) (detail : JsString) : (s.terminate detail).Sound limits :=
  h.finish (.inl rfl)

theorem wrote (h : s.Sound limits) (hs : s.finished = false) {bytes : Buffer}
    {queue' : List Buffer} {count : ℤ} (hbytes : s.queue.flatten = bytes ++ queue'.flatten)
    (hcount : count = (queue'.map List.length).sum) :
    Sound limits
      ({ s with queue := queue', queuedBytesValue := count }.emit (.wrote bytes)) := by
  have hle : (queue'.map List.length).sum ≤ (s.queue.map List.length).sum := by
    rw [← List.length_flatten, ← List.length_flatten, hbytes, List.length_append]
    omega
  have hpending := h.pending hs
  rw [hbytes] at hpending
  have hceiling := h.ceiling
  rw [h.counter] at hceiling
  constructor
  case lawful =>
    refine each_concat.mpr ⟨h.lawful, queue'.flatten, ?_⟩
    rw [List.append_assoc]
    exact hpending
  case pending => simpa [emit, acceptedBytes, enqueuedBytes] using fun _ => hpending
  case ceiling =>
    simp only [emit, hcount]
    omega
  case waiting => exact fun hw => (h.waiting hw).concat _
  case stillOpen => simpa [emit] using h.stillOpen
  case reported => simpa [emit, UpstreamEffect.isCloseReport] using h.reported
  case dropped => simp [emit, hs]
  case timer => exact h.timer
  all_goals simp [emit, h.limits_eq, hcount, h.closed_iff]

/-- The loop of `flush`.

**Proof sketch.** Induction on the queue. A frame that goes out whole leaves the rest of the queue,
one that goes out in part leaves its tail at the head; a write that takes nothing changes nothing. -/
theorem flushQueue (env : UpstreamEnv) (q : List Buffer) (h : s.Sound limits)
    (hs : s.finished = false) (hq : s.queue = q) :
    (AppUpstream.flushQueue env q s).Sound limits := by
  induction q generalizing s with
  | nil =>
    unfold AppUpstream.flushQueue
    split
    · exact h
    · rename_i waiting hwaiting
      have hpeer : PeerClosed s.log := h.waiting (by simp [hwaiting])
      refine finish (s := { s with finalizeWhenFlushed := none }) ?_ (.inr hpeer)
      exact { h with dropped := by simp [hs], waiting := by simp }
  | cons head rest ih =>
    have hcount : s.queuedBytesValue = (head.length + (rest.map List.length).sum : ℕ) := by
      rw [h.counter, hq, List.map_cons, List.sum_cons]
    unfold AppUpstream.flushQueue
    split
    · exact h.terminate _
    · rename_i written hwrite
      split_ifs with hall hsome
      · refine ih (h.wrote hs (by simp [hq]) ?_) hs rfl
        rw [hcount]
        push_cast
        ring
      · refine h.wrote hs (by simp [hq, ← List.append_assoc]) ?_
        simp only [hcount, List.map_cons, List.length_drop, List.sum_cons]
        omega
      · exact h.wrote hs (by simp) h.counter

theorem flush (env : UpstreamEnv) (h : s.Sound limits) : (s.flush env).Sound limits := by
  unfold AppUpstream.flush
  split_ifs with hs
  · exact h
  · exact flushQueue env s.queue h (h.finished_eq_false hs) rfl

theorem enqueue (env : UpstreamEnv) (h : s.Sound limits) (hs : s.finished = false)
    (frame : Buffer) (isControl : Bool) : (s.enqueue env frame isControl).1.Sound limits := by
  have hle : (if isControl = true then (s.limits.queueMaxBytes : ℤ)
      else s.limits.queueMaxBytes - s.limits.controlReserveBytes) ≤ limits.queueMaxBytes := by
    rw [h.limits_eq]
    split_ifs <;> omega
  unfold AppUpstream.enqueue
  simp only
  generalize (if isControl = true then (s.limits.queueMaxBytes : ℤ)
    else s.limits.queueMaxBytes - s.limits.controlReserveBytes) = ceiling at hle
  split_ifs with hfull hcontrol
  · exact h
  · exact h.terminate _
  · have hroom : s.queuedBytesValue + frame.length ≤ limits.queueMaxBytes := by omega
    refine flush env ?_
    constructor
    case lawful => exact each_concat.mpr ⟨h.lawful, trivial⟩
    case counter => simp [emit, h.counter]
    case pending =>
      intro _
      have hpending := h.pending hs
      simp only [emit, acceptedBytes_concat, enqueuedBytes_concat, List.flatten_append, ← hpending]
      simp [acceptedBytes, enqueuedBytes]
    case waiting => exact fun hw => (h.waiting hw).concat _
    case stillOpen => simpa [emit] using h.stillOpen
    case reported => simpa [emit, UpstreamEffect.isCloseReport] using h.reported
    case dropped => simp [emit, hs]
    case timer => exact h.timer
    all_goals simp [emit, h.limits_eq, hroom, h.closed_iff]

/-- The connection leaves the first phase with the close `pending`, perhaps to end when the queue
is empty. -/
theorem setClosing (h : s.Sound limits) (hs : s.state = .opened) (pending : UpstreamCloseEvent)
    {waiting : Option UpstreamCloseEvent} (hwaiting : waiting.isSome → PeerClosed s.log) :
    Sound limits { s.setState .closing with
      pendingClose := some pending, finalizeWhenFlushed := waiting } := by
  have hf := h.finished_eq_false (by simp [hs])
  constructor
  case lawful => exact each_concat.mpr ⟨h.lawful, trivial⟩
  case pending => simpa [setState, emit, acceptedBytes, enqueuedBytes] using h.pending
  case waiting => exact fun hw => (hwaiting hw).concat _
  case stillOpen => simp [setState, emit]
  case reported => simpa [setState, emit, UpstreamEffect.isCloseReport] using h.reported
  case dropped => simp [setState, emit, hf]
  case timer => exact h.timer
  case counter => exact h.counter
  case ceiling => exact h.ceiling
  all_goals simp [setState, emit, h.limits_eq, hf]

theorem armCloseTimer (h : s.Sound limits) (hs : s.finished = false)
    (event : UpstreamCloseEvent) (because : JsString) :
    (s.armCloseTimer event because).Sound limits := by
  unfold AppUpstream.armCloseTimer
  split_ifs
  · exact h
  · exact { h with
      dropped := by simp [hs]
      timer := by
        rintro event' heq
        obtain rfl := Option.some.inj heq
        rfl }

theorem sendAndArm (env : UpstreamEnv) (h : s.Sound limits) (hs : s.finished = false)
    (frame : Buffer) (event : UpstreamCloseEvent) (because : JsString) :
    Sound limits (if (s.enqueue env frame true).1.finished then (s.enqueue env frame true).1
      else (s.enqueue env frame true).1.armCloseTimer event because) := by
  have hsent := h.enqueue env hs frame true
  split_ifs with hf
  · exact hsent
  · exact hsent.armCloseTimer (by simpa using hf) event because

theorem sendClose (env : UpstreamEnv) (h : s.Sound limits) (code : Option CloseCode)
    (reason : JsString) (detail : Option JsString) :
    (s.sendClose env code reason detail).Sound limits := by
  unfold AppUpstream.sendClose
  split_ifs with hopen
  · exact h
  · have hs : s.state = .opened := by simpa [isOpen] using hopen
    have hclosing := h.setClosing hs
      { code, reason := truncateCloseReason reason, abnormal := false, detail } h.waiting
    dsimp only
    split
    · exact hclosing
    · exact hclosing.sendAndArm env (h.finished_eq_false (by simp [hs])) _ _ _

theorem onPeerClose (env : UpstreamEnv) (h : s.Sound limits) (hpeer : PeerClosed s.log)
    (code : Option CloseCode) (reason : JsString) :
    (s.onPeerClose env code reason).Sound limits := by
  unfold AppUpstream.onPeerClose
  by_cases hs : s.state = .opened
  case neg =>
    rw [if_pos hs]
    exact h.finish (.inr hpeer)
  case pos =>
    rw [if_neg (not_not.mpr hs)]
    have hwaiting : (some (UpstreamCloseEvent.mk code reason false none)).isSome = true →
        PeerClosed s.log := fun _ => hpeer
    have hclosing := h.setClosing hs { code, reason, abnormal := false, detail := none } hwaiting
    dsimp only
    split
    · exact hclosing
    · exact hclosing.sendAndArm env (h.finished_eq_false (by simp [hs])) _ _ _

theorem sendText (env : UpstreamEnv) (h : s.Sound limits) (text : JsString) :
    (s.sendText env text).1.Sound limits := by
  unfold AppUpstream.sendText
  split_ifs with hs
  · exact h
  · exact h
  · exact h.enqueue env (h.finished_eq_false (by simp [not_not.mp hs])) _ _

theorem sendBinary (env : UpstreamEnv) (h : s.Sound limits) (data : Buffer) :
    (s.sendBinary env data).1.Sound limits := by
  unfold AppUpstream.sendBinary
  split_ifs with hs
  · exact h
  · exact h
  · exact h.enqueue env (h.finished_eq_false (by simp [not_not.mp hs])) _ _

theorem call (env : UpstreamEnv) (h : s.Sound limits) (c : UpstreamCall) :
    (s.call env c).Sound limits := by
  cases c with
  | sendText text => exact h.sendText env text
  | sendBinary data => exact h.sendBinary env data
  | sendClose code reason detail => exact h.sendClose env code reason detail
  | terminate detail => exact h.terminate detail

theorem emit (h : s.Sound limits) {e : UpstreamEffect} (hlawful : e.Lawful s.log)
    (haccepted : acceptedBytes [e] = []) (henqueued : enqueuedBytes [e] = [])
    (hreport : e.isCloseReport = false) (hphase : ∀ phase, e ≠ .phase phase) :
    (s.emit e).Sound limits :=
  { h with
    pending := by simpa [AppUpstream.emit, haccepted, henqueued] using h.pending
    reported := by simpa [AppUpstream.emit, hreport] using h.reported
    stillOpen := by simpa [AppUpstream.emit, hphase] using h.stillOpen
    waiting := fun hw => (h.waiting hw).concat _
    lawful := each_concat.mpr ⟨h.lawful, hlawful⟩ }

theorem onMessage (env : UpstreamEnv) (h : s.Sound limits) (hs : s.state = .opened)
    (message : DataMessage) : (s.onMessage env message).Sound limits := by
  refine List.foldlRecOn (motive := fun s : AppUpstream => s.Sound limits) _ _ ?_
    fun s hs c _ => hs.call env c
  exact h.emit (h.stillOpen hs) rfl rfl rfl (by simp)

theorem handle (env : UpstreamEnv) (h : s.Sound limits) (message : DecodedMessage) :
    (s.handle env message).Sound limits := by
  cases message with
  | text text | binary data =>
    simp only [AppUpstream.handle]
    split_ifs with hs
    · exact h.onMessage env hs _
    · exact h
  | ping payload =>
    simp only [AppUpstream.handle]
    split_ifs with hs
    · exact h.enqueue env (h.finished_eq_false (by simp [hs.1])) _ _
    · exact h
  | pong payload => exact h
  | close code reason =>
    refine onPeerClose env
      (h.emit (e := .peerClose code reason) trivial rfl rfl rfl (by simp)) ?_ code reason
    exact ⟨code, reason, List.mem_append_right _ (List.mem_singleton_self _)⟩

theorem receive (env : UpstreamEnv) (h : s.Sound limits) (chunk : Buffer) :
    (s.receive env chunk).Sound limits := by
  unfold AppUpstream.receive
  split_ifs with hf
  · exact h
  · have hpush : (s.decoder.push chunk (deliver env) s).2.1.Sound limits :=
      FrameDecoder.push_invariant (P := fun s : AppUpstream => s.Sound limits)
        (fun s message hs => hs.handle env message) s.decoder chunk h
    split
    · rename_i decoder s' stopped heq
      rw [heq] at hpush
      exact hpush.congr_decoder decoder s'.leftover
    · rename_i decoder s' failure heq
      rw [heq] at hpush
      exact (hpush.congr_decoder decoder s'.leftover).sendClose env _ _ _

theorem begin (env : UpstreamEnv) (h : s.Sound limits) : (s.begin env).Sound limits := by
  have htaken := h.congr_decoder s.decoder []
  unfold AppUpstream.begin
  simp only
  split_ifs
  · exact htaken.receive env _
  · exact htaken

theorem transportDied (h : s.Sound limits) (cause : JsString) :
    (s.transportDied cause).Sound limits := by
  unfold AppUpstream.transportDied
  split <;> exact h.finish (.inl rfl)

theorem onCloseTimer (h : s.Sound limits) : s.onCloseTimer.Sound limits := by
  unfold AppUpstream.onCloseTimer
  split
  · exact h
  · rename_i event htimer
    exact h.finish (.inl (h.timer event htimer))

/-- **Every event keeps the invariant.** -/
theorem step (env : UpstreamEnv) (h : s.Sound limits) (event : UpstreamEvent) :
    (s.step env event).Sound limits := by
  cases event with
  | call c => exact h.call env c
  | begin => exact h.begin env
  | received chunk => exact h.receive env chunk
  | drain => exact h.flush env
  | socketClose | socketError err => exact h.transportDied _
  | closeTimer => exact h.onCloseTimer

theorem run (env : UpstreamEnv) (h : s.Sound limits) (events : List UpstreamEvent) :
    (s.run env events).Sound limits :=
  List.foldlRecOn (motive := fun s : AppUpstream => s.Sound limits) _ _ h
    fun _ hs event _ => hs.step env event

theorem step_finished (env : UpstreamEnv) (h : s.Sound limits) (hs : s.finished = true)
    (event : UpstreamEvent) : (s.step env event).finished = true := by
  have hsame := step_of_finished env hs (h.closed_iff.mpr hs) (h.dropped hs).2.1 event
  rcases hsame with heq | heq <;> rw [heq] <;> exact hs

end Sound

end AppUpstream

/-! ## Every run -/

/-- The events that end the transport, whatever the connection's phase. -/
def UpstreamEvent.endsTransport : UpstreamEvent → Bool
  | .call (.terminate _) | .socketClose | .socketError _ => true
  | _ => false

namespace AppUpstream

variable {limits : AppUpstreamLimits}

theorem step_of_endsTransport (env : UpstreamEnv) (s : AppUpstream) {event : UpstreamEvent}
    (h : event.endsTransport) : (s.step env event).finished = true := by
  unfold UpstreamEvent.endsTransport at h
  split at h
  · exact finish_finished _ _
  · simp only [step, onSocketClose, transportDied]
    split <;> exact finish_finished _ _
  · simp only [step, onSocketError, transportDied]
    split <;> exact finish_finished _ _
  · simp at h

theorem run_of_endsTransport (env : UpstreamEnv) {s : AppUpstream} (hs : s.Sound limits)
    {events : List UpstreamEvent} {event : UpstreamEvent} (hmem : event ∈ events)
    (hends : event.endsTransport) : (s.run env events).finished = true := by
  obtain ⟨before, after, rfl⟩ := List.append_of_mem hmem
  have hbefore : (s.run env before).Sound limits := hs.run env before
  have hrun : s.run env (before ++ event :: after) =
      (((s.run env before).step env event).run env after) := by simp [run]
  rw [hrun]
  refine (List.foldlRecOn (motive := fun s : AppUpstream => s.Sound limits ∧ s.finished = true)
    after _ ⟨hbefore.step env event, step_of_endsTransport env _ hends⟩ ?_).2
  exact fun s hs event _ => ⟨hs.1.step env event, hs.1.step_finished env hs.2 event⟩

end AppUpstream

/-- **The write queue and the life of a connection.** In every run of a connection, whatever the
socket takes of each write and whatever the message handler calls:

* the counter is the number of bytes in the queue and stays under the ceiling;
* at every moment the bytes the socket took are a front part of the enqueued frames;
* the end is reported once if the connection is closed and not before, and the connection is closed
  if the transport ended in one of the events;
* no message is delivered after the phase changed;
* a normal end is reported only after a close frame of the peer was decoded. -/
theorem appUpstream_sound (env : UpstreamEnv) (limits : AppUpstreamLimits) (leftover : Buffer)
    (events : List UpstreamEvent) :
    let s := (AppUpstream.new limits leftover).run env events
    (s.queuedBytesValue = (s.queue.map List.length).sum ∧
      s.queuedBytesValue ≤ limits.queueMaxBytes) ∧
    (∀ log, log <+: s.log → acceptedBytes log <+: enqueuedBytes log) ∧
    (closeReports s.log = (if s.state = .closed then 1 else 0) ∧
      (∀ event ∈ events, event.endsTransport → s.state = .closed)) ∧
    (∀ before message after, s.log = before ++ .message message :: after →
      ∀ phase, .phase phase ∉ before) ∧
    (∀ before event after, s.log = before ++ .onClose event :: after → event.abnormal = false →
      ∃ code reason, .peerClose code reason ∈ before) := by
  intro s
  have hs : s.Sound limits := (AppUpstream.sound_new limits leftover).run env events
  refine ⟨⟨hs.counter, hs.ceiling⟩, ?_, ⟨?_, ?_⟩, ?_, ?_⟩
  · exact fun log hlog => acceptedBytes_prefix (hs.lawful.of_prefix hlog)
  · rw [hs.reported]
    cases hf : s.finished <;> simp [hs.closed_iff, hf]
  · intro event hmem hends
    exact hs.closed_iff.mpr
      (AppUpstream.run_of_endsTransport env (AppUpstream.sound_new limits leftover) hmem hends)
  · exact fun before message after heq => hs.lawful before _ after heq
  · exact fun before event after heq => (hs.lawful before _ after heq).2.2

end Isomux
