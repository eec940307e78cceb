import Isomux.AgentRunner.Client
import Isomux.Foundations.Machine

set_option autoImplicit false

/-!
# A runner connection

The office and the runner on the two ends of a socket, and the stdin of the process that the runner
started. Bytes arrive in chunks of any size. The runner writes the input to the pipe until the pipe
has no room, goes on when it drains, and acknowledges what is in the pipe.

Two parts are parameters: whether the request starts a process, and whether the pipe has room behind
a write. A write into a pipe that was ended or destroyed fails and has no room, and such a pipe
drains no more.

## Main definitions

* `Isomux.AgentRunner.RunnerConnection` — the runner's state of a connection.
* `Isomux.AgentRunner.ChildStdin` — the pipe, with the chunks that it took and those it did not.
* `Isomux.AgentRunner.Connection` — both ends and the bytes between them.
* `Isomux.AgentRunner.Connection.step` — the connection behind an event.
-/

namespace Isomux.AgentRunner

/-! ## The pipe -/

structure ChildStdin where
  written : List Buffer
  unconfirmed : List Buffer
  failed : List Buffer
  refused : List Buffer
  ended : Bool
  destroyed : Bool

def ChildStdin.writable (stdin : ChildStdin) : Bool := !stdin.ended && !stdin.destroyed

/-- `stdin.write(chunk)`, and whether it has room. -/
def ChildStdin.write (room : ℕ → Bool) (stdin : ChildStdin) (chunk : Buffer) : ChildStdin × Bool :=
  if stdin.writable then
    ({ stdin with
        written := stdin.written ++ [chunk]
        unconfirmed := stdin.unconfirmed ++ [chunk] }, room stdin.written.length)
  else ({ stdin with refused := stdin.refused ++ [chunk] }, false)

/-- A write failed: those under way fail with it, and the stream is gone. -/
def ChildStdin.fail (stdin : ChildStdin) : ChildStdin :=
  { stdin with
    failed := stdin.failed ++ stdin.unconfirmed
    unconfirmed := []
    destroyed := true }

/-- The loop of `pumpStdin`: the queue behind it, and whether it stopped for the lack of room. -/
def writeQueue (room : ℕ → Bool) : ChildStdin → List Buffer → ChildStdin × List Buffer × Bool
  | stdin, [] => (stdin, [], false)
  | stdin, chunk :: queue =>
    if (stdin.write room chunk).2 then writeQueue room (stdin.write room chunk).1 queue
    else ((stdin.write room chunk).1, queue, true)

/-! ## The runner -/

/-- `Connection` of the runner. -/
structure RunnerConnection where
  pending : Buffer
  queued : List Buffer
  ended : Bool
  started : Bool
  stdinQueue : List Buffer
  stdinBlocked : Bool
  stdinEnd : Bool
  child : Bool

/-- `send`, without the flush: what the socket takes is an event of its own. -/
def RunnerConnection.send (runner : RunnerConnection) (frames : List Buffer) : RunnerConnection :=
  if runner.ended then runner else { runner with queued := runner.queued ++ frames }

/-- `flush` into a socket that takes a number of bytes: what it took, and what stays queued. -/
def flushQueue : ℕ → List Buffer → Buffer × List Buffer
  | _, [] => ([], [])
  | room, head :: queued =>
    if min room head.length = 0 then ([], head :: queued)
    else if min room head.length < head.length then
      (head.take (min room head.length), head.drop (min room head.length) :: queued)
    else
      let r := flushQueue (room - head.length) queued
      (head ++ r.1, r.2)

/-! ## The connection -/

/-- Both ends of a connection and what is between them. -/
structure Connection where
  office : RunnerStream
  runner : RunnerConnection
  stdin : ChildStdin
  toOffice : Buffer
  input : Buffer
  inputAtEnd : Option Buffer

inductive ConnectionEvent where
  | write (data : Buffer)
  | control (message : ClientControl)
  /-- A chunk of some bytes arrives at the runner. -/
  | toRunner (bytes : ℕ)
  /-- A chunk of some bytes arrives at the office. -/
  | toOffice (bytes : ℕ)
  /-- The oldest write under way is in the pipe. -/
  | written
  | failed
  | drain
  | output (type : FrameType) (data : Buffer)
  | spawned (pid : ℕ)
  | flush (bytes : ℕ)
  | exit

namespace Connection

variable (accepts : Buffer → Bool) (room : ℕ → Bool)

/-- A connection whose request was just written. -/
def start (request : Buffer) : Connection where
  office := .start (Frame.mk .json request).bytes
  runner := ⟨[], [], false, false, [], false, false, false⟩
  stdin := ⟨[], [], [], [], false, false⟩
  toOffice := []
  input := []
  inputAtEnd := none

variable (c : Connection)

/-- The first half of `pumpStdin`: the queue goes into the pipe. -/
def pumpQueue : Connection :=
  if c.runner.stdinBlocked then c
  else
    let r := writeQueue room c.stdin c.runner.stdinQueue
    { c with
      stdin := r.1
      runner := { c.runner with
        stdinQueue := r.2.1
        stdinBlocked := r.2.2 } }

/-- The second half of `pumpStdin`: the end of the input. -/
def endQueue : Connection :=
  if c.runner.stdinEnd && !c.runner.stdinBlocked && c.runner.stdinQueue.isEmpty then
    { c with
      stdin := { c.stdin with ended := true }
      runner := { c.runner with stdinEnd := false } }
  else c

def pumpStdin : Connection := (c.pumpQueue room).endQueue

/-- `handleFrame`, of a process. -/
def handleFrame (frame : Frame) : Connection :=
  if !c.runner.started then
    if frame.type = .json && accepts frame.payload then
      { c with runner := { c.runner with
        started := true
        child := true } }
    else
      { c with runner := { c.runner with
        started := true
        ended := true } }
  else if !c.runner.child then c
  else
    match frame.type with
    | .stdin =>
      pumpStdin room { c with runner := { c.runner with
        stdinQueue := c.runner.stdinQueue ++ [frame.payload] } }
    | .json =>
      if isStdinEnd frame.payload then
        pumpStdin room { c with runner := { c.runner with stdinEnd := true } }
      else c
    | .stdout => c
    | .stderr => c

/-- The office reads a frame of the runner. -/
def readReport (office : RunnerStream) (frame : Frame) : RunnerStream :=
  match frame.type with
  | .json =>
    match stdinAckBytes frame.payload with
    | some bytes => office.acknowledge bytes
    | none => office
  | .stdin => office
  | .stdout => office
  | .stderr => office

def arriveAtRunner (bytes : ℕ) : Connection :=
  let chunk := c.office.socket.take bytes
  let c := { c with office := { c.office with socket := c.office.socket.drop bytes } }
  if c.runner.ended && !c.runner.child then c
  else
    match decode c.runner.pending chunk with
    | none =>
      { c with runner := { c.runner with
        ended := true
        child := false } }
    | some (frames, pending) =>
      frames.foldl (handleFrame accepts room)
        { c with runner := { c.runner with pending := pending } }

def arriveAtOffice (bytes : ℕ) : Connection :=
  let chunk := c.toOffice.take bytes
  let c := { c with toOffice := c.toOffice.drop bytes }
  match decode c.office.pending chunk with
  | none => { c with office := c.office.close }
  | some (frames, pending) =>
    { c with office := frames.foldl readReport { c.office with pending := pending } }

/-- The callback of a write without an error. -/
def confirm : Connection :=
  match c.stdin.unconfirmed with
  | [] => c
  | chunk :: unconfirmed =>
    { c with
      stdin := { c.stdin with unconfirmed := unconfirmed }
      runner :=
        match encodeFrame .json (RunnerControl.stdinAck chunk.length).text with
        | some frame => c.runner.send [frame]
        | none => c.runner }

/-- The callback of `drain`. -/
def drain : Connection :=
  if c.runner.stdinBlocked && c.stdin.writable then
    pumpStdin room { c with runner := { c.runner with stdinBlocked := false } }
  else c

/-- The callback of a child's `stdout` and `stderr`. -/
def output (type : FrameType) (data : Buffer) : Connection :=
  match c.runner.child, type, encodeData type data with
  | true, .stdout, some frames => { c with runner := c.runner.send frames }
  | true, .stderr, some frames => { c with runner := c.runner.send frames }
  | _, _, _ => c

/-- The callback of a child's `spawn`. -/
def spawned (c : Connection) (pid : ℕ) : Connection :=
  match c.runner.child, encodeFrame .json (RunnerControl.spawned pid).text with
  | true, some frame => { c with runner := c.runner.send [frame] }
  | _, _ => c

def step : ConnectionEvent → Connection
  | .write data =>
    { c with
      office := c.office.write data
      input := if c.office.closed then c.input else c.input ++ data }
  | .control message =>
    { c with
      office := c.office.control message
      inputAtEnd :=
        match message with
        | .stdinEnd => if c.office.closed then c.inputAtEnd else c.inputAtEnd.or (some c.input)
        | .signal _ _ => c.inputAtEnd }
  | .toRunner bytes => c.arriveAtRunner accepts room bytes
  | .toOffice bytes => c.arriveAtOffice bytes
  | .written => c.confirm
  | .failed => { c with stdin := c.stdin.fail }
  | .drain => c.drain room
  | .output type data => c.output type data
  | .spawned pid => c.spawned pid
  | .flush bytes =>
    let r := flushQueue bytes c.runner.queued
    { c with
      toOffice := c.toOffice ++ r.1
      runner := { c.runner with queued := r.2 } }
  | .exit =>
    if c.runner.child then
      { c with
        stdin := c.stdin.fail
        runner := { c.runner with
          child := false
          ended := true } }
    else c

end Connection

end Isomux.AgentRunner
