import Isomux.AgentRunner.Frames

set_option autoImplicit false

/-!
# The office's side of a runner connection

The stream of one operation. The input of the process waits in an outbox until the window has room
for it; the end of the input waits behind it, and a signal never waits.

Left out are the promises that a write returns: they say when the caller may go on.

## Main results

* `Isomux.AgentRunner.pumpLoop_spec` — what the pump sends, and why it stops.
-/

namespace Isomux.AgentRunner

structure OutboxItem where
  frame : Buffer
  stdinBytes : ℕ

structure RunnerStream where
  closed : Bool
  unackedStdin : ℕ
  outbox : List OutboxItem
  socket : Buffer
  pending : Buffer

/-- The loop of `pump`: the items that go to the socket, the bytes in flight behind them, and the
items that stay. -/
def pumpLoop : ℕ → List OutboxItem → List OutboxItem × ℕ × List OutboxItem
  | unackedStdin, [] => ([], unackedStdin, [])
  | unackedStdin, item :: outbox =>
    if item.stdinBytes = 0 ∨ unackedStdin < STDIN_WINDOW_BYTES then
      let r := pumpLoop (unackedStdin + item.stdinBytes) outbox
      (item :: r.1, r.2)
    else ([], unackedStdin, item :: outbox)

namespace RunnerStream

/-- A stream whose request was just written. -/
def start (request : Buffer) : RunnerStream := ⟨false, 0, [], request, []⟩

variable (s : RunnerStream)

def pump : RunnerStream :=
  let r := pumpLoop s.unackedStdin s.outbox
  { s with
    unackedStdin := r.2.1
    outbox := r.2.2
    socket := s.socket ++ r.1.flatMap (·.frame) }

/-- `acknowledge`. A report that is not a positive number is ignored, as the report of no bytes
is. -/
def acknowledge (bytes : ℕ) : RunnerStream :=
  if bytes = 0 then s else pump { s with unackedStdin := s.unackedStdin - bytes }

def write (data : Buffer) : RunnerStream :=
  if s.closed then s
  else
    match encodeData .stdin data with
    | none => s
    | some [] => s
    | some frames =>
      pump { s with
        outbox := s.outbox ++ frames.map fun frame => ⟨frame, frame.length - 5⟩ }

/-- `control`. A message that is too large throws. -/
def control (message : ClientControl) : RunnerStream :=
  if s.closed then s
  else
    match encodeFrame .json message.text with
    | none => s
    | some frame =>
      match message with
      | .stdinEnd => pump { s with outbox := s.outbox ++ [⟨frame, 0⟩] }
      | .signal _ _ => { s with socket := s.socket ++ frame }

def close : RunnerStream :=
  { s with
    closed := true
    outbox := [] }

end RunnerStream

/-! ## The pump -/

def inputBytes (items : List OutboxItem) : ℕ := (items.map (·.stdinBytes)).sum

@[simp] lemma inputBytes_nil : inputBytes [] = 0 := rfl

@[simp] lemma inputBytes_cons (item : OutboxItem) (items : List OutboxItem) :
    inputBytes (item :: items) = item.stdinBytes + inputBytes items := by
  simp [inputBytes]

/-- **What the pump does.** It sends items from the front, counts their input, and stops when
nothing is left or when the next item is input and the window is full. -/
theorem pumpLoop_spec (unackedStdin : ℕ) (outbox : List OutboxItem) :
    (pumpLoop unackedStdin outbox).1 ++ (pumpLoop unackedStdin outbox).2.2 = outbox ∧
    (pumpLoop unackedStdin outbox).2.1 =
      unackedStdin + inputBytes (pumpLoop unackedStdin outbox).1 ∧
    ∀ item ∈ (pumpLoop unackedStdin outbox).2.2.head?,
      item.stdinBytes ≠ 0 ∧ STDIN_WINDOW_BYTES ≤ (pumpLoop unackedStdin outbox).2.1 := by
  induction outbox generalizing unackedStdin with
  | nil => simp [pumpLoop]
  | cons item outbox ih =>
    unfold pumpLoop
    split_ifs with hgo
    · obtain ⟨hsplit, hcount, hstop⟩ := ih (unackedStdin + item.stdinBytes)
      refine ⟨?_, ?_, hstop⟩
      · show item :: (_ ++ _) = _
        rw [hsplit]
      · show (pumpLoop (unackedStdin + item.stdinBytes) outbox).2.1 = _
        rw [hcount, inputBytes_cons]
        omega
    · rw [not_or, not_lt] at hgo
      refine ⟨rfl, rfl, fun i hi => ?_⟩
      obtain rfl : item = i := Option.some.inj hi
      exact hgo

/-! ## What the operations hand to the pump -/

lemma dataChunks_eq_nil {data : Buffer} : dataChunks data = [] ↔ data = [] := by
  constructor
  · intro h
    rw [← flatten_dataChunks data, h]
    rfl
  · rintro rfl
    rw [dataChunks, if_pos rfl]

namespace RunnerStream

lemma write_nil (s : RunnerStream) : s.write [] = s := by
  unfold write
  rw [encodeData_eq, dataChunks_eq_nil.2 rfl]
  split_ifs <;> rfl

variable {s : RunnerStream}

lemma write_eq (hopen : s.closed = false) (data : Buffer) (hdata : data ≠ []) :
    s.write data = pump { s with
      outbox := s.outbox ++ (dataChunks data).map fun chunk =>
        ⟨(Frame.mk .stdin chunk).bytes, chunk.length⟩ } := by
  have hitems : ((dataChunks data).map fun chunk => (Frame.mk .stdin chunk).bytes).map
      (fun frame => (⟨frame, frame.length - 5⟩ : OutboxItem)) =
        (dataChunks data).map fun chunk => ⟨(Frame.mk .stdin chunk).bytes, chunk.length⟩ := by
    rw [List.map_map]
    refine List.map_congr_left fun chunk _ => ?_
    show (⟨_, (Frame.mk .stdin chunk).bytes.length - 5⟩ : OutboxItem) = _
    rw [length_bytes]
    rfl
  rw [← hitems]
  unfold write
  rw [hopen, encodeData_eq]
  cases hchunks : dataChunks data with
  | nil => exact absurd (dataChunks_eq_nil.1 hchunks) hdata
  | cons chunk chunks => rfl

lemma control_stdinEnd (hopen : s.closed = false) :
    s.control .stdinEnd = pump { s with
      outbox := s.outbox ++ [⟨(Frame.mk .json ClientControl.stdinEnd.text).bytes, 0⟩] } := by
  unfold control
  rw [hopen, encodeFrame, if_pos fits_stdinEnd]
  rfl

lemma control_signal (hopen : s.closed = false) (name : JsString)
    (scope : Option SignalScope) : s.control (.signal name scope) =
      if (Frame.mk .json (ClientControl.signal name scope).text).Fits then
        { s with
          socket := s.socket ++ (Frame.mk .json (ClientControl.signal name scope).text).bytes }
      else s := by
  unfold control
  rw [hopen, encodeFrame]
  split_ifs <;> first | contradiction | rfl

lemma write_closed (hclosed : s.closed = true) (data : Buffer) :
    s.write data = s := by
  rw [write, if_pos hclosed]

lemma control_closed (hclosed : s.closed = true) (message : ClientControl) :
    s.control message = s := by
  rw [control, if_pos hclosed]

end RunnerStream

end Isomux.AgentRunner
