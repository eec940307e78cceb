import Isomux.Foundations.Framing
import Isomux.Runtime.JsonText
import Mathlib.Data.Nat.Digits.Lemmas

set_option autoImplicit false

/-!
# Frames of the agent runner

The office server and the agent runner talk over a Unix socket. Every frame is a length, a type and
a payload, and the length counts the type and the payload. Control messages are JSON texts.

## Main results

* `Isomux.AgentRunner.readable` — the decoder reads the frames that the encoder makes.
* `Isomux.AgentRunner.encodeData_eq` — a byte stream always fits into frames.
* `Isomux.AgentRunner.flatten_dataChunks` — the frames of a byte stream hold its bytes in order.
-/

namespace Isomux.AgentRunner

/-! ## Encoding -/

/-- `FRAME_JSON`, `FRAME_STDIN`, `FRAME_STDOUT` and `FRAME_STDERR`. -/
inductive FrameType where
  | json
  | stdin
  | stdout
  | stderr
  deriving DecidableEq

def FrameType.code : FrameType → ℕ
  | .json => 1
  | .stdin => 2
  | .stdout => 3
  | .stderr => 4

def FrameType.ofCode : ℕ → Option FrameType
  | 1 => some .json
  | 2 => some .stdin
  | 3 => some .stdout
  | 4 => some .stderr
  | _ => none

def MAX_FRAME_BYTES : ℕ := 1048576

/-- Stdin bytes the server may send that the runner has not yet put into the child's pipe. -/
def STDIN_WINDOW_BYTES : ℕ := 1048576

structure Frame where
  type : FrameType
  payload : Buffer
  deriving DecidableEq

/-- `writeUInt32BE`. -/
def uint32BE (n : ℕ) : Buffer :=
  [UInt8.ofNat (n / 16777216), UInt8.ofNat (n / 65536), UInt8.ofNat (n / 256), UInt8.ofNat n]

def Frame.bytes (frame : Frame) : Buffer :=
  uint32BE (frame.payload.length + 1) ++ UInt8.ofNat frame.type.code :: frame.payload

def Frame.Fits (frame : Frame) : Prop := frame.payload.length + 1 ≤ MAX_FRAME_BYTES

instance (frame : Frame) : Decidable frame.Fits :=
  inferInstanceAs (Decidable (frame.payload.length + 1 ≤ MAX_FRAME_BYTES))

variable (type : FrameType)

/-- `encodeFrame`: it throws on a frame that is too large. -/
def encodeFrame (payload : Buffer) : Option Buffer :=
  if (Frame.mk type payload).Fits then some (Frame.mk type payload).bytes else none

/-- The payloads that `encodeData` cuts a byte stream into. -/
def dataChunks (data : Buffer) : List Buffer :=
  if data = [] then []
  else data.take (MAX_FRAME_BYTES - 1) :: dataChunks (data.drop (MAX_FRAME_BYTES - 1))
termination_by data.length
decreasing_by
  rename_i hdata
  have hlength := List.length_pos_iff.2 hdata
  rw [List.length_drop]
  simp only [MAX_FRAME_BYTES]
  omega

def encodeData (data : Buffer) : Option (List Buffer) :=
  (dataChunks data).mapM (encodeFrame type)

/-! ## Decoding -/

/-- `readUInt32BE` at the front. -/
def readUInt32BE (bytes : Buffer) : ℕ :=
  (bytes.getD 0 0).toNat * 16777216 + (bytes.getD 1 0).toNat * 65536 +
    (bytes.getD 2 0).toNat * 256 + (bytes.getD 3 0).toNat

/-- One round of the decoder: a frame at the front of what is pending. -/
def readFrame (pending : Buffer) : Framing.Front UInt8 Frame :=
  if pending.length < 4 then .incomplete
  else if readUInt32BE pending < 1 ∨ MAX_FRAME_BYTES < readUInt32BE pending then .invalid
  else if pending.length < 4 + readUInt32BE pending then .incomplete
  else
    match FrameType.ofCode (pending.getD 4 0).toNat with
    | none => .invalid
    | some type =>
      .frame ⟨type, (pending.take (4 + readUInt32BE pending)).drop 5⟩
        (pending.drop (4 + readUInt32BE pending))

/-- The decoder of `createFrameDecoder` on a chunk: the complete frames, and what is pending behind
them. It throws on a bad length and on an unknown type. -/
def decode (pending chunk : Buffer) : Option (List Frame × Buffer) :=
  Framing.readFrames readFrame (pending ++ chunk).length (pending ++ chunk)

/-! ## Control messages

The texts are those that `JSON.stringify` makes of the messages. Nothing else travels in a JSON
frame, so reading a text back is a question of which message it is the text of.
-/

def decimal (n : ℕ) : Buffer :=
  if n = 0 then [48] else (Nat.digits 10 n).reverse.map fun digit => UInt8.ofNat (48 + digit)

def readDecimal (digits : Buffer) : ℕ :=
  Nat.ofDigits 10 (digits.reverse.map fun digit => digit.toNat - 48)

/-- What a signal is for; without a scope, it is for the group. -/
inductive SignalScope where
  | child
  | group
  deriving DecidableEq

/-- What the office sends behind the request. -/
inductive ClientControl where
  | stdinEnd
  | signal (name : JsString) (scope : Option SignalScope)

/-- The text of a scope within its message. -/
def SignalScope.text : Option SignalScope → Buffer
  | none => []
  | some .child => (js ",\"scope\":\"child\"").toUtf8
  | some .group => (js ",\"scope\":\"group\"").toUtf8

def ClientControl.text : ClientControl → Buffer
  | .stdinEnd => (js "\x7b\"type\":\"stdin-end\"\x7d").toUtf8
  | .signal name scope =>
    (js "\x7b\"type\":\"signal\",\"signal\":").toUtf8 ++
      ((jsonQuote name).toUtf8 ++ (SignalScope.text scope ++ (js "\x7d").toUtf8))

/-- Whether the runner reads the end of the input in a payload. -/
def isStdinEnd (payload : Buffer) : Bool := payload = ClientControl.stdinEnd.text

/-- What the runner sends while a process runs. -/
inductive RunnerControl where
  | spawned (pid : ℕ)
  | stdinAck (bytes : ℕ)

/-- What stands in front of the number of an acknowledgement. -/
def ackHead : Buffer := (js "\x7b\"type\":\"stdin-ack\",\"bytes\":").toUtf8

def RunnerControl.text : RunnerControl → Buffer
  | .spawned pid =>
    (js "\x7b\"type\":\"spawned\",\"pid\":").toUtf8 ++ (decimal pid ++ (js "\x7d").toUtf8)
  | .stdinAck bytes => ackHead ++ (decimal bytes ++ (js "\x7d").toUtf8)

/-- The number of bytes that the office reads in the acknowledgement of a payload. -/
def stdinAckBytes (payload : Buffer) : Option ℕ :=
  if ackHead.isPrefixOf payload then
    some (readDecimal (payload.drop ackHead.length).dropLast)
  else none

/-! ## The code is readable -/

lemma readUInt32BE_uint32BE {n : ℕ} (h : n < 4294967296) (rest : Buffer) :
    readUInt32BE (uint32BE n ++ rest) = n := by
  simp only [uint32BE, readUInt32BE, List.cons_append, List.nil_append, List.getD_cons_zero,
    List.getD_cons_succ, UInt8.toNat_ofNat']
  omega

lemma ofCode_code : FrameType.ofCode (UInt8.ofNat type.code).toNat = some type := by
  cases type <;> rfl

@[simp] lemma length_bytes (frame : Frame) : frame.bytes.length = frame.payload.length + 5 := by
  simp only [Frame.bytes, uint32BE, List.length_append, List.length_cons, List.length_nil]
  omega

lemma readUInt32BE_bytes {frame : Frame} (h : frame.Fits) (rest : Buffer) :
    readUInt32BE (frame.bytes ++ rest) = frame.payload.length + 1 := by
  have hfits : frame.payload.length + 1 ≤ 1048576 := h
  rw [Frame.bytes, List.append_assoc]
  exact readUInt32BE_uint32BE (by omega) _

lemma readUInt32BE_part {part rest : Buffer} (h : 4 ≤ part.length) :
    readUInt32BE (part ++ rest) = readUInt32BE part := by
  match part, h with
  | _ :: _ :: _ :: _ :: _, _ => rfl

lemma readFrame_bytes {frame : Frame} (h : frame.Fits) (rest : Buffer) :
    readFrame (frame.bytes ++ rest) = .frame frame rest := by
  have hlength := readUInt32BE_bytes h rest
  have hfits : frame.payload.length + 1 ≤ MAX_FRAME_BYTES := h
  have htype : (frame.bytes ++ rest).getD 4 0 = UInt8.ofNat frame.type.code := rfl
  have hwhole : 4 + (frame.payload.length + 1) = frame.bytes.length := by
    rw [length_bytes]
    omega
  unfold readFrame
  rw [hlength, hwhole, htype, ofCode_code, if_neg, if_neg, if_neg]
  · have hpayload : frame.bytes.drop 5 = frame.payload := rfl
    simp only [List.take_left, List.drop_left, hpayload]
  · rw [List.length_append]
    omega
  · omega
  · rw [List.length_append, length_bytes]
    omega

lemma readFrame_part {frame : Frame} (h : frame.Fits) {part rest : Buffer}
    (hpart : frame.bytes = part ++ rest) (hrest : rest ≠ []) : readFrame part = .incomplete := by
  have hfits : frame.payload.length + 1 ≤ MAX_FRAME_BYTES := h
  have hlength := congrArg List.length hpart
  have hpos := List.length_pos_iff.2 hrest
  rw [length_bytes, List.length_append] at hlength
  unfold readFrame
  by_cases hhead : part.length < 4
  · rw [if_pos hhead]
  · have hread : readUInt32BE part = frame.payload.length + 1 := by
      rw [← @readUInt32BE_part part rest (by omega), ← hpart]
      have hwhole := readUInt32BE_bytes h []
      rw [List.append_nil] at hwhole
      exact hwhole
    rw [if_neg hhead, hread, if_neg (by omega), if_pos (by omega)]

/-- **The decoder reads the frames that the encoder makes.** -/
theorem readable : Framing.Readable Frame.Fits Frame.bytes readFrame where
  read_nil := rfl
  read_encode := fun _ rest h => readFrame_bytes h rest
  read_part := fun _ _ _ h hpart hrest => readFrame_part h hpart hrest

/-! ## A byte stream in frames -/

theorem flatten_dataChunks (data : Buffer) : (dataChunks data).flatten = data := by
  induction data using dataChunks.induct with
  | case1 => rw [dataChunks, if_pos rfl]; rfl
  | case2 data hdata ih =>
    rw [dataChunks, if_neg hdata, List.flatten_cons, ih]
    exact List.take_append_drop _ data

lemma length_of_mem_dataChunks {data chunk : Buffer} (h : chunk ∈ dataChunks data) :
    0 < chunk.length ∧ chunk.length + 1 ≤ MAX_FRAME_BYTES := by
  induction data using dataChunks.induct with
  | case1 =>
    rw [dataChunks, if_pos rfl] at h
    cases h
  | case2 data hdata ih =>
    rw [dataChunks, if_neg hdata] at h
    rcases List.mem_cons.1 h with rfl | h
    · have hlength := List.length_pos_iff.2 hdata
      rw [List.length_take]
      simp only [MAX_FRAME_BYTES]
      omega
    · exact ih h

theorem encodeData_eq (data : Buffer) :
    encodeData type data = some ((dataChunks data).map fun chunk => (Frame.mk type chunk).bytes) := by
  have hall : ∀ chunk ∈ dataChunks data,
      encodeFrame type chunk = some (Frame.mk type chunk).bytes := fun chunk hchunk =>
    if_pos (length_of_mem_dataChunks hchunk).2
  unfold encodeData
  generalize dataChunks data = chunks at hall ⊢
  induction chunks with
  | nil => rfl
  | cons chunk chunks ih =>
    rw [List.mapM_cons, hall chunk List.mem_cons_self,
      ih fun c hc => hall c (List.mem_cons_of_mem _ hc)]
    rfl

/-! ## Control messages -/

lemma toNat_digit {digit : ℕ} (h : digit < 10) : (UInt8.ofNat (48 + digit)).toNat - 48 = digit := by
  rw [UInt8.toNat_ofNat']
  omega

@[simp] lemma readDecimal_decimal (n : ℕ) : readDecimal (decimal n) = n := by
  unfold decimal
  split_ifs with hn
  · rw [hn]
    rfl
  · rw [readDecimal, ← List.map_reverse, List.reverse_reverse, List.map_map]
    have hdigits : (Nat.digits 10 n).map
        ((fun digit : UInt8 => digit.toNat - 48) ∘ fun digit => UInt8.ofNat (48 + digit)) =
          Nat.digits 10 n := by
      conv_rhs => rw [← List.map_id (Nat.digits 10 n)]
      exact List.map_congr_left fun digit hdigit =>
        toNat_digit (Nat.digits_lt_base (by omega) hdigit)
    rw [hdigits]
    exact Nat.ofDigits_digits 10 n

lemma length_decimal {n : ℕ} (h : n < 10000000) : (decimal n).length ≤ 7 := by
  unfold decimal
  split_ifs
  · decide
  · rw [List.length_map, List.length_reverse, Nat.digits_length_le_iff (by omega)]
    exact h

@[simp] lemma stdinAckBytes_stdinAck (bytes : ℕ) :
    stdinAckBytes (RunnerControl.stdinAck bytes).text = some bytes := by
  have hprefix : ackHead.isPrefixOf (RunnerControl.stdinAck bytes).text = true := by
    rw [List.isPrefixOf_iff_prefix]
    exact List.prefix_append _ _
  have hbrace : (js "\x7d").toUtf8 = [125] := by decide
  rw [stdinAckBytes, if_pos hprefix]
  rw [RunnerControl.text, List.drop_left, hbrace, List.dropLast_concat, readDecimal_decimal]

@[simp] lemma stdinAckBytes_spawned (pid : ℕ) :
    stdinAckBytes (RunnerControl.spawned pid).text = none := by
  have hprefix : ackHead.isPrefixOf (RunnerControl.spawned pid).text = false := by
    rw [Bool.eq_false_iff]
    intro hprefix
    have htake := List.prefix_iff_eq_take.1 (List.isPrefixOf_iff_prefix.1 hprefix)
    have heq := congrArg (List.take 12) htake
    rw [List.take_take] at heq
    revert heq
    rw [RunnerControl.text, List.take_append_of_le_length]
    · decide
    · decide
  rw [stdinAckBytes, hprefix]
  rfl

@[simp] lemma isStdinEnd_signal (name : JsString) (scope : Option SignalScope) :
    isStdinEnd (ClientControl.signal name scope).text = false := by
  refine decide_eq_false fun heq => ?_
  have htake := congrArg (List.take 12) heq
  simp only [ClientControl.text] at htake
  rw [List.take_append_of_le_length (by decide)] at htake
  revert htake
  decide

lemma fits_stdinEnd : (Frame.mk .json ClientControl.stdinEnd.text).Fits := by
  have hlength : ClientControl.stdinEnd.text.length = 20 := by decide
  simp only [Frame.Fits, hlength, MAX_FRAME_BYTES]
  omega

lemma fits_stdinAck {bytes : ℕ} (h : bytes ≤ MAX_FRAME_BYTES) :
    (Frame.mk .json (RunnerControl.stdinAck bytes).text).Fits := by
  have hdigits : (decimal bytes).length ≤ 7 := by
    refine length_decimal ?_
    simp only [MAX_FRAME_BYTES] at h
    omega
  have hhead : ackHead.length = 28 := by decide
  have hbrace : (js "\x7d").toUtf8.length = 1 := by decide
  simp only [Frame.Fits, RunnerControl.text, List.length_append, hhead, hbrace, MAX_FRAME_BYTES]
  omega

end Isomux.AgentRunner
