import Isomux.Runtime.Text
import Mathlib.Algebra.GroupWithZero.Nat

set_option autoImplicit false

/-!
# WebSocket frames (`src/server/ws-frames.ts`)

The slice of the WebSocket protocol the app relay speaks: it writes masked client frames and reads
server frames from a byte stream that arrives in arbitrary pieces.

## Main results

* `Isomux.FrameDecoder.readFrame_buffer_lt` — a frame that is read takes bytes from the buffer.
* `Isomux.FrameDecoder.pushLoop_fuel` — the rounds of `push` suffice for every frame in the buffer.
* `Isomux.FrameDecoder.push_invariant` — what every delivery keeps, `push` keeps.
-/

namespace Isomux

/-! ## Constants -/

def OPCODE_CONTINUATION : ℕ := 0x0

def OPCODE_TEXT : ℕ := 0x1

def OPCODE_BINARY : ℕ := 0x2

def OPCODE_CLOSE : ℕ := 0x8

def OPCODE_PING : ℕ := 0x9

def OPCODE_PONG : ℕ := 0xa

/-- The longest payload of a control frame. -/
def MAX_CONTROL_PAYLOAD_BYTES : ℕ := 125

/-- The longest close reason: a close frame carries the code first. -/
def MAX_CLOSE_REASON_BYTES : ℕ := MAX_CONTROL_PAYLOAD_BYTES - 2

/-- A close code. The source's type is `number`; a number that is no integer is not transmittable,
as the negative ones are not. -/
abbrev CloseCode := ℤ

/-- The close codes of the protocol that may stand in a frame. -/
def TRANSMITTABLE_CLOSE_CODES : List CloseCode :=
  [1000, 1001, 1002, 1003, 1007, 1008, 1009, 1010, 1011, 1012, 1013, 1014]

/-- Whether a close code may stand in a frame: a protocol code, or one of the applications'. -/
def isTransmittableCloseCode (code : CloseCode) : Bool :=
  TRANSMITTABLE_CLOSE_CODES.contains code || (3000 ≤ code && code ≤ 4999)

/-! ## Writing frames -/

/-- The `while` of `truncateCloseReason`: walk back off continuation bytes. -/
def closeReasonEnd (bytes : Buffer) : ℕ → ℕ
  | 0 => 0
  | n + 1 => if (bytes.getD (n + 1) 0) &&& 0xc0 = 0x80 then closeReasonEnd bytes n else n + 1

/-- A close reason cut to fit a control frame without splitting a character. -/
def truncateCloseReason (reason : JsString) : JsString :=
  let bytes := reason.toUtf8
  if bytes.length ≤ MAX_CLOSE_REASON_BYTES then reason
  else Buffer.toUtf8String (bytes.take (closeReasonEnd bytes MAX_CLOSE_REASON_BYTES))

structure Mask where
  b0 : UInt8
  b1 : UInt8
  b2 : UInt8
  b3 : UInt8

def Mask.bytes (m : Mask) : Buffer := [m.b0, m.b1, m.b2, m.b3]

/-- Two bytes, the high one first. -/
def uint16BE (n : ℕ) : Buffer := [UInt8.ofNat (n / 256), UInt8.ofNat (n % 256)]

/-- `writeBigUInt64BE(n)`: eight bytes, the highest first. -/
def uint64BE (n : ℕ) : Buffer :=
  [56, 48, 40, 32, 24, 16, 8, 0].map fun shift => UInt8.ofNat (n / 2 ^ shift % 256)

/-- The header of a masked frame with FIN set: the shortest form that holds the length. -/
def frameHeader (opcode len : ℕ) (mask : Mask) : Buffer :=
  UInt8.ofNat (0x80 ||| opcode) ::
    (if len < 126 then [UInt8.ofNat (0x80 ||| len)]
      else if len < 0x10000 then UInt8.ofNat (0x80 ||| 126) :: uint16BE len
      else UInt8.ofNat (0x80 ||| 127) :: uint64BE len) ++ mask.bytes

def maskPayload (payload : Buffer) (mask : Mask) : Buffer :=
  payload.mapIdx fun i byte => byte ^^^ mask.bytes.getD (i % 4) 0

/-- `encodeFrame(opcode, payload)` with the masking key it draws. -/
def encodeFrame (mask : Mask) (opcode : ℕ) (payload : Buffer) : Buffer :=
  frameHeader opcode payload.length mask ++ maskPayload payload mask

def encodeTextFrame (mask : Mask) (text : JsString) : Buffer :=
  encodeFrame mask OPCODE_TEXT text.toUtf8

def encodeBinaryFrame (mask : Mask) (data : Buffer) : Buffer := encodeFrame mask OPCODE_BINARY data

/-- The answer to a ping, its payload verbatim. -/
def encodePongFrame (mask : Mask) (payload : Buffer) : Buffer :=
  encodeFrame mask OPCODE_PONG payload

/-- `payload.writeUInt16BE(value, 0)`; `none` is its `RangeError`. -/
def writeUInt16BE (value : ℤ) : Option Buffer :=
  if 0 ≤ value ∧ value < 0x10000 then some (uint16BE value.toNat) else none

/-- A close frame; without a code it has no payload, and the reason is dropped. -/
def encodeCloseFrame (mask : Mask) (code : Option CloseCode) (reason : JsString) : Option Buffer :=
  match code with
  | none => some (encodeFrame mask OPCODE_CLOSE [])
  | some code =>
    (writeUInt16BE code).map fun bytes =>
      encodeFrame mask OPCODE_CLOSE (bytes ++ (truncateCloseReason reason).toUtf8)

/-! ## Reading frames -/

inductive DecodedMessage where
  | text (text : JsString)
  | binary (data : Buffer)
  | ping (payload : Buffer)
  | pong (payload : Buffer)
  /-- A close frame; `code = none` is a close without a status. -/
  | close (code : Option CloseCode) (reason : JsString)
  deriving DecidableEq

/-- A protocol failure and the close code the connection should end with. -/
structure DecodeFailure where
  code : CloseCode
  detail : JsString
  deriving DecidableEq

/-- What `push` returns. -/
inductive DecodeResult where
  | ok (stopped : Bool)
  | failed (failure : DecodeFailure)
  deriving DecidableEq

/-- What `deliver` returns. -/
inductive DeliverVerdict where
  | continue
  | stop
  deriving DecidableEq

structure FrameDecoder where
  maxMessageBytes : ℕ
  buffer : Buffer := []
  fragments : List Buffer := []
  fragmentBytes : ℕ := 0
  fragmentOpcode : Option ℕ := none
  failed : Bool := false
  deriving DecidableEq

/-- What `readFrame` returns. -/
inductive FrameStep where
  | incomplete
  | failed (failure : DecodeFailure)
  | frame (message : Option DecodedMessage)
  deriving DecidableEq

/-- `fail(code, detail)`. -/
def FrameStep.fail (code : CloseCode) (detail : String) : FrameStep := .failed ⟨code, js detail⟩

namespace FrameDecoder

/-- `pendingBytes()`: the bytes the decoder holds. -/
def pendingBytes (d : FrameDecoder) : ℕ := d.buffer.length + d.fragmentBytes

/-- `buf.readUInt16BE(offset)`. -/
def readUInt16BE (buf : Buffer) (offset : ℕ) : ℕ :=
  (buf.getD offset 0).toNat * 256 + (buf.getD (offset + 1) 0).toNat

/-- `buf.readBigUInt64BE(offset)`. -/
def readBigUInt64BE (buf : Buffer) (offset : ℕ) : ℕ :=
  (List.range 8).foldl (fun n i => n * 256 + (buf.getD (offset + i) 0).toNat) 0

def readClose (payload : Buffer) : FrameStep :=
  if payload.length = 0 then .frame (some (.close none []))
  else if payload.length = 1 then .fail 1002 "close payload of one byte"
  else
    let code := readUInt16BE payload 0
    if !isTransmittableCloseCode code then
      .fail 1002 s!"close code {code} is not transmittable"
    else
      match Buffer.decodeUtf8Fatal (payload.drop 2) with
      | none => .fail 1007 "close reason is not valid UTF-8"
      | some reason => .frame (some (.close (some code) reason))

/-- The message a whole payload stands for. -/
def completeMessage (opcode : ℕ) (payload : Buffer) : FrameStep :=
  if opcode = OPCODE_TEXT then
    match payload.decodeUtf8Fatal with
    | none => .fail 1007 "text frame is not valid UTF-8"
    | some text => .frame (some (.text text))
  else .frame (some (.binary payload))

def readDataStart (d : FrameDecoder) (opcode : ℕ) (payload : Buffer) (fin : Bool) :
    FrameStep × FrameDecoder :=
  if d.fragmentOpcode.isSome then
    (.fail 1002 "new data frame while a message is unfinished", d)
  else if fin then (completeMessage opcode payload, d)
  else
    (.frame none,
      { d with fragmentOpcode := some opcode, fragments := [payload],
               fragmentBytes := payload.length })

def readContinuation (d : FrameDecoder) (payload : Buffer) (fin : Bool) :
    FrameStep × FrameDecoder :=
  match d.fragmentOpcode with
  | none => (.fail 1002 "continuation with no message in progress", d)
  | some opcode =>
    let fragments := d.fragments ++ [payload]
    if !fin then
      (.frame none,
        { d with fragments := fragments, fragmentBytes := d.fragmentBytes + payload.length })
    else
      (completeMessage opcode fragments.flatten,
        { d with fragments := [], fragmentBytes := 0, fragmentOpcode := none })

/-- The payload length a header declares and the offset of the payload, where the 7-bit length is
not a length itself. -/
def readLength (d : FrameDecoder) (short : ℕ) : Except FrameStep (ℕ × ℕ) :=
  if short = 126 then
    if d.buffer.length < 4 then .error .incomplete else .ok (readUInt16BE d.buffer 2, 4)
  else if short = 127 then
    if d.buffer.length < 10 then .error .incomplete
    else
      let big := readBigUInt64BE d.buffer 2
      if 2 ^ 63 ≤ big then .error (.fail 1002 "64-bit length with the high bit set")
      else if d.maxMessageBytes < big then
        .error (.fail 1009 s!"frame length {big} over the message cap")
      else .ok (big, 10)
  else .ok (short, 2)

def checkHeader (d : FrameDecoder) (opcode payloadLength : ℕ) (fin : Bool) : Option FrameStep :=
  if opcode &&& 0x8 ≠ 0 then
    if !fin then some (.fail 1002 "fragmented control frame")
    else if MAX_CONTROL_PAYLOAD_BYTES < payloadLength then
      some (.fail 1002 "control frame payload over 125 bytes")
    else none
  else if d.maxMessageBytes < payloadLength then
    some (.fail 1009 s!"frame length {payloadLength} over the message cap")
  else if opcode = OPCODE_CONTINUATION ∧ d.fragmentOpcode.isSome ∧
      d.maxMessageBytes < d.fragmentBytes + payloadLength then
    let total := d.fragmentBytes + payloadLength
    some (.fail 1009 s!"fragmented message would reach {total} bytes, over the cap")
  else none

/-- The `switch` of `readFrame`: what a whole frame means. -/
def readPayload (d : FrameDecoder) (opcode : ℕ) (payload : Buffer) (fin : Bool) :
    FrameStep × FrameDecoder :=
  if opcode = OPCODE_PING then (.frame (some (.ping payload)), d)
  else if opcode = OPCODE_PONG then (.frame (some (.pong payload)), d)
  else if opcode = OPCODE_CLOSE then (readClose payload, d)
  else if opcode = OPCODE_CONTINUATION then d.readContinuation payload fin
  else if opcode = OPCODE_TEXT ∨ opcode = OPCODE_BINARY then d.readDataStart opcode payload fin
  else (.fail 1002 s!"unknown opcode {opcode}", d)

/-- `readFrame()`: one frame from the front of the buffer. -/
def readFrame (d : FrameDecoder) : FrameStep × FrameDecoder :=
  match d.buffer with
  | first :: second :: _ =>
    let fin := first &&& 0x80 != 0
    if first &&& 0x70 != 0 then
      (.fail 1002 "reserved bits set with no extension negotiated", d)
    else if second &&& 0x80 != 0 then (.fail 1002 "server frame is masked", d)
    else
      let opcode := (first &&& 0x0f).toNat
      match d.readLength (second &&& 0x7f).toNat with
      | .error step => (step, d)
      | .ok (payloadLength, offset) =>
        match d.checkHeader opcode payloadLength fin with
        | some step => (step, d)
        | none =>
          if d.buffer.length < offset + payloadLength then (.incomplete, d)
          else
            readPayload { d with buffer := d.buffer.drop (offset + payloadLength) } opcode
              ((d.buffer.drop offset).take payloadLength) fin
  | _ => (.incomplete, d)

variable {σ : Type}

/-- The loop of `push`: frame after frame, every message handed to `deliver` as it is decoded. -/
def pushLoop (deliver : σ → DecodedMessage → σ × DeliverVerdict) :
    ℕ → FrameDecoder → σ → FrameDecoder × σ × DecodeResult
  | 0, d, s => (d, s, .ok false)
  | fuel + 1, d, s =>
    match d.readFrame with
    | (.incomplete, d) => (d, s, .ok false)
    | (.failed failure, d) =>
      ({ d with failed := true, buffer := [], fragments := [], fragmentBytes := 0 }, s,
        .failed failure)
    | (.frame none, d) => pushLoop deliver fuel d s
    | (.frame (some message), d) =>
      match deliver s message with
      | (s, .stop) => (d, s, .ok true)
      | (s, .continue) => pushLoop deliver fuel d s

/-- `push(chunk, deliver)`. Every frame takes bytes from the buffer, so the loop needs no more
rounds than there are bytes, and one to see that the rest is no frame. -/
def push (d : FrameDecoder) (chunk : Buffer) (deliver : σ → DecodedMessage → σ × DeliverVerdict)
    (s : σ) : FrameDecoder × σ × DecodeResult :=
  if d.failed then (d, s, .failed ⟨1002, js "decoder is spent"⟩)
  else
    let d := { d with buffer := d.buffer ++ chunk }
    pushLoop deliver (d.buffer.length + 1) d s

/-! ## The decoder's rounds -/

@[simp] theorem readPayload_buffer (d : FrameDecoder) (opcode : ℕ) (payload : Buffer) (fin : Bool) :
    (d.readPayload opcode payload fin).2.buffer = d.buffer := by
  simp only [readPayload, readContinuation, readDataStart]
  split_ifs <;> first | rfl | (split <;> rfl)

theorem two_le_of_readLength {d : FrameDecoder} {short payloadLength offset : ℕ}
    (h : d.readLength short = .ok (payloadLength, offset)) : 2 ≤ offset := by
  simp only [readLength] at h
  split_ifs at h <;> simp only [Except.ok.injEq, Prod.mk.injEq] at h <;> omega

theorem readLength_error_ne_frame {d : FrameDecoder} {short : ℕ} {step : FrameStep}
    (h : d.readLength short = .error step) (message : Option DecodedMessage) :
    step ≠ .frame message := by
  simp only [readLength] at h
  split_ifs at h <;> simp only [Except.error.injEq] at h <;> subst h <;> simp [FrameStep.fail]

theorem checkHeader_ne_frame {d : FrameDecoder} {opcode payloadLength : ℕ} {fin : Bool}
    {step : FrameStep} (h : d.checkHeader opcode payloadLength fin = some step)
    (message : Option DecodedMessage) : step ≠ .frame message := by
  simp only [checkHeader] at h
  split_ifs at h <;> simp only [Option.some.injEq] at h <;> subst h <;> simp [FrameStep.fail]

theorem readFrame_buffer_lt {d d' : FrameDecoder} {message : Option DecodedMessage}
    (h : d.readFrame = (.frame message, d')) : d'.buffer.length < d.buffer.length := by
  unfold readFrame at h
  split at h
  case h_2 => simp at h
  case h_1 first second rest hbuf =>
    simp only at h
    split_ifs at h
    · simp [FrameStep.fail] at h
    · simp [FrameStep.fail] at h
    split at h
    case h_1 step hlength =>
      exact absurd (congrArg Prod.fst h) (readLength_error_ne_frame hlength message)
    case h_2 payloadLength offset hlength =>
      have hoffset := two_le_of_readLength hlength
      split at h
      case h_1 step hcheck =>
        exact absurd (congrArg Prod.fst h) (checkHeader_ne_frame hcheck message)
      case h_2 =>
        split_ifs at h with hshort
        · simp at h
        · have hbuffer : d'.buffer = d.buffer.drop (offset + payloadLength) := by
            rw [show d' = _ from (congrArg Prod.snd h).symm, readPayload_buffer]
          have hlen : 2 ≤ d.buffer.length := by simp [hbuf]
          rw [hbuffer, List.length_drop]
          omega

theorem pushLoop_fuel (deliver : σ → DecodedMessage → σ × DeliverVerdict) (n m : ℕ)
    (d : FrameDecoder) (s : σ) (hn : d.buffer.length < n) (hm : d.buffer.length < m) :
    pushLoop deliver n d s = pushLoop deliver m d s := by
  induction n generalizing m d s with
  | zero => omega
  | succ n ih =>
    obtain ⟨m, rfl⟩ : ∃ k, m = k + 1 := ⟨m - 1, by omega⟩
    simp only [pushLoop]
    split
    · rfl
    · rfl
    · rename_i d' hread
      have hlt := readFrame_buffer_lt hread
      exact ih m d' s (by omega) (by omega)
    · rename_i message d' hread
      have hlt := readFrame_buffer_lt hread
      split
      · rfl
      · exact ih m d' _ (by omega) (by omega)

theorem pushLoop_invariant {deliver : σ → DecodedMessage → σ × DeliverVerdict} {P : σ → Prop}
    (hdeliver : ∀ s message, P s → P (deliver s message).1) (fuel : ℕ) (d : FrameDecoder) (s : σ)
    (hs : P s) : P (pushLoop deliver fuel d s).2.1 := by
  induction fuel generalizing d s with
  | zero => exact hs
  | succ fuel ih =>
    simp only [pushLoop]
    split
    · exact hs
    · exact hs
    · exact ih _ s hs
    · rename_i message d' hread
      have hnext := hdeliver s message hs
      split
      · rename_i s' hdel
        rwa [hdel] at hnext
      · rename_i s' hdel
        rw [hdel] at hnext
        exact ih _ s' hnext

theorem push_invariant {deliver : σ → DecodedMessage → σ × DeliverVerdict} {P : σ → Prop}
    (hdeliver : ∀ s message, P s → P (deliver s message).1) (d : FrameDecoder) (chunk : Buffer)
    {s : σ} (hs : P s) : P (d.push chunk deliver s).2.1 := by
  unfold push
  split_ifs
  · exact hs
  · exact pushLoop_invariant hdeliver _ _ s hs

end FrameDecoder

end Isomux
