import Isomux.AppSockets.FrameText

set_option autoImplicit false

/-!
# Frames that are written and read

The relay writes every frame under a mask, in the shortest form that holds its length. Without the
mask it is a frame as a server writes it, and so the decoder can be asked what it makes of it.

## Main results

* `Isomux.encodeFrame_valid` — what is written is such a frame.
* `Isomux.removeMask_encodeFrame` — without its mask it is the frame of a server.
* `Isomux.encodeFrame_decoded` — what the decoder makes of it.
* `Isomux.decodeChunks_wires` — what it makes of many of them, in any pieces.
-/

namespace Isomux

/-! ## The parts of a frame -/

/-- Where the key of a masked frame stands, by its second byte. -/
def keyOffset (second : UInt8) : ℕ :=
  if (second &&& 0x7f).toNat = 126 then 4
  else if (second &&& 0x7f).toNat = 127 then 10
  else 2

def frameKey (frame : Buffer) : Buffer := (frame.drop (keyOffset (frame.getD 1 0))).take 4

/-- A payload under a key: masked when it was not, and not masked when it was. -/
def underKey (key payload : Buffer) : Buffer :=
  payload.mapIdx fun i byte => byte ^^^ key.getD (i % 4) 0

/-- The payload of a masked frame, unmasked. -/
def unmaskedPayload (frame : Buffer) : Buffer :=
  underKey (frameKey frame) (frame.drop (keyOffset (frame.getD 1 0) + 4))

/-- A frame without its mask: without the mask bit and the key, the payload unmasked. -/
def removeMask (frame : Buffer) : Buffer :=
  frame.getD 0 0 :: (frame.getD 1 0 &&& 0x7f) ::
    ((frame.drop 2).take (keyOffset (frame.getD 1 0) - 2) ++ unmaskedPayload frame)

structure ValidClientFrame (frame : Buffer) (opcode : ℕ) (payload : Buffer) (mask : Mask) :
    Prop where
  fin : frame.getD 0 0 &&& 0x80 ≠ 0
  reserved : opcode < 16 → frame.getD 0 0 &&& 0x70 = 0
  opcode : opcode < 16 → (frame.getD 0 0 &&& 0x0f).toNat = opcode
  masked : frame.getD 1 0 &&& 0x80 ≠ 0
  short : payload.length < 126 → (frame.getD 1 0 &&& 0x7f).toNat = payload.length
  medium : 126 ≤ payload.length → payload.length < 0x10000 →
    (frame.getD 1 0 &&& 0x7f).toNat = 126 ∧ FrameDecoder.readUInt16BE frame 2 = payload.length
  long : 0x10000 ≤ payload.length →
    (frame.getD 1 0 &&& 0x7f).toNat = 127 ∧ FrameDecoder.readBigUInt64BE frame 2 = payload.length
  length : frame.length = keyOffset (frame.getD 1 0) + 4 + payload.length
  key : frameKey frame = mask.bytes
  payload : unmaskedPayload frame = payload

/-! ## Writing -/

theorem underKey_underKey (key payload : Buffer) : underKey key (underKey key payload) = payload := by
  unfold underKey
  rw [List.mapIdx_mapIdx]
  refine List.ext_getElem (by simp) fun i hi hi' => ?_
  rw [List.getElem_mapIdx]
  simp only [Function.comp_apply, UInt8.xor_assoc, UInt8.xor_self, UInt8.xor_zero]

def shortestForm (n : ℕ) : LengthForm :=
  if n < 126 then .short else if n < 0x10000 then .medium else .long

lemma shortestForm_fits {n : ℕ} (hn : n < 2 ^ 63) : (shortestForm n).Fits n := by
  unfold shortestForm
  split_ifs with hshort hmedium
  · exact hshort
  · exact hmedium
  · exact hn

def shortestPiece (payload : Buffer) (h : payload.length < 2 ^ 63) : FramePiece :=
  ⟨payload, shortestForm payload.length, shortestForm_fits h⟩

lemma secondByte_masked {n : ℕ} (hn : n < 128) :
    UInt8.ofNat (0x80 ||| n) &&& 0x80 ≠ 0 ∧ UInt8.ofNat (0x80 ||| n) &&& 0x7f = UInt8.ofNat n := by
  revert n
  decide

variable (mask : Mask) (opcode : ℕ)

/-- What the second byte and the length behind it are. -/
lemma encodeFrame_shape (payload : Buffer) (hlength : payload.length < 2 ^ 63) :
    ∃ second tail, encodeFrame mask opcode payload =
        UInt8.ofNat (0x80 ||| opcode) :: second ::
          (tail ++ (mask.bytes ++ maskPayload payload mask)) ∧
      second &&& 0x80 ≠ 0 ∧ keyOffset second = tail.length + 2 ∧
      (shortestPiece payload hlength).lengthBytes = (second &&& 0x7f) :: tail := by
  unfold encodeFrame frameHeader FramePiece.lengthBytes shortestPiece shortestForm keyOffset
  by_cases hshort : payload.length < 126
  · obtain ⟨hmask, hseven⟩ := secondByte_masked (n := payload.length) (by omega)
    have hread := (secondByte_read (n := payload.length) (by omega)).2
    have hvalue : (UInt8.ofNat payload.length).toNat = payload.length :=
      toNat_ofNat_byte (by omega)
    refine ⟨UInt8.ofNat (0x80 ||| payload.length), [], ?_, hmask, ?_, ?_⟩
    · rw [if_pos hshort]
      rfl
    · rw [hseven, hvalue, if_neg (by omega), if_neg (by omega)]
      rfl
    · simp only [if_pos hshort, hseven]
  · by_cases hmedium : payload.length < 0x10000
    · refine ⟨UInt8.ofNat (0x80 ||| 126), uint16BE payload.length, ?_, by decide, ?_, ?_⟩
      · rw [if_neg hshort, if_pos hmedium]
        rfl
      · rw [if_pos (by decide)]
        rfl
      · simp only [if_neg hshort, if_pos hmedium]
        rfl
    · refine ⟨UInt8.ofNat (0x80 ||| 127), uint64BE payload.length, ?_, by decide, ?_, ?_⟩
      · rw [if_neg hshort, if_neg hmedium]
        rfl
      · rw [if_neg (by decide), if_pos (by decide)]
        rfl
      · simp only [if_neg hshort, if_neg hmedium]
        rfl

lemma firstByte_fin : UInt8.ofNat (0x80 ||| opcode) &&& 0x80 ≠ 0 ∧
      (opcode < 16 → UInt8.ofNat (0x80 ||| opcode) = UInt8.ofNat (0x80 + opcode)) := by
  constructor
  · have hbyte : ∀ n < 256, UInt8.ofNat (0x80 ||| n) &&& 0x80 ≠ 0 := by decide +kernel
    have hmod : UInt8.ofNat (0x80 ||| opcode) = UInt8.ofNat (0x80 ||| opcode % 256) := by
      rw [UInt8.ofNat_or, UInt8.ofNat_or]
      exact congrArg _ (UInt8.ofNat_mod_size (x := opcode)).symm
    rw [hmod]
    exact hbyte _ (Nat.mod_lt _ (by decide))
  · revert opcode
    decide

lemma encodeFrame_parts (payload : Buffer) (hlength : payload.length < 2 ^ 63) :
    frameKey (encodeFrame mask opcode payload) = mask.bytes ∧
      unmaskedPayload (encodeFrame mask opcode payload) = payload := by
  obtain ⟨second, tail, hframe, -, hoffset, -⟩ := encodeFrame_shape mask opcode payload hlength
  have hsecond : (encodeFrame mask opcode payload).getD 1 0 = second := by
    rw [hframe]
    rfl
  have hdrop : (encodeFrame mask opcode payload).drop (tail.length + 2) =
      mask.bytes ++ maskPayload payload mask := by
    rw [hframe, List.drop_succ_cons, List.drop_succ_cons, List.drop_left' rfl]
  have hkey : frameKey (encodeFrame mask opcode payload) = mask.bytes := by
    rw [frameKey, hsecond, hoffset, hdrop, List.take_left' (show mask.bytes.length = 4 from rfl)]
  refine ⟨hkey, ?_⟩
  rw [unmaskedPayload, hkey, hsecond, hoffset, ← List.drop_drop, hdrop,
    List.drop_left' (show mask.bytes.length = 4 from rfl)]
  exact underKey_underKey mask.bytes payload

/-- **What is written is a frame of a client.** -/
theorem encodeFrame_valid (payload : Buffer) (hlength : payload.length < 2 ^ 63) :
    ValidClientFrame (encodeFrame mask opcode payload) opcode payload mask := by
  obtain ⟨hkey, hpayload⟩ := encodeFrame_parts mask opcode payload hlength
  obtain ⟨second, tail, hframe, hmask, hoffset, hbytes⟩ :=
    encodeFrame_shape mask opcode payload hlength
  obtain ⟨hfin, hopcode⟩ := firstByte_fin opcode
  have hfirst : (encodeFrame mask opcode payload).getD 0 0 = UInt8.ofNat (0x80 ||| opcode) := by
    rw [hframe]
    rfl
  have hsecond : (encodeFrame mask opcode payload).getD 1 0 = second := by
    rw [hframe]
    rfl
  unfold FramePiece.lengthBytes shortestPiece shortestForm at hbytes
  refine ⟨?_, fun hlt => ?_, fun hlt => ?_, ?_, fun hshort => ?_, fun hlow hmedium => ?_,
    fun hlong => ?_, ?_, hkey, hpayload⟩
  · rwa [hfirst]
  · have hread := (firstByte_read hlt true).2.1
    rw [hfirst, hopcode hlt]
    simpa using hread
  · rw [hfirst, hopcode hlt]
    exact (firstByte_read hlt true).2.2
  · rwa [hsecond]
  · simp only [if_pos hshort, List.cons.injEq] at hbytes
    rw [hsecond, ← hbytes.1]
    exact toNat_ofNat_byte (by omega)
  · simp only [if_neg (Nat.not_lt.mpr hlow), if_pos hmedium, List.cons.injEq] at hbytes
    rw [hsecond, ← hbytes.1]
    refine ⟨by decide, ?_⟩
    rw [hframe, ← hbytes.2]
    exact readUInt16BE_uint16BE hmedium _ _ _
  · have hnotShort : ¬ payload.length < 126 := by omega
    simp only [if_neg hnotShort, if_neg (Nat.not_lt.mpr hlong), List.cons.injEq] at hbytes
    rw [hsecond, ← hbytes.1]
    refine ⟨by decide, ?_⟩
    rw [hframe, ← hbytes.2]
    exact readBigUInt64BE_uint64BE hlength _ _ _
  · rw [hsecond, hoffset, hframe]
    simp only [List.length_cons, List.length_append, maskPayload, List.length_mapIdx, Mask.bytes,
      List.length_nil]
    omega

/-- **Without its mask a written frame is the frame of a server.** -/
theorem removeMask_encodeFrame {opcode : ℕ} (hopcode : opcode < 16)
    (payload : Buffer) (hlength : payload.length < 2 ^ 63) :
    removeMask (encodeFrame mask opcode payload) =
      (shortestPiece payload hlength).bytes opcode true := by
  obtain ⟨-, hpayload⟩ := encodeFrame_parts mask opcode payload hlength
  obtain ⟨second, tail, hframe, -, hoffset, hbytes⟩ :=
    encodeFrame_shape mask opcode payload hlength
  have hsecond : (encodeFrame mask opcode payload).getD 1 0 = second := by
    rw [hframe]
    rfl
  have htail : ((encodeFrame mask opcode payload).drop 2).take tail.length = tail := by
    rw [hframe]
    exact List.take_left' rfl
  have hfirst : (encodeFrame mask opcode payload).getD 0 0 = UInt8.ofNat (0x80 + opcode) := by
    rw [hframe, ← (firstByte_fin opcode).2 hopcode]
    rfl
  rw [removeMask, hpayload, hsecond, hoffset, Nat.add_sub_cancel, htail, hfirst,
    FramePiece.bytes, hbytes]
  rfl

/-! ## Reading what was written -/

/-- The opcode and the payload a message stands for. -/
def DecodedMessage.content : DecodedMessage → ℕ × Buffer
  | .text s => (OPCODE_TEXT, s.toUtf8)
  | .binary data => (OPCODE_BINARY, data)
  | .ping payload => (OPCODE_PING, payload)
  | .pong payload => (OPCODE_PONG, payload)
  | .close none _ => (OPCODE_CLOSE, [])
  | .close (some code) reason => (OPCODE_CLOSE, uint16BE code.toNat ++ reason.toUtf8)

/-- The payload of a close frame that says something: nothing, or a code that may stand in a frame
and a reason. -/
def ReadableClose (payload : Buffer) : Prop :=
  payload = [] ∨ 2 ≤ payload.length ∧ payload.length ≤ MAX_CONTROL_PAYLOAD_BYTES ∧
    isTransmittableCloseCode (FrameDecoder.readUInt16BE payload 0) = true ∧
    Buffer.IsUtf8 (payload.drop 2)

/-- The frames that are a message of their own. -/
inductive Readable : ℕ → Buffer → Prop
  | text {payload : Buffer} (h : payload.IsUtf8) : Readable OPCODE_TEXT payload
  | binary (payload : Buffer) : Readable OPCODE_BINARY payload
  | ping {payload : Buffer} (h : payload.length ≤ MAX_CONTROL_PAYLOAD_BYTES) :
      Readable OPCODE_PING payload
  | pong {payload : Buffer} (h : payload.length ≤ MAX_CONTROL_PAYLOAD_BYTES) :
      Readable OPCODE_PONG payload
  | close {payload : Buffer} (h : ReadableClose payload) : Readable OPCODE_CLOSE payload

/-- The text of the frame has no byte order mark in front. -/
def Unmarked (payload : Buffer) : Prop :=
  (opcode = OPCODE_TEXT → ¬ byteOrderMark <+: payload) ∧
    (opcode = OPCODE_CLOSE → ¬ byteOrderMark <+: payload.drop 2)

structure FrameDecoder.Idle (d : FrameDecoder) : Prop where
  open_ : d.failed = false
  buffer : d.buffer = []
  whole : d.fragmentOpcode = none

lemma Buffer.isUtf8_of_decodeUtf8Fatal {b : Buffer} {text : JsString}
    (h : b.decodeUtf8Fatal = some text) : b.IsUtf8 := by
  by_cases hmark : byteOrderMark <+: b
  · obtain ⟨body, rfl⟩ := hmark
    rw [decodeUtf8Fatal_mark] at h
    obtain ⟨points, hpoints, -⟩ := Option.map_eq_some_iff.mp h
    obtain ⟨hscalars, hbody⟩ := utf8CodePoints_sound (Nat.le_refl _) (mapM_id_eq_some.mp hpoints)
    refine ⟨0xFEFF :: points, fun p hp => ?_, ?_⟩
    · rcases List.mem_cons.mp hp with rfl | hp
      · decide
      · exact hscalars p hp
    · conv_lhs => rw [hbody]
      rfl
  · rw [decodeUtf8Fatal_plain hmark] at h
    obtain ⟨points, hpoints, -⟩ := Option.map_eq_some_iff.mp h
    exact ⟨points, utf8CodePoints_sound (Nat.le_refl _) (mapM_id_eq_some.mp hpoints)⟩

lemma uint16BE_readUInt16BE {payload : Buffer} (h : 2 ≤ payload.length) :
    uint16BE (FrameDecoder.readUInt16BE payload 0) = payload.take 2 := by
  obtain ⟨a, b, rest, rfl⟩ : ∃ a b rest, payload = a :: b :: rest := by
    match payload, h with
    | a :: b :: rest, _ => exact ⟨a, b, rest, rfl⟩
  have ha := a.toNat_lt
  have hb := b.toNat_lt
  simp only [uint16BE, FrameDecoder.readUInt16BE, List.getD_cons_zero, List.getD_cons_succ,
    Nat.zero_add, List.take_succ_cons, List.take_zero]
  rw [show (a.toNat * 256 + b.toNat) / 256 = a.toNat by omega,
    show (a.toNat * 256 + b.toNat) % 256 = b.toNat by omega, UInt8.ofNat_toNat, UInt8.ofNat_toNat]

/-- What a frame is read as: a message that stands for it, or a failure. -/
def ReadAs (payload : Buffer) (step : FrameStep) : Prop :=
  (Readable opcode payload ∧ ∃ message, step = .frame (some message) ∧
      (Unmarked opcode payload → message.content = (opcode, payload))) ∨
    (¬ Readable opcode payload ∧ ∃ failure, step = .failed failure)

lemma not_readable_of_length {opcode : ℕ} {payload : Buffer} (hcontrol : opcode &&& 0x8 ≠ 0)
    (hlength : MAX_CONTROL_PAYLOAD_BYTES < payload.length) : ¬ Readable opcode payload := by
  intro h
  cases h with
  | text => exact hcontrol (by decide)
  | binary => exact hcontrol (by decide)
  | ping h => omega
  | pong h => omega
  | close h =>
    rcases h with rfl | ⟨-, hle, -⟩
    · simp at hlength
    · omega

lemma readAs_text (payload : Buffer) :
    ReadAs OPCODE_TEXT payload (FrameDecoder.completeMessage OPCODE_TEXT payload) := by
  cases htext : payload.decodeUtf8Fatal with
  | some text =>
    refine .inl ⟨.text (Buffer.isUtf8_of_decodeUtf8Fatal htext), .text text,
      FrameDecoder.completeMessage_text htext, fun hunmarked => ?_⟩
    have hsame := (Buffer.decodeUtf8Fatal_toUtf8_iff htext).mpr (hunmarked.1 rfl)
    rw [DecodedMessage.content, hsame]
  | none =>
    refine .inr ⟨fun h => ?_, ⟨1007, js "text frame is not valid UTF-8"⟩, ?_⟩
    · cases h with
      | text h =>
        obtain ⟨text, hread⟩ := h.decodeUtf8Fatal
        rw [htext] at hread
        cases hread
    · rw [FrameDecoder.completeMessage, if_pos rfl, htext]
      rfl

/-- A close frame that is not too long is read as itself, or refused. -/
lemma readAs_close {payload : Buffer} (hlength : payload.length ≤ MAX_CONTROL_PAYLOAD_BYTES) :
    ReadAs OPCODE_CLOSE payload (FrameDecoder.readClose payload) := by
  have hreadable : Readable OPCODE_CLOSE payload → ReadableClose payload := by
    intro h
    cases h with
    | close h => exact h
  unfold FrameDecoder.readClose
  by_cases hempty : payload.length = 0
  · obtain rfl := List.length_eq_zero_iff.mp hempty
    exact .inl ⟨.close (.inl rfl), _, rfl, fun _ => rfl⟩
  rw [if_neg hempty]
  by_cases hone : payload.length = 1
  · rw [if_pos hone]
    refine .inr ⟨fun h => ?_, _, rfl⟩
    rcases hreadable h with rfl | ⟨htwo, -⟩
    · exact hempty rfl
    · omega
  rw [if_neg hone]
  dsimp only
  by_cases hcode : isTransmittableCloseCode (FrameDecoder.readUInt16BE payload 0) = true
  · rw [if_neg (by simp [hcode])]
    cases hreason : Buffer.decodeUtf8Fatal (payload.drop 2) with
    | some reason =>
      refine .inl ⟨.close (.inr ⟨by omega, hlength, hcode,
        Buffer.isUtf8_of_decodeUtf8Fatal hreason⟩), _, rfl, fun hunmarked => ?_⟩
      have hsame := (Buffer.decodeUtf8Fatal_toUtf8_iff hreason).mpr (hunmarked.2 rfl)
      rw [DecodedMessage.content, hsame, Int.toNat_natCast, uint16BE_readUInt16BE (by omega),
        List.take_append_drop]
    | none =>
      refine .inr ⟨fun h => ?_, _, rfl⟩
      rcases hreadable h with rfl | ⟨-, -, -, hutf8⟩
      · exact hempty rfl
      · obtain ⟨reason, hread⟩ := hutf8.decodeUtf8Fatal
        rw [hreason] at hread
        cases hread
  · rw [if_pos (by simp [hcode])]
    refine .inr ⟨fun h => ?_, _, rfl⟩
    rcases hreadable h with rfl | ⟨-, -, htransmittable, -⟩
    · exact hempty rfl
    · exact hcode htransmittable

namespace FrameDecoder

/-- The header of a frame with FIN within the cap, between two messages: only a control frame that
is too long is refused. -/
lemma checkHeader_idle {d : FrameDecoder} (hd : d.Idle) (opcode : ℕ) {n : ℕ}
    (hcap : n ≤ d.maxMessageBytes) :
    d.checkHeader opcode n true =
      if opcode &&& 0x8 ≠ 0 ∧ MAX_CONTROL_PAYLOAD_BYTES < n then
        some (.fail 1002 "control frame payload over 125 bytes")
      else none := by
  unfold checkHeader
  by_cases hcontrol : opcode &&& 0x8 ≠ 0
  · rw [if_pos hcontrol, if_neg (by simp)]
    simp only [hcontrol, ne_eq, not_false_eq_true, true_and]
  · rw [if_neg hcontrol, if_neg (by omega), if_neg (by simp [hd.whole]),
      if_neg fun h => hcontrol h.1]

/-- **What a whole frame means between two messages.** -/
lemma readPayload_idle {d : FrameDecoder} (hd : d.Idle) (opcode : ℕ) (payload : Buffer)
    (hlength : opcode &&& 0x8 ≠ 0 → payload.length ≤ MAX_CONTROL_PAYLOAD_BYTES) :
    (d.readPayload opcode payload true).2 = d ∧
      ReadAs opcode payload (d.readPayload opcode payload true).1 := by
  unfold readPayload
  by_cases hping : opcode = OPCODE_PING
  · subst hping
    exact ⟨rfl, .inl ⟨.ping (hlength (by decide)), _, rfl, fun _ => rfl⟩⟩
  rw [if_neg hping]
  by_cases hpong : opcode = OPCODE_PONG
  · subst hpong
    exact ⟨rfl, .inl ⟨.pong (hlength (by decide)), _, rfl, fun _ => rfl⟩⟩
  rw [if_neg hpong]
  by_cases hclose : opcode = OPCODE_CLOSE
  · subst hclose
    exact ⟨rfl, readAs_close (hlength (by decide))⟩
  rw [if_neg hclose]
  by_cases hcontinuation : opcode = OPCODE_CONTINUATION
  · subst hcontinuation
    rw [if_pos rfl, readContinuation, hd.whole]
    exact ⟨rfl, .inr ⟨by rintro ⟨⟩, _, rfl⟩⟩
  rw [if_neg hcontinuation]
  by_cases htext : opcode = OPCODE_TEXT
  · subst htext
    rw [if_pos (.inl rfl), readDataStart, if_neg (by simp [hd.whole]), if_pos rfl]
    exact ⟨rfl, readAs_text payload⟩
  by_cases hbinary : opcode = OPCODE_BINARY
  · subst hbinary
    rw [if_pos (.inr rfl), readDataStart, if_neg (by simp [hd.whole]), if_pos rfl]
    exact ⟨rfl, .inl ⟨.binary payload, _, rfl, fun _ => rfl⟩⟩
  rw [if_neg (not_or.mpr ⟨htext, hbinary⟩)]
  refine ⟨rfl, .inr ⟨fun h => ?_, _, rfl⟩⟩
  cases h with
  | text => exact htext rfl
  | binary => exact hbinary rfl
  | ping => exact hping rfl
  | pong => exact hpong rfl
  | close => exact hclose rfl

lemma readFrame_idle {d : FrameDecoder} (hd : d.Idle) {p : FramePiece} {opcode : ℕ}
    (hopcode : opcode < 16) (hcap : p.payload.length ≤ d.maxMessageBytes) :
    ∃ step, ReadAs opcode p.payload step ∧
      ((d.more (p.bytes opcode true)).readFrame = (step, d) ∨
        ∃ failure d', step = .failed failure ∧
          (d.more (p.bytes opcode true)).readFrame = (step, d')) := by
  have hbuffer : (d.more (p.bytes opcode true)).buffer = p.bytes opcode true ++ [] := by
    rw [more_buffer, hd.buffer, List.nil_append, List.append_nil]
  have hsame : { d.more (p.bytes opcode true) with buffer := [] } = d := by
    rw [← hd.buffer]
    rfl
  have hread := readFrame_piece true [] hopcode hbuffer
  rw [if_neg (by rw [more_maxMessageBytes]; omega), hsame] at hread
  have hcheck : (d.more (p.bytes opcode true)).checkHeader opcode p.payload.length true =
      d.checkHeader opcode p.payload.length true := rfl
  rw [hcheck, checkHeader_idle hd opcode hcap] at hread
  by_cases hlong : opcode &&& 0x8 ≠ 0 ∧ MAX_CONTROL_PAYLOAD_BYTES < p.payload.length
  · rw [if_pos hlong] at hread
    exact ⟨_, .inr ⟨not_readable_of_length hlong.1 hlong.2, _, rfl⟩, .inr ⟨_, _, rfl, hread⟩⟩
  · rw [if_neg hlong] at hread
    obtain ⟨hstate, hmeaning⟩ := readPayload_idle hd opcode p.payload fun hcontrol =>
      Nat.le_of_not_lt fun hlt => hlong ⟨hcontrol, hlt⟩
    refine ⟨_, hmeaning, .inl ?_⟩
    rw [hread]
    exact Prod.ext rfl hstate

end FrameDecoder

/-- **What the decoder makes of a written frame without its mask.** A decoder between two messages
whose cap is not less than the payload delivers exactly one message, which stands for the frame
unless a byte order mark is in front of its text, and is as it was; any frame that is no message of
its own it refuses, and delivers nothing. -/
theorem encodeFrame_decoded {opcode : ℕ} (hopcode : opcode < 16) (payload : Buffer)
    (hlength : payload.length < 2 ^ 63) {d : FrameDecoder} (hd : d.Idle)
    (hcap : payload.length ≤ d.maxMessageBytes) :
    (Readable opcode payload → ∃ message,
      d.push (removeMask (encodeFrame mask opcode payload)) recordMessage [] =
        (d, [message], .ok false) ∧
      (Unmarked opcode payload → message.content = (opcode, payload))) ∧
    (¬ Readable opcode payload → ∃ d' failure,
      d.push (removeMask (encodeFrame mask opcode payload)) recordMessage [] =
        (d', [], .failed failure)) := by
  obtain ⟨step, hmeaning, hread⟩ := FrameDecoder.readFrame_idle hd
    (p := shortestPiece payload hlength) hopcode hcap
  rw [removeMask_encodeFrame mask hopcode payload hlength, FrameDecoder.push_eq_drain hd.open_]
  rcases hmeaning with ⟨hreadable, message, rfl, hcontent⟩ | ⟨hunreadable, failure, rfl⟩
  · refine ⟨fun _ => ⟨message, ?_, hcontent⟩, fun h => absurd hreadable h⟩
    rcases hread with hread | ⟨failure, d', hfailed, -⟩
    · have hrest : d.readFrame = (.incomplete, d) := by
        unfold FrameDecoder.readFrame
        rw [hd.buffer]
      rw [FrameDecoder.drain_frame recordMessage_continue hread,
        FrameDecoder.drain_incomplete hrest]
      rfl
    · cases hfailed
  · refine ⟨fun h => absurd h hunreadable, fun _ => ?_⟩
    rcases hread with hread | ⟨failure', d', hfailed, hread⟩
    · exact ⟨_, _, FrameDecoder.drain_failed hread []⟩
    · exact ⟨_, _, FrameDecoder.drain_failed hread []⟩

/-- **Frames that are written and read.** What is written is a valid frame of a client, for every
opcode and payload; and without its mask a decoder between two messages reads it as the one message
it stands for, or refuses it when it is no message of its own. -/
theorem encodeFrame_roundTrip (mask : Mask) (opcode : ℕ) (payload : Buffer)
    (hlength : payload.length < 2 ^ 63) :
    ValidClientFrame (encodeFrame mask opcode payload) opcode payload mask ∧
    ∀ d : FrameDecoder, opcode < 16 → d.Idle → payload.length ≤ d.maxMessageBytes →
      (Readable opcode payload → ∃ message,
        d.push (removeMask (encodeFrame mask opcode payload)) recordMessage [] =
          (d, [message], .ok false) ∧
        (Unmarked opcode payload → message.content = (opcode, payload))) ∧
      (¬ Readable opcode payload → ∃ d' failure,
        d.push (removeMask (encodeFrame mask opcode payload)) recordMessage [] =
          (d', [], .failed failure)) :=
  ⟨encodeFrame_valid mask opcode payload hlength, fun _ hopcode hd hcap =>
    encodeFrame_decoded mask hopcode payload hlength hd hcap⟩

theorem encodeFrame_roundTrip_hi :
    ValidClientFrame (encodeFrame ⟨1, 2, 3, 4⟩ OPCODE_TEXT [0x68, 0x69]) OPCODE_TEXT [0x68, 0x69]
        ⟨1, 2, 3, 4⟩ ∧
      ∃ message, FrameDecoder.push { maxMessageBytes := 2 }
          (removeMask (encodeFrame ⟨1, 2, 3, 4⟩ OPCODE_TEXT [0x68, 0x69])) recordMessage [] =
          ({ maxMessageBytes := 2 }, [message], .ok false) ∧
        (Unmarked OPCODE_TEXT [0x68, 0x69] →
          message.content = (OPCODE_TEXT, [0x68, 0x69])) := by
  obtain ⟨hvalid, hread⟩ :=
    encodeFrame_roundTrip ⟨1, 2, 3, 4⟩ OPCODE_TEXT [0x68, 0x69] (by decide)
  exact ⟨hvalid, (hread { maxMessageBytes := 2 } (by decide) ⟨rfl, rfl, rfl⟩ (by decide)).1
    (.text ⟨[0x68, 0x69], by decide, by decide⟩)⟩

theorem encodeFrame_longPing :
    (List.replicate 126 (0 : UInt8)).length ≤ 1000 ∧
      (FrameDecoder.push { maxMessageBytes := 1000 }
        (removeMask (encodeFrame ⟨1, 2, 3, 4⟩ OPCODE_PING (List.replicate 126 0)))
        recordMessage []).2 =
        ([], .failed ⟨1002, js "control frame payload over 125 bytes"⟩) := by
  decide +kernel

/-! ## A stream of written frames -/

/-- A frame that is a message of its own, and the mask it is written under. -/
structure WrittenFrame where
  mask : Mask
  opcode : ℕ
  payload : Buffer
  readable : Readable opcode payload
  length_lt : payload.length < 2 ^ 63

namespace WrittenFrame

variable (f : WrittenFrame)

/-- The frame on the wire of a server, which does not mask. -/
def wire : Buffer := removeMask (encodeFrame f.mask f.opcode f.payload)

/-- The message stands for the frame, unless a byte order mark is in front of its text. -/
def ReadAs (message : DecodedMessage) : Prop :=
  Unmarked f.opcode f.payload → message.content = (f.opcode, f.payload)

lemma opcode_lt : f.opcode < 16 := by
  have hopcode : ∀ opcode payload, Readable opcode payload → opcode < 16 := by
    rintro _ _ (_ | _ | _ | _ | _) <;> decide
  exact hopcode _ _ f.readable

end WrittenFrame

/-- What a decoder between two messages reads first, whatever is behind the frame. -/
lemma readFrame_wire_append {d : FrameDecoder} (hd : d.Idle) {f : WrittenFrame}
    (hcap : f.payload.length ≤ d.maxMessageBytes) :
    ∃ message, f.ReadAs message ∧ ∀ behind,
      (d.more (f.wire ++ behind)).readFrame = (.frame (some message), d.more behind) := by
  obtain ⟨step, hmeaning, hread⟩ := FrameDecoder.readFrame_idle hd
    (p := shortestPiece f.payload f.length_lt) f.opcode_lt hcap
  rcases hmeaning with ⟨-, message, rfl, hcontent⟩ | ⟨hunreadable, -⟩
  · refine ⟨message, hcontent, fun behind => ?_⟩
    rcases hread with hread | ⟨_, _, heq, -⟩
    · rw [WrittenFrame.wire, removeMask_encodeFrame f.mask f.opcode_lt f.payload f.length_lt,
        FrameDecoder.more_append, FrameDecoder.readFrame_more behind (by rw [hread]; simp), hread]
    · cases heq
  · exact absurd f.readable hunreadable

/-- Written frames are read one after the other, and then what is behind them. -/
lemma drain_wires {d : FrameDecoder} (hd : d.Idle) {frames : List WrittenFrame}
    (hcap : ∀ f ∈ frames, f.payload.length ≤ d.maxMessageBytes) (earlier : List DecodedMessage) :
    ∃ messages, List.Forall₂ WrittenFrame.ReadAs frames messages ∧ ∀ behind,
      FrameDecoder.drain recordMessage (d.more ((frames.map (·.wire)).flatten ++ behind)) earlier =
        FrameDecoder.drain recordMessage (d.more behind) (earlier ++ messages) := by
  induction frames generalizing earlier with
  | nil => exact ⟨[], .nil, by simp⟩
  | cons f frames ih =>
    obtain ⟨message, hmessage, hread⟩ := readFrame_wire_append hd (hcap f List.mem_cons_self)
    obtain ⟨messages, hall, hrest⟩ :=
      ih (fun g hg => hcap g (List.mem_cons_of_mem _ hg)) (earlier ++ [message])
    refine ⟨message :: messages, .cons hmessage hall, fun behind => ?_⟩
    rw [List.map_cons, List.flatten_cons, List.append_assoc,
      FrameDecoder.drain_frame recordMessage_continue (hread _)]
    simpa [FrameDecoder.delivered, recordMessage] using hrest behind

/-- **Frames that are written one after the other, in any pieces.** A new decoder whose cap holds
each of them delivers one message for each, in order, and the stream stays open. -/
theorem decodeChunks_wires (maxMessageBytes : ℕ) (frames : List WrittenFrame)
    (hcap : ∀ f ∈ frames, f.payload.length ≤ maxMessageBytes) (chunks : List Buffer)
    (hstream : chunks.flatten = (frames.map (·.wire)).flatten) :
    ∃ messages, List.Forall₂ WrittenFrame.ReadAs frames messages ∧
      decodeChunks maxMessageBytes chunks = (messages, none) := by
  have hd : ({ maxMessageBytes } : FrameDecoder).Idle := ⟨rfl, rfl, rfl⟩
  obtain ⟨messages, hall, hdrain⟩ := drain_wires hd hcap []
  refine ⟨messages, hall, ?_⟩
  have hwhole := hdrain []
  rw [List.append_nil, FrameDecoder.more_nil,
    FrameDecoder.drain_incomplete (d := { maxMessageBytes }) rfl] at hwhole
  rw [decodeChunks, FrameDecoder.pushAll_eq_push recordMessage_continue,
    FrameDecoder.push_eq_drain hd.open_, hstream, hwhole]
  rfl

theorem decodeChunks_wires_ping :
    ∃ messages, List.Forall₂ WrittenFrame.ReadAs
        [⟨⟨1, 2, 3, 4⟩, OPCODE_BINARY, [7], .binary _, by decide⟩,
          ⟨⟨5, 6, 7, 8⟩, OPCODE_PING, [], .ping (by decide), by decide⟩] messages ∧
      decodeChunks 1 [[0x82], [1, 7, 0x89], [0]] = (messages, none) :=
  decodeChunks_wires 1 [⟨⟨1, 2, 3, 4⟩, OPCODE_BINARY, [7], .binary _, by decide⟩,
    ⟨⟨5, 6, 7, 8⟩, OPCODE_PING, [], .ping (by decide), by decide⟩] (by simp) _ (by decide)

end Isomux
