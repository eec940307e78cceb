import Isomux.AppSockets.FrameChunks
import Isomux.Runtime.Utf8

set_option autoImplicit false

/-!
# The text of a message

The decoder hands over the text of a message as a string. The string stands for the bytes of the
message, unless these begin with a byte order mark: the strict decoder of the runtime drops it.

## Main results

* `Isomux.FrameDecoder.readFrame_piece` — the decoder reads a frame as it was written.
* `Isomux.decodeChunks_textMessage` — a message of text is delivered as one text.
* `Isomux.decoded_text_exact_iff` — the text is that of the message unless a mark is in front.
-/

namespace Isomux

/-! ## Frames of the peer -/

/-- How a frame writes the length of its payload. The shortest form is not required. -/
inductive LengthForm where
  | short
  | medium
  | long
  deriving DecidableEq

def LengthForm.Fits : LengthForm → ℕ → Prop
  | .short, n => n < 126
  | .medium, n => n < 2 ^ 16
  | .long, n => n < 2 ^ 63

structure FramePiece where
  payload : Buffer
  form : LengthForm
  fits : form.Fits payload.length

variable (p : FramePiece)

def FramePiece.lengthBytes : Buffer :=
  match p.form with
  | .short => [UInt8.ofNat p.payload.length]
  | .medium => 126 :: uint16BE p.payload.length
  | .long => 127 :: uint64BE p.payload.length

/-- A frame as a server writes it: without a mask. -/
def FramePiece.bytes (opcode : ℕ) (fin : Bool) : Buffer :=
  UInt8.ofNat ((if fin then 0x80 else 0) + opcode) :: (p.lengthBytes ++ p.payload)

/-- A message in frames: the first has its opcode, the others continue it, the last has FIN. -/
def messageBytes (opcode : ℕ) (p : FramePiece) : List FramePiece → Buffer
  | [] => p.bytes opcode true
  | q :: rest => p.bytes opcode false ++ messageBytes OPCODE_CONTINUATION q rest

def messagePayload (rest : List FramePiece) : Buffer :=
  p.payload ++ rest.flatMap FramePiece.payload

/-! ## Reading a frame -/

lemma firstByte_read {opcode : ℕ} (hopcode : opcode < 16) (fin : Bool) :
    (UInt8.ofNat ((if fin then 0x80 else 0) + opcode) &&& 0x80 != 0) = fin ∧
      (UInt8.ofNat ((if fin then 0x80 else 0) + opcode) &&& 0x70 != 0) = false ∧
      (UInt8.ofNat ((if fin then 0x80 else 0) + opcode) &&& 0x0f).toNat = opcode := by
  revert fin
  revert opcode
  decide

lemma secondByte_read {n : ℕ} (hn : n < 128) :
    (UInt8.ofNat n &&& 0x80 != 0) = false ∧ (UInt8.ofNat n &&& 0x7f).toNat = n := by
  revert n
  decide

lemma readUInt16BE_uint16BE {n : ℕ} (hn : n < 2 ^ 16) (b0 b1 : UInt8) (rest : Buffer) :
    FrameDecoder.readUInt16BE (b0 :: b1 :: (uint16BE n ++ rest)) 2 = n := by
  simp only [FrameDecoder.readUInt16BE, uint16BE, List.cons_append, List.nil_append,
    List.getD_cons_succ, List.getD_cons_zero]
  rw [toNat_ofNat_byte (by omega), toNat_ofNat_byte (by omega)]
  omega

lemma readBigUInt64BE_uint64BE {n : ℕ} (hn : n < 2 ^ 63) (b0 b1 : UInt8) (rest : Buffer) :
    FrameDecoder.readBigUInt64BE (b0 :: b1 :: (uint64BE n ++ rest)) 2 = n := by
  have hrange : List.range 8 = [0, 1, 2, 3, 4, 5, 6, 7] := by decide
  have hbyte : ∀ shift, (UInt8.ofNat (n / 2 ^ shift % 256)).toNat = n / 2 ^ shift % 256 :=
    fun shift => toNat_ofNat_byte (Nat.mod_lt _ (by omega))
  simp only [FrameDecoder.readBigUInt64BE, hrange, uint64BE, List.map_cons, List.map_nil,
    List.cons_append, List.nil_append, List.foldl_cons, List.foldl_nil, Nat.reduceAdd,
    List.getD_cons_succ, List.getD_cons_zero, hbyte]
  omega

namespace FrameDecoder

variable {d : FrameDecoder}

/-- The length of a frame is read as it was written, or refused where eight bytes of it are over
the cap. -/
lemma readLength_piece {p : FramePiece} {b0 : UInt8} {rest : Buffer}
    (hbuffer : d.buffer = b0 :: (p.lengthBytes ++ rest)) :
    ∃ second tail, p.lengthBytes = second :: tail ∧ (second &&& 0x80 != 0) = false ∧
      d.readLength (second &&& 0x7f).toNat =
        if p.form = .long ∧ d.maxMessageBytes < p.payload.length then
          .error (.fail 1009 s!"frame length {p.payload.length} over the message cap")
        else .ok (p.payload.length, tail.length + 2) := by
  obtain ⟨payload, form, hfits⟩ := p
  cases form with
  | short =>
    change payload.length < 126 at hfits
    obtain ⟨hmask, hlength⟩ := secondByte_read (show payload.length < 128 by omega)
    refine ⟨_, _, rfl, hmask, ?_⟩
    rw [hlength, readLength, if_neg (by omega), if_neg (by omega), if_neg fun h => by cases h.1]
    rfl
  | medium =>
    change payload.length < 2 ^ 16 at hfits
    have hmore : ¬ d.buffer.length < 4 := by
      simp only [hbuffer, FramePiece.lengthBytes, uint16BE, List.length_cons, List.length_append]
      omega
    refine ⟨126, _, rfl, by decide, ?_⟩
    rw [readLength, if_pos (by decide), if_neg hmore, hbuffer, if_neg fun h => by cases h.1]
    exact congrArg (fun n => Except.ok (n, 4)) (readUInt16BE_uint16BE hfits b0 126 rest)
  | long =>
    change payload.length < 2 ^ 63 at hfits
    have hmore : ¬ d.buffer.length < 10 := by
      simp only [hbuffer, FramePiece.lengthBytes, uint64BE, List.length_cons, List.length_append,
        List.length_map]
      omega
    have hread : readBigUInt64BE d.buffer 2 = payload.length := by
      rw [hbuffer]
      exact readBigUInt64BE_uint64BE hfits b0 127 rest
    refine ⟨127, _, rfl, by decide, ?_⟩
    rw [readLength, if_neg (by decide), if_pos (by decide), if_neg hmore]
    simp only [hread, true_and]
    rw [if_neg (by omega)]
    rfl

/-- A frame that is in front of the buffer is read as it was written, or refused by its length or
by its header. -/
theorem readFrame_piece {p : FramePiece} {opcode : ℕ} (fin : Bool)
    (rest : Buffer) (hopcode : opcode < 16) (hbuffer : d.buffer = p.bytes opcode fin ++ rest) :
    d.readFrame =
      if p.form = .long ∧ d.maxMessageBytes < p.payload.length then
        (.fail 1009 s!"frame length {p.payload.length} over the message cap", d)
      else
        match d.checkHeader opcode p.payload.length fin with
        | some step => (step, d)
        | none => readPayload { d with buffer := rest } opcode p.payload fin := by
  obtain ⟨hfin, hreserved, hop⟩ := firstByte_read hopcode fin
  have hfront : d.buffer = UInt8.ofNat ((if fin then 0x80 else 0) + opcode) ::
      (p.lengthBytes ++ (p.payload ++ rest)) := by
    rw [hbuffer, FramePiece.bytes, List.cons_append, List.append_assoc]
  obtain ⟨second, tail, hbytes, hmask, hlength⟩ := readLength_piece hfront
  rw [hbytes, List.cons_append] at hfront
  have hdrop : d.buffer.drop (tail.length + 2) = p.payload ++ rest := by
    rw [hfront, List.drop_succ_cons, List.drop_succ_cons, List.drop_left]
  have hwhole : ¬ d.buffer.length < tail.length + 2 + p.payload.length := by
    rw [hfront]
    simp only [List.length_cons, List.length_append]
    omega
  have hrest : d.buffer.drop (tail.length + 2 + p.payload.length) = rest := by
    rw [← List.drop_drop, hdrop, List.drop_left]
  unfold readFrame
  split
  case h_2 _ hshort => exact absurd hfront (hshort _ _ _)
  case h_1 _ first' second' tail' hsplit =>
    rw [hsplit, List.cons.injEq, List.cons.injEq] at hfront
    obtain ⟨rfl, rfl, -⟩ := hfront
    dsimp only
    rw [hreserved, hmask, hop, hfin, hlength, if_neg (by decide), if_neg (by decide)]
    by_cases hlong : p.form = .long ∧ d.maxMessageBytes < p.payload.length
    · rw [if_pos hlong, if_pos hlong]
    · rw [if_neg hlong, if_neg hlong]
      dsimp only
      cases d.checkHeader opcode p.payload.length fin with
      | some step => rfl
      | none =>
        dsimp only
        rw [if_neg hwhole, hrest, hdrop, List.take_left]

lemma readFrame_piece_fine {p : FramePiece} {opcode : ℕ} (fin : Bool)
    (rest : Buffer) (hopcode : opcode < 16) (hbuffer : d.buffer = p.bytes opcode fin ++ rest)
    (hcap : p.payload.length ≤ d.maxMessageBytes)
    (hcheck : d.checkHeader opcode p.payload.length fin = none) :
    d.readFrame = readPayload { d with buffer := rest } opcode p.payload fin := by
  rw [readFrame_piece fin rest hopcode hbuffer, if_neg (by omega), hcheck]

end FrameDecoder

/-! ## Reading a message -/

lemma recordMessage_continue (messages : List DecodedMessage) (message : DecodedMessage) :
    (recordMessage messages message).2 = .continue := rfl

lemma messagePayload_cons (p q : FramePiece) (rest : List FramePiece) :
    messagePayload p (q :: rest) = p.payload ++ messagePayload q rest := by
  simp [messagePayload]

lemma length_payload_le (rest : List FramePiece) :
    p.payload.length ≤ (messagePayload p rest).length := by
  simp [messagePayload]

namespace FrameDecoder

variable {d : FrameDecoder} {text : JsString}

lemma completeMessage_text {payload : Buffer}
    (htext : payload.decodeUtf8Fatal = some text) :
    completeMessage OPCODE_TEXT payload = .frame (some (.text text)) := by
  rw [completeMessage, if_pos rfl, htext]

lemma checkHeader_continuation {n : ℕ} (fin : Bool)
    (hcap : d.fragmentBytes + n ≤ d.maxMessageBytes) :
    d.checkHeader OPCODE_CONTINUATION n fin = none := by
  unfold checkHeader
  rw [if_neg (by decide), if_neg (by omega), if_neg fun h => by omega]

lemma checkHeader_text {n : ℕ} (fin : Bool) (hcap : n ≤ d.maxMessageBytes) :
    d.checkHeader OPCODE_TEXT n fin = none := by
  unfold checkHeader
  rw [if_neg (by decide), if_neg (by omega), if_neg fun h => absurd h.1 (by decide)]

/-- The frames that continue a text complete it.

**Proof sketch.** Induction on the frames behind the first. A frame that is not the last adds its
payload to the fragments, so that the fragments and the frames still to come are the text all
along. -/
lemma drain_continuations {p : FramePiece} {rest : List FramePiece}
    (messages : List DecodedMessage) (hopen : d.fragmentOpcode = some OPCODE_TEXT)
    (hbuffer : d.buffer = messageBytes OPCODE_CONTINUATION p rest)
    (hbytes : d.fragmentBytes = d.fragments.flatten.length)
    (hcap : d.fragmentBytes + (messagePayload p rest).length ≤ d.maxMessageBytes)
    (htext : Buffer.decodeUtf8Fatal (d.fragments.flatten ++ messagePayload p rest) = some text) :
    (drain recordMessage d messages).2 = (messages ++ [.text text], .ok false) := by
  induction rest generalizing d p with
  | nil =>
    have hlength := length_payload_le p []
    have hread : d.readFrame = (.frame (some (.text text)),
        { d with buffer := [], fragments := [], fragmentBytes := 0, fragmentOpcode := none }) := by
      rw [readFrame_piece_fine true [] (by decide)
        (by rw [hbuffer, messageBytes, List.append_nil]) (by omega)
        (checkHeader_continuation true (by omega))]
      have hwhole : (d.fragments ++ [p.payload]).flatten =
          d.fragments.flatten ++ messagePayload p [] := by
        simp [messagePayload]
      simp only [readPayload, readContinuation, hopen]
      rw [hwhole, completeMessage_text htext]
      rfl
    rw [drain_frame recordMessage_continue hread]
    rfl
  | cons q rest ih =>
    have hlength := length_payload_le p (q :: rest)
    rw [messagePayload_cons] at hcap htext
    rw [List.length_append] at hcap
    have hread : d.readFrame = (.frame none,
        { d with buffer := messageBytes OPCODE_CONTINUATION q rest,
                 fragments := d.fragments ++ [p.payload],
                 fragmentBytes := d.fragmentBytes + p.payload.length }) := by
      rw [readFrame_piece_fine false _ (by decide) hbuffer (by omega)
        (checkHeader_continuation false (by omega))]
      simp only [readPayload, readContinuation, hopen]
      rfl
    rw [drain_frame recordMessage_continue hread]
    refine ih hopen rfl ?_ ?_ ?_
    · simp [hbytes]
    · dsimp only
      omega
    · simpa using htext

/-- The frames of a text are delivered as that text. -/
lemma drain_textMessage {maxMessageBytes : ℕ} {p : FramePiece} {rest : List FramePiece}
    (hcap : (messagePayload p rest).length ≤ maxMessageBytes)
    (htext : (messagePayload p rest).decodeUtf8Fatal = some text) :
    (drain recordMessage { maxMessageBytes, buffer := messageBytes OPCODE_TEXT p rest } []).2 =
      ([.text text], .ok false) := by
  have hlength := length_payload_le p rest
  cases rest with
  | nil =>
    have hread : readFrame { maxMessageBytes, buffer := messageBytes OPCODE_TEXT p [] } =
        (.frame (some (.text text)), { maxMessageBytes }) := by
      rw [readFrame_piece_fine true [] (by decide)
        (by rw [messageBytes, List.append_nil]) (by dsimp only; omega)
        (checkHeader_text true (by dsimp only; omega))]
      have hwhole : p.payload = messagePayload p [] := by simp [messagePayload]
      simp only [readPayload, readDataStart]
      rw [hwhole, completeMessage_text htext]
      rfl
    rw [drain_frame recordMessage_continue hread]
    rfl
  | cons q rest =>
    rw [messagePayload_cons] at hcap htext
    rw [List.length_append] at hcap
    have hread : readFrame { maxMessageBytes, buffer := messageBytes OPCODE_TEXT p (q :: rest) } =
        (.frame none,
          { maxMessageBytes, buffer := messageBytes OPCODE_CONTINUATION q rest,
            fragmentOpcode := some OPCODE_TEXT, fragments := [p.payload],
            fragmentBytes := p.payload.length }) := by
      rw [readFrame_piece_fine false _ (by decide) rfl (by dsimp only; omega)
        (checkHeader_text false (by dsimp only; omega))]
      rfl
    rw [drain_frame recordMessage_continue hread]
    exact drain_continuations [] rfl rfl (by simp) hcap (by simpa using htext)

/-- What a close frame delivers encodes to the bytes behind its code, just if these do not begin
with a byte order mark. -/
lemma readClose_exact_iff {payload : Buffer} {code : Option CloseCode} {reason : JsString}
    (h : readClose payload = .frame (some (.close code reason))) :
    reason.toUtf8 = payload.drop 2 ↔ ¬ byteOrderMark <+: payload.drop 2 := by
  unfold readClose at h
  split_ifs at h with hnone hone
  · obtain rfl := List.length_eq_zero_iff.mp hnone
    cases h
    exact ⟨fun _ => by decide, fun _ => rfl⟩
  · cases h
  · dsimp only at h
    split_ifs at h
    · cases h
    · split at h
      · cases h
      case h_2 _ reason' hread =>
        cases h
        exact Buffer.decodeUtf8Fatal_toUtf8_iff hread

lemma checkHeader_close (d : FrameDecoder) (n : ℕ) :
    d.checkHeader OPCODE_CLOSE n true =
      if MAX_CONTROL_PAYLOAD_BYTES < n then
        some (.fail 1002 "control frame payload over 125 bytes")
      else none := by
  unfold checkHeader
  rw [if_pos (by decide), if_neg (by decide)]

/-- What is delivered of a close frame is what its payload means, whatever message is
unfinished. -/
lemma drain_close {p : FramePiece} (messages : List DecodedMessage)
    (hbuffer : d.buffer = p.bytes OPCODE_CLOSE true) {message : DecodedMessage}
    (h : (drain recordMessage d messages).2.1 = messages ++ [message]) :
    readClose p.payload = .frame (some message) := by
  have hnone : messages ≠ messages ++ [message] := by simp
  have hread := readFrame_piece true [] (by decide)
    (hbuffer.trans (List.append_nil (p.bytes OPCODE_CLOSE true)).symm)
  rw [checkHeader_close] at hread
  split_ifs at hread
  · rw [drain_failed hread] at h
    exact absurd h hnone
  · rw [drain_failed hread] at h
    exact absurd h hnone
  · change d.readFrame = (readClose p.payload, { d with buffer := [] }) at hread
    cases hclose : readClose p.payload with
    | incomplete => exact absurd hclose (readClose_ne_incomplete p.payload)
    | failed failure =>
      rw [hclose] at hread
      rw [drain_failed hread] at h
      exact absurd h hnone
    | frame delivery =>
      rw [hclose] at hread
      rw [drain_frame recordMessage_continue hread,
        drain_incomplete (d := { d with buffer := [] }) rfl] at h
      cases delivery with
      | none => exact absurd h hnone
      | some message' =>
        obtain rfl : message' = message := by simpa [delivered, recordMessage] using h
        rfl

end FrameDecoder

/-! ## The text that is delivered -/

/-- The frames of a message of valid text within the cap, in any pieces, are delivered as one text
and the stream stays open. -/
theorem decodeChunks_textMessage {maxMessageBytes : ℕ} {first : FramePiece}
    {rest : List FramePiece} {chunks : List Buffer}
    (hchunks : chunks.flatten = messageBytes OPCODE_TEXT first rest)
    (hcap : (messagePayload first rest).length ≤ maxMessageBytes) {text : JsString}
    (htext : (messagePayload first rest).decodeUtf8Fatal = some text) :
    decodeChunks maxMessageBytes chunks = ([.text text], none) := by
  have hdrain := FrameDecoder.drain_textMessage hcap htext
  unfold decodeChunks
  rw [FrameDecoder.pushAll_eq_drain recordMessage_continue rfl rfl, hchunks]
  change (FrameDecoder.outcome (FrameDecoder.drain recordMessage
    { maxMessageBytes, buffer := messageBytes OPCODE_TEXT first rest } [])).2 = _
  generalize FrameDecoder.drain recordMessage _ _ = result at hdrain
  obtain ⟨d, messages, result⟩ := result
  cases hdrain
  rfl

/-- The text of a message of valid text within the cap is the text that was sent, byte for byte,
just if its bytes do not begin with a byte order mark. The reason of a close frame is the one that
was sent just if its bytes do not begin with one, whatever message is unfinished. -/
theorem decoded_text_exact_iff (maxMessageBytes : ℕ) :
    (∀ (first : FramePiece) (rest : List FramePiece) (chunks : List Buffer),
      chunks.flatten = messageBytes OPCODE_TEXT first rest →
      (messagePayload first rest).length ≤ maxMessageBytes →
      (messagePayload first rest).IsUtf8 →
      ∃ text, decodeChunks maxMessageBytes chunks = ([.text text], none) ∧
        (text.toUtf8 = messagePayload first rest ↔
          ¬ byteOrderMark <+: messagePayload first rest)) ∧
    ∀ (d : FrameDecoder) (frame : FramePiece) (chunks : List Buffer) (code : Option CloseCode)
      (reason : JsString), d.failed = false → d.buffer = [] →
      chunks.flatten = frame.bytes OPCODE_CLOSE true →
      (d.pushAll recordMessage [] chunks).2.1 = [.close code reason] →
      (reason.toUtf8 = frame.payload.drop 2 ↔ ¬ byteOrderMark <+: frame.payload.drop 2) := by
  refine ⟨fun first rest chunks hchunks hcap hutf8 => ?_,
    fun d frame chunks code reason hfailed hbuffer hchunks hclose => ?_⟩
  · obtain ⟨text, htext⟩ := hutf8.decodeUtf8Fatal
    exact ⟨text, decodeChunks_textMessage hchunks hcap htext,
      Buffer.decodeUtf8Fatal_toUtf8_iff htext⟩
  · have hread : d.readFrame.1 = .incomplete := by
      unfold FrameDecoder.readFrame
      rw [hbuffer]
    rw [FrameDecoder.pushAll_eq_drain recordMessage_continue hfailed hread] at hclose
    have hmore : (d.more chunks.flatten).buffer = frame.bytes OPCODE_CLOSE true := by
      rw [FrameDecoder.more_buffer, hbuffer, hchunks, List.nil_append]
    have hdelivered : (FrameDecoder.drain recordMessage (d.more chunks.flatten) []).2.1 =
        [] ++ [.close code reason] := by
      rw [List.nil_append, ← hclose]
      generalize FrameDecoder.drain recordMessage _ _ = result
      obtain ⟨d, messages, result⟩ := result
      cases result <;> rfl
    exact FrameDecoder.readClose_exact_iff (FrameDecoder.drain_close [] hmore hdelivered)

theorem decoded_text_exact_iff_greeting :
    (∃ text,
      decodeChunks 16 [[0x01, 0x02, 0x68, 0xC3], [0x80, 0x01, 0xA9]] = ([.text text], none) ∧
      (text.toUtf8 = [0x68, 0xC3, 0xA9] ↔ ¬ byteOrderMark <+: [0x68, 0xC3, 0xA9])) ∧
      (JsString.toUtf8 (js "a") = [0xEF, 0xBB, 0xBF, 0x61] ↔
        ¬ byteOrderMark <+: [0xEF, 0xBB, 0xBF, 0x61]) :=
  ⟨(decoded_text_exact_iff 16).1 ⟨[0x68, 0xC3], .short, by unfold LengthForm.Fits; decide⟩
      [⟨[0xA9], .short, by unfold LengthForm.Fits; decide⟩] _ (by decide) (by decide)
      ⟨[0x68, 0xE9], by decide, by decide⟩,
    (decoded_text_exact_iff 16).2 { maxMessageBytes := 16 }
      ⟨[0x03, 0xE8, 0xEF, 0xBB, 0xBF, 0x61], .short, by unfold LengthForm.Fits; decide⟩
      [[0x88, 0x06, 0x03, 0xE8, 0xEF, 0xBB, 0xBF, 0x61]] (some 1000) (js "a") rfl rfl
      (by decide) (by decide)⟩

theorem text_loses_mark :
    Buffer.IsUtf8 [0xEF, 0xBB, 0xBF, 0x61] ∧
      decodeChunks 1000 [[0x81, 0x04, 0xEF, 0xBB, 0xBF, 0x61]] = ([.text (js "a")], none) ∧
      JsString.toUtf8 (js "a") ≠ [0xEF, 0xBB, 0xBF, 0x61] :=
  ⟨⟨[0xFEFF, 0x61], by decide, by decide⟩, by decide, by decide⟩

end Isomux
