import Isomux.AppSockets.Frames

set_option autoImplicit false

/-!
# A stream of frames in pieces

The decoder reads a byte stream that arrives in pieces. Whatever it reads off the front of its
buffer, a frame or a failure, it reads off the front of a longer buffer too, so it does not matter
where the stream was cut.

## Main results

* `Isomux.FrameDecoder.readFrame_more` — what is read is read with more bytes too.
* `Isomux.FrameDecoder.pushAll_eq_push` — the pieces of a stream are read as the whole stream is.
* `Isomux.decodeChunks_eq` — two ways of cutting a stream give the same messages and the same end.
-/

namespace Isomux

namespace FrameDecoder

/-- A decoder with more bytes behind its buffer. -/
def more (d : FrameDecoder) (bytes : Buffer) : FrameDecoder :=
  { d with buffer := d.buffer ++ bytes }

@[simp] lemma more_buffer (d : FrameDecoder) (bytes : Buffer) :
    (d.more bytes).buffer = d.buffer ++ bytes := rfl

@[simp] lemma more_maxMessageBytes (d : FrameDecoder) (bytes : Buffer) :
    (d.more bytes).maxMessageBytes = d.maxMessageBytes := rfl

lemma more_nil (d : FrameDecoder) : d.more [] = d := by
  unfold more
  rw [List.append_nil]

lemma more_append (d : FrameDecoder) (bytes later : Buffer) :
    d.more (bytes ++ later) = (d.more bytes).more later := by
  simp [more]

/-! ## One frame -/

lemma readDataStart_more (d : FrameDecoder) (bytes : Buffer) (opcode : ℕ) (payload : Buffer)
    (fin : Bool) : (d.more bytes).readDataStart opcode payload fin =
      ((d.readDataStart opcode payload fin).1,
        (d.readDataStart opcode payload fin).2.more bytes) := by
  unfold readDataStart
  by_cases hopen : d.fragmentOpcode.isSome
  · simp [more, hopen]
  · cases fin <;> simp [more, hopen]

lemma readContinuation_more (d : FrameDecoder) (bytes payload : Buffer) (fin : Bool) :
    (d.more bytes).readContinuation payload fin =
      ((d.readContinuation payload fin).1, (d.readContinuation payload fin).2.more bytes) := by
  unfold readContinuation
  cases hopen : d.fragmentOpcode with
  | none => simp [more, hopen]
  | some opcode => cases fin <;> simp [more, hopen]

lemma readPayload_more (d : FrameDecoder) (bytes : Buffer) (opcode : ℕ) (payload : Buffer)
    (fin : Bool) : (d.more bytes).readPayload opcode payload fin =
      ((d.readPayload opcode payload fin).1, (d.readPayload opcode payload fin).2.more bytes) := by
  unfold readPayload
  split_ifs
  · rfl
  · rfl
  · rfl
  · exact readContinuation_more d bytes payload fin
  · exact readDataStart_more d bytes opcode payload fin
  · rfl

variable {d : FrameDecoder} {stream : Buffer} (bytes : Buffer)

lemma getD_append {i : ℕ} (hi : i < stream.length) :
    (stream ++ bytes).getD i 0 = stream.getD i 0 := by
  simp [List.getD, List.getElem?_append_left hi]

lemma readUInt16BE_append (h : 4 ≤ stream.length) :
    readUInt16BE (stream ++ bytes) 2 = readUInt16BE stream 2 := by
  simp only [readUInt16BE]
  rw [getD_append bytes (by omega), getD_append bytes (by omega)]

lemma readBigUInt64BE_append (h : 10 ≤ stream.length) :
    readBigUInt64BE (stream ++ bytes) 2 = readBigUInt64BE stream 2 := by
  unfold readBigUInt64BE
  refine List.foldl_ext _ _ 0 fun n i hi => ?_
  rw [getD_append bytes (by rw [List.mem_range] at hi; omega)]

lemma readLength_more {short : ℕ} (bytes : Buffer)
    (hread : d.readLength short ≠ .error .incomplete) :
    (d.more bytes).readLength short = d.readLength short := by
  unfold readLength at hread ⊢
  by_cases h126 : short = 126
  · by_cases hshort : d.buffer.length < 4
    · exact absurd (by rw [if_pos h126, if_pos hshort]) hread
    · have hmore : ¬ (d.buffer ++ bytes).length < 4 := by
        rw [List.length_append]
        omega
      rw [if_pos h126, if_pos h126, if_neg hshort, more_buffer, if_neg hmore,
        readUInt16BE_append bytes (by omega)]
  · by_cases h127 : short = 127
    · by_cases hshort : d.buffer.length < 10
      · exact absurd (by rw [if_neg h126, if_pos h127, if_pos hshort]) hread
      · have hmore : ¬ (d.buffer ++ bytes).length < 10 := by
          rw [List.length_append]
          omega
        simp only [if_neg h126, if_pos h127, if_neg hshort, more_buffer, if_neg hmore,
          readBigUInt64BE_append bytes (Nat.not_lt.mp hshort), more_maxMessageBytes]
    · rw [if_neg h126, if_neg h127, if_neg h126, if_neg h127]

/-- A frame that is there, or a failure, is read with more bytes too, and they stay behind it. -/
theorem readFrame_more (hread : d.readFrame.1 ≠ .incomplete) :
    (d.more bytes).readFrame = (d.readFrame.1, d.readFrame.2.more bytes) := by
  match hbuffer : d.buffer with
  | [] => exact absurd (by simp [readFrame, hbuffer]) hread
  | [_] => exact absurd (by simp [readFrame, hbuffer]) hread
  | first :: second :: rest =>
    have hmore : (d.more bytes).buffer = first :: second :: (rest ++ bytes) := by
      simp [hbuffer]
    simp only [readFrame, hbuffer, hmore] at hread ⊢
    split_ifs at hread ⊢ with hreserved hmasked
    · rfl
    · rfl
    · cases hlength : d.readLength (second &&& 0x7f).toNat with
      | error step =>
        rw [hlength] at hread
        rw [readLength_more bytes (by rw [hlength]; simpa using hread), hlength]
      | ok length =>
        obtain ⟨payloadLength, offset⟩ := length
        rw [readLength_more bytes (by rw [hlength]; nofun), hlength]
        rw [hlength] at hread
        have hheader : (d.more bytes).checkHeader (first &&& 0x0f).toNat payloadLength
            (first &&& 0x80 != 0) = d.checkHeader (first &&& 0x0f).toNat payloadLength
            (first &&& 0x80 != 0) := rfl
        simp only [hheader] at hread ⊢
        cases hcheck : d.checkHeader (first &&& 0x0f).toNat payloadLength
            (first &&& 0x80 != 0) with
        | some step => rfl
        | none =>
          simp only [hcheck] at hread ⊢
          by_cases hshort : (first :: second :: rest).length < offset + payloadLength
          · exact absurd (by rw [if_pos hshort]) hread
          · have hwhole : ¬ (first :: second :: (rest ++ bytes)).length <
                offset + payloadLength := by
              simp only [List.length_cons, List.length_append] at hshort ⊢
              omega
            have hlong : offset + payloadLength ≤ (first :: second :: rest).length := by omega
            have hrest : (first :: second :: (rest ++ bytes)).drop (offset + payloadLength) =
                (first :: second :: rest).drop (offset + payloadLength) ++ bytes := by
              rw [← List.cons_append, ← List.cons_append,
                List.drop_append_of_le_length hlong]
            have hpayload : ((first :: second :: (rest ++ bytes)).drop offset).take payloadLength =
                ((first :: second :: rest).drop offset).take payloadLength := by
              rw [← List.cons_append, ← List.cons_append,
                List.drop_append_of_le_length (by omega),
                List.take_append_of_le_length (by rw [List.length_drop]; omega)]
            rw [if_neg hshort, if_neg hwhole, hrest, hpayload]
            exact readPayload_more
              { d with buffer := (first :: second :: rest).drop (offset + payloadLength) } bytes
              (first &&& 0x0f).toNat _ (first &&& 0x80 != 0)

/-! ## One frame after the other -/

lemma completeMessage_ne_incomplete (opcode : ℕ) (payload : Buffer) :
    completeMessage opcode payload ≠ .incomplete := by
  unfold completeMessage
  split_ifs
  · split <;> nofun
  · nofun

lemma readClose_ne_incomplete (payload : Buffer) : readClose payload ≠ .incomplete := by
  unfold readClose
  split_ifs
  · nofun
  · nofun
  · dsimp only
    split_ifs
    · nofun
    · split <;> nofun

lemma readPayload_ne_incomplete (d : FrameDecoder) (opcode : ℕ) (payload : Buffer) (fin : Bool) :
    (d.readPayload opcode payload fin).1 ≠ .incomplete := by
  have hcontinuation : (d.readContinuation payload fin).1 ≠ .incomplete := by
    unfold readContinuation
    split
    · nofun
    · split_ifs
      · nofun
      · exact completeMessage_ne_incomplete _ _
  have hstart : (d.readDataStart opcode payload fin).1 ≠ .incomplete := by
    unfold readDataStart
    split_ifs
    · nofun
    · exact completeMessage_ne_incomplete _ _
    · nofun
  unfold readPayload
  split_ifs
  · nofun
  · nofun
  · exact readClose_ne_incomplete payload
  · exact hcontinuation
  · exact hstart
  · nofun

lemma readFrame_incomplete {d d' : FrameDecoder} (h : d.readFrame = (.incomplete, d')) :
    d' = d := by
  unfold readFrame at h
  split at h
  case h_2 => exact (congrArg Prod.snd h).symm
  case h_1 first second rest hbuffer =>
    simp only at h
    split_ifs at h
    · exact (congrArg Prod.snd h).symm
    · exact (congrArg Prod.snd h).symm
    split at h
    case h_1 => exact (congrArg Prod.snd h).symm
    case h_2 =>
      split at h
      case h_1 => exact (congrArg Prod.snd h).symm
      case h_2 =>
        split_ifs at h
        · exact (congrArg Prod.snd h).symm
        · exact absurd (congrArg Prod.fst h) (readPayload_ne_incomplete _ _ _ _)

lemma readPayload_failed (d : FrameDecoder) (opcode : ℕ) (payload : Buffer) (fin : Bool) :
    (d.readPayload opcode payload fin).2.failed = d.failed := by
  simp only [readPayload, readContinuation, readDataStart]
  split_ifs <;> first | rfl | (split <;> rfl)

lemma readFrame_failed (d : FrameDecoder) : d.readFrame.2.failed = d.failed := by
  unfold readFrame
  split
  · dsimp only
    split_ifs
    · rfl
    · rfl
    · split
      · rfl
      · split
        · rfl
        · split_ifs
          · rfl
          · exact readPayload_failed _ _ _ _
  · rfl

/-! ## The bytes that are there -/

variable {σ : Type} {deliver : σ → DecodedMessage → σ × DeliverVerdict}

/-- The loop of `push` over the bytes that are there. -/
def drain (deliver : σ → DecodedMessage → σ × DeliverVerdict) (d : FrameDecoder) (s : σ) :
    FrameDecoder × σ × DecodeResult :=
  pushLoop deliver (d.buffer.length + 1) d s

lemma push_eq_drain (hd : d.failed = false) (chunk : Buffer) (s : σ) :
    d.push chunk deliver s = drain deliver (d.more chunk) s := by
  unfold push drain more
  rw [if_neg (by simp [hd])]

lemma drain_incomplete {d d' : FrameDecoder} (h : d.readFrame = (.incomplete, d')) (s : σ) :
    drain deliver d s = (d, s, .ok false) := by
  simp only [drain, pushLoop, h, readFrame_incomplete h]

/-- A decoder that has declared its stream broken. -/
def spent (d : FrameDecoder) : FrameDecoder :=
  { d with failed := true, buffer := [], fragments := [], fragmentBytes := 0 }

@[simp] lemma spent_more (d : FrameDecoder) (bytes : Buffer) : (d.more bytes).spent = d.spent := rfl

lemma drain_failed {d d' : FrameDecoder} {failure : DecodeFailure}
    (h : d.readFrame = (.failed failure, d')) (s : σ) :
    drain deliver d s = (d'.spent, s, .failed failure) := by
  simp only [drain, pushLoop, h, spent]

/-- What `deliver` made of a frame that completed this message or none. -/
def delivered (deliver : σ → DecodedMessage → σ × DeliverVerdict) (s : σ) :
    Option DecodedMessage → σ
  | none => s
  | some message => (deliver s message).1

lemma drain_frame (hdeliver : ∀ s message, (deliver s message).2 = .continue)
    {d d' : FrameDecoder} {message : Option DecodedMessage}
    (h : d.readFrame = (.frame message, d')) (s : σ) :
    drain deliver d s = drain deliver d' (delivered deliver s message) := by
  have hlt := readFrame_buffer_lt h
  rw [drain, pushLoop]
  cases message with
  | none =>
    simp only [h]
    exact pushLoop_fuel deliver _ _ d' s hlt (by omega)
  | some message =>
    have hnext : deliver s message = ((deliver s message).1, .continue) :=
      Prod.ext rfl (hdeliver s message)
    simp only [h]
    rw [hnext]
    exact pushLoop_fuel deliver _ _ d' _ hlt (by omega)

/-- What holds where the loop ends, and of a loop when it holds behind the frame the loop reads
first, holds of every loop. -/
theorem drain_induction (hdeliver : ∀ s message, (deliver s message).2 = .continue)
    {P : FrameDecoder → σ → FrameDecoder × σ × DecodeResult → Prop}
    (hincomplete : ∀ d s, d.readFrame = (.incomplete, d) → P d s (d, s, .ok false))
    (hfailed : ∀ d s d' failure, d.readFrame = (.failed failure, d') →
      P d s (d'.spent, s, .failed failure))
    (hframe : ∀ d s d' message r, d.readFrame = (.frame message, d') →
      P d' (delivered deliver s message) r → P d s r) (d : FrameDecoder) (s : σ) :
    P d s (drain deliver d s) := by
  generalize hn : d.buffer.length = n
  induction n using Nat.strongRecOn generalizing d s with
  | ind n ih =>
    cases hstep : d.readFrame with
    | mk step d' =>
      cases step with
      | incomplete =>
        obtain rfl := readFrame_incomplete hstep
        rw [drain_incomplete hstep]
        exact hincomplete _ s hstep
      | failed failure =>
        rw [drain_failed hstep]
        exact hfailed d s d' failure hstep
      | frame message =>
        have hlt := readFrame_buffer_lt hstep
        rw [drain_frame hdeliver hstep]
        exact hframe d s d' message _ hstep (ih _ (by omega) d' _ rfl)

/-- What comes of a loop's end when more bytes come: a broken stream stays broken, another goes
on behind what was left. -/
def resume (deliver : σ → DecodedMessage → σ × DeliverVerdict) (bytes : Buffer) :
    FrameDecoder × σ × DecodeResult → FrameDecoder × σ × DecodeResult
  | (d, s, .ok _) => drain deliver (d.more bytes) s
  | (d, s, .failed failure) => (d, s, .failed failure)

/-- The loop over the bytes that are there and more is the loop over those that are there, and
then over what is left of them and the rest. -/
theorem drain_more (hdeliver : ∀ s message, (deliver s message).2 = .continue) (bytes : Buffer)
    (d : FrameDecoder) (s : σ) :
    drain deliver (d.more bytes) s = resume deliver bytes (drain deliver d s) := by
  have hmore : ∀ {d d' : FrameDecoder} {step : FrameStep}, d.readFrame = (step, d') →
      step ≠ .incomplete → (d.more bytes).readFrame = (step, d'.more bytes) := by
    intro d d' step hstep hread
    rw [readFrame_more bytes (by rw [hstep]; exact hread), hstep]
  induction d, s using drain_induction hdeliver with
  | hincomplete d s hstep => rfl
  | hfailed d s d' failure hstep => rw [drain_failed (hmore hstep nofun), spent_more, resume]
  | hframe d s d' message r hstep ih => rw [drain_frame hdeliver (hmore hstep nofun), ih]

lemma drain_ok (hdeliver : ∀ s message, (deliver s message).2 = .continue)
    (hd : d.failed = false) {s s' : σ} {d' : FrameDecoder} {stopped : Bool}
    (h : drain deliver d s = (d', s', .ok stopped)) :
    d'.failed = false ∧ d'.readFrame.1 = .incomplete := by
  revert hd h
  induction d, s using drain_induction hdeliver with
  | hincomplete d s hstep =>
    intro hd h
    cases h
    exact ⟨hd, by rw [hstep]⟩
  | hfailed d s next failure hstep => intro _ h; cases h
  | hframe d s next message r hstep ih =>
    intro hd
    exact ih (by rw [← hd, ← readFrame_failed d, hstep])

lemma drain_failed_spent (hdeliver : ∀ s message, (deliver s message).2 = .continue)
    {s s' : σ} {d' : FrameDecoder} {failure : DecodeFailure}
    (h : drain deliver d s = (d', s', .failed failure)) : d'.failed = true := by
  revert h
  induction d, s using drain_induction hdeliver with
  | hincomplete d s hstep => intro h; cases h
  | hfailed d s next failure' hstep => intro h; cases h; rfl
  | hframe d s next message r hstep ih => exact ih

/-! ## The pieces of a stream -/

/-- The pieces of a stream pushed one after the other, and the first failure. -/
def pushAll (deliver : σ → DecodedMessage → σ × DeliverVerdict) (d : FrameDecoder) (s : σ) :
    List Buffer → FrameDecoder × σ × Option DecodeFailure
  | [] => (d, s, none)
  | chunk :: chunks =>
    match d.push chunk deliver s with
    | (d, s, .ok _) => pushAll deliver d s chunks
    | (d, s, .failed failure) =>
      let (d, s, _) := pushAll deliver d s chunks
      (d, s, some failure)

lemma pushAll_spent (hd : d.failed = true) (s : σ) (chunks : List Buffer) :
    (pushAll deliver d s chunks).1 = d ∧ (pushAll deliver d s chunks).2.1 = s := by
  induction chunks with
  | nil => exact ⟨rfl, rfl⟩
  | cons chunk chunks ih =>
    have hpush : d.push chunk deliver s = (d, s, .failed ⟨1002, js "decoder is spent"⟩) := by
      unfold push
      rw [if_pos hd]
    simp only [pushAll, hpush]
    exact ih

def outcome : FrameDecoder × σ × DecodeResult → FrameDecoder × σ × Option DecodeFailure
  | (d, s, .ok _) => (d, s, none)
  | (d, s, .failed failure) => (d, s, some failure)

/-- The pieces of a stream are read as the whole stream is.

**Proof sketch.** Induction on the pieces, for a decoder that has read every whole frame of its
buffer. The first piece is read by the loop over it; by `drain_more` the loop over all the bytes
does the same and goes on behind what it left. Where the first piece breaks the stream the rest
changes nothing. -/
theorem pushAll_eq_drain (hdeliver : ∀ s message, (deliver s message).2 = .continue)
    (hd : d.failed = false) (hread : d.readFrame.1 = .incomplete) (s : σ)
    (chunks : List Buffer) :
    pushAll deliver d s chunks = outcome (drain deliver (d.more chunks.flatten) s) := by
  induction chunks generalizing d s with
  | nil =>
    rw [List.flatten_nil, more_nil, drain_incomplete (Prod.ext hread rfl)]
    rfl
  | cons chunk chunks ih =>
    rw [List.flatten_cons, more_append, drain_more hdeliver]
    unfold pushAll
    rw [push_eq_drain hd]
    cases hdrain : drain deliver (d.more chunk) s with
    | mk d' rest =>
      obtain ⟨s', result⟩ := rest
      cases result with
      | ok stopped =>
        obtain ⟨hd', hread'⟩ := drain_ok hdeliver (d := d.more chunk) hd hdrain
        simp only [resume]
        exact ih hd' hread' s'
      | failed failure =>
        have hspent := drain_failed_spent hdeliver hdrain
        obtain ⟨hd', hs'⟩ : (pushAll deliver d' s' chunks).1 = d' ∧
          (pushAll deliver d' s' chunks).2.1 = s' := pushAll_spent hspent s' chunks
        simp only [resume, outcome]
        rw [hd', hs']

theorem pushAll_eq_push (hdeliver : ∀ s message, (deliver s message).2 = .continue)
    (maxMessageBytes : ℕ) (s : σ) (chunks : List Buffer) :
    pushAll deliver { maxMessageBytes } s chunks =
      outcome (push { maxMessageBytes } chunks.flatten deliver s) := by
  rw [push_eq_drain (d := { maxMessageBytes }) rfl]
  exact pushAll_eq_drain hdeliver (d := { maxMessageBytes }) rfl rfl s chunks

end FrameDecoder

/-! ## Two ways of cutting a stream -/

/-- A `deliver` that records what it is handed and always continues. -/
def recordMessage (messages : List DecodedMessage) (message : DecodedMessage) :
    List DecodedMessage × DeliverVerdict :=
  (messages ++ [message], .continue)

/-- A stream in pieces pushed into a new decoder: the messages it delivers in order, and the first
failure, if the stream is not still open. -/
def decodeChunks (maxMessageBytes : ℕ) (chunks : List Buffer) :
    List DecodedMessage × Option DecodeFailure :=
  (FrameDecoder.pushAll recordMessage { maxMessageBytes } [] chunks).2

/-- Two ways of cutting one stream into pieces deliver the same messages, and the stream is still
open behind both or has the same first failure. -/
theorem decodeChunks_eq (maxMessageBytes : ℕ) {chunks chunks' : List Buffer}
    (hstream : chunks.flatten = chunks'.flatten) :
    decodeChunks maxMessageBytes chunks = decodeChunks maxMessageBytes chunks' := by
  unfold decodeChunks
  rw [FrameDecoder.pushAll_eq_push (fun _ _ => rfl), FrameDecoder.pushAll_eq_push (fun _ _ => rfl),
    hstream]

theorem decodeChunks_eq_cut :
    [[0x81, 0x02, 0x68, 0x69], [0x81, 0x80]].flatten =
        [[0x81], [0x02, 0x68, 0x69, 0x81, 0x80]].flatten ∧
      decodeChunks 1000 [[0x81, 0x02, 0x68, 0x69], [0x81, 0x80]] =
        decodeChunks 1000 [[0x81], [0x02, 0x68, 0x69, 0x81, 0x80]] :=
  ⟨by decide, decodeChunks_eq 1000 (by decide)⟩

end Isomux
