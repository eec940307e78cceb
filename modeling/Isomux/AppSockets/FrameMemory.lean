import Isomux.AppSockets.FrameChunks

set_option autoImplicit false

/-!
# What the decoder holds

The decoder keeps the frames of an unfinished message and, behind them, the bytes of the next frame
as far as they have arrived. Both are functions of the stream alone. They stay within the cap and a
header, unless the next frame does not continue the message: such a frame is refused, or read, when
all of it is there, and until then it comes on top. Nor does the cap bound the number of frames, as
an empty one takes none of it.

## Main results

* `Isomux.OpenRun.holds_stream` — what the decoder holds, from the stream.
* `Isomux.FrameDecoder.header_of_incomplete` — what is known of a frame that is not all there.
* `Isomux.decoder_memory_iff` — the bound on the bytes, and on the frames, of any such run.
-/

namespace Isomux

/-! ## The frames of a stream -/

structure WireFrame where
  fin : Bool
  opcode : ℕ
  payload : Buffer
  deriving DecidableEq

variable (stream : Buffer)

/-- The length of the payload of the frame in front and the length of its header, if the header is
all there. -/
def headerSizes : Option (ℕ × ℕ) :=
  match stream with
  | _ :: second :: _ =>
    let short := (second &&& 0x7f).toNat
    if short = 126 then
      if stream.length < 4 then none else some (FrameDecoder.readUInt16BE stream 2, 4)
    else if short = 127 then
      if stream.length < 10 then none else some (FrameDecoder.readBigUInt64BE stream 2, 10)
    else some (short, 2)
  | _ => none

def frontOpcode : ℕ := (stream.headD 0 &&& 0x0f).toNat

/-- The frame in front, if all of it is there, and the rest of the stream. -/
def takeFrame : Option (WireFrame × Buffer) :=
  match headerSizes stream with
  | none => none
  | some (payloadLength, offset) =>
    if stream.length < offset + payloadLength then none
    else
      some (⟨stream.headD 0 &&& 0x80 != 0, frontOpcode stream,
        (stream.drop offset).take payloadLength⟩, stream.drop (offset + payloadLength))

/-- The frames in front, at most this many, and the rest of the stream. -/
def takeFrames : ℕ → Buffer → List WireFrame × Buffer
  | 0, stream => ([], stream)
  | fuel + 1, stream =>
    match takeFrame stream with
    | none => ([], stream)
    | some (frame, rest) => (frame :: (takeFrames fuel rest).1, (takeFrames fuel rest).2)

/-- The whole frames of a stream and what is left. Every frame takes bytes. -/
def wholeFrames : List WireFrame × Buffer := takeFrames stream.length stream

/-- What a frame makes of the message it meets: a control frame nothing, another begins one,
continues it or ends it. -/
def openStep (message : Option (List Buffer)) (frame : WireFrame) : Option (List Buffer) :=
  if frame.opcode &&& 0x8 ≠ 0 then message
  else if frame.fin then none
  else if frame.opcode = OPCODE_CONTINUATION then
    message.map fun payloads => payloads ++ [frame.payload]
  else some [frame.payload]

/-- The payloads of the unfinished message of a stream. -/
def openMessage : Option (List Buffer) :=
  (wholeFrames stream).1.foldl openStep none

variable {stream : Buffer} {frame : WireFrame}

lemma headerSizes_offset {payloadLength offset : ℕ}
    (h : headerSizes stream = some (payloadLength, offset)) :
    2 ≤ offset ∧ offset ≤ 10 ∧ offset ≤ stream.length := by
  unfold headerSizes at h
  split at h
  · dsimp only at h
    split_ifs at h <;>
      simp only [Option.some.injEq, Prod.mk.injEq, List.length_cons] at * <;> omega
  · cases h

lemma length_of_headerSizes_none (h : headerSizes stream = none) :
    stream.length ≤ 9 := by
  unfold headerSizes at h
  split at h
  · dsimp only at h
    split_ifs at h with h126 hshort h127 hshort <;> omega
  · rename_i hfront
    match stream, hfront with
    | [], _ => decide
    | [_], _ => simp
    | first :: second :: rest, hfront => exact absurd rfl (hfront first second rest)

lemma headerSizes_more {sizes : ℕ × ℕ} (h : headerSizes stream = some sizes)
    (bytes : Buffer) : headerSizes (stream ++ bytes) = some sizes := by
  match stream, h with
  | first :: second :: rest, h =>
    rw [List.cons_append, List.cons_append]
    unfold headerSizes at h ⊢
    dsimp only at h ⊢
    rw [← List.cons_append, ← List.cons_append]
    split_ifs at h with h126 hshort h127 hshort
    · have hmore : ¬ (first :: second :: rest ++ bytes).length < 4 := by
        rw [List.length_append]
        omega
      rw [if_pos h126, if_neg hmore, FrameDecoder.readUInt16BE_append bytes (by omega), h]
    · have hmore : ¬ (first :: second :: rest ++ bytes).length < 10 := by
        rw [List.length_append]
        omega
      rw [if_neg h126, if_pos h127, if_neg hmore,
        FrameDecoder.readBigUInt64BE_append bytes (by omega), h]
    · rw [if_neg h126, if_neg h127, h]

variable {stream rest : Buffer}

lemma takeFrame_length
    (h : takeFrame stream = some (frame, rest)) : rest.length < stream.length := by
  unfold takeFrame at h
  split at h
  · cases h
  · rename_i payloadLength offset hsizes
    obtain ⟨hoffset, -, hlength⟩ := headerSizes_offset hsizes
    split_ifs at h
    simp only [Option.some.injEq, Prod.mk.injEq] at h
    rw [← h.2, List.length_drop]
    omega

lemma takeFrame_more (h : takeFrame stream = some (frame, rest)) (bytes : Buffer) :
    takeFrame (stream ++ bytes) = some (frame, rest ++ bytes) := by
  unfold takeFrame at h
  split at h
  · cases h
  · rename_i payloadLength offset hsizes
    obtain ⟨hoffset, -, hlength⟩ := headerSizes_offset hsizes
    split_ifs at h with hshort
    simp only [Option.some.injEq, Prod.mk.injEq] at h
    obtain ⟨rfl, rfl⟩ := h
    have hmore : ¬ (stream ++ bytes).length < offset + payloadLength := by
      rw [List.length_append]
      omega
    have hhead : (stream ++ bytes).headD 0 = stream.headD 0 := by
      match stream, hlength with
      | [], hlength => exact absurd hlength (by simp; omega)
      | first :: tail, _ => rfl
    unfold takeFrame frontOpcode
    rw [headerSizes_more hsizes bytes]
    dsimp only
    rw [if_neg hmore, hhead, List.drop_append_of_le_length hlength,
      List.drop_append_of_le_length (by omega),
      List.take_append_of_le_length (by rw [List.length_drop]; omega)]

lemma takeFrames_fuel {n m : ℕ} (hn : stream.length ≤ n)
    (hm : stream.length ≤ m) : takeFrames n stream = takeFrames m stream := by
  have hnil : ∀ k, takeFrames k [] = ([], []) := fun k => by cases k <;> rfl
  induction n generalizing m stream with
  | zero =>
    obtain rfl := List.length_eq_zero_iff.mp (Nat.le_zero.mp hn)
    rw [hnil, hnil]
  | succ n ih =>
    cases m with
    | zero =>
      obtain rfl := List.length_eq_zero_iff.mp (Nat.le_zero.mp hm)
      rw [hnil, hnil]
    | succ m =>
      unfold takeFrames
      cases hframe : takeFrame stream with
      | none => rfl
      | some front =>
        obtain ⟨frame, rest⟩ := front
        have hlt := takeFrame_length hframe
        have hrest : takeFrames n rest = takeFrames m rest := ih (by omega) (by omega)
        dsimp only
        rw [hrest]

lemma wholeFrames_none (h : takeFrame stream = none) :
    wholeFrames stream = ([], stream) := by
  unfold wholeFrames
  cases hlength : stream.length with
  | zero => rfl
  | succ n => rw [takeFrames, h]

lemma wholeFrames_some (h : takeFrame stream = some (frame, rest)) :
    wholeFrames stream = (frame :: (wholeFrames rest).1, (wholeFrames rest).2) := by
  have hlt := takeFrame_length h
  unfold wholeFrames
  obtain ⟨n, hn⟩ : ∃ n, stream.length = n + 1 := ⟨stream.length - 1, by omega⟩
  rw [hn, takeFrames, h]
  dsimp only
  rw [takeFrames_fuel (n := n) (m := rest.length) (by omega) (Nat.le_refl _)]

/-- The frames of a longer stream are those of the stream and those of what is left of it and the
further bytes. -/
theorem wholeFrames_append (stream bytes : Buffer) :
    wholeFrames (stream ++ bytes) =
      ((wholeFrames stream).1 ++ (wholeFrames ((wholeFrames stream).2 ++ bytes)).1,
        (wholeFrames ((wholeFrames stream).2 ++ bytes)).2) := by
  generalize hn : stream.length = n
  induction n using Nat.strongRecOn generalizing stream with
  | ind n ih =>
    cases hframe : takeFrame stream with
    | none =>
      rw [wholeFrames_none hframe]
      rfl
    | some front =>
      obtain ⟨frame, rest⟩ := front
      have hlt := takeFrame_length hframe
      rw [wholeFrames_some (takeFrame_more hframe bytes), wholeFrames_some hframe,
        ih rest.length (by omega) rest rfl]
      rfl

/-! ## What a decoder reads of its stream -/

namespace FrameDecoder

/-- The fragments of an unfinished message. -/
def openFragments (d : FrameDecoder) : Option (List Buffer) :=
  d.fragmentOpcode.map fun _ => d.fragments

/-- The fragments are counted, there are none without an unfinished message, and they stay within
the cap. -/
structure Sound (d : FrameDecoder) : Prop where
  bytes : d.fragmentBytes = d.fragments.flatten.length
  closed : d.fragmentOpcode = none → d.fragments = []
  cap : d.fragmentBytes ≤ d.maxMessageBytes

/-- The header of a frame passed `readFrame`: its length is that of a control frame, or within the
cap together with the message it continues. -/
def HeaderFine (d : FrameDecoder) (opcode payloadLength : ℕ) : Prop :=
  if opcode &&& 0x8 ≠ 0 then payloadLength ≤ MAX_CONTROL_PAYLOAD_BYTES
  else
    payloadLength ≤ d.maxMessageBytes ∧
      (opcode = OPCODE_CONTINUATION → d.fragmentOpcode.isSome →
        d.fragmentBytes + payloadLength ≤ d.maxMessageBytes)

variable {d : FrameDecoder}

lemma headerSizes_of_readLength {first second : UInt8} {rest : Buffer}
    (hbuffer : d.buffer = first :: second :: rest) {sizes : ℕ × ℕ}
    (h : d.readLength (second &&& 0x7f).toNat = .ok sizes) : headerSizes d.buffer = some sizes := by
  unfold readLength at h
  rw [hbuffer] at h ⊢
  unfold headerSizes
  dsimp only at h ⊢
  split_ifs at h ⊢ <;> cases h <;> rfl

lemma headerSizes_none_of_readLength {first second : UInt8} {rest : Buffer}
    (hbuffer : d.buffer = first :: second :: rest)
    (h : d.readLength (second &&& 0x7f).toNat = .error .incomplete) :
    headerSizes d.buffer = none := by
  unfold readLength at h
  rw [hbuffer] at h ⊢
  unfold headerSizes
  dsimp only at h ⊢
  split_ifs at h ⊢
  all_goals first
    | rfl
    | cases h

lemma headerFine_of_checkHeader {opcode payloadLength : ℕ} {fin : Bool}
    (h : d.checkHeader opcode payloadLength fin = none) : d.HeaderFine opcode payloadLength := by
  unfold checkHeader at h
  unfold HeaderFine
  split_ifs at h ⊢ with hcontrol hfin hlong hcap htotal
  · omega
  · exact ⟨by omega, fun hcontinuation hopen => by
      by_contra hover
      exact htotal ⟨hcontinuation, hopen, by omega⟩⟩

lemma checkHeader_ne_incomplete {opcode payloadLength : ℕ} {fin : Bool} :
    d.checkHeader opcode payloadLength fin ≠ some .incomplete := by
  unfold checkHeader FrameStep.fail
  split_ifs <;> nofun

variable {d d' : FrameDecoder}

/-- What `readFrame` finds, from the bytes: the frame in front of them, which it reads, or no whole
frame, whose header is fine as far as it is there. -/
theorem readFrame_wire {step : FrameStep} (h : d.readFrame = (step, d')) :
    match step with
    | .failed _ => True
    | .incomplete => takeFrame d.buffer = none ∧ ∀ payloadLength offset,
        headerSizes d.buffer = some (payloadLength, offset) →
          d.HeaderFine (frontOpcode d.buffer) payloadLength
    | .frame message => ∃ frame rest, takeFrame d.buffer = some (frame, rest) ∧
        d.HeaderFine frame.opcode frame.payload.length ∧
        readPayload { d with buffer := rest } frame.opcode frame.payload frame.fin =
          (.frame message, d') := by
  have hnone : headerSizes d.buffer = none → takeFrame d.buffer = none ∧
      ∀ payloadLength offset, headerSizes d.buffer = some (payloadLength, offset) →
        d.HeaderFine (frontOpcode d.buffer) payloadLength := by
    intro hsizes
    refine ⟨by unfold takeFrame; rw [hsizes], fun payloadLength offset h => ?_⟩
    rw [hsizes] at h
    cases h
  unfold readFrame at h
  split at h
  case h_2 hfront =>
    cases h
    have hsizes : headerSizes d.buffer = none := by
      match hbuffer : d.buffer with
      | [] => rfl
      | [_] => rfl
      | first :: second :: rest => exact absurd hbuffer (hfront first second rest)
    exact hnone hsizes
  case h_1 first second tail hbuffer =>
    dsimp only at h
    split_ifs at h
    · cases h
      trivial
    · cases h
      trivial
    cases hlength : d.readLength (second &&& 0x7f).toNat with
    | error step' =>
      rw [hlength] at h
      cases h
      cases step with
      | incomplete => exact hnone (headerSizes_none_of_readLength hbuffer hlength)
      | failed failure => trivial
      | frame message => exact absurd rfl (readLength_error_ne_frame hlength message)
    | ok sizes =>
      obtain ⟨payloadLength, offset⟩ := sizes
      have hsizes := headerSizes_of_readLength hbuffer hlength
      have hopcode : frontOpcode d.buffer = (first &&& 0x0f).toNat := by
        rw [hbuffer]
        rfl
      rw [hlength] at h
      dsimp only at h
      cases hcheck : d.checkHeader (first &&& 0x0f).toNat payloadLength (first &&& 0x80 != 0) with
      | some step' =>
        rw [hcheck] at h
        cases h
        cases step with
        | incomplete => exact absurd hcheck checkHeader_ne_incomplete
        | failed failure => trivial
        | frame message => exact absurd rfl (checkHeader_ne_frame hcheck message)
      | none =>
        have hfine := headerFine_of_checkHeader hcheck
        rw [hcheck] at h
        dsimp only at h
        by_cases hshort : d.buffer.length < offset + payloadLength
        · rw [if_pos hshort] at h
          cases h
          refine ⟨by unfold takeFrame; rw [hsizes]; exact if_pos hshort, ?_⟩
          intro payloadLength' offset' hsizes'
          cases hsizes.symm.trans hsizes'
          rw [hopcode]
          exact hfine
        · rw [if_neg hshort] at h
          have htake : takeFrame d.buffer = some (⟨first &&& 0x80 != 0, (first &&& 0x0f).toNat,
              (d.buffer.drop offset).take payloadLength⟩,
              d.buffer.drop (offset + payloadLength)) := by
            unfold takeFrame
            rw [hsizes]
            dsimp only
            rw [if_neg hshort, hopcode]
            rw [show d.buffer.headD 0 = first by rw [hbuffer]; rfl]
          have hpayload : ((d.buffer.drop offset).take payloadLength).length = payloadLength := by
            rw [List.length_take, List.length_drop]
            omega
          cases step with
          | incomplete => exact absurd (congrArg Prod.fst h) (readPayload_ne_incomplete _ _ _ _)
          | failed failure => trivial
          | frame message => exact ⟨_, _, htake, by rw [hpayload]; exact hfine, h⟩

/-- What a frame makes of the unfinished message is what the stream says, and the fragments stay
sound. -/
lemma readPayload_open {frame : WireFrame} {message : Option DecodedMessage}
    (h : d.readPayload frame.opcode frame.payload frame.fin = (.frame message, d'))
    (hfine : d.HeaderFine frame.opcode frame.payload.length) (hd : d.Sound) :
    d'.maxMessageBytes = d.maxMessageBytes ∧ d'.openFragments = openStep d.openFragments frame ∧
      d'.Sound := by
  obtain ⟨fin, opcode, payload⟩ := frame
  dsimp only at h hfine
  have hcontrol : opcode &&& 0x8 ≠ 0 → d' = d →
      d'.maxMessageBytes = d.maxMessageBytes ∧
        d'.openFragments = openStep d.openFragments ⟨fin, opcode, payload⟩ ∧ d'.Sound := by
    rintro hbit rfl
    exact ⟨rfl, by rw [openStep, if_pos hbit], hd⟩
  unfold readPayload at h
  split_ifs at h with hping hpong hclose hcontinuation hdata
  · exact hcontrol (by rw [hping]; decide) (congrArg Prod.snd h).symm
  · exact hcontrol (by rw [hpong]; decide) (congrArg Prod.snd h).symm
  · exact hcontrol (by rw [hclose]; decide) (congrArg Prod.snd h).symm
  · subst hcontinuation
    unfold HeaderFine at hfine
    rw [if_neg (by decide)] at hfine
    unfold readContinuation at h
    cases hopen : d.fragmentOpcode with
    | none =>
      rw [hopen] at h
      cases h
    | some opcode =>
      rw [hopen] at h
      have htotal := hfine.2 rfl (by rw [hopen]; rfl)
      cases fin with
      | false =>
        obtain rfl := (congrArg Prod.snd h).symm
        refine ⟨rfl, ?_, ?_, nofun, htotal⟩
        · simp [openFragments, openStep, hopen, OPCODE_CONTINUATION]
        · simp [hd.bytes]
      | true =>
        obtain rfl := (congrArg Prod.snd h).symm
        refine ⟨rfl, ?_, rfl, fun _ => rfl, Nat.zero_le _⟩
        simp [openFragments, openStep, OPCODE_CONTINUATION]
  · have hbit : ¬ opcode &&& 0x8 ≠ 0 := by
      rcases hdata with rfl | rfl <;> decide
    unfold HeaderFine at hfine
    rw [if_neg hbit] at hfine
    unfold readDataStart at h
    cases hopen : d.fragmentOpcode with
    | some opcode =>
      rw [hopen, if_pos Option.isSome_some] at h
      cases h
    | none =>
      rw [hopen, if_neg (by decide)] at h
      cases fin with
      | true =>
        obtain rfl := (congrArg Prod.snd h).symm
        refine ⟨rfl, ?_, hd⟩
        rw [openStep, if_neg hbit, if_pos rfl, openFragments, hopen]
        rfl
      | false =>
        obtain rfl := (congrArg Prod.snd h).symm
        refine ⟨rfl, ?_, ?_, nofun, hfine.1⟩
        · rw [openStep, if_neg hbit, if_neg (by decide), if_neg hcontinuation]
          rfl
        · simp
  · cases h

/-- The decoder stands in the stream: its fragments and the frames of its buffer are what the
stream says. -/
structure Stands (d : FrameDecoder) (stream : Buffer) : Prop where
  sound : d.Sound
  rest : (wholeFrames d.buffer).2 = (wholeFrames stream).2
  message : (wholeFrames d.buffer).1.foldl openStep d.openFragments = openMessage stream

lemma stands_new (maxMessageBytes : ℕ) : Stands { maxMessageBytes } [] :=
  ⟨⟨rfl, fun _ => rfl, Nat.zero_le _⟩, rfl, rfl⟩

variable {stream : Buffer}

lemma Stands.more (h : d.Stands stream) (bytes : Buffer) :
    (d.more bytes).Stands (stream ++ bytes) := by
  have hrest := wholeFrames_append d.buffer bytes
  have hstream := wholeFrames_append stream bytes
  refine ⟨⟨h.sound.bytes, h.sound.closed, h.sound.cap⟩, ?_, ?_⟩
  · rw [more_buffer, hrest, hstream, h.rest]
  · have hmessage := h.message
    unfold openMessage at hmessage ⊢
    rw [more_buffer, hrest, hstream, List.foldl_append, List.foldl_append, ← hmessage, h.rest]
    rfl

lemma Stands.read {message : Option DecodedMessage}
    (h : d.Stands stream) (hread : d.readFrame = (.frame message, d')) :
    d'.Stands stream ∧ d'.maxMessageBytes = d.maxMessageBytes := by
  obtain ⟨frame, rest, htake, hfine, hpayload⟩ := readFrame_wire hread
  have hwhole := wholeFrames_some htake
  obtain ⟨hmax, hopen, hsound⟩ := readPayload_open hpayload hfine
    ⟨h.sound.bytes, h.sound.closed, h.sound.cap⟩
  have hbuffer : d'.buffer = rest := by
    rw [show d' = _ from (congrArg Prod.snd hpayload).symm, readPayload_buffer]
  refine ⟨⟨hsound, ?_, ?_⟩, hmax⟩
  · rw [hbuffer, ← h.rest, hwhole]
  · rw [hbuffer, hopen, ← h.message, hwhole]
    rfl

/-- A loop that ends well, and was not stopped, leaves the decoder standing where it was, behind
every whole frame. -/
lemma Stands.pushLoop {σ : Type} {deliver : σ → DecodedMessage → σ × DeliverVerdict} {fuel : ℕ}
    {s s' : σ} (hd : d.Stands stream) (hfuel : d.buffer.length < fuel)
    (h : FrameDecoder.pushLoop deliver fuel d s = (d', s', .ok false)) :
    d'.Stands stream ∧ d'.maxMessageBytes = d.maxMessageBytes ∧
      d'.readFrame.1 = .incomplete := by
  induction fuel generalizing d s with
  | zero => omega
  | succ fuel ih =>
    unfold FrameDecoder.pushLoop at h
    cases hstep : d.readFrame with
    | mk step next =>
      rw [hstep] at h
      cases step with
      | incomplete =>
        obtain rfl := readFrame_incomplete hstep
        cases h
        exact ⟨hd, rfl, by rw [hstep]⟩
      | failed failure => cases h
      | frame message =>
        have hlt := readFrame_buffer_lt hstep
        obtain ⟨hnext, hmax⟩ := hd.read hstep
        rw [← hmax]
        cases message with
        | none => exact ih hnext (by omega) h
        | some message =>
          dsimp only at h
          cases hdeliver : deliver s message with
          | mk s'' verdict =>
            rw [hdeliver] at h
            cases verdict with
            | stop => cases h
            | «continue» => exact ih hnext (by omega) h

/-- What is known of a frame that is not all there: less than its header, or its header is fine
and less than the frame. -/
lemma header_of_incomplete (h : d.readFrame.1 = .incomplete) :
    takeFrame d.buffer = none ∧
      (d.buffer.length ≤ 9 ∧ headerSizes d.buffer = none ∨
        ∃ payloadLength, headerSizes d.buffer ≠ none ∧ d.buffer.length ≤ 9 + payloadLength ∧
          d.HeaderFine (frontOpcode d.buffer) payloadLength) := by
  obtain ⟨htake, hfine⟩ := readFrame_wire (Prod.ext h rfl : d.readFrame = (.incomplete, _))
  refine ⟨htake, ?_⟩
  cases hsizes : headerSizes d.buffer with
  | none => exact Or.inl ⟨length_of_headerSizes_none hsizes, rfl⟩
  | some sizes =>
    obtain ⟨payloadLength, offset⟩ := sizes
    obtain ⟨-, hoffset, -⟩ := headerSizes_offset hsizes
    refine Or.inr ⟨payloadLength, by simp, ?_, hfine payloadLength offset hsizes⟩
    unfold takeFrame at htake
    rw [hsizes] at htake
    by_contra hlong
    dsimp only at htake
    rw [if_neg (by omega)] at htake
    cases htake

end FrameDecoder

/-! ## Runs of pushes -/

/-- Pushes to a new decoder none of which failed or was stopped by `deliver`. -/
inductive OpenRun {σ : Type} (deliver : σ → DecodedMessage → σ × DeliverVerdict)
    (maxMessageBytes : ℕ) (start : σ) : List Buffer → FrameDecoder → σ → Prop
  | new : OpenRun deliver maxMessageBytes start [] { maxMessageBytes } start
  | push {chunks : List Buffer} {d d' : FrameDecoder} {s s' : σ} {chunk : Buffer} :
    OpenRun deliver maxMessageBytes start chunks d s →
    d.push chunk deliver s = (d', s', .ok false) →
    OpenRun deliver maxMessageBytes start (chunks ++ [chunk]) d' s'

variable {σ : Type} {deliver : σ → DecodedMessage → σ × DeliverVerdict} {maxMessageBytes : ℕ}
  {start s : σ} {chunks : List Buffer} {d : FrameDecoder}

/-- Behind such a run the decoder stands in the stream that was pushed, behind every whole
frame. -/
lemma OpenRun.stands (h : OpenRun deliver maxMessageBytes start chunks d s) :
    d.Stands chunks.flatten ∧ d.maxMessageBytes = maxMessageBytes ∧
      d.readFrame.1 = .incomplete := by
  induction h with
  | new => exact ⟨FrameDecoder.stands_new maxMessageBytes, rfl, rfl⟩
  | @push chunks d d' s s' chunk _ hpush ih =>
    obtain ⟨hstands, hmax, -⟩ := ih
    unfold FrameDecoder.push at hpush
    split_ifs at hpush
    · cases hpush
    obtain ⟨hnext, hmax', hread⟩ :=
      (hstands.more chunk).pushLoop (Nat.lt_succ_self _) hpush
    refine ⟨?_, hmax'.trans hmax, hread⟩
    rw [List.flatten_append, List.flatten_cons, List.flatten_nil, List.append_nil]
    exact hnext

/-- What the decoder holds behind such a run: the bytes of the stream that are no whole frame yet
and the frames of its unfinished message. -/
theorem OpenRun.holds_stream (h : OpenRun deliver maxMessageBytes start chunks d s) :
    d.buffer = (wholeFrames chunks.flatten).2 ∧
      d.openFragments = openMessage chunks.flatten := by
  obtain ⟨hstands, -, hread⟩ := h.stands
  have hwhole := wholeFrames_none (FrameDecoder.header_of_incomplete hread).1
  have hrest := hstands.rest
  have hmessage := hstands.message
  rw [hwhole] at hrest hmessage
  exact ⟨hrest, hmessage⟩

/-! ## The bounds -/

/-- The payloads of the unfinished message; none without one. -/
def openPayloads (stream : Buffer) : List Buffer := (openMessage stream).getD []

/-- Where the next frame does not continue the unfinished message, the message and what has
arrived of the frame are within the cap and a header. -/
def HeldWithin (maxMessageBytes : ℕ) (stream : Buffer) : Prop :=
  (openMessage stream).isSome → headerSizes (wholeFrames stream).2 ≠ none →
    frontOpcode (wholeFrames stream).2 ≠ OPCODE_CONTINUATION →
    (openPayloads stream).flatten.length + (wholeFrames stream).2.length ≤ maxMessageBytes + 14

/-- The empty frames among those of the unfinished message. -/
def emptyPayloads (stream : Buffer) : ℕ := (openPayloads stream).countP List.isEmpty

lemma length_le_flatten_add_empty (payloads : List Buffer) :
    payloads.length ≤ payloads.flatten.length + payloads.countP List.isEmpty := by
  induction payloads with
  | nil => simp
  | cons payload payloads ih =>
    cases payload with
    | nil =>
      simp only [List.length_cons, List.flatten_cons, List.nil_append, List.countP_cons,
        List.isEmpty_nil, if_true]
      omega
    | cons byte payload =>
      simp only [List.length_cons, List.flatten_cons, List.length_append, List.countP_cons,
        List.isEmpty_cons]
      omega

/-- The bytes the decoder holds behind a run of pushes none of which failed are within the cap and a
header, just if the unfinished message is small where the frame behind it does not continue it. The
frames it holds are as many as there are empty ones among them, up to the cap. -/
theorem decoder_memory_iff (hmax : 125 ≤ maxMessageBytes)
    (h : OpenRun deliver maxMessageBytes start chunks d s) :
    (d.pendingBytes ≤ maxMessageBytes + 14 ↔ HeldWithin maxMessageBytes chunks.flatten) ∧
      emptyPayloads chunks.flatten ≤ d.fragments.length ∧
      d.fragments.length ≤ maxMessageBytes + emptyPayloads chunks.flatten := by
  obtain ⟨hstands, rfl, hread⟩ := h.stands
  obtain ⟨hbuffer, hmessage⟩ := h.holds_stream
  obtain ⟨hbytes, hclosed, hcap⟩ := hstands.sound
  have hpayloads : openPayloads chunks.flatten = d.fragments := by
    rw [openPayloads, ← hmessage, FrameDecoder.openFragments]
    cases hopen : d.fragmentOpcode with
    | none => rw [hclosed hopen]; rfl
    | some opcode => rfl
  have hisSome : (openMessage chunks.flatten).isSome = d.fragmentOpcode.isSome := by
    rw [← hmessage, FrameDecoder.openFragments, Option.isSome_map]
  refine ⟨?_, ?_, ?_⟩
  · unfold FrameDecoder.pendingBytes HeldWithin
    rw [hpayloads, ← hbuffer, ← hbytes, hisSome]
    obtain ⟨-, hshort | ⟨payloadLength, hsizes, hlength, hfine⟩⟩ :=
      FrameDecoder.header_of_incomplete hread
    · exact ⟨fun _ _ hsizes => absurd hshort.2 hsizes, fun _ => by omega⟩
    · have hlong : d.buffer.length ≤ 9 + d.maxMessageBytes := by
        unfold FrameDecoder.HeaderFine at hfine
        split_ifs at hfine
        · change payloadLength ≤ 125 at hfine
          omega
        · omega
      cases hopen : d.fragmentOpcode with
      | none =>
        have hnone : d.fragmentBytes = 0 := by
          rw [hbytes, hclosed hopen]
          rfl
        exact ⟨fun _ hsome => by simp at hsome, fun _ => by omega⟩
      | some opcode =>
        by_cases hcontinuation : frontOpcode d.buffer = OPCODE_CONTINUATION
        · have htotal : d.fragmentBytes + payloadLength ≤ d.maxMessageBytes := by
            unfold FrameDecoder.HeaderFine at hfine
            rw [hcontinuation, if_neg (by decide)] at hfine
            exact hfine.2 rfl (by rw [hopen]; rfl)
          exact ⟨fun _ _ _ hother => absurd hcontinuation hother, fun _ => by omega⟩
        · refine ⟨fun hheld _ _ _ => by omega, fun hwithin => ?_⟩
          have hsum := hwithin rfl hsizes hcontinuation
          omega
  · unfold emptyPayloads
    rw [hpayloads]
    exact List.countP_le_length
  · have hcount := length_le_flatten_add_empty d.fragments
    unfold emptyPayloads
    rw [hpayloads]
    omega

theorem decoder_memory_iff_ping :
    let chunks : List Buffer := [[0x01, 0x02, 0x68, 0x69, 0x89], [0x7d, 0x00]]
    ∃ d, OpenRun recordMessage 125 [] chunks d [] ∧
      (d.pendingBytes ≤ 125 + 14 ↔ HeldWithin 125 chunks.flatten) ∧
      emptyPayloads chunks.flatten ≤ d.fragments.length ∧
      d.fragments.length ≤ 125 + emptyPayloads chunks.flatten :=
  have hfirst : OpenRun recordMessage 125 [] [[0x01, 0x02, 0x68, 0x69, 0x89]]
      { maxMessageBytes := 125, buffer := [0x89], fragments := [[0x68, 0x69]], fragmentBytes := 2,
        fragmentOpcode := some OPCODE_TEXT } [] := OpenRun.push .new rfl
  have hrun := OpenRun.push hfirst (by rfl :
    FrameDecoder.push _ [0x7d, 0x00] recordMessage [] = (_, [], .ok false))
  ⟨_, hrun, decoder_memory_iff (by decide) hrun⟩

/-- A decoder whose unfinished message consists of these fragments, all of them empty. -/
private def heldEmpty (fragments : List Buffer) : FrameDecoder :=
  { maxMessageBytes := 125, fragments, fragmentOpcode := some OPCODE_TEXT }

private lemma push_heldEmpty (fragments : List Buffer) :
    (heldEmpty fragments).push [0x00, 0x00] recordMessage [] =
      (heldEmpty (fragments ++ [[]]), [], .ok false) := rfl

/-- A message as long as the cap and, behind it, a fresh message of which the last byte is missing
come to almost twice the cap; and the empty frames of a message are held without any bound. -/
theorem decoder_memory_overrun :
    (∃ d, OpenRun recordMessage 125 []
        [[0x01, 0x7d] ++ List.replicate 125 0x61, [0x01, 0x7d] ++ List.replicate 124 0x61] d [] ∧
      d.pendingBytes = 251) ∧
    ∀ n, ∃ d, OpenRun recordMessage 125 [] ([0x01, 0x00] :: List.replicate n [0x00, 0x00]) d [] ∧
      n < d.fragments.length := by
  refine ⟨⟨{ maxMessageBytes := 125, buffer := [0x01, 0x7d] ++ List.replicate 124 0x61,
             fragments := [List.replicate 125 0x61], fragmentBytes := 125,
             fragmentOpcode := some OPCODE_TEXT }, ?_, by decide +kernel⟩, fun n => ?_⟩
  · have hfirst : OpenRun recordMessage 125 [] [[0x01, 0x7d] ++ List.replicate 125 0x61]
        { maxMessageBytes := 125, fragments := [List.replicate 125 0x61], fragmentBytes := 125,
          fragmentOpcode := some OPCODE_TEXT } [] := OpenRun.push .new (by decide +kernel)
    exact OpenRun.push hfirst (by decide +kernel)
  · refine ⟨heldEmpty (List.replicate (n + 1) []), ?_, by simp [heldEmpty]⟩
    induction n with
    | zero => exact OpenRun.push .new rfl
    | succ n ih =>
      rw [List.replicate_succ', ← List.cons_append, List.replicate_succ' (n := n + 1)]
      exact OpenRun.push ih (push_heldEmpty _)

end Isomux
