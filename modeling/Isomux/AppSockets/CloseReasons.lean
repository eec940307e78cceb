import Isomux.AppSockets.FrameRoundTrip
import Isomux.Runtime.Utf8Cuts
import Mathlib.Data.List.Induction

set_option autoImplicit false

/-!
# Close reasons (`truncateCloseReason` and `encodeCloseFrame` of `src/server/ws-frames.ts`)

A reason that is too long for a control frame is cut. The cut walks back off the bytes that continue a
character, so it ends in front of the character that does not fit.

## Main results

* `Isomux.truncateCloseReason_eq` — a reason is cut in front of the first character that does not fit.
* `Isomux.close_reason_law` — the longest part that fits, and what is read of the frame.
-/

namespace Isomux

variable {points : List ℕ} {reason : JsString}

def continuation (b : UInt8) : Bool := b &&& 0xc0 = 0x80

lemma closeReasonEnd_eq {bytes : Buffer} {e n : ℕ} (hle : e ≤ n)
    (hstart : e = 0 ∨ continuation (bytes.getD e 0) = false)
    (hbehind : ∀ i, e < i → i ≤ n → continuation (bytes.getD i 0) = true) :
    closeReasonEnd bytes n = e := by
  induction n with
  | zero => exact (Nat.le_zero.1 hle).symm
  | succ n ih =>
    rw [closeReasonEnd]
    rcases Nat.lt_or_eq_of_le hle with hlt | rfl
    · rw [if_pos (by simpa [continuation] using hbehind (n + 1) hlt (Nat.le_refl _))]
      exact ih (Nat.le_of_lt_succ hlt) fun i hi hin => hbehind i hi (by omega)
    · rw [if_neg (by simpa [continuation] using hstart)]

/-- Of the bytes of a character the first one starts it, and the others continue it. -/
lemma continuation_utf8Bytes {p : ℕ} (hp : IsScalar p) :
    ∃ first tail, (utf8Bytes p).map UInt8.ofNat = first :: tail ∧ continuation first = false ∧
      ∀ b ∈ tail, continuation b = true := by
  have hsmall : ∀ n < 0x80, continuation (UInt8.ofNat n) = false := by decide
  have hlead : ∀ n < 0x38, continuation (UInt8.ofNat (0xC0 + n)) = false := by decide
  have htail : ∀ n < 64, continuation (UInt8.ofNat (0x80 + n)) = true := by decide
  have hmod : ∀ n, continuation (UInt8.ofNat (0x80 + n % 64)) = true := fun n =>
    htail _ (Nat.mod_lt _ (by decide))
  unfold IsScalar at hp
  unfold utf8Bytes
  split_ifs with hone htwo hthree
  · exact ⟨_, _, rfl, hsmall p hone, nofun⟩
  · refine ⟨_, _, rfl, hlead _ (by omega), ?_⟩
    exact List.forall_mem_cons.2 ⟨hmod _, nofun⟩
  · refine ⟨_, _, rfl, ?_, ?_⟩
    · rw [show 0xE0 + p / 4096 = 0xC0 + (0x20 + p / 4096) by omega]
      exact hlead _ (by omega)
    · exact List.forall_mem_cons.2 ⟨hmod _, List.forall_mem_cons.2 ⟨hmod _, nofun⟩⟩
  · refine ⟨_, _, rfl, ?_, ?_⟩
    · rw [show 0xF0 + p / 262144 = 0xC0 + (0x30 + p / 262144) by omega]
      exact hlead _ (by omega)
    · exact List.forall_mem_cons.2 ⟨hmod _, List.forall_mem_cons.2 ⟨hmod _,
        List.forall_mem_cons.2 ⟨hmod _, nofun⟩⟩⟩

/-- The characters that fit, and the one that does not. -/
lemma exists_fit (points : List ℕ) (max : ℕ) (hlong : max < (utf8Encode points).length) :
    ∃ front p back, points = front ++ p :: back ∧ (utf8Encode front).length ≤ max ∧
      max < (utf8Encode (front ++ [p])).length := by
  induction points using List.reverseRecOn with
  | nil => exact absurd hlong (Nat.not_lt_zero _)
  | append_singleton points p ih =>
    by_cases hfits : (utf8Encode points).length ≤ max
    · exact ⟨points, p, [], rfl, hfits, hlong⟩
    · obtain ⟨front, q, back, rfl, h⟩ := ih (Nat.lt_of_not_le hfits)
      exact ⟨front, q, back ++ [p], by simp, h⟩

lemma utf8Encode_append (front back : List ℕ) :
    utf8Encode (front ++ back) = utf8Encode front ++ utf8Encode back := List.flatMap_append

/-- **A reason that is too long is cut in front of the first character that does not fit.** -/
theorem truncateCloseReason_eq {front back : List ℕ} {p : ℕ}
    (hpoints : ∀ q ∈ front ++ p :: back, IsScalar q)
    (hfits : (utf8Encode front).length ≤ MAX_CLOSE_REASON_BYTES)
    (hlong : MAX_CLOSE_REASON_BYTES < (utf8Encode (front ++ [p])).length) :
    truncateCloseReason ((front ++ p :: back).flatMap codeUnits) = front.flatMap codeUnits := by
  obtain ⟨first, tail, hbytes, hfirst, htail⟩ := continuation_utf8Bytes (hpoints p (by simp))
  have hencode : utf8Encode (front ++ p :: back) =
      utf8Encode front ++ (first :: tail ++ utf8Encode back) := by
    rw [utf8Encode_append, ← hbytes]
    rfl
  have hlength : (utf8Encode (front ++ [p])).length = (utf8Encode front).length + (tail.length + 1) := by
    simp [utf8Encode, hbytes]
  have hend : closeReasonEnd (utf8Encode (front ++ p :: back)) MAX_CLOSE_REASON_BYTES =
      (utf8Encode front).length := by
    refine closeReasonEnd_eq hfits (.inr ?_) fun i hlt hle => ?_
    · rw [hencode]
      simp [List.getD_eq_getElem?_getD, hfirst]
    · obtain ⟨j, rfl⟩ : ∃ j, i = (utf8Encode front).length + (j + 1) :=
        ⟨i - (utf8Encode front).length - 1, by omega⟩
      have hj : j < tail.length := by omega
      rw [hencode, List.getD_eq_getElem?_getD, List.getElem?_append_right (by omega),
        Nat.add_sub_cancel_left, List.cons_append, List.getElem?_cons_succ,
        List.getElem?_append_left hj, List.getElem?_eq_getElem hj]
      exact htail _ (List.getElem_mem hj)
  have hwhole : ¬(utf8Encode (front ++ p :: back)).length ≤ MAX_CLOSE_REASON_BYTES := by
    rw [hencode, List.length_append, List.cons_append, List.length_cons, List.length_append]
    omega
  rw [truncateCloseReason, toUtf8_flatMap_codeUnits hpoints, if_neg hwhole, hend, hencode,
    List.take_left]
  have hfront : ∀ q ∈ front, IsScalar q := fun q hq => hpoints q (List.mem_append_left _ hq)
  have hread := toUtf8String_toUtf8_append ⟨front, hfront, rfl⟩ []
  rw [toUtf8_flatMap_codeUnits hfront, List.append_nil] at hread
  exact hread.trans (List.append_nil _)

lemma points_injective {points points' : List ℕ} (hpoints : ∀ p ∈ points, IsScalar p)
    (hpoints' : ∀ p ∈ points', IsScalar p)
    (h : points.flatMap codeUnits = points'.flatMap codeUnits) : points = points' := by
  have hbytes : utf8Encode points = utf8Encode points' := by
    rw [← toUtf8_flatMap_codeUnits hpoints, h, toUtf8_flatMap_codeUnits hpoints']
  have hread := utf8CodePoints_encode hpoints (Nat.le_refl _)
  rw [hbytes, utf8CodePoints_encode hpoints' (Nat.le_refl _)] at hread
  exact (List.map_injective_iff.2 (fun _ _ => Option.some.inj) hread).symm

/-- A cut reason fits, ends between two characters, and no longer part that does so fits. -/
lemma truncateCloseReason_longest (hreason : reason.IsWellFormed) :
    (truncateCloseReason reason).toUtf8.length ≤ MAX_CLOSE_REASON_BYTES ∧
    (∃ back : JsString, (truncateCloseReason reason).IsWellFormed ∧ back.IsWellFormed ∧
      reason = truncateCloseReason reason ++ back) ∧
    ∀ front back : JsString, front.IsWellFormed → back.IsWellFormed → reason = front ++ back →
      front.toUtf8.length ≤ MAX_CLOSE_REASON_BYTES →
      front.length ≤ (truncateCloseReason reason).length := by
  by_cases hfits : reason.toUtf8.length ≤ MAX_CLOSE_REASON_BYTES
  · have hsame : truncateCloseReason reason = reason := if_pos hfits
    rw [hsame]
    refine ⟨hfits, ⟨[], hreason, JsString.isWellFormed_nil, (List.append_nil _).symm⟩, ?_⟩
    rintro front back - - rfl -
    exact (List.prefix_append front back).length_le
  obtain ⟨points, hpoints, rfl⟩ := hreason
  rw [toUtf8_flatMap_codeUnits hpoints, Nat.not_le] at hfits
  obtain ⟨kept, p, cut, rfl, hkept, hlong⟩ := exists_fit points _ hfits
  have hleft : ∀ q ∈ kept, IsScalar q := fun q hq => hpoints q (List.mem_append_left _ hq)
  rw [truncateCloseReason_eq hpoints hkept hlong, toUtf8_flatMap_codeUnits hleft]
  refine ⟨hkept, ⟨(p :: cut).flatMap codeUnits, ⟨kept, hleft, rfl⟩,
    ⟨p :: cut, fun q hq => hpoints q (List.mem_append_right _ hq), rfl⟩, List.flatMap_append⟩, ?_⟩
  rintro _ _ ⟨front, hfront, rfl⟩ ⟨back, hback, rfl⟩ heq hshort
  rw [toUtf8_flatMap_codeUnits hfront] at hshort
  have hboth : ∀ q ∈ front ++ back, IsScalar q := fun q hq =>
    (List.mem_append.1 hq).elim (hfront q) (hback q)
  have hpieces := points_injective hpoints hboth (heq.trans List.flatMap_append.symm)
  rcases List.append_eq_append_iff.1 hpieces with ⟨more, rfl, hmore⟩ | ⟨more, rfl, -⟩
  · cases more with
    | nil => exact Nat.le_of_eq (by rw [List.append_nil])
    | cons q more =>
      -- such a part would hold the character that does not fit
      obtain ⟨rfl, -⟩ := List.cons.inj hmore
      have hsplit : kept ++ p :: more = (kept ++ [p]) ++ more := by simp
      rw [hsplit, utf8Encode_append, List.length_append] at hshort
      omega
  · rw [List.flatMap_append, List.length_append]
    omega

/-! ## The frame -/

lemma decodeUtf8Fatal_toUtf8 (hreason : reason.IsWellFormed) (hmark : reason.head? ≠ some 0xFEFF) :
    reason.toUtf8.decodeUtf8Fatal = some reason := by
  obtain ⟨points, hpoints, rfl⟩ := hreason
  rw [toUtf8_flatMap_codeUnits hpoints]
  have hread := utf8CodePoints_encode hpoints (Nat.le_refl _)
  have hplain : ¬byteOrderMark <+: utf8Encode points := by
    rintro ⟨body, hbody⟩
    have hlength : (byteOrderMark ++ body).length = body.length + 2 + 1 := by simp [byteOrderMark]
    rw [← hbody, hlength, utf8CodePoints_mark] at hread
    obtain ⟨p, rest, rfl, hp, -⟩ := List.map_eq_cons_iff.1 hread.symm
    obtain rfl := Option.some.inj hp
    exact hmark rfl
  rw [decodeUtf8Fatal_plain hplain, hread, mapM_id_eq_some.2 rfl]
  rfl

lemma readUInt16BE_zero {n : ℕ} (hn : n < 0x10000) (rest : Buffer) :
    FrameDecoder.readUInt16BE (uint16BE n ++ rest) 0 = n := by
  simp only [FrameDecoder.readUInt16BE, uint16BE, List.cons_append, List.getD_cons_zero,
    List.getD_cons_succ, Nat.zero_add, UInt8.toNat_ofNat']
  omega

lemma isTransmittableCloseCode_bounds {code : ℤ} (h : isTransmittableCloseCode code = true) :
    0 ≤ code ∧ code < 0x10000 := by
  simp only [isTransmittableCloseCode, Bool.or_eq_true, List.contains_iff_mem,
    Bool.and_eq_true, decide_eq_true_eq] at h
  rcases h with h | h
  · have hall : ∀ c ∈ TRANSMITTABLE_CLOSE_CODES, (0 : ℤ) ≤ c ∧ (c : ℤ) < 0x10000 := by decide
    exact hall code h
  · have hrange : (3000 : ℤ) ≤ code ∧ code ≤ 4999 := h
    omega

lemma readUInt16BE_code {code : ℤ} (hcode : 0 ≤ code ∧ code < 0x10000) (rest : Buffer) :
    ((FrameDecoder.readUInt16BE (uint16BE code.toNat ++ rest) 0 : ℕ) : ℤ) = code := by
  rw [readUInt16BE_zero (by omega)]
  omega

lemma readClose_frame {code : ℤ} (hcode : isTransmittableCloseCode code = true)
    (hreason : reason.IsWellFormed) (hmark : reason.head? ≠ some 0xFEFF) :
    FrameDecoder.readClose (uint16BE code.toNat ++ reason.toUtf8) =
      .frame (some (.close (some code) reason)) := by
  have hread := readUInt16BE_code (isTransmittableCloseCode_bounds hcode) reason.toUtf8
  have hdrop : (uint16BE code.toNat ++ reason.toUtf8).drop 2 = reason.toUtf8 := rfl
  rw [FrameDecoder.readClose, if_neg (by simp [uint16BE]), if_neg (by simp [uint16BE])]
  simp only [hread, hcode, hdrop, decodeUtf8Fatal_toUtf8 hreason hmark, Bool.not_true,
    Bool.false_eq_true, if_false]

/-- What a decoder delivers of a close frame that it reads. -/
lemma push_close {d : FrameDecoder} (hd : d.Idle) (mask : Mask) {payload : Buffer}
    {message : DecodedMessage} (hlength : payload.length ≤ MAX_CONTROL_PAYLOAD_BYTES)
    (hcap : MAX_CONTROL_PAYLOAD_BYTES ≤ d.maxMessageBytes)
    (hread : FrameDecoder.readClose payload = .frame (some message)) :
    d.push (removeMask (encodeFrame mask OPCODE_CLOSE payload)) recordMessage [] =
      (d, [message], .ok false) := by
  have hlong : payload.length < 2 ^ 63 := Nat.lt_of_le_of_lt hlength (by decide)
  have hreadable : Readable OPCODE_CLOSE payload := by
    rcases readAs_close hlength with h | ⟨-, failure, hfailed⟩
    · exact h.1
    · rw [hread] at hfailed
      cases hfailed
  obtain ⟨delivered, hpush, -⟩ := (encodeFrame_decoded mask (by decide) payload hlong hd
    (Nat.le_trans hlength hcap)).1 hreadable
  rw [hpush]
  rw [FrameDecoder.push_eq_drain hd.open_, removeMask_encodeFrame mask (by decide) payload hlong]
    at hpush
  have hclose := FrameDecoder.drain_close (d := d.more _) (p := shortestPiece payload hlong) []
    (by rw [FrameDecoder.more_buffer, hd.buffer, List.nil_append]) (congrArg (·.2.1) hpush)
  rw [show (shortestPiece payload hlong).payload = payload from rfl, hread] at hclose
  cases hclose
  rfl

lemma encodeCloseFrame_code {code : ℤ} (hcode : 0 ≤ code ∧ code < 0x10000) (mask : Mask) :
    encodeCloseFrame mask (some code) reason = some (encodeFrame mask OPCODE_CLOSE
      (uint16BE code.toNat ++ (truncateCloseReason reason).toUtf8)) := by
  rw [encodeCloseFrame, writeUInt16BE, if_pos hcode]
  rfl

/-- **Close reasons.** The part of a reason that a frame carries fits, ends between two characters, and
is the longest such part. A frame without a code is read as that, and a frame with a code that may stand
in one is read with the code and this part of the reason, if no byte order mark is in front of it. A
frame with another code of two bytes is refused, and with a code of more there is none. -/
theorem close_reason_law (hreason : reason.IsWellFormed) (mask : Mask) :
    ((truncateCloseReason reason).toUtf8.length ≤ MAX_CLOSE_REASON_BYTES ∧
      (∃ back : JsString, (truncateCloseReason reason).IsWellFormed ∧ back.IsWellFormed ∧
        reason = truncateCloseReason reason ++ back) ∧
      ∀ front back : JsString, front.IsWellFormed → back.IsWellFormed → reason = front ++ back →
        front.toUtf8.length ≤ MAX_CLOSE_REASON_BYTES →
        front.length ≤ (truncateCloseReason reason).length) ∧
    ∀ d : FrameDecoder, d.Idle → MAX_CONTROL_PAYLOAD_BYTES ≤ d.maxMessageBytes →
      (∃ frame, encodeCloseFrame mask none reason = some frame ∧
        d.push (removeMask frame) recordMessage [] = (d, [.close none []], .ok false)) ∧
      (∀ code, isTransmittableCloseCode code = true → reason.head? ≠ some 0xFEFF →
        ∃ frame, encodeCloseFrame mask (some code) reason = some frame ∧
          d.push (removeMask frame) recordMessage [] =
            (d, [.close (some code) (truncateCloseReason reason)], .ok false)) ∧
      ∀ code, isTransmittableCloseCode code = false →
        if 0 ≤ code ∧ code < 0x10000 then
          ∃ frame d' failure, encodeCloseFrame mask (some code) reason = some frame ∧
            d.push (removeMask frame) recordMessage [] = (d', [], .failed failure)
        else encodeCloseFrame mask (some code) reason = none := by
  have hlongest := truncateCloseReason_longest hreason
  have hshort := hlongest.1
  obtain ⟨back, hkept, -, hsplit⟩ := hlongest.2.1
  have hlength (bytes : Buffer) (hbytes : bytes.length = 2) :
      (bytes ++ (truncateCloseReason reason).toUtf8).length ≤ MAX_CONTROL_PAYLOAD_BYTES := by
    rw [List.length_append, hbytes]
    exact Nat.add_le_add_left hshort 2
  refine ⟨hlongest, fun d hd hcap => ⟨⟨_, rfl, push_close hd mask (Nat.zero_le _) hcap rfl⟩, ?_, ?_⟩⟩
  · intro code hcode hmark
    refine ⟨_, encodeCloseFrame_code (isTransmittableCloseCode_bounds hcode) mask, ?_⟩
    refine push_close hd mask (hlength _ rfl) hcap (readClose_frame hcode hkept fun hhead => hmark ?_)
    rw [hsplit, List.head?_append, hhead]
    rfl
  · intro code hcode
    split_ifs with hbounds
    · have hlong := hlength (uint16BE code.toNat) rfl
      have hunreadable : ¬ Readable OPCODE_CLOSE
          (uint16BE code.toNat ++ (truncateCloseReason reason).toUtf8) := by
        rintro h
        cases h with
        | close h =>
          rcases h with h | ⟨-, -, h, -⟩
          · cases h
          · rw [readUInt16BE_code hbounds, hcode] at h
            cases h
      obtain ⟨d', failure, hpush⟩ := (encodeFrame_decoded mask (by decide) _
        (Nat.lt_of_le_of_lt hlong (by decide)) hd (Nat.le_trans hlong hcap)).2 hunreadable
      exact ⟨_, d', failure, encodeCloseFrame_code hbounds mask, hpush⟩
    · rw [encodeCloseFrame, writeUInt16BE, if_neg hbounds]
      rfl

theorem close_reason_law_bye :
    (truncateCloseReason (js "bye")).toUtf8.length ≤ MAX_CLOSE_REASON_BYTES ∧
      ∃ frame, encodeCloseFrame ⟨1, 2, 3, 4⟩ (some 1000) (js "bye") = some frame ∧
        FrameDecoder.push { maxMessageBytes := 125 } (removeMask frame) recordMessage [] =
          ({ maxMessageBytes := 125 }, [.close (some 1000) (truncateCloseReason (js "bye"))],
            .ok false) := by
  have hformed : (js "bye").IsWellFormed := ⟨[98, 121, 101], by decide, by decide⟩
  have hlaw := close_reason_law hformed ⟨1, 2, 3, 4⟩
  exact ⟨hlaw.1.1, (hlaw.2 { maxMessageBytes := 125 } ⟨rfl, rfl, rfl⟩ (by decide)).2.1 1000
    (by decide) (by decide)⟩

/-- What a decoder reads of a close frame that could be built. -/
def readBack (frame : Option Buffer) : Option (List DecodedMessage × DecodeResult) :=
  frame.map fun frame =>
    (FrameDecoder.push { maxMessageBytes := 125 } (removeMask frame) recordMessage []).2

/-- A frame without a code drops the reason, and the decoder refuses a code that may not stand in a
frame. -/
theorem close_frame_drops :
    readBack (encodeCloseFrame ⟨1, 2, 3, 4⟩ none (js "bye")) = some ([.close none []], .ok false) ∧
      truncateCloseReason (js "bye") ≠ [] ∧
      (readBack (encodeCloseFrame ⟨1, 2, 3, 4⟩ (some 1005) (js "bye"))).map (·.1) = some [] := by
  refine ⟨?_, by decide, ?_⟩ <;> decide +kernel

end Isomux
