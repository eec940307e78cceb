import Mathlib.Data.List.Basic

set_option autoImplicit false

/-!
# Frames in a stream

A stream is cut into pieces on its way, and the reader puts it together again: it keeps what it has
not read yet, and reads the frames at its front as long as there are some. A code is readable when
a frame is read off the front of whatever follows it, and when a part of a frame is not read before
the rest is there. Then the reader gets every frame once and in order, however the stream is cut.

## Main results

* `Framing.Readable.readFrames` — the reader takes the first frames of the stream, and leaves a
  buffer from which the stream goes on.
-/

namespace Framing

inductive Front (β φ : Type*) where
  | frame (frame : φ) (rest : List β)
  | incomplete
  | invalid

variable {β φ : Type*}

/-- The frames at the front of a buffer and what is left, in a number of rounds; nothing when the
buffer is invalid. -/
def readFrames (read : List β → Front β φ) : ℕ → List β → Option (List φ × List β)
  | 0, buffer => some ([], buffer)
  | rounds + 1, buffer =>
    match read buffer with
    | .invalid => none
    | .incomplete => some ([], buffer)
    | .frame frame rest => (readFrames read rounds rest).map fun r => (frame :: r.1, r.2)

/-- A code for the frames that are `valid`. -/
structure Readable (valid : φ → Prop) (encode : φ → List β) (read : List β → Front β φ) :
    Prop where
  read_nil : read [] = .incomplete
  read_encode : ∀ frame rest, valid frame → read (encode frame ++ rest) = .frame frame rest
  read_part : ∀ frame part rest, valid frame → encode frame = part ++ rest → rest ≠ [] →
    read part = .incomplete

variable {valid : φ → Prop} {encode : φ → List β} {read : List β → Front β φ}

lemma Readable.encode_ne_nil (h : Readable valid encode read) {frame : φ} (hvalid : valid frame) :
    encode frame ≠ [] := by
  intro hnil
  have hread := h.read_encode frame [] hvalid
  rw [hnil, List.append_nil, h.read_nil] at hread
  cases hread

/-- **The reader finds the frames of the stream.** The buffer is what arrived so far, and `ahead` is
what follows it on the stream: the reader takes some frames off the front, and the frames behind
them are those of what it leaves and of what is ahead. When nothing is ahead it takes them all.

**Proof sketch.** Induction on the frames. If the buffer ends within the first one, the reader reads
nothing. Otherwise it takes the first one, and goes on with what follows. -/
theorem Readable.readFrames (h : Readable valid encode read) {frames : List φ}
    (hvalid : ∀ frame ∈ frames, valid frame) {rounds : ℕ} {buffer ahead : List β}
    (hrounds : buffer.length ≤ rounds) (hstream : buffer ++ ahead = frames.flatMap encode) :
    ∃ taken later left, frames = taken ++ later ∧
      Framing.readFrames read rounds buffer = some (taken, left) ∧
        left ++ ahead = later.flatMap encode ∧ (ahead = [] → later = []) := by
  induction frames generalizing rounds buffer with
  | nil =>
    obtain ⟨rfl, rfl⟩ := List.append_eq_nil_iff.1 hstream
    refine ⟨[], [], [], rfl, ?_, rfl, fun _ => rfl⟩
    cases rounds with
    | zero => rfl
    | succ rounds =>
      simp only [Framing.readFrames, h.read_nil]
  | cons frame frames ih =>
    have hframe := hvalid frame List.mem_cons_self
    rw [List.flatMap_cons] at hstream
    rcases List.append_eq_append_iff.1 hstream with ⟨rest, hpart, hahead⟩ | ⟨rest, hwhole, hahead⟩
    · by_cases hrest : rest = []
      · -- the buffer is the frame
        subst hrest
        rw [List.append_nil] at hpart
        rw [List.nil_append] at hahead
        have hlength := List.length_pos_iff.2 (h.encode_ne_nil hframe)
        obtain ⟨n, rfl⟩ : ∃ n, rounds = n + 1 := ⟨rounds - 1, by rw [hpart] at hlength; omega⟩
        obtain ⟨taken, later, left, rfl, hread, hleft, hall⟩ :=
          ih (fun f hf => hvalid f (List.mem_cons_of_mem _ hf)) (Nat.zero_le n)
            (show [] ++ ahead = frames.flatMap encode from hahead)
        refine ⟨frame :: taken, later, left, rfl, ?_, hleft, hall⟩
        have hfront := h.read_encode frame [] hframe
        rw [List.append_nil, hpart] at hfront
        simp only [Framing.readFrames, hfront, hread, Option.map_some]
      · refine ⟨[], frame :: frames, buffer, rfl, ?_, ?_, ?_⟩
        · cases rounds with
          | zero => rfl
          | succ rounds =>
            simp only [Framing.readFrames, h.read_part frame buffer rest hframe hpart hrest]
        · rw [List.flatMap_cons]
          exact hstream
        · intro hnil
          rw [hnil] at hahead
          exact absurd (List.append_eq_nil_iff.1 hahead.symm).1 hrest
    · have hlength := List.length_pos_iff.2 (h.encode_ne_nil hframe)
      have hbuffer : buffer.length = (encode frame).length + rest.length := by
        rw [hwhole, List.length_append]
      obtain ⟨n, rfl⟩ : ∃ n, rounds = n + 1 := ⟨rounds - 1, by omega⟩
      obtain ⟨taken, later, left, rfl, hread, hleft, hall⟩ :=
        ih (fun f hf => hvalid f (List.mem_cons_of_mem _ hf)) (show rest.length ≤ n by omega)
          hahead.symm
      refine ⟨frame :: taken, later, left, rfl, ?_, hleft, hall⟩
      rw [hwhole]
      simp only [Framing.readFrames, h.read_encode frame rest hframe, hread, Option.map_some]

end Framing
