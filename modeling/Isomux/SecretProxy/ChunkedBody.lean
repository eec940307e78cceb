import Isomux.SecretProxy.Http1
import Mathlib.Data.List.TakeWhile
import Mathlib.Data.Nat.Digits.Lemmas

set_option autoImplicit false

/-!
# Chunked bodies survive the proxy

What a reader reads is the front of the bytes it has not consumed, however these arrive. So the
loop over the chunks reads the pieces that were written, to the last chunk, and leaves what is
behind it. The proxy passes a body on in chunks none of which is empty, and so the last chunk is
the only one that ends the body.

## Main results

* `Isomux.ByteReader.read_of_unread`, `Isomux.ByteReader.readUntil_line` — reads succeed when the
  bytes are there or still to come.
* `Isomux.readChunks_chunk`, `Isomux.readChunks_lastChunk` — one round of the loop.
* `Isomux.readChunks_rounds` — the loop never runs out of rounds.
* `Isomux.readBody_chunked`, `Isomux.not_returned_of_chunks` — a body with its last chunk and one
  without.
* `Isomux.forwardPieces_spec` — what the writes for a response consist of.
* `Isomux.chunkedBody_survives` — a chunked body is read as it was written and passed on whole.
-/

namespace Isomux

open Rewriting

/-! ## Waiting -/

namespace ByteReader

variable {r r' : ByteReader}

/-- What waiting does: the stream has ended, or the socket has done something, and the unread bytes
stay what they are. -/
lemma more_done {more : Bool} (h : r.more = .done more r') :
    r'.unread = r.unread ∧
      (more = true → r'.events.length < r.events.length) ∧ (more = false → r.ended = true) := by
  unfold ByteReader.more at h
  split_ifs at h with hended
  · cases h
    exact ⟨rfl, nofun, fun _ => hended⟩
  · split at h
    · cases h
    · rename_i bytes events hevents
      cases h
      refine ⟨?_, fun _ => by simp [hevents], nofun⟩
      simp [unread, hended, hevents, unreadEvents]
    · rename_i events hevents
      cases h
      refine ⟨?_, fun _ => by simp [hevents], nofun⟩
      simp [unread, hended, hevents, unreadEvents]
    · cases h

lemma more_of_unread {r : ByteReader} (h : r.unread ≠ r.buffer) :
    ∃ r', r.more = .done true r' ∧ r'.unread = r.unread ∧
      r'.events.length < r.events.length := by
  have hended : r.ended = false := by
    by_contra hended
    exact h (by simp [unread, Bool.eq_true_of_not_eq_false hended])
  have hmore : ∃ r', r.more = .done true r' := by
    unfold ByteReader.more
    rw [if_neg (by simp [hended])]
    cases hevents : r.events with
    | nil => exact absurd (by simp [unread, hevents, unreadEvents]) h
    | cons event events =>
      cases event with
      | data bytes => exact ⟨_, rfl⟩
      | ended | failed => exact absurd (by simp [unread, hevents, unreadEvents]) h
  obtain ⟨r', hr'⟩ := hmore
  obtain ⟨hunread, hlt, -⟩ := more_done hr'
  exact ⟨r', hr', hunread, hlt rfl⟩

/-! ## Reading -/

lemma unread_take_drop (r : ByteReader) (n : ℕ) :
    r.unread = r.buffer.take n ++ unread { r with buffer := r.buffer.drop n } := by
  unfold unread
  rw [← List.append_assoc, List.take_append_drop]

theorem read_unread {max : ℕ} {piece : Buffer}
    (h : r.read max = .done (some piece) r') :
    r.unread = piece ++ r'.unread ∧ piece.length ≤ max ∧ (0 < max → piece ≠ []) := by
  unfold read at h
  generalize r.events.length + 1 = rounds at h
  induction rounds generalizing r with
  | zero => cases h
  | succ rounds ih =>
    unfold readLoop at h
    split_ifs at h with hbuffer
    · cases h
      refine ⟨unread_take_drop r max, List.length_take_le _ _, fun hmax => ?_⟩
      · rw [← List.length_pos_iff, List.length_take]
        omega
    · split at h
      · rename_i more next hmore
        obtain ⟨hunread, -⟩ := more_done hmore
        split_ifs at h
        · cases h
        · rw [← hunread]
          exact ih h
      · cases h
      · cases h

theorem read_of_unread {r : ByteReader} (max : ℕ) (h : r.unread ≠ []) :
    ∃ piece r', r.read max = .done (some piece) r' := by
  unfold read
  have hrounds : r.events.length < r.events.length + 1 := Nat.lt_succ_self _
  generalize r.events.length + 1 = rounds at hrounds
  induction rounds generalizing r with
  | zero => omega
  | succ rounds ih =>
    unfold readLoop
    by_cases hbuffer : r.buffer.length ≠ 0
    · exact ⟨_, _, by rw [if_pos hbuffer]⟩
    · have hnil : r.buffer = [] := List.length_eq_zero_iff.mp (by omega)
      obtain ⟨r', hmore, hunread, hlt⟩ := more_of_unread (r := r) (by rw [hnil]; exact h)
      rw [if_neg hbuffer, hmore]
      exact ih (by rw [hunread]; exact h) (by omega)

theorem readUntil_unread {delimiter : Buffer} {limit : ℕ} {line : Buffer}
    (hdelimiter : delimiter ≠ []) (h : r.readUntil delimiter limit = .done (some line) r') :
    r.unread = line ++ r'.unread ∧ line ≠ [] := by
  unfold readUntil at h
  generalize r.events.length + 1 = rounds at h
  generalize 0 = searchFrom at h
  induction rounds generalizing r searchFrom with
  | zero => cases h
  | succ rounds ih =>
    unfold readUntilLoop at h
    split at h
    · rename_i found hindex
      have hend := (occursAt_of_find hindex).2.1.add_length_le hdelimiter
      have hpos := List.length_pos_iff.mpr hdelimiter
      split_ifs at h
      · cases h
      · cases h
        refine ⟨unread_take_drop r _, ?_⟩
        rw [← List.length_pos_iff, List.length_take]
        omega
    · split_ifs at h
      · cases h
      · dsimp only at h
        split at h
        · rename_i next hmore
          rw [← (more_done hmore).1]
          exact ih _ h
        · split_ifs at h <;> cases h
        · cases h
        · cases h

lemma length_le_of_occursAt {line rest : Buffer} (hline : 13 ∉ line) {k : ℕ}
    (h : OccursAt CRLF (line ++ rest) k) : line.length ≤ k := by
  by_contra hlt
  obtain ⟨tail, htail⟩ := h
  rw [List.drop_append_of_le_length (by omega)] at htail
  have hhead : (line.drop k).head? = some 13 := by
    cases hdrop : line.drop k with
    | nil =>
      have hlength := congrArg List.length hdrop
      rw [List.length_drop, List.length_nil] at hlength
      omega
    | cons byte bytes =>
      rw [hdrop] at htail
      have hbyte : 13 = byte := (List.cons.inj htail).1
      rw [List.head?_cons, hbyte]
  exact hline (List.mem_of_mem_drop (List.mem_of_mem_head? hhead))

/-- A line that is there or still to come is read, and what is behind it is not. -/
theorem readUntil_line {r : ByteReader} (line : Buffer) {rest : Buffer} (limit : ℕ)
    (h : r.unread = line ++ (CRLF ++ rest)) (hline : 13 ∉ line) (hlimit : line.length < limit) :
    ∃ r', r.readUntil CRLF limit = .done (some (line ++ CRLF)) r' ∧ r'.unread = rest := by
  unfold readUntil
  have hrounds : r.events.length < r.events.length + 1 := Nat.lt_succ_self _
  have hsearch : 0 ≤ line.length := Nat.zero_le _
  generalize r.events.length + 1 = rounds at hrounds
  generalize 0 = searchFrom at hsearch
  induction rounds generalizing r searchFrom with
  | zero => omega
  | succ rounds ih =>
    have hbuffer : r.buffer <+: line ++ (CRLF ++ rest) := by
      rw [← h]
      exact List.prefix_append _ _
    have hwhole : line.length + 2 ≤ r.buffer.length → OccursAt CRLF r.buffer line.length := by
      intro hlong
      obtain ⟨more, hmore⟩ := hbuffer
      refine OccursAt.of_append (r := more) ?_ hlong
      rw [hmore, OccursAt, List.drop_left]
      exact List.prefix_append _ _
    unfold readUntilLoop
    cases hindex : r.buffer.indexOf CRLF searchFrom with
    | some found =>
      obtain ⟨-, hoccurs, hfirst⟩ := occursAt_of_find hindex
      have hend := hoccurs.add_length_le (by decide)
      have hle : line.length ≤ found := by
        obtain ⟨more, hmore⟩ := hbuffer
        have hstream := hoccurs.append more
        rw [hmore] at hstream
        exact length_le_of_occursAt hline hstream
      change found + 2 ≤ r.buffer.length at hend
      have hge := hfirst line.length hsearch (hwhole (by omega))
      obtain rfl : found = line.length := by omega
      have htake : r.buffer.take (line.length + CRLF.length) = line ++ CRLF := by
        have hprefix : line ++ CRLF <+: line ++ (CRLF ++ rest) := by
          rw [← List.append_assoc]
          exact List.prefix_append _ _
        have hlength : (line ++ CRLF).length = line.length + CRLF.length := List.length_append
        have hfront : line ++ CRLF <+: r.buffer :=
          List.prefix_of_prefix_length_le hprefix hbuffer (by rw [hlength]; exact hend)
        rw [← hlength]
        exact (List.prefix_iff_eq_take.mp hfront).symm
      dsimp only
      rw [if_neg (by omega), htake]
      refine ⟨_, rfl, ?_⟩
      have hunread := unread_take_drop r (line.length + CRLF.length)
      rw [htake, h, ← List.append_assoc] at hunread
      exact (List.append_cancel_left hunread).symm
    | none =>
      have hshort : r.buffer.length < line.length + 2 := by
        by_contra hlong
        exact not_occursAt_of_find (by decide) hindex line.length hsearch (hwhole (by omega))
      have hmore : r.unread ≠ r.buffer := by
        intro hall
        have hlength := congrArg List.length (hall.symm.trans h)
        simp only [List.length_append, CRLF, List.length_cons] at hlength
        omega
      obtain ⟨r', hmore, hunread, hlt⟩ := more_of_unread hmore
      dsimp only
      rw [if_neg (by omega), hmore]
      have hnext : r.buffer.length + 1 - CRLF.length ≤ line.length := by
        change r.buffer.length + 1 - 2 ≤ line.length
        omega
      exact ih (by rw [hunread]; exact h) (by omega) _ hnext

end ByteReader

/-! ## The size of a chunk -/

lemma lowerHexDigit_spec {d : ℕ} (hd : d < 16) :
    isHexDigit (lowerHexDigit d) = true ∧ hexValue (lowerHexDigit d) = d ∧
      isJsWhitespace (lowerHexDigit d) = false ∧ (lowerHexDigit d != 59) = true ∧
      lowerHexDigit d < 256 ∧ (lowerHexDigit d).toUInt8 ≠ 13 := by
  revert d
  decide

lemma mem_toHex {n : ℕ} {c : CodeUnit} (hc : c ∈ toHex n) : ∃ d < 16, c = lowerHexDigit d := by
  unfold toHex at hc
  split_ifs at hc
  · exact ⟨0, by decide, List.mem_singleton.mp hc⟩
  · obtain ⟨d, hd, rfl⟩ := List.mem_map.mp hc
    exact ⟨d, Nat.digits_lt_base (by decide) (List.mem_reverse.mp hd), rfl⟩

lemma parseHex_toHex (n : ℕ) : parseHex (toHex n) = n := by
  have hdigits : ∀ digits : List ℕ, (∀ d ∈ digits, d < 16) →
      parseHex (digits.reverse.map lowerHexDigit) = Nat.ofDigits 16 digits := by
    intro digits hlt
    unfold parseHex
    rw [List.map_reverse, List.foldl_reverse, List.foldr_map]
    induction digits with
    | nil => rfl
    | cons d digits ih =>
      rw [List.foldr_cons, ih fun d' hd' => hlt d' (List.mem_cons_of_mem d hd'),
        (lowerHexDigit_spec (hlt d List.mem_cons_self)).2.1, Nat.ofDigits_cons]
      ring
  unfold toHex
  split_ifs with hn
  · rw [hn]
    decide
  · rw [hdigits _ fun d hd => Nat.digits_lt_base (by decide) hd, Nat.ofDigits_digits]

lemma length_toHex {n : ℕ} (hn : n < 16 ^ 12) : 1 ≤ (toHex n).length ∧ (toHex n).length ≤ 12 := by
  unfold toHex
  split_ifs with hzero
  · decide
  · rw [List.length_map, List.length_reverse]
    refine ⟨?_, (Nat.digits_length_le_iff (by decide) n).mpr hn⟩
    exact List.length_pos_iff.mpr (Nat.digits_ne_nil_iff_ne_zero.mpr hzero)

lemma isChunkSize_toHex {n : ℕ} (hn : n < 16 ^ 12) : isChunkSize (toHex n) = true := by
  obtain ⟨hpos, hle⟩ := length_toHex hn
  have hall : (toHex n).all isHexDigit = true := by
    rw [List.all_eq_true]
    intro c hc
    obtain ⟨d, hd, rfl⟩ := mem_toHex hc
    exact (lowerHexDigit_spec hd).1
  simp [isChunkSize, hpos, hle, hall]

lemma not_mem_toHex (n : ℕ) : 13 ∉ (toHex n).toBuffer := by
  intro h
  obtain ⟨c, hc, hbyte⟩ := List.mem_map.mp h
  obtain ⟨d, hd, rfl⟩ := mem_toHex hc
  exact (lowerHexDigit_spec hd).2.2.2.2.2 hbyte

lemma chunkSizeText_toHex (n : ℕ) : chunkSizeText ((toHex n).toBuffer ++ CRLF) = toHex n := by
  have hlatin : (toHex n).IsLatin1 := by
    intro c hc
    obtain ⟨d, hd, rfl⟩ := mem_toHex hc
    exact (lowerHexDigit_spec hd).2.2.2.2.1
  have hlength : ((toHex n).toBuffer ++ CRLF).length - 2 = (toHex n).toBuffer.toLatin1.length := by
    simp [CRLF, JsString.toBuffer, Buffer.toLatin1]
  have hnone : ∀ c ∈ toHex n, (c != 59) = true := by
    intro c hc
    obtain ⟨d, hd, rfl⟩ := mem_toHex hc
    exact (lowerHexDigit_spec hd).2.2.2.1
  have hblank : ∀ c ∈ toHex n, isJsWhitespace c = false := by
    intro c hc
    obtain ⟨d, hd, rfl⟩ := mem_toHex hc
    exact (lowerHexDigit_spec hd).2.2.1
  unfold chunkSizeText
  rw [Buffer.toLatin1_append, hlength, List.take_left, JsString.toLatin1_toBuffer hlatin,
    List.takeWhile_eq_self_iff.mpr hnone, trim_eq_self hblank]

/-! ## One chunk -/

variable {r : ByteReader} {rounds left : ℕ}

/-- The data of a chunk that is there or still to come is read, in pieces that are not empty. -/
lemma readData_front (hrounds : left ≤ rounds)
    {data rest : Buffer} (h : r.unread = data ++ rest) (hdata : data.length = left) :
    ∃ yielded r', readData rounds left r = ⟨yielded, .done () r'⟩ ∧ yielded.flatten = data ∧
      r'.unread = rest := by
  induction rounds generalizing left r data with
  | zero =>
    obtain rfl : left = 0 := Nat.le_zero.mp hrounds
    obtain rfl := List.length_eq_zero_iff.mp hdata
    exact ⟨[], r, rfl, rfl, h⟩
  | succ rounds ih =>
    cases left with
    | zero =>
      obtain rfl := List.length_eq_zero_iff.mp hdata
      exact ⟨[], r, rfl, rfl, h⟩
    | succ left =>
      have hne : r.unread ≠ [] := by
        rw [h]
        exact List.append_ne_nil_of_left_ne_nil (List.ne_nil_of_length_eq_add_one hdata) _
      obtain ⟨piece, r₁, hread⟩ := ByteReader.read_of_unread (left + 1) hne
      obtain ⟨hunread, hle, hpiece⟩ := ByteReader.read_unread hread
      have hpos := List.length_pos_iff.mpr (hpiece (Nat.succ_pos left))
      obtain ⟨data', rfl⟩ : piece <+: data :=
        List.prefix_of_prefix_length_le ⟨r₁.unread, hunread.symm.trans h⟩
          (List.prefix_append data rest) (by omega)
      rw [List.append_assoc, hunread] at h
      rw [List.length_append] at hdata
      have hlength : data'.length = left + 1 - piece.length := by omega
      obtain ⟨yielded, r', hrest, hflatten, hleft⟩ :=
        ih (by omega) (List.append_cancel_left h) hlength
      refine ⟨piece :: yielded, r', ?_, by rw [List.flatten_cons, hflatten], hleft⟩
      simp only [readData, hread, hrest, Body.yield]

lemma readChunkEnd_front {rest : Buffer} (h : r.unread = CRLF ++ rest) :
    ∃ r', readChunkEnd r = .done () r' ∧ r'.unread = rest := by
  obtain ⟨r', hread, hunread⟩ :=
    ByteReader.readUntil_line [] 2 h (by simp) (by decide)
  exact ⟨r', by rw [readChunkEnd, hread]; rfl, hunread⟩

theorem readChunks_chunk {piece rest : Buffer} (hpiece : piece ≠ [])
    (hlength : piece.length < 16 ^ 12) (h : r.unread = chunk piece ++ rest) :
    ∃ yielded r', yielded.flatten = piece ∧ r'.unread = rest ∧ ∀ rounds,
      readChunks (rounds + 1) r =
        ⟨yielded ++ (readChunks rounds r').pieces, (readChunks rounds r').outcome⟩ := by
  have hline : (toHex piece.length).toBuffer.length < MAX_CHUNK_LINE := by
    have hdigits := (length_toHex hlength).2
    rw [JsString.toBuffer, List.length_map, MAX_CHUNK_LINE]
    omega
  have hfront : r.unread =
      (toHex piece.length).toBuffer ++ (CRLF ++ (piece ++ (CRLF ++ rest))) := by
    rw [h, chunk]
    simp only [List.append_assoc]
  obtain ⟨r₁, hsize, hunread₁⟩ := ByteReader.readUntil_line _ _ hfront (not_mem_toHex _) hline
  obtain ⟨yielded, r₂, hdata, hflatten, hunread₂⟩ :=
    readData_front (Nat.le_refl piece.length) hunread₁ rfl
  obtain ⟨r₃, hend, hunread₃⟩ := readChunkEnd_front hunread₂
  have hzero : piece.length ≠ 0 := by
    rw [Ne, List.length_eq_zero_iff]
    exact hpiece
  refine ⟨yielded, r₃, hflatten, hunread₃, fun rounds => ?_⟩
  rw [readChunks, hsize]
  simp only [chunkSizeText_toHex, isChunkSize_toHex hlength, parseHex_toHex]
  rw [if_neg (by decide), if_neg hzero, hdata]
  simp only [Body.andThen, hend, List.append_nil]

theorem readChunks_lastChunk {further : Buffer}
    (h : r.unread = LAST_CHUNK ++ further) (rounds : ℕ) :
    ∃ r', readChunks (rounds + 1) r = ⟨[], .done () r'⟩ ∧ r'.unread = further := by
  have hfront : r.unread = (toHex 0).toBuffer ++ (CRLF ++ (CRLF ++ further)) := h
  obtain ⟨r₁, hsize, hunread₁⟩ :=
    ByteReader.readUntil_line _ MAX_CHUNK_LINE hfront (not_mem_toHex 0) (by decide)
  obtain ⟨r₂, htrailer, hunread₂⟩ :=
    ByteReader.readUntil_line [] MAX_HEAD_BYTES hunread₁ (by simp) (by decide)
  refine ⟨r₂, ?_, hunread₂⟩
  rw [readChunks, hsize]
  simp only [chunkSizeText_toHex, parseHex_toHex]
  rw [if_neg (by decide), if_pos trivial, readTrailers, htrailer]
  rfl

/-! ## The rounds of the loop -/

lemma Body.andThen_congr {body : Body} {next next' : ByteReader → Body}
    (h : ∀ r, body.outcome = .done () r → next r = next' r) :
    body.andThen next = body.andThen next' := by
  unfold Body.andThen
  split
  · rename_i r houtcome
    rw [h r houtcome]
  · rfl
  · rfl

lemma Body.outcome_andThen {body : Body} {next : ByteReader → Body}
    (h : (body.andThen next).outcome = .done () r) :
    ∃ r', body.outcome = .done () r' ∧ (next r').outcome = .done () r := by
  unfold Body.andThen at h
  split at h
  · rename_i r' houtcome
    exact ⟨r', houtcome, h⟩
  · cases h
  · cases h

lemma readData_unread_le {r r' : ByteReader}
    (h : (readData rounds left r).outcome = .done () r') :
    r'.unread.length ≤ r.unread.length := by
  induction rounds generalizing left r with
  | zero =>
    cases left with
    | zero => cases h; exact Nat.le_refl _
    | succ left => cases h
  | succ rounds ih =>
    cases left with
    | zero => cases h; exact Nat.le_refl _
    | succ left =>
      rw [readData] at h
      cases hread : r.read (left + 1) with
      | done piece next =>
        rw [hread] at h
        cases piece with
        | none => cases h
        | some piece =>
          have hnext := ih h
          rw [(ByteReader.read_unread hread).1, List.length_append]
          omega
      | thrown error | waiting =>
        rw [hread] at h
        cases h

lemma readChunkEnd_unread_le {r r' : ByteReader} (h : readChunkEnd r = .done () r') :
    r'.unread.length ≤ r.unread.length := by
  unfold readChunkEnd at h
  split at h
  · cases h
  · rename_i line next hread
    split_ifs at h
    · cases h
    · cases h
      rw [(ByteReader.readUntil_unread (by decide) hread).1, List.length_append]
      omega
  · cases h
  · cases h

theorem readChunks_rounds {n m : ℕ} (hn : r.unread.length < n)
    (hm : r.unread.length < m) : readChunks n r = readChunks m r := by
  induction n generalizing m r with
  | zero => omega
  | succ n ih =>
    obtain ⟨m, rfl⟩ : ∃ k, m = k + 1 := ⟨m - 1, by omega⟩
    unfold readChunks
    cases hread : r.readUntil CRLF MAX_CHUNK_LINE with
    | done line next =>
      cases line with
      | none => rfl
      | some line =>
        obtain ⟨hunread, hline⟩ := ByteReader.readUntil_unread (by decide) hread
        have hpos := List.length_pos_iff.mpr hline
        rw [hunread, List.length_append] at hn hm
        dsimp only
        split_ifs
        · rfl
        · rfl
        · refine Body.andThen_congr fun r' hr' => ?_
          obtain ⟨r₁, hdata, hend⟩ := Body.outcome_andThen hr'
          have hle := readData_unread_le hdata
          have hle' := readChunkEnd_unread_le hend
          exact ih (by omega) (by omega)
    | thrown error => rfl
    | waiting => rfl

/-! ## All chunks -/

/-- A piece of a body. Its length is that of a buffer of the runtime: an address space of `2 ^ 47`
bytes holds no longer one. -/
structure Piece where
  bytes : Buffer
  nonempty : bytes ≠ []
  short : bytes.length < 16 ^ 12

variable (pieces : List Piece)

theorem readChunks_chunks {rest : Buffer}
    (h : r.unread = (pieces.flatMap fun p => chunk p.bytes) ++ rest) :
    ∃ yielded r', yielded.flatten = (pieces.flatMap fun p => p.bytes) ∧ r'.unread = rest ∧
      ∀ rounds, readChunks (rounds + pieces.length) r =
        ⟨yielded ++ (readChunks rounds r').pieces, (readChunks rounds r').outcome⟩ := by
  induction pieces generalizing r with
  | nil => exact ⟨[], r, rfl, h, fun rounds => rfl⟩
  | cons p pieces ih =>
    rw [List.flatMap_cons, List.append_assoc] at h
    obtain ⟨first, r₁, hfirst, hunread₁, hround⟩ := readChunks_chunk p.nonempty p.short h
    obtain ⟨others, r₂, hothers, hunread₂, hrounds⟩ := ih hunread₁
    refine ⟨first ++ others, r₂, ?_, hunread₂, fun rounds => ?_⟩
    · rw [List.flatten_append, hfirst, hothers, List.flatMap_cons]
    · rw [List.length_cons, ← Nat.add_assoc, hround, hrounds, List.append_assoc]

lemma length_le_chunks : pieces.length ≤ (pieces.flatMap fun p => chunk p.bytes).length := by
  induction pieces with
  | nil => simp
  | cons p pieces ih =>
    have hpos : 1 ≤ (chunk p.bytes).length := by
      simp only [chunk, CRLF, List.length_append, List.length_cons]
      omega
    rw [List.length_cons, List.flatMap_cons, List.length_append]
    omega

/-- A body in chunks is read as the pieces it was written from, and what is behind it is not
read. -/
theorem readBody_chunked {further : Buffer}
    (h : r.unread = (pieces.flatMap fun p => chunk p.bytes) ++ (LAST_CHUNK ++ further)) :
    ∃ yielded r', readBody r .chunked = ⟨yielded, .done () r'⟩ ∧
      yielded.flatten = (pieces.flatMap fun p => p.bytes) ∧ r'.unread = further := by
  obtain ⟨yielded, r₁, hyielded, hunread₁, hrounds⟩ := readChunks_chunks pieces h
  have hlength := length_le_chunks pieces
  obtain ⟨rounds, hcount⟩ : ∃ rounds, r.unread.length + 1 = rounds + 1 + pieces.length := by
    refine ⟨r.unread.length - pieces.length, ?_⟩
    rw [h, List.length_append]
    omega
  obtain ⟨r₂, hlast, hunread₂⟩ := readChunks_lastChunk hunread₁ rounds
  refine ⟨yielded, r₂, ?_, hyielded, hunread₂⟩
  rw [readBody, hcount, hrounds, hlast, List.append_nil]

lemma not_returned_of_unread_nil (h : r.unread = []) (rounds : ℕ) :
    (readChunks rounds r).returned = false := by
  cases rounds with
  | zero => rfl
  | succ rounds =>
    rw [readChunks]
    cases hread : r.readUntil CRLF MAX_CHUNK_LINE with
    | done line r' =>
      cases line with
      | none => rfl
      | some line =>
        obtain ⟨hunread, hline⟩ := ByteReader.readUntil_unread (by decide) hread
        rw [h] at hunread
        exact absurd (List.append_eq_nil_iff.mp hunread.symm).1 hline
    | thrown error => rfl
    | waiting => rfl

theorem not_returned_of_chunks (h : r.unread = pieces.flatMap fun p => chunk p.bytes) :
    (readBody r .chunked).returned = false := by
  obtain ⟨yielded, r₁, -, hunread, hrounds⟩ :=
    readChunks_chunks pieces (h.trans (List.append_nil _).symm)
  have hlength := length_le_chunks pieces
  obtain ⟨rounds, hcount⟩ : ∃ rounds, r.unread.length + 1 = rounds + pieces.length := by
    refine ⟨r.unread.length + 1 - pieces.length, ?_⟩
    rw [h]
    omega
  rw [readBody, hcount, hrounds]
  exact not_returned_of_unread_nil hunread rounds

/-! ## Passing a body on -/

lemma ne_nil_of_mem_readData {piece : Buffer}
    (h : piece ∈ (readData rounds left r).pieces) : piece ≠ [] := by
  induction rounds generalizing left r with
  | zero => cases left <;> cases h
  | succ rounds ih =>
    cases left with
    | zero => cases h
    | succ left =>
      rw [readData] at h
      cases hread : r.read (left + 1) with
      | done first r' =>
        rw [hread] at h
        cases first with
        | none => cases h
        | some first =>
          rcases List.mem_cons.mp h with rfl | h
          · exact (ByteReader.read_unread hread).2.2 (Nat.succ_pos left)
          · exact ih h
      | thrown error | waiting =>
        rw [hread] at h
        cases h

lemma Body.mem_andThen {body : Body} {next : ByteReader → Body} {piece : Buffer}
    (h : piece ∈ (body.andThen next).pieces) :
    piece ∈ body.pieces ∨ ∃ r, piece ∈ (next r).pieces := by
  unfold Body.andThen at h
  split at h
  · rename_i r _
    rcases List.mem_append.mp h with h | h
    · exact Or.inl h
    · exact Or.inr ⟨r, h⟩
  · exact Or.inl h
  · exact Or.inl h

theorem ne_nil_of_mem_readChunks {rounds : ℕ} {piece : Buffer}
    (h : piece ∈ (readChunks rounds r).pieces) : piece ≠ [] := by
  induction rounds generalizing r with
  | zero => cases h
  | succ rounds ih =>
    rw [readChunks] at h
    split at h
    · cases h
    · cases h
    · cases h
    · dsimp only at h
      split_ifs at h
      · cases h
      · cases h
      · rcases Body.mem_andThen h with h | ⟨r', h⟩
        · rcases Body.mem_andThen h with h | ⟨r', h⟩
          · exact ne_nil_of_mem_readData h
          · cases h
        · exact ih h

/-- What the writes for a response consist of: chunks none of which is empty and, if the body
returned, the last one; together they carry what the scrubber gives out. -/
theorem forwardPieces_spec (s : StreamScrubber) (returned : Bool) (pieces : List Buffer) :
    ∃ emitted : List Buffer, (∀ data ∈ emitted, data ≠ []) ∧
      forwardPieces s returned pieces =
        emitted.map chunk ++ (if returned then [LAST_CHUNK] else []) ∧
      (returned = true → emitted.flatten = s.run pieces) := by
  have hwrite : ∀ data : Buffer, ∃ emitted : List Buffer, (∀ d ∈ emitted, d ≠ []) ∧
      (if data.length ≠ 0 then [chunk data] else []) = emitted.map chunk ∧
      emitted.flatten = data := by
    intro data
    by_cases hdata : data = []
    · subst hdata
      exact ⟨[], nofun, rfl, rfl⟩
    · have hlength := mt List.length_eq_zero_iff.mp hdata
      exact ⟨[data], by simpa using hdata, by rw [if_pos hlength]; rfl, by simp⟩
  induction pieces generalizing s with
  | nil =>
    cases returned with
    | false => exact ⟨[], nofun, rfl, nofun⟩
    | true =>
      obtain ⟨emitted, hne, hwrites, hflatten⟩ := hwrite s.endStream.1
      refine ⟨emitted, hne, ?_, fun _ => hflatten⟩
      rw [forwardPieces, if_pos rfl, if_pos rfl, hwrites]
  | cons piece pieces ih =>
    obtain ⟨first, hfirst, hwrites, hflatten⟩ := hwrite (s.push piece).1
    obtain ⟨others, hothers, hrest, hrun⟩ := ih (s.push piece).2
    refine ⟨first ++ others, fun data hdata => ?_, ?_, fun hreturned => ?_⟩
    · exact (List.mem_append.mp hdata).elim (hfirst data) (hothers data)
    · rw [forwardPieces, hwrites, hrest, List.map_append, List.append_assoc]
    · rw [List.flatten_append, hflatten, hrun hreturned, StreamScrubber.run]

lemma exists_pieces {emitted : List Buffer} (hne : ∀ data ∈ emitted, data ≠ [])
    (hshort : ∀ data ∈ emitted, data.length < 16 ^ 12) :
    ∃ pieces : List Piece, pieces.map Piece.bytes = emitted := by
  refine ⟨emitted.attach.map fun data => ⟨data.1, hne data.1 data.2, hshort data.1 data.2⟩, ?_⟩
  rw [List.map_map]
  exact List.attach_map_subtype_val emitted

/-- Chunked bodies survive the proxy.

A stream that consists of the chunks of some pieces, the last chunk and further bytes, however it
arrives, is read as the pieces, and the further bytes stay unread.

The writes for a response are chunks of data that is not empty and, if its body returned, the last
chunk. Reading any number of the writes before the last chunk does not end a body; reading all of
them gives what the scrubber gave out, to the last byte. The writes for a request are chunks of data
that is not empty too, and the last chunk if its body returned. -/
theorem chunkedBody_survives :
    (∀ (pieces : List Piece) (further : Buffer) (r : ByteReader),
      r.unread = (pieces.flatMap fun p => chunk p.bytes) ++ (LAST_CHUNK ++ further) →
      ∃ yielded r', readBody r .chunked = ⟨yielded, .done () r'⟩ ∧
        yielded.flatten = (pieces.flatMap fun p => p.bytes) ∧ r'.unread = further) ∧
    (∀ (patterns : List JsString) (returned : Bool) (pieces : List Buffer),
      ∃ emitted : List Buffer, (∀ data ∈ emitted, data ≠ []) ∧
        forwardResponseBody patterns returned pieces =
          emitted.map chunk ++ (if returned then [LAST_CHUNK] else []) ∧
        ((∀ data ∈ emitted, data.length < 16 ^ 12) →
          (∀ k (r : ByteReader), r.unread = ((emitted.take k).map chunk).flatten →
            (readBody r .chunked).returned = false) ∧
          (returned = true → ∀ (further : Buffer) (r : ByteReader),
            r.unread = (forwardResponseBody patterns returned pieces).flatten ++ further →
            ∃ yielded r', readBody r .chunked = ⟨yielded, .done () r'⟩ ∧
              yielded.flatten = scrubChunks patterns pieces ∧ r'.unread = further))) ∧
    ∀ r : ByteReader, ∃ emitted : List Buffer, (∀ data ∈ emitted, data ≠ []) ∧
      forwardRequestBody r .chunked = emitted.map chunk ++
        (if (readBody r .chunked).returned then [LAST_CHUNK] else []) := by
  refine ⟨fun pieces further r h => readBody_chunked pieces h,
    fun patterns returned pieces => ?_, fun r => ?_⟩
  · obtain ⟨emitted, hne, hwrites, hrun⟩ :=
      forwardPieces_spec (StreamScrubber.new patterns) returned pieces
    refine ⟨emitted, hne, hwrites, fun hshort => ⟨fun k r hunread => ?_,
      fun hreturned further r hunread => ?_⟩⟩
    · obtain ⟨front, hfront⟩ := exists_pieces
        (fun data hdata => hne data (List.mem_of_mem_take hdata))
        (fun data hdata => hshort data (List.mem_of_mem_take hdata))
      refine not_returned_of_chunks front ?_
      rw [hunread, ← hfront, List.map_map, List.flatMap_def]
      rfl
    · obtain ⟨all, hall⟩ := exists_pieces hne hshort
      have hchunks : r.unread =
          (all.flatMap fun p => chunk p.bytes) ++ (LAST_CHUNK ++ further) := by
        rw [hunread, forwardResponseBody, hwrites, hreturned, if_pos rfl, ← hall, List.map_map,
          List.flatten_append, List.flatMap_def, List.append_assoc, List.flatten_cons,
          List.flatten_nil, List.append_nil]
        rfl
      obtain ⟨yielded, r', hread, hflatten, hleft⟩ := readBody_chunked all hchunks
      refine ⟨yielded, r', hread, ?_, hleft⟩
      rw [hflatten, List.flatMap_def, hall]
      exact hrun hreturned
  · exact ⟨(readBody r .chunked).pieces, fun data hdata => ne_nil_of_mem_readChunks hdata, rfl⟩

theorem chunkedBody_survives_split :
    ∃ yielded r', readBody ⟨(js "5\r").toBuffer, false,
        [.data (js "\nhello\r\n1\r\n!\r").toBuffer, .data (js "\n0\r\n\r\nG").toBuffer]⟩ .chunked =
        ⟨yielded, .done () r'⟩ ∧
      yielded.flatten = (js "hello!").toBuffer ∧ r'.unread = (js "G").toBuffer :=
  chunkedBody_survives.1
    [⟨(js "hello").toBuffer, by decide, by decide⟩, ⟨(js "!").toBuffer, by decide, by decide⟩]
    (js "G").toBuffer _ (by decide)

end Isomux
