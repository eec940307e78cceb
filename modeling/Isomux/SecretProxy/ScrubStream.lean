import Isomux.SecretProxy.Scrub

set_option autoImplicit false

/-!
# The streaming scrub (`StreamScrubber` of `src/server/secret-proxy/scrub.ts`)

The streaming scrub sees a body in chunks and holds back the last `keep` bytes of each. Whether it
agrees with the scrub of the whole body depends on the patterns: a pattern that is complete in one
chunk is replaced at once, also where it is the front or the middle of a longer pattern that the
next chunk completes.

## Main results

* `Isomux.scrubChunks_eq_of_cleanBoundaries` — with clean boundaries the chunks are scrubbed as
  the whole text is.
* `Isomux.streamScrubber_agrees_iff` — the patterns for which this holds for every split.
-/

namespace Isomux

open Rewriting

/-! ## The state machine -/

/-- The streaming scrub. `carry` is the raw text held back. -/
structure StreamScrubber where
  patterns : List JsString
  keep : ℕ
  carry : JsString

variable (patterns : List JsString)

/-- The length of the longest pattern, as the constructor's `reduce` computes it. -/
def maxLength : ℕ := patterns.foldl (fun m p => max m p.length) 0

/-- `new StreamScrubber(patterns)`. Without patterns `keep` is `-1` in the source, and unused. -/
def StreamScrubber.new : StreamScrubber :=
  ⟨patterns, maxLength patterns - 1, []⟩

/-- `push(chunk)`: the bytes to give out, and the state after it. -/
def StreamScrubber.push (s : StreamScrubber) (chunk : Buffer) : Buffer × StreamScrubber :=
  if s.patterns = [] then (chunk, s)
  else
    let (text, lastEnd) := replaceAll (s.carry ++ chunk.toLatin1) s.patterns
    let safe := max lastEnd (text.length - s.keep)
    (JsString.toBuffer (text.take safe), { s with carry := text.drop safe })

/-- `end()`: the text held back is given out. -/
def StreamScrubber.endStream (s : StreamScrubber) : Buffer × StreamScrubber :=
  (s.carry.toBuffer, { s with carry := [] })

/-- What is given out for `chunks`, then `end()`, from the state `s` on. -/
def StreamScrubber.run (s : StreamScrubber) : List Buffer → Buffer
  | [] => s.endStream.1
  | chunk :: chunks => (s.push chunk).1 ++ (s.push chunk).2.run chunks

/-- What a new scrubber gives out for `chunks`, then `end()`. -/
def scrubChunks (chunks : List Buffer) : Buffer :=
  (StreamScrubber.new patterns).run chunks

variable {patterns : List JsString}

theorem length_le_maxLength :
    ∀ p ∈ patterns, p.length ≤ maxLength patterns := by
  have hstep : ∀ (ps : List JsString) (m : ℕ), m ≤ ps.foldl (fun m p => max m p.length) m ∧
      ∀ p ∈ ps, p.length ≤ ps.foldl (fun m p => max m p.length) m := by
    intro ps
    induction ps with
    | nil => simp
    | cons q ps ih =>
      intro m
      obtain ⟨hm, hps⟩ := ih (max m q.length)
      refine ⟨le_trans (le_max_left _ _) hm, fun p hp => ?_⟩
      rcases List.mem_cons.mp hp with rfl | hp
      · exact le_trans (le_max_right _ _) hm
      · exact hps p hp
  exact (hstep patterns 0).2

/-! ## Conditions on the patterns and on the split -/

/-- No pattern lies inside a pattern of bytes so that it ends before that pattern's last letter. A
pattern with a code unit above `0xFF` occurs in no byte string. -/
def ByteNestedFree (patterns : List JsString) : Prop :=
  ∀ p ∈ patterns, ∀ q ∈ patterns, q.IsLatin1 → ¬ p <:+: q.dropLast

/-- Every boundary between the chunks is a clean cut of the whole text. -/
def CleanBoundaries (patterns : List JsString) (chunks : List Buffer) : Prop :=
  ∀ front back : List Buffer, chunks = front ++ back →
    CleanCut patterns (Buffer.toLatin1 chunks.flatten) front.flatten.length

/-! ## One chunk -/

theorem isLatin1_scrubMarker : SCRUB_MARKER.IsLatin1 := by decide

/-- **What one `push` does.** On the text `t` of the carry and the chunk, the pass writes `e` and
leaves `r`; `push` gives out `e` and all but the last `keep` letters of `r`, which it carries. -/
theorem StreamScrubber.push_spec {s : StreamScrubber} (hs : s.patterns ≠ [])
    (hne : ∀ p ∈ s.patterns, p ≠ []) (hcarry : s.carry.IsLatin1) (chunk : Buffer) :
    ∃ e r, Rewrites s.patterns SCRUB_MARKER (s.carry ++ chunk.toLatin1) e r ∧
      (s.push chunk).1.toLatin1 = e ++ r.take (r.length - s.keep) ∧
      (s.push chunk).2 = { s with carry := r.drop (r.length - s.keep) } := by
  obtain ⟨e, r, hrw, heq⟩ := rewrites_replaceAll hne (s.carry ++ chunk.toLatin1)
  have hsafe : max e.length ((e ++ r).length - s.keep) = e.length + (r.length - s.keep) := by
    rw [List.length_append]
    omega
  have hlatin : JsString.IsLatin1 (e ++ r.take (r.length - s.keep)) := by
    refine JsString.IsLatin1.of_subset (hrw.forall_mem isLatin1_scrubMarker
      (hcarry.append (Buffer.isLatin1_toLatin1 chunk))) ?_
    exact ((List.take_sublist _ r).append_left e).subset
  refine ⟨e, r, hrw, ?_, ?_⟩
  · simp only [StreamScrubber.push, if_neg hs, heq, hsafe, List.take_length_add_append]
    exact JsString.toLatin1_toBuffer hlatin
  · simp only [StreamScrubber.push, if_neg hs, heq, hsafe, List.drop_length_add_append]

/-! ## All chunks -/

/-- From any state whose carry is raw text without a pattern, clean boundaries make the rest of the
run scrub the carry and the chunks as one text.

**Proof sketch.** Induction on the chunks. The carry after a `push` is the end of the text seen so
far, so the remaining boundaries are clean cuts of the text from the carry on, and what `push`
gives out is the front part of the whole pass (`Rewriting.Rewrites.append`). -/
theorem StreamScrubber.run_eq_scrubText (hps : patterns ≠ [])
    (hne : ∀ p ∈ patterns, p ≠ []) (chunks : List Buffer) (carry : JsString)
    (hcarry : carry.IsLatin1) (hclean : ∀ p ∈ patterns, ∀ k, ¬ OccursAt p carry k)
    (hcut : ∀ front back : List Buffer, chunks = front ++ back →
      CleanCut patterns (carry ++ Buffer.toLatin1 chunks.flatten)
        (carry.length + front.flatten.length)) :
    Buffer.toLatin1 ((⟨patterns, maxLength patterns - 1, carry⟩ : StreamScrubber).run chunks) =
      scrubText (carry ++ Buffer.toLatin1 chunks.flatten) patterns := by
  induction chunks generalizing carry with
  | nil =>
    have hend : Buffer.toLatin1 (JsString.toBuffer carry) = carry :=
      JsString.toLatin1_toBuffer hcarry
    have hscrub := scrubText_of_rewrites hne (.done carry hclean)
    simpa [StreamScrubber.run, StreamScrubber.endStream, hend] using hscrub.symm
  | cons chunk chunks ih =>
    set s : StreamScrubber := ⟨patterns, maxLength patterns - 1, carry⟩ with hs
    obtain ⟨e, r, hrw, hout, hstate⟩ :=
      StreamScrubber.push_spec (s := s) hps hne hcarry chunk
    change Rewrites patterns SCRUB_MARKER (carry ++ chunk.toLatin1) e r at hrw
    change (s.push chunk).1.toLatin1 =
      e ++ r.take (r.length - (maxLength patterns - 1)) at hout
    change (s.push chunk).2 =
      ⟨patterns, maxLength patterns - 1, r.drop (r.length - (maxLength patterns - 1))⟩ at hstate
    set n := maxLength patterns - 1
    set held := r.drop (r.length - n)
    have htext : carry ++ Buffer.toLatin1 (chunk :: chunks).flatten =
        carry ++ chunk.toLatin1 ++ Buffer.toLatin1 chunks.flatten := by simp
    -- the carry is the end of the text seen so far
    obtain ⟨seen, hseen⟩ : ∃ seen, seen ++ held = carry ++ chunk.toLatin1 := by
      obtain ⟨seen, hseen⟩ := (List.drop_suffix (r.length - n) r).trans hrw.rest_suffix
      exact ⟨seen, hseen⟩
    have hlatin : JsString.IsLatin1 (carry ++ chunk.toLatin1) :=
      hcarry.append (Buffer.isLatin1_toLatin1 chunk)
    have hheld := ih held
      (hlatin.of_subset (hseen ▸ List.subset_append_right seen held))
      (fun p hp k hk => hrw.rest_clean p hp _ (occursAt_drop.mp hk))
      (by
        intro front back hsplit
        have := (hcut (chunk :: front) back (by rw [hsplit]; rfl)).drop (d := seen.length) (by
          have := congrArg List.length hseen
          simp only [List.length_append, Buffer.toLatin1, List.length_map] at this
          simp only [List.flatten_cons, List.length_append]
          omega)
        rw [htext, ← hseen, List.append_assoc, List.drop_left] at this
        refine (congrArg _ ?_).mp this
        have := congrArg List.length hseen
        simp only [List.length_append, Buffer.toLatin1, List.length_map] at this
        simp only [List.flatten_cons, List.length_append]
        omega)
    -- the pass over the carry and the chunks to come
    obtain ⟨e₂, r₂, hrw₂, heq₂⟩ :=
      rewrites_replaceAll hne (held ++ Buffer.toLatin1 chunks.flatten)
    rw [scrubText_of_rewrites hne hrw₂] at hheld
    obtain ⟨e', r', hrw', heq'⟩ := hrw.append (n := n) hne
      (fun q hq => by have := length_le_maxLength q hq; omega)
      (by
        have := hcut [chunk] chunks rfl
        rw [htext] at this
        simpa [Buffer.toLatin1] using this) hrw₂
    rw [htext, scrubText_of_rewrites hne hrw', heq', StreamScrubber.run, Buffer.toLatin1_append,
      hout, hstate, hheld]

theorem scrubChunks_eq_of_cleanBoundaries
    (hne : ∀ p ∈ patterns, p ≠ []) {chunks : List Buffer}
    (hcut : CleanBoundaries patterns chunks) :
    (scrubChunks patterns chunks).toLatin1 =
      scrubText (Buffer.toLatin1 chunks.flatten) patterns := by
  by_cases hps : patterns = []
  · subst hps
    have hrun : ∀ cs : List Buffer, (StreamScrubber.new []).run cs = cs.flatten := by
      intro cs
      induction cs with
      | nil => rfl
      | cons c cs ih =>
        have hpush : (StreamScrubber.new []).push c = (c, StreamScrubber.new []) := rfl
        rw [StreamScrubber.run, hpush, ih, List.flatten_cons]
    rw [scrubChunks, hrun, scrubText, if_pos rfl]
  · have := StreamScrubber.run_eq_scrubText hps hne chunks [] (by simp [JsString.IsLatin1])
      (fun p hp => not_occursAt_nil (hne p hp)) (by simpa [CleanBoundaries] using hcut)
    simpa [scrubChunks, StreamScrubber.new] using this

theorem ByteNestedFree.cleanBoundaries (h : ByteNestedFree patterns)
    (chunks : List Buffer) : CleanBoundaries patterns chunks := by
  intro front back _ p hp q hq i j hqi hpj hij hend
  by_contra hcon
  have hlatin : JsString.IsLatin1 q :=
    (Buffer.isLatin1_toLatin1 chunks.flatten).of_subset
      fun c hc => List.mem_of_mem_drop (hqi.subset hc)
  exact h p hp q hq hlatin (hqi.infix_dropLast hpj hij (by omega))

/-- A pattern that is cut off before its last letter, where another pattern is already complete,
comes out longer than one mark.

**Proof sketch.** The pass over the first chunk replaces something, so it gives out at least one
mark; the pass over what is held back and the last letter gives out at least one more letter. -/
theorem marker_lt_length_scrubChunks (hne : ∀ p ∈ patterns, p ≠ [])
    {p : JsString} (hp : p ∈ patterns) {front last : Buffer} (hlast : last ≠ [])
    (hin : p <:+: front.toLatin1) :
    SCRUB_MARKER.length < (scrubChunks patterns [front, last]).length := by
  have hps : patterns ≠ [] := List.ne_nil_of_mem hp
  have hlen : ∀ b : Buffer, b.toLatin1.length = b.length := fun b => List.length_map _
  set s := StreamScrubber.new patterns
  obtain ⟨e, r, hrw, hout, hstate⟩ :=
    StreamScrubber.push_spec (s := s) hps hne (by simp [s, StreamScrubber.new, JsString.IsLatin1])
      front
  have hmark : SCRUB_MARKER.length ≤ e.length := by
    cases hrw with
    | done _ hno =>
      obtain ⟨a, b, hab⟩ := hin
      refine absurd (show OccursAt p ([] ++ front.toLatin1) a.length from ?_) (hno p hp _)
      rw [List.nil_append, ← hab, OccursAt, List.append_assoc, List.drop_left]
      exact List.prefix_append _ _
    | hit => simp only [List.length_append]; omega
  set s' := (s.push front).2
  have hs' : s'.patterns = patterns := by simp [hstate, s, StreamScrubber.new]
  have hcarry : s'.carry.IsLatin1 := by
    rw [hstate]
    refine JsString.IsLatin1.of_subset (t := front.toLatin1) (Buffer.isLatin1_toLatin1 front) ?_
    exact ((List.drop_suffix _ r).trans hrw.rest_suffix).subset
  obtain ⟨e₂, r₂, hrw₂, hout₂, hstate₂⟩ :=
    StreamScrubber.push_spec (s := s') (by rwa [hs']) (by rwa [hs']) hcarry last
  have hne₂ := hrw₂.output_ne_nil (by decide) (by
    rw [ne_eq, List.append_eq_nil_iff]
    exact fun h => hlast (List.map_eq_nil_iff.mp h.2))
  have hpos := List.length_pos_iff.mpr hne₂
  have hfirst := congrArg List.length hout
  have hsecond := congrArg List.length hout₂
  rw [hlen] at hfirst hsecond
  have hrun : scrubChunks patterns [front, last] =
      (s.push front).1 ++ ((s'.push last).1 ++ (s'.push last).2.endStream.1) := rfl
  have hheld : ((s'.push last).2.endStream.1).length = (r₂.drop (r₂.length - s'.keep)).length := by
    rw [hstate₂]
    simp [StreamScrubber.endStream, JsString.toBuffer]
  rw [hrun]
  simp only [List.length_append, List.length_take, List.length_drop] at *
  omega

theorem scrubText_pattern (hne : ∀ p ∈ patterns, p ≠ [])
    {q : JsString} (hq : q ∈ patterns) : scrubText q patterns = SCRUB_MARKER := by
  have hll : LeftmostLongest patterns q 0 q :=
    ⟨hq, List.prefix_rfl, fun _ _ _ _ => Nat.zero_le _, fun _ _ h => h.length_le⟩
  have hrest : Rewrites patterns SCRUB_MARKER (q.drop (0 + q.length)) [] [] := by
    rw [Nat.zero_add, List.drop_length]
    exact .done [] fun p hp => not_occursAt_nil (hne p hp)
  have := scrubText_of_rewrites hne (.hit hll hrest)
  simpa using this

/-- **When the streaming scrub agrees with the whole-text scrub.** For patterns as `scrubPatterns`
makes them, every split of every byte string is scrubbed as the whole string is, if and only if no
pattern lies inside a byte pattern before its last letter. For any patterns, a split whose
boundaries are clean is scrubbed so.

**Proof sketch.** Nested-free patterns make every boundary clean. Conversely, let `p` lie inside
`q` before its last letter, and split the text `q` before that letter: the whole text is scrubbed
to one mark, the two chunks to more than one. -/
theorem streamScrubber_agrees_iff (patterns : List JsString)
    (hlen : ∀ p ∈ patterns, MIN_SCRUB_LENGTH ≤ p.length) :
    ((∀ chunks : List Buffer, (scrubChunks patterns chunks).toLatin1 =
        scrubText (Buffer.toLatin1 chunks.flatten) patterns) ↔ ByteNestedFree patterns) ∧
      ∀ chunks : List Buffer, CleanBoundaries patterns chunks →
        (scrubChunks patterns chunks).toLatin1 =
          scrubText (Buffer.toLatin1 chunks.flatten) patterns := by
  have hne : ∀ p ∈ patterns, p ≠ [] := by
    rintro p hp rfl
    exact absurd (hlen _ hp) (by decide)
  refine ⟨⟨fun hagree p hp q hq hlatin hin => ?_, fun hfree chunks => ?_⟩,
    fun chunks => scrubChunks_eq_of_cleanBoundaries hne⟩
  · have hqne : q ≠ [] := hne q hq
    have hfront : Buffer.toLatin1 (JsString.toBuffer q.dropLast) = q.dropLast :=
      JsString.toLatin1_toBuffer (hlatin.of_subset (List.dropLast_subset q))
    have hback : Buffer.toLatin1 (JsString.toBuffer [q.getLast hqne]) = [q.getLast hqne] :=
      JsString.toLatin1_toBuffer (hlatin.of_subset (by simp))
    have hlast : JsString.toBuffer [q.getLast hqne] ≠ [] := by simp [JsString.toBuffer]
    have hlong := marker_lt_length_scrubChunks hne hp hlast (hfront.symm ▸ hin)
    have heq := hagree [JsString.toBuffer q.dropLast, JsString.toBuffer [q.getLast hqne]]
    have hwhole : Buffer.toLatin1 [JsString.toBuffer q.dropLast,
        JsString.toBuffer [q.getLast hqne]].flatten = q := by
      simp only [List.flatten_cons, List.flatten_nil, List.append_nil, Buffer.toLatin1_append,
        hfront, hback, List.dropLast_append_getLast]
    rw [hwhole, scrubText_pattern hne hq] at heq
    have := congrArg List.length heq
    simp only [Buffer.toLatin1, List.length_map] at this
    omega
  · exact scrubChunks_eq_of_cleanBoundaries hne (hfree.cleanBoundaries chunks)

/-- One stored value is enough to disagree: its URL-encoded form begins with the value itself, so
the end of an escape that comes in the next chunk is given out. -/
theorem streamScrubber_disagrees :
    ∃ patterns, scrubPatterns [js "abcdefgh%"] = some patterns ∧
      (scrubChunks patterns [(js "abcdefgh%").toBuffer, (js "25").toBuffer]).toLatin1 ≠
        scrubText (Buffer.toLatin1 [(js "abcdefgh%").toBuffer, (js "25").toBuffer].flatten)
          patterns :=
  ⟨[js "YWJjZGVmZ2gl", js "abcdefgh%25", js "abcdefgh%", js "Y2RlZmdo", js "YmNkZWZn"],
    by decide +kernel, by decide +kernel⟩

theorem streamScrubber_agrees_iff_ghp :
    (∀ chunks : List Buffer, (scrubChunks [js "ghp_012%", js "ghp_012%25"] chunks).toLatin1 =
        scrubText (Buffer.toLatin1 chunks.flatten) [js "ghp_012%", js "ghp_012%25"]) ↔
      ByteNestedFree [js "ghp_012%", js "ghp_012%25"] :=
  (streamScrubber_agrees_iff [js "ghp_012%", js "ghp_012%25"] (by decide)).1

end Isomux
