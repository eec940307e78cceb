import Isomux.Foundations.MarkedText
import Isomux.SecretProxy.ScrubStream

set_option autoImplicit false

/-!
# The streaming scrub gives no value out

Where the streaming scrub differs from the scrub of the whole body, it gives out the end of a longer
pattern behind the mark of a shorter one. It never gives out a whole pattern: what stands between
its marks are segments of the body that contain none, however the body was split.

## Main results

* `Isomux.scrubSpansFrom_endless` — with the empty pattern the scrub does not end.
* `Isomux.StreamScrubber.heldBack_run` — what a run gives out of the body it sees.
* `Isomux.scrubChunks_leaks_nothing` — no segment contains a pattern.
-/

namespace Isomux

open Rewriting

/-! ## The empty pattern -/

lemma indexOf_add_length_le {text p : JsString} {i k : ℕ} (h : indexOf text p i = some k) :
    i ≤ k ∧ k + p.length ≤ text.length := by
  obtain ⟨hle, hoc, -⟩ := indexOf_eq_some h
  obtain ⟨-, hmem, -⟩ := List.find?_range'_eq_some.mp h
  have hrange := (List.mem_range'_1.mp hmem).2
  have hlen := hoc.length_le
  rw [List.length_drop] at hlen
  omega

lemma indexOf_nil {text : JsString} {i : ℕ} (hi : i ≤ text.length) : indexOf text [] i = some i := by
  obtain ⟨n, hn⟩ : ∃ n, text.length + 1 - i = n + 1 := ⟨text.length - i, by omega⟩
  unfold indexOf
  rw [hn, List.range'_succ, List.find?_cons_of_pos (by simp)]

/-- With the empty pattern there is always a next span. -/
lemma bestMatch_of_nil_mem {text : JsString} {patterns : List JsString} (hnil : [] ∈ patterns)
    {i : ℕ} (hi : i ≤ text.length) :
    ∃ b p, bestMatch text patterns i = some (b, p) ∧ b + p.length ≤ text.length := by
  have hinside : ∀ (best : Option (ℕ × JsString)) (p : JsString),
      (∀ b ∈ best, b.1 + b.2.length ≤ text.length) →
      ∀ b ∈ considerPattern text i best p, b.1 + b.2.length ≤ text.length := by
    intro best p hbest b hb
    unfold considerPattern at hb
    cases hix : indexOf text p i with
    | none => exact hbest b (by simpa [hix] using hb)
    | some k =>
      have hlen := (indexOf_add_length_le hix).2
      rw [hix] at hb
      rcases best with _ | ⟨b', p'⟩
      · obtain rfl : (k, p) = b := Option.some.inj hb
        exact hlen
      · have hbest' := hbest (b', p') rfl
        dsimp only at hb
        split_ifs at hb with hlt heq
        · obtain rfl := Option.some.inj hb
          exact hlen
        · obtain rfl := Option.some.inj hb
          obtain ⟨rfl, -⟩ := heq
          exact hlen
        · obtain rfl := Option.some.inj hb
          exact hbest'
  have hsome : ∀ (best : Option (ℕ × JsString)) (p : JsString), best.isSome ∨ p = [] →
      (considerPattern text i best p).isSome := by
    intro best p h
    unfold considerPattern
    rcases best with _ | ⟨b, p'⟩
    · obtain rfl := h.resolve_left (by simp)
      rw [indexOf_nil hi]
      rfl
    · cases indexOf text p i with
      | none => rfl
      | some k =>
        dsimp only
        split_ifs <;> rfl
  suffices h : ∀ (todo : List JsString) (best : Option (ℕ × JsString)),
      (∀ b ∈ best, b.1 + b.2.length ≤ text.length) → (best.isSome ∨ [] ∈ todo) →
      (∀ b ∈ todo.foldl (considerPattern text i) best, b.1 + b.2.length ≤ text.length) ∧
        (todo.foldl (considerPattern text i) best).isSome by
    obtain ⟨hlen, hfound⟩ := h patterns none (by simp) (.inr hnil)
    obtain ⟨⟨b, p⟩, hbest⟩ := Option.isSome_iff_exists.1 hfound
    exact ⟨b, p, hbest, hlen (b, p) hbest⟩
  intro todo
  induction todo with
  | nil => exact fun best hbest h => ⟨hbest, h.resolve_right List.not_mem_nil⟩
  | cons p todo ih =>
    intro best hbest h
    refine ih _ (hinside best p hbest) ?_
    rcases h with h | h
    · exact .inl (hsome best p (.inl h))
    · rcases List.mem_cons.1 h with rfl | h
      · exact .inl (hsome best [] (.inr rfl))
      · exact .inr h

/-- **With the empty pattern the scrub does not end**: every round of `scrubSpans` finds one more
span. -/
theorem scrubSpansFrom_endless {patterns : List JsString} (hnil : [] ∈ patterns) (text : JsString)
    (rounds : ℕ) {i : ℕ} (hi : i ≤ text.length) :
    (scrubSpansFrom text patterns rounds i).length = rounds := by
  induction rounds generalizing i with
  | zero => rfl
  | succ rounds ih =>
    obtain ⟨b, p, hbest, hlen⟩ := bestMatch_of_nil_mem hnil hi
    unfold scrubSpansFrom
    rw [hbest, List.length_cons, ih hlen]

/-! ## The segments of a run -/

/-- **What a run gives out of the body it sees.** If `out` was given out of `input`, and the carry is
held back, then `out` and what the run gives out consist of clean segments of `input` and the
chunks.

**Proof sketch.** Induction on the chunks, by the rule for one more part of the text. -/
theorem StreamScrubber.heldBack_run {patterns : List JsString} (hps : patterns ≠ [])
    (hne : ∀ p ∈ patterns, p ≠ []) (chunks : List Buffer) {input out carry : JsString}
    (hcarry : carry.IsLatin1)
    (h : HeldBack patterns SCRUB_MARKER (maxLength patterns - 1) input out carry) :
    ∃ replaced last, CleanSegments patterns replaced ∧ Clean patterns last ∧
      input ++ Buffer.toLatin1 chunks.flatten = source replaced last ∧
      out ++ Buffer.toLatin1 ((⟨patterns, maxLength patterns - 1, carry⟩ : StreamScrubber).run
        chunks) = marked SCRUB_MARKER replaced last := by
  induction chunks generalizing input out carry with
  | nil =>
    have hend : Buffer.toLatin1 (JsString.toBuffer carry) = carry := JsString.toLatin1_toBuffer hcarry
    simpa [StreamScrubber.run, StreamScrubber.endStream, hend] using h.finish
  | cons chunk chunks ih =>
    set s : StreamScrubber := ⟨patterns, maxLength patterns - 1, carry⟩ with hs
    obtain ⟨e, r, hrw, hout, hstate⟩ := StreamScrubber.push_spec (s := s) hps hne hcarry chunk
    have hnext := h.push hne (fun p hp => by have := length_le_maxLength p hp; omega) hrw
    have hlatin : JsString.IsLatin1 (r.drop (r.length - s.keep)) := by
      refine (hcarry.append (Buffer.isLatin1_toLatin1 chunk)).of_subset ?_
      exact ((List.drop_suffix _ r).trans hrw.rest_suffix).subset
    obtain ⟨replaced, last, hsegments, hlast, hsource, hmarked⟩ := ih hlatin hnext
    refine ⟨replaced, last, hsegments, hlast, ?_, ?_⟩
    · rw [← hsource]
      simp
    · rw [← hmarked, StreamScrubber.run, Buffer.toLatin1_append, hout, hstate]
      simp [hs]

lemma run_of_no_patterns (chunks : List Buffer) :
    (StreamScrubber.new []).run chunks = chunks.flatten := by
  induction chunks with
  | nil => rfl
  | cons chunk chunks ih =>
    have hpush : (StreamScrubber.new []).push chunk = (chunk, StreamScrubber.new []) := rfl
    rw [StreamScrubber.run, hpush, ih, List.flatten_cons]

/-- **The streaming scrub gives no value out.** For every list of patterns and every split of every
byte string, what is given out are segments of the string with marks between them, in whose places
the string has patterns, and no segment contains a pattern. With an empty pattern on the list, which
`scrubPatterns` leaves out, nothing is given out at all: the loop of `scrubSpans` has a next span in
every round. -/
theorem scrubChunks_leaks_nothing (patterns : List JsString) (chunks : List Buffer) :
    ([] ∉ patterns → ∃ replaced last,
      Buffer.toLatin1 chunks.flatten = source replaced last ∧
      (scrubChunks patterns chunks).toLatin1 = marked SCRUB_MARKER replaced last ∧
      (∀ x ∈ replaced, x.2 ∈ patterns) ∧
      ∀ segment ∈ replaced.map Prod.fst ++ [last], ∀ p ∈ patterns, ¬p <:+: segment) ∧
    ([] ∈ patterns → ∀ text : JsString, ∀ rounds,
      (scrubSpansFrom text patterns rounds 0).length = rounds) := by
  refine ⟨fun hnil => ?_, fun hnil text rounds =>
    scrubSpansFrom_endless hnil text rounds (Nat.zero_le _)⟩
  have hne : ∀ p ∈ patterns, p ≠ [] := fun p hp h => hnil (h ▸ hp)
  obtain ⟨replaced, last, hsegments, hlast, hsource, hmarked⟩ : ∃ replaced last,
      CleanSegments patterns replaced ∧ Clean patterns last ∧
      Buffer.toLatin1 chunks.flatten = source replaced last ∧
      (scrubChunks patterns chunks).toLatin1 = marked SCRUB_MARKER replaced last := by
    by_cases hps : patterns = []
    · subst hps
      refine ⟨[], Buffer.toLatin1 chunks.flatten, fun _ hx => absurd hx List.not_mem_nil,
        fun p hp => absurd hp List.not_mem_nil, rfl, ?_⟩
      rw [scrubChunks, run_of_no_patterns]
      rfl
    · exact StreamScrubber.heldBack_run hps hne chunks (by simp [JsString.IsLatin1])
        (heldBack_nil hne (maxLength patterns - 1))
  refine ⟨replaced, last, hsource, hmarked, fun x hx => (hsegments x hx).1, fun segment hmem => ?_⟩
  rcases List.mem_append.1 hmem with hmem | hmem
  · obtain ⟨x, hx, rfl⟩ := List.mem_map.1 hmem
    exact (hsegments x hx).2.not_within
  · obtain rfl := List.mem_singleton.1 hmem
    exact hlast.not_within

end Isomux
