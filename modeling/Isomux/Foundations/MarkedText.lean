import Isomux.Foundations.LeftmostLongest

set_option autoImplicit false

/-!
# What stands between the marks

A text that was rewritten is a sequence of raw segments with marks between them; the text it was
made of has a pattern in the place of every mark. A pass leaves segments that hold no pattern. So
does a pass that sees the text in parts and holds back as many letters as the longest pattern has,
less one: an occurrence that begins in what was given out ends in what was held back.

## Main results

* `Rewriting.Rewrites.segments` — the segments of a pass are clean.
* `Rewriting.HeldBack.push`, `Rewriting.HeldBack.finish` — so are those of a pass over parts of a text.
-/

namespace Rewriting

variable {α : Type*} {ps : List (List α)} {m : List α}

/-! ## Segments -/

def Clean (ps : List (List α)) (t : List α) : Prop := ∀ p ∈ ps, ∀ k, ¬OccursAt p t k

/-- The text of its segments, each but the last with the pattern behind it. -/
def source (replaced : List (List α × List α)) (last : List α) : List α :=
  replaced.flatMap (fun x => x.1 ++ x.2) ++ last

/-- The segments with marks behind all but the last. -/
def marked (m : List α) (replaced : List (List α × List α)) (last : List α) : List α :=
  replaced.flatMap (fun x => x.1 ++ m) ++ last

/-- The segments that stand before marks are clean, and patterns were replaced behind them. -/
def CleanSegments (ps : List (List α)) (replaced : List (List α × List α)) : Prop :=
  ∀ x ∈ replaced, x.2 ∈ ps ∧ Clean ps x.1

theorem Clean.not_within {t : List α} (h : Clean ps t) : ∀ p ∈ ps, ¬p <:+: t := by
  rintro p hp ⟨before, after, rfl⟩
  refine h p hp before.length ?_
  unfold OccursAt
  rw [List.append_assoc, List.drop_left]
  exact List.prefix_append _ _

theorem clean_nil (hne : ∀ p ∈ ps, p ≠ []) : Clean ps ([] : List α) :=
  fun p hp => not_occursAt_nil (hne p hp)

theorem LeftmostLongest.clean_take {t : List α} {k : ℕ} {p : List α} (hne : ∀ q ∈ ps, q ≠ [])
    (h : LeftmostLongest ps t k p) : Clean ps (t.take k) := by
  intro q hq j hoc
  have hend := hoc.add_length_le (hne q hq)
  have hpos := List.length_pos_iff.2 (hne q hq)
  rw [List.length_take] at hend
  have hle := h.leftmost q hq j (List.take_append_drop k t ▸ hoc.append (t.drop k))
  omega

/-- **The segments of a pass are clean.** -/
theorem Rewrites.segments (hne : ∀ p ∈ ps, p ≠ []) {t e r : List α} (h : Rewrites ps m t e r) :
    ∃ replaced, CleanSegments ps replaced ∧ t = source replaced r ∧ e = marked m replaced [] := by
  induction h with
  | done t _ => exact ⟨[], fun x hx => absurd hx (List.not_mem_nil), rfl, rfl⟩
  | @hit t e r k p hll _ ih =>
    obtain ⟨replaced, hclean, hsource, hmarked⟩ := ih
    refine ⟨(t.take k, p) :: replaced, ?_, ?_, ?_⟩
    · rintro x (_ | ⟨_, hx⟩)
      · exact ⟨hll.mem, hll.clean_take hne⟩
      · exact hclean x hx
    · have hoc : p <+: t.drop k := hll.occurs
      obtain ⟨rest, hrest⟩ := hoc
      have hbehind : t.drop (k + p.length) = rest := by
        rw [← List.drop_drop, ← hrest, List.drop_left]
      calc t = t.take k ++ t.drop k := (List.take_append_drop k t).symm
        _ = t.take k ++ (p ++ t.drop (k + p.length)) := by rw [hbehind, hrest]
        _ = source ((t.take k, p) :: replaced) r := by
          rw [hsource]
          simp [source]
    · simp [marked, hmarked]

/-! ## Holding back -/

/-- A clean text with at least `n` letters behind a front part, and what follows them: the front part
with a clean beginning of the rest is clean, if no pattern is longer than `n + 1`. -/
theorem Clean.append_take {n k : ℕ} (hn : ∀ p ∈ ps, p.length ≤ n + 1) {front held next : List α}
    (h : Clean ps (front ++ held)) (hheld : front ≠ [] → n ≤ held.length)
    (hrest : Clean ps ((held ++ next).take k)) : Clean ps (front ++ (held ++ next).take k) := by
  intro p hp j hoc
  rcases Nat.lt_or_ge j front.length with hlt | hge
  · -- it begins in the front part, so it ends in what was held back
    have hfront : front ≠ [] := List.ne_nil_of_length_pos (by omega)
    have hlen := hn p hp
    have hwhole : OccursAt p (front ++ held ++ next) j := by
      rw [List.append_assoc, ← List.take_append_drop k (held ++ next), ← List.append_assoc]
      exact hoc.append _
    refine h p hp j (hwhole.of_append ?_)
    have hback := hheld hfront
    rw [List.length_append]
    omega
  · obtain ⟨i, rfl⟩ := Nat.exists_eq_add_of_le hge
    exact hrest p hp i (occursAt_append_right.1 hoc)

/-- Of the text `input`, `out` was given out and `held` is held back: `out` consists of clean
segments, and so does the text if `held` is put behind it. Where `out` ends in raw letters, `n`
letters at least are held back. -/
def HeldBack (ps : List (List α)) (m : List α) (n : ℕ) (input out held : List α) : Prop :=
  ∃ replaced last, CleanSegments ps replaced ∧ Clean ps (last ++ held) ∧
    input = source replaced (last ++ held) ∧ out = marked m replaced last ∧
      (last ≠ [] → n ≤ held.length)

theorem heldBack_nil (hne : ∀ p ∈ ps, p ≠ []) (n : ℕ) : HeldBack ps m n ([] : List α) [] [] :=
  ⟨[], [], fun _ hx => absurd hx List.not_mem_nil, clean_nil hne, rfl, rfl, fun h => absurd rfl h⟩

/-- **One more part of the text.** The pass over what is held back and the part writes `e` and leaves
`r`; `e` and all but the last `n` letters of `r` are given out.

**Proof sketch.** Without a mark in `e`, the segment that is open grows; with one it ends at the first
mark, and what is left of `r` opens a new one. Either way an occurrence in it that begins in what was
given out before would end in what was held back. -/
theorem HeldBack.push {n : ℕ} (hne : ∀ p ∈ ps, p ≠ []) (hn : ∀ p ∈ ps, p.length ≤ n + 1)
    {input out held next e r : List α} (h : HeldBack ps m n input out held)
    (hrw : Rewrites ps m (held ++ next) e r) :
    HeldBack ps m n (input ++ next) (out ++ (e ++ r.take (r.length - n))) (r.drop (r.length - n)) := by
  obtain ⟨replaced, last, hsegments, hclean, rfl, rfl, hback⟩ := h
  have hdrop : r.take (r.length - n) ≠ [] → n ≤ (r.drop (r.length - n)).length := by
    intro htake
    have hpos : r.length - n ≠ 0 := fun h0 => htake (by rw [h0, List.take_zero])
    rw [List.length_drop]
    omega
  obtain ⟨more, hmore, hsource, rfl⟩ := hrw.segments hne
  cases more with
  | nil =>
    obtain rfl : held ++ next = r := hsource
    refine ⟨replaced, last ++ (held ++ next).take ((held ++ next).length - n), hsegments, ?_, ?_, ?_,
      fun hlast => ?_⟩
    · rw [List.append_assoc, List.take_append_drop]
      have hall := hclean.append_take (k := (held ++ next).length) hn hback
        (by rw [List.take_length]; exact hrw.rest_clean)
      rwa [List.take_length] at hall
    · simp [source]
    · simp [marked]
    · rcases not_and_or.1 fun hnil => hlast (List.append_eq_nil_iff.2 hnil) with hne' | hne'
      · have hheld := hback hne'
        simp only [List.length_drop, List.length_append]
        omega
      · exact hdrop hne'
  | cons first more =>
    obtain ⟨segment, p⟩ := first
    have hsegment : Clean ps segment := (hmore _ List.mem_cons_self).2
    have htake : (held ++ next).take segment.length = segment := by
      rw [hsource]
      simp [source]
    refine ⟨replaced ++ (last ++ segment, p) :: more, r.take (r.length - n), ?_, ?_, ?_, ?_,
      hdrop⟩
    · rintro x hx
      rcases List.mem_append.1 hx with hx | hx
      · exact hsegments x hx
      · rcases List.mem_cons.1 hx with rfl | hx
        · have hgrown := hclean.append_take (k := segment.length) hn hback (htake.symm ▸ hsegment)
          rw [htake] at hgrown
          exact ⟨(hmore _ List.mem_cons_self).1, hgrown⟩
        · exact hmore x (List.mem_cons_of_mem _ hx)
    · rw [List.take_append_drop]
      exact hrw.rest_clean
    · rw [List.take_append_drop]
      calc source replaced (last ++ held) ++ next
          = replaced.flatMap (fun x => x.1 ++ x.2) ++ (last ++ (held ++ next)) := by simp [source]
        _ = source (replaced ++ (last ++ segment, p) :: more) r := by
          rw [hsource]
          simp [source]
    · simp [marked]

theorem HeldBack.finish {n : ℕ} {input out held : List α} (h : HeldBack ps m n input out held) :
    ∃ replaced last, CleanSegments ps replaced ∧ Clean ps last ∧ input = source replaced last ∧
      out ++ held = marked m replaced last := by
  obtain ⟨replaced, last, hsegments, hclean, hinput, rfl, -⟩ := h
  exact ⟨replaced, last ++ held, hsegments, hclean, hinput, by simp [marked]⟩

end Rewriting
