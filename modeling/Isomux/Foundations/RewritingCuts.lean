import Isomux.Foundations.LeftmostLongest

set_option autoImplicit false

/-!
# Cuts that a pass respects

A text may be cut where no replaced occurrence of the pass over it lies across the cut. The pass
over the front part and the one over the rest are then the pass over the whole text. Other
occurrences may lie across the cut: the pass does not come to them.

## Main results

* `Rewriting.Respects.append` — the passes over the two parts are the pass over the text.
-/

namespace Rewriting

variable {α : Type*}

/-- The pass over a text replaces nothing that lies across the cut. -/
inductive Respects (ps : List (List α)) : List α → ℕ → Prop
  | before {t : List α} {cut : ℕ} (h : ∀ p ∈ ps, ∀ k < cut, ¬OccursAt p t k) : Respects ps t cut
  /-- The next replaced occurrence ends before the cut, and the pass goes on behind it. -/
  | hit {t : List α} {k cut : ℕ} {p : List α} (h : LeftmostLongest ps t k p)
      (hcut : k + p.length ≤ cut)
      (hrest : Respects ps (t.drop (k + p.length)) (cut - (k + p.length))) : Respects ps t cut

variable {ps : List (List α)} {m : List α}

theorem OccursAt.of_take {p t : List α} {cut k : ℕ} (h : OccursAt p (t.take cut) k) :
    OccursAt p t k := by
  have hgrown := h.append (t.drop cut)
  rwa [List.take_append_drop] at hgrown

theorem OccursAt.take {p t : List α} {cut k : ℕ} (h : OccursAt p t k)
    (hcut : k + p.length ≤ (t.take cut).length) : OccursAt p (t.take cut) k := by
  rw [← List.take_append_drop cut t] at h
  exact h.of_append hcut

theorem LeftmostLongest.take {t : List α} {cut k : ℕ} {p : List α} (h : LeftmostLongest ps t k p)
    (hcut : k + p.length ≤ (t.take cut).length) : LeftmostLongest ps (t.take cut) k p :=
  ⟨h.mem, h.occurs.take hcut, fun q hq j hoc => h.leftmost q hq j hoc.of_take,
    fun q hq hoc => h.longest q hq hoc.of_take⟩

/-- **Across a respected cut the pass falls into two**: the pass over the front part and the one over
the rest write what the pass over the whole text writes.

**Proof sketch.** Induction on how the pass respects the cut. An occurrence that is replaced before
the cut is replaced in the front part too. Once nothing occurs before the cut, the pass copies what
is left of the front part. -/
theorem Respects.append (hne : ∀ p ∈ ps, p ≠ []) {t : List α} {cut : ℕ} (h : Respects ps t cut)
    (hcut : cut ≤ t.length) {e₁ r₁ e₂ r₂ : List α} (hfront : Rewrites ps m (t.take cut) e₁ r₁)
    (hback : Rewrites ps m (t.drop cut) e₂ r₂) :
    ∃ e r, Rewrites ps m t e r ∧ e ++ r = e₁ ++ r₁ ++ (e₂ ++ r₂) := by
  induction h generalizing e₁ r₁ with
  | @before t cut hno =>
    have hlen : (t.take cut).length = cut := List.length_take_of_le hcut
    have hclean : ∀ p ∈ ps, ∀ k, ¬OccursAt p (t.take cut) k := by
      intro p hp k hoc
      have hend := hoc.add_length_le (hne p hp)
      have hpos := List.length_pos_iff.2 (hne p hp)
      exact hno p hp k (by omega) hoc.of_take
    obtain ⟨rfl, rfl⟩ := hfront.unique (.done _ hclean)
    have hcopy : ∀ p ∈ ps, ∀ k < (t.take cut).length,
        ¬OccursAt p (t.take cut ++ t.drop cut) k := by
      intro p hp k hk hoc
      rw [List.take_append_drop] at hoc
      exact hno p hp k (hlen ▸ hk) hoc
    obtain ⟨e, r, hrw, heq⟩ := hback.copy hcopy
    rw [List.take_append_drop] at hrw
    exact ⟨e, r, hrw, by simpa using heq⟩
  | @hit t k cut p hll hend _ ih =>
    have hlen : (t.take cut).length = cut := List.length_take_of_le hcut
    have hfrontHit := hll.take (hend.trans hlen.ge)
    have hdropTake : (t.take cut).drop (k + p.length) =
        (t.drop (k + p.length)).take (cut - (k + p.length)) := List.drop_take
    obtain ⟨e', r', hrest', heq'⟩ : ∃ e' r', Rewrites ps m
        ((t.drop (k + p.length)).take (cut - (k + p.length))) e' r' ∧
          e₁ ++ r₁ = (t.take cut).take k ++ m ++ (e' ++ r') := by
      cases hfront with
      | done _ hno => exact absurd hfrontHit.occurs (hno p hfrontHit.mem k)
      | @hit _ e _ k' p' hll' hrest =>
        obtain ⟨rfl, rfl⟩ := hll'.unique hfrontHit
        exact ⟨e, r₁, hdropTake ▸ hrest, by simp⟩
    have hdropDrop : (t.drop (k + p.length)).drop (cut - (k + p.length)) = t.drop cut := by
      rw [List.drop_drop, Nat.add_sub_cancel' hend]
    obtain ⟨e, r, hrw, heq⟩ := ih (by rw [List.length_drop]; omega) hrest' (hdropDrop ▸ hback)
    refine ⟨t.take k ++ m ++ e, r, .hit hll hrw, ?_⟩
    rw [heq', List.take_take, Nat.min_eq_left (by omega)]
    simp [heq]

end Rewriting
