import Mathlib.Data.List.Infix

set_option autoImplicit false

/-!
# Leftmost-longest rewriting of a text

A finite list of patterns rewrites a text in one left-to-right pass: at the leftmost position
where some pattern occurs, the longest pattern that occurs there is replaced by a mark, and the
pass goes on behind it. The module fixes that meaning as a relation and studies when a pass over
the front part of a text is also the beginning of the pass over the whole text.

## Main results

* `Rewriting.Rewrites.unique` — the pass is deterministic.
* `Rewriting.Rewrites.append` — across a clean cut, the pass over the front part, with all but a
  bounded rest of it given out, continues to the pass over the whole text.
-/

namespace Rewriting

variable {α : Type*}

/-! ## Occurrences -/

/-- The pattern `p` occurs in `t` at position `k`. -/
def OccursAt (p t : List α) (k : ℕ) : Prop := p <+: t.drop k

theorem not_occursAt_nil {p : List α} (hp : p ≠ []) (k : ℕ) : ¬ OccursAt p [] k := by
  intro h
  rw [OccursAt, List.drop_nil] at h
  exact hp (List.prefix_nil.mp h)

variable {p t : List α}

theorem OccursAt.add_length_le {k : ℕ} (h : OccursAt p t k) (hp : p ≠ []) :
    k + p.length ≤ t.length := by
  have hlen := h.length_le
  rw [List.length_drop] at hlen
  have := List.length_pos_iff.mpr hp
  omega

theorem occursAt_of_find [BEq α] [LawfulBEq α] {i n k : ℕ}
    (h : ((List.range' i n).find? fun j => p.isPrefixOf (t.drop j)) = some k) :
    i ≤ k ∧ OccursAt p t k ∧ ∀ j, i ≤ j → OccursAt p t j → k ≤ j := by
  obtain ⟨hk, hmem, hfirst⟩ := List.find?_range'_eq_some.mp h
  refine ⟨(List.mem_range'_1.mp hmem).1, List.isPrefixOf_iff_prefix.mp hk, fun j hj hoc => ?_⟩
  by_contra hlt
  have := hfirst j hj (by omega)
  rw [List.isPrefixOf_iff_prefix.mpr hoc] at this
  simp at this

theorem not_occursAt_of_find [BEq α] [LawfulBEq α] {i : ℕ} (hp : p ≠ [])
    (h : ((List.range' i (t.length + 1 - i)).find? fun j => p.isPrefixOf (t.drop j)) = none) :
    ∀ j, i ≤ j → ¬ OccursAt p t j := by
  intro j hj hoc
  have hend := hoc.add_length_le hp
  have := List.find?_eq_none.mp h j (List.mem_range'_1.mpr ⟨hj, by omega⟩)
  exact this (List.isPrefixOf_iff_prefix.mpr hoc)

theorem OccursAt.append {k : ℕ} (h : OccursAt p t k) (r : List α) :
    OccursAt p (t ++ r) k := by
  unfold OccursAt at *
  rw [List.drop_append]
  exact h.trans (List.prefix_append _ _)

theorem OccursAt.of_append {p t r : List α} {k : ℕ} (h : OccursAt p (t ++ r) k)
    (hk : k + p.length ≤ t.length) : OccursAt p t k := by
  unfold OccursAt at *
  rw [List.drop_append_of_le_length (by omega)] at h
  exact List.prefix_of_prefix_length_le h (List.prefix_append _ _)
    (by rw [List.length_drop]; omega)

theorem occursAt_drop {d k : ℕ} :
    OccursAt p (t.drop d) k ↔ OccursAt p t (d + k) := by
  unfold OccursAt
  rw [List.drop_drop]

theorem occursAt_append_right {p u v : List α} {k : ℕ} :
    OccursAt p (u ++ v) (u.length + k) ↔ OccursAt p v k := by
  unfold OccursAt
  rw [List.drop_length_add_append]

theorem OccursAt.infix_dropLast {p q t : List α} {i j : ℕ} (hq : OccursAt q t i)
    (hp : OccursAt p t j) (hij : i ≤ j) (hend : j + p.length < i + q.length) :
    p <:+: q.dropLast := by
  obtain ⟨d, rfl⟩ := Nat.exists_eq_add_of_le hij
  have hpq : OccursAt p q d := by
    have hp' : p <+: (t.drop i).drop d := by simpa [OccursAt, List.drop_drop] using hp
    obtain ⟨r, hr⟩ := hq
    rw [← hr] at hp'
    exact OccursAt.of_append (show OccursAt p (q ++ r) d from hp') (by omega)
  obtain ⟨r, hr⟩ := hpq
  have hrne : r ≠ [] := by
    rintro rfl
    have := congrArg List.length hr
    simp only [List.append_nil, List.length_drop] at this
    omega
  refine ⟨q.take d, r.dropLast, ?_⟩
  have hsplit : q = q.take d ++ p ++ r := by
    rw [List.append_assoc, hr, List.take_append_drop]
  conv_rhs => rw [hsplit]
  rw [List.dropLast_append_of_ne_nil hrne]

/-! ## The pass -/

section Pass

variable (ps : List (List α)) (m : List α)

/-- `p` occurs in `t` at `k`, no pattern occurs further left, and none that occurs at `k` is
longer. -/
structure LeftmostLongest (t : List α) (k : ℕ) (p : List α) : Prop where
  mem : p ∈ ps
  occurs : OccursAt p t k
  leftmost : ∀ q ∈ ps, ∀ j, OccursAt q t j → k ≤ j
  longest : ∀ q ∈ ps, OccursAt q t k → q.length ≤ p.length

/-- `Rewrites ps m t e r`: the pass over `t` writes `e` up to and including its last mark `m`, and
leaves the raw rest `r` behind it. Its whole output is `e ++ r`. -/
inductive Rewrites : List α → List α → List α → Prop
  /-- No pattern occurs: nothing is written, the text is the rest. -/
  | done (t : List α) (h : ∀ p ∈ ps, ∀ k, ¬ OccursAt p t k) : Rewrites t [] t
  /-- The leftmost-longest occurrence is replaced and the pass goes on behind it. -/
  | hit {t e r : List α} {k : ℕ} {p : List α} (h : LeftmostLongest ps t k p)
      (hrest : Rewrites (t.drop (k + p.length)) e r) : Rewrites t (t.take k ++ m ++ e) r

/-- A position `b` of `t` is a clean cut when no occurrence that straddles it contains an
occurrence that is complete before it. -/
def CleanCut (t : List α) (b : ℕ) : Prop :=
  ∀ p ∈ ps, ∀ q ∈ ps, ∀ i j, OccursAt q t i → OccursAt p t j → i ≤ j → j + p.length ≤ b →
    i + q.length ≤ b

variable {ps m}

theorem LeftmostLongest.unique {t : List α} {k k' : ℕ} {p p' : List α}
    (h : LeftmostLongest ps t k p) (h' : LeftmostLongest ps t k' p') : k = k' ∧ p = p' := by
  obtain rfl : k = k' :=
    le_antisymm (h.leftmost _ h'.mem _ h'.occurs) (h'.leftmost _ h.mem _ h.occurs)
  have hlen : p.length = p'.length :=
    le_antisymm (h'.longest _ h.mem h.occurs) (h.longest _ h'.mem h'.occurs)
  exact ⟨rfl, (List.prefix_of_prefix_length_le h.occurs h'.occurs hlen.le).eq_of_length hlen⟩

/-- **The pass is deterministic.**

**Proof sketch.** Induction on the first derivation. Both derivations take the same rule, because
the second rule needs an occurrence, and by uniqueness of the leftmost-longest occurrence they
replace the same span. -/
theorem Rewrites.unique {t e r e' r' : List α} (h : Rewrites ps m t e r)
    (h' : Rewrites ps m t e' r') : e = e' ∧ r = r' := by
  induction h generalizing e' r' with
  | done t hno =>
    cases h' with
    | done => exact ⟨rfl, rfl⟩
    | hit hll => exact absurd hll.occurs (hno _ hll.mem _)
  | hit hll _ ih =>
    cases h' with
    | done _ hno => exact absurd hll.occurs (hno _ hll.mem _)
    | hit hll' hrest' =>
      obtain ⟨rfl, rfl⟩ := hll.unique hll'
      obtain ⟨rfl, rfl⟩ := ih hrest'
      exact ⟨rfl, rfl⟩

variable {t e r : List α}

theorem Rewrites.rest_clean (h : Rewrites ps m t e r) :
    ∀ p ∈ ps, ∀ k, ¬ OccursAt p r k := by
  induction h with
  | done _ hno => exact hno
  | hit _ _ ih => exact ih

theorem Rewrites.rest_suffix (h : Rewrites ps m t e r) : r <:+ t := by
  induction h with
  | done => exact List.suffix_rfl
  | hit _ _ ih => exact ih.trans (List.drop_suffix _ _)

theorem Rewrites.forall_mem {P : α → Prop} (h : Rewrites ps m t e r)
    (hm : ∀ c ∈ m, P c) (ht : ∀ c ∈ t, P c) : ∀ c ∈ e ++ r, P c := by
  induction h with
  | done => simpa using ht
  | hit _ _ ih =>
    intro c hc
    simp only [List.append_assoc, List.mem_append] at hc
    rcases hc with hc | hc | hc
    · exact ht c (List.mem_of_mem_take hc)
    · exact hm c hc
    · exact ih (fun c hc => ht c (List.mem_of_mem_drop hc)) c (List.mem_append.mpr hc)

theorem Rewrites.output_ne_nil (h : Rewrites ps m t e r) (hm : m ≠ [])
    (ht : t ≠ []) : e ++ r ≠ [] := by
  cases h with
  | done => simpa using ht
  | hit => simp [hm]

/-! ## Cutting a text -/

theorem CleanCut.drop {t : List α} {b d : ℕ} (h : CleanCut ps t b) (hd : d ≤ b) :
    CleanCut ps (t.drop d) (b - d) := by
  intro p hp q hq i j hqi hpj hij hend
  have := h p hp q hq (d + i) (d + j) (occursAt_drop.mp hqi) (occursAt_drop.mp hpj)
    (by omega) (by omega)
  omega

/-- If no occurrence of `u ++ v` starts inside `u`, then the pass copies `u`.

**Proof sketch.** Every occurrence lies in `v`, shifted by the length of `u`; so either there is
none, or the leftmost-longest one is that of `v`, shifted. -/
theorem Rewrites.copy {u v e r : List α} (hu : ∀ p ∈ ps, ∀ k < u.length, ¬ OccursAt p (u ++ v) k)
    (h : Rewrites ps m v e r) : ∃ e' r', Rewrites ps m (u ++ v) e' r' ∧ e' ++ r' = u ++ (e ++ r) := by
  have hshift : ∀ p ∈ ps, ∀ k, OccursAt p (u ++ v) k →
      ∃ j, k = u.length + j ∧ OccursAt p v j := by
    intro p hp k hk
    have hle : u.length ≤ k := by
      by_contra hlt
      exact hu p hp k (by omega) hk
    obtain ⟨j, rfl⟩ := Nat.exists_eq_add_of_le hle
    exact ⟨j, rfl, occursAt_append_right.mp hk⟩
  cases h with
  | done _ hno =>
    refine ⟨[], u ++ v, .done _ fun p hp k hk => ?_, rfl⟩
    obtain ⟨j, -, hj⟩ := hshift p hp k hk
    exact hno p hp j hj
  | @hit _ e _ k p hll hrest =>
    refine ⟨(u ++ v).take (u.length + k) ++ m ++ e, r, .hit (p := p) ⟨hll.mem, ?_, ?_, ?_⟩ ?_, ?_⟩
    · exact occursAt_append_right.mpr hll.occurs
    · intro q hq j hj
      obtain ⟨i, rfl, hi⟩ := hshift q hq j hj
      exact Nat.add_le_add_left (hll.leftmost q hq i hi) _
    · exact fun q hq hj => hll.longest q hq (occursAt_append_right.mp hj)
    · rw [Nat.add_assoc, List.drop_length_add_append]
      exact hrest
    · simp [List.take_length_add_append]

/-- Across a clean cut, the leftmost-longest occurrence of the front part is the one of the whole
text.

**Proof sketch.** An occurrence of the whole text that is not one of the front part straddles the
cut. If it started at or before the replaced one, it would contain it, which a clean cut
excludes. -/
theorem LeftmostLongest.append {t s : List α} {k : ℕ} {p : List α}
    (h : LeftmostLongest ps t k p) (hne : ∀ q ∈ ps, q ≠ [])
    (hcut : CleanCut ps (t ++ s) t.length) : LeftmostLongest ps (t ++ s) k p := by
  have hend := h.occurs.add_length_le (hne p h.mem)
  have hback : ∀ q ∈ ps, ∀ j ≤ k, OccursAt q (t ++ s) j → OccursAt q t j := by
    intro q hq j hj hoc
    exact hoc.of_append (hcut p h.mem q hq j k hoc (h.occurs.append s) hj hend)
  refine ⟨h.mem, h.occurs.append s, fun q hq j hoc => ?_, fun q hq hoc => ?_⟩
  · by_contra hlt
    exact hlt (h.leftmost q hq j (hback q hq j (by omega) hoc))
  · exact h.longest q hq (hback q hq k le_rfl hoc)

/-- **Giving out a front part.** Let a pass over `t` write `e` and leave the rest `r`. Across a
clean cut, `e` and all but the last `n` letters of `r` may be given out, where no pattern is longer
than `n + 1`: the pass over what is held back and the text that follows yields the rest of the
output of the whole pass.

**Proof sketch.** Induction on the pass over `t`. Without an occurrence in `t`, one in the whole
text ends behind `t`, so it starts in the part that is held back, and the pass copies the part
given out. With one, it is also the leftmost-longest one of the whole text, and the induction
hypothesis applies behind it. -/
theorem Rewrites.append {n : ℕ} (hne : ∀ q ∈ ps, q ≠ []) (hn : ∀ q ∈ ps, q.length ≤ n + 1)
    (h : Rewrites ps m t e r) {s e₂ r₂ : List α}
    (hcut : CleanCut ps (t ++ s) t.length)
    (hrest : Rewrites ps m (r.drop (r.length - n) ++ s) e₂ r₂) :
    ∃ e' r', Rewrites ps m (t ++ s) e' r' ∧
      e' ++ r' = e ++ r.take (r.length - n) ++ (e₂ ++ r₂) := by
  induction h with
  | done t hno =>
    have hfront : ∀ p ∈ ps, ∀ k < (t.take (t.length - n)).length,
        ¬ OccursAt p (t.take (t.length - n) ++ (t.drop (t.length - n) ++ s)) k := by
      intro p hp k hk hoc
      rw [← List.append_assoc, List.take_append_drop] at hoc
      rw [List.length_take] at hk
      have := hn p hp
      exact hno p hp k (hoc.of_append (by omega))
    obtain ⟨e', r', hrw, heq⟩ := hrest.copy hfront
    rw [← List.append_assoc, List.take_append_drop] at hrw
    exact ⟨e', r', hrw, by simpa using heq⟩
  | @hit t e r k p hll _ ih =>
    have hend := hll.occurs.add_length_le (hne p hll.mem)
    have hdrop : (t ++ s).drop (k + p.length) = t.drop (k + p.length) ++ s :=
      List.drop_append_of_le_length hend
    have hcut' : CleanCut ps (t.drop (k + p.length) ++ s) (t.drop (k + p.length)).length := by
      rw [← hdrop, List.length_drop]
      exact hcut.drop hend
    obtain ⟨e', r', hrw, heq⟩ := ih hcut' hrest
    refine ⟨(t ++ s).take k ++ m ++ e', r', .hit (hll.append hne hcut) (hdrop ▸ hrw), ?_⟩
    rw [List.take_append_of_le_length (by omega)]
    simp only [List.append_assoc, heq]

end Pass

end Rewriting
