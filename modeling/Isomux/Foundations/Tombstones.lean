import Mathlib.Order.BoundedOrder.Lattice
import Mathlib.Order.MinMax
import Mathlib.Tactic.Common

set_option autoImplicit false

/-!
# Entries with tombstones

Replicas hold, for one key, when it was first added, when it was last removed, and a copy of what
was added. Two entries merge to the last removal, the first addition that is not older than it, and
the newest copy, which is there only while an addition is. Such a merge forgets the additions and
the copies that it does not show. Where a third entry would have shown one of them, the grouping of
the merges matters, and nowhere else.

## Main results

* `Tombstones.Entry.merge_comm`, `Tombstones.Entry.merge_self`, `Tombstones.Entry.merge_empty` — the
  order of two entries does not matter, and neither an entry itself nor an entry of nothing adds
  anything to it.
* `Tombstones.Entry.merge_assoc_iff` — when the grouping of three entries does not matter.

## Design

Times and copies come from linear orders with bounds: `⊤` is the addition that never was, and `⊥`
the removal and the copy that are not there.
-/

namespace Tombstones

variable {τ σ : Type*}

lemma max_max_rev [LinearOrder τ] (a b c : τ) : max (max c b) a = max (max a b) c := by
  rw [max_comm, max_comm c b, max_assoc]

lemma min_min_rev [LinearOrder τ] (a b c : τ) : min (min c b) a = min (min a b) c := by
  rw [min_comm, min_comm c b, min_assoc]

/-- What a replica holds for a key. -/
@[ext] structure Entry (τ σ : Type*) where
  added : τ
  removed : τ
  copy : σ

section

variable [LinearOrder τ] [OrderTop τ]

/-- An addition that is not older than the removal, or none. -/
def keep (removed added : τ) : τ := if removed ≤ added then added else ⊤

lemma keep_of_le {removed added : τ} (h : removed ≤ added) : keep removed added = added := if_pos h

@[simp] lemma keep_top (removed : τ) : keep removed ⊤ = ⊤ := ite_self _

lemma keep_eq_top_iff {removed added : τ} :
    keep removed added = ⊤ ↔ added = ⊤ ∨ added < removed := by
  unfold keep
  split_ifs with h
  · exact ⟨Or.inl, fun h' => h'.resolve_right h.not_gt⟩
  · exact ⟨fun _ => Or.inr (not_le.1 h), fun _ => rfl⟩

end

namespace Entry

variable [LinearOrder τ] [BoundedOrder τ] [LinearOrder σ] [OrderBot σ] {x y z : Entry τ σ}

def merge (x y : Entry τ σ) : Entry τ σ where
  added := min (keep (max x.removed y.removed) x.added) (keep (max x.removed y.removed) y.added)
  removed := max x.removed y.removed
  copy :=
    if min (keep (max x.removed y.removed) x.added) (keep (max x.removed y.removed) y.added) = ⊤
    then ⊥ else max x.copy y.copy

/-- The addition is not older than the removal, and a copy comes with an addition. -/
structure Settled (x : Entry τ σ) : Prop where
  removed_le : x.removed ≤ x.added
  copy_eq : x.added = ⊤ → x.copy = ⊥

/-- Both additions count between the two entries, the third entry removes the first of them, and
what it adds itself, if anything, comes behind the second. The second is forgotten then. -/
def LosesAdded (x y z : Entry τ σ) : Prop :=
  max x.removed y.removed ≤ min x.added y.added ∧ min x.added y.added < z.removed ∧
    z.removed ≤ max x.added y.added ∧ max x.added y.added < z.added

/-- Neither addition counts between the two entries, the addition of the third one does, and one of
the copies of the two is newer than its copy. That copy is forgotten then. -/
def LosesCopy (x y z : Entry τ σ) : Prop :=
  (x.added = ⊤ ∨ x.added < y.removed) ∧ (y.added = ⊤ ∨ y.added < x.removed) ∧
    max x.removed y.removed ≤ z.added ∧ z.added < ⊤ ∧ z.copy < max x.copy y.copy

/-- **The order of two entries does not matter.** -/
theorem merge_comm (x y : Entry τ σ) : x.merge y = y.merge x := by
  unfold merge
  rw [max_comm y.removed, max_comm y.copy, min_comm (keep _ y.added)]

/-- **An entry adds nothing to itself.** -/
theorem merge_self (h : x.Settled) : x.merge x = x := by
  unfold merge
  rw [max_self, max_self, keep_of_le h.removed_le, min_self]
  ext
  · rfl
  · rfl
  · show (if x.added = ⊤ then ⊥ else x.copy) = x.copy
    split_ifs with htop
    · exact (h.copy_eq htop).symm
    · rfl

def empty : Entry τ σ := ⟨⊤, ⊥, ⊥⟩

/-- **An entry of nothing adds nothing.** -/
theorem merge_empty (h : x.Settled) : x.merge empty = x := by
  unfold merge empty
  rw [max_bot_right, max_bot_right, keep_of_le h.removed_le, keep_top, min_top_right]
  ext
  · rfl
  · rfl
  · show (if x.added = ⊤ then ⊥ else x.copy) = x.copy
    split_ifs with htop
    · exact (h.copy_eq htop).symm
    · rfl

/-- The first of three additions that the last of three removals keeps. -/
def firstOf (x y z : Entry τ σ) : τ :=
  min (min (keep (max (max x.removed y.removed) z.removed) x.added)
      (keep (max (max x.removed y.removed) z.removed) y.added))
    (keep (max (max x.removed y.removed) z.removed) z.added)

omit [LinearOrder σ] [OrderBot σ] in
lemma firstOf_comm (x y z : Entry τ σ) : firstOf x y z = firstOf z y x := by
  unfold firstOf
  rw [max_max_rev x.removed, min_min_rev]

lemma added_merge_merge (hz : z.Settled) (h : ¬x.LosesAdded y z) :
    ((x.merge y).merge z).added = firstOf x y z := by
  have hz := hz.removed_le
  have hx := le_top (a := x.added)
  have hy := le_top (a := y.added)
  simp only [merge, LosesAdded, firstOf] at *
  generalize max x.removed y.removed = r at *
  generalize hR : max r z.removed = R at *
  simp only [keep]
  grind

/-- Where an addition is forgotten, two merges show none before the third entry, though one of
three comes before it. -/
lemma added_merge_merge_of_loses (hz : z.Settled) (h : x.LosesAdded y z) :
    firstOf x y z < ((x.merge y).merge z).added := by
  have hz := hz.removed_le
  have htop := le_top (a := z.added)
  simp only [merge, LosesAdded, firstOf] at *
  generalize max x.removed y.removed = r at *
  generalize hR : max r z.removed = R at *
  simp only [keep]
  grind

omit [BoundedOrder τ] [LinearOrder σ] [OrderBot σ] in
lemma LosesAdded.not_rev (h : x.LosesAdded y z) : ¬z.LosesAdded y x := by
  rintro ⟨hle', hlt', -, -⟩
  obtain ⟨hle, hlt, -, -⟩ := h
  have hxz : x.removed < z.removed := ((le_max_left _ _).trans hle).trans_lt hlt
  have hzx : z.removed < x.removed := ((le_max_left _ _).trans hle').trans_lt hlt'
  exact lt_asymm hxz hzx

/-- A merge of settled entries shows no addition when each is removed by the other or is not
there. -/
lemma added_merge_eq_top_iff (hx : x.Settled) (hy : y.Settled) : (x.merge y).added = ⊤ ↔
    (x.added = ⊤ ∨ x.added < y.removed) ∧ (y.added = ⊤ ∨ y.added < x.removed) := by
  show min _ _ = ⊤ ↔ _
  rw [min_eq_top, keep_eq_top_iff, keep_eq_top_iff, lt_max_iff, lt_max_iff]
  simp only [hx.removed_le.not_gt, hy.removed_le.not_gt, false_or, or_false]

lemma copy_merge_merge (h : ((x.merge y).merge z).added ≠ ⊤) :
    ((x.merge y).merge z).copy =
      max (if (x.merge y).added = ⊤ then ⊥ else max x.copy y.copy) z.copy :=
  if_neg h

lemma copy_merge_merge_of_not_loses (hx : x.Settled) (hy : y.Settled)
    (hadded : ((x.merge y).merge z).added ≠ ⊤) (h : ¬x.LosesCopy y z) :
    ((x.merge y).merge z).copy = max (max x.copy y.copy) z.copy := by
  rw [copy_merge_merge hadded]
  split_ifs with htop
  · -- only the third entry adds something, so no copy of the others is newer
    have hkeep : keep (max (x.merge y).removed z.removed) z.added ≠ ⊤ := by
      intro hnone
      apply hadded
      show min (keep _ (x.merge y).added) _ = ⊤
      rw [htop, keep_top, hnone, min_self]
    rw [Ne, keep_eq_top_iff, not_or, not_lt] at hkeep
    obtain ⟨hxnone, hynone⟩ := (added_merge_eq_top_iff hx hy).1 htop
    have hle : max x.copy y.copy ≤ z.copy := by
      by_contra hnewer
      exact h ⟨hxnone, hynone, (le_max_left _ _).trans hkeep.2, lt_top_iff_ne_top.2 hkeep.1, not_le.1 hnewer⟩
    rw [bot_sup_eq, max_eq_right hle]
  · rfl

lemma copy_merge_merge_of_loses (hx : x.Settled) (hy : y.Settled) (hz : z.Settled)
    (h : x.LosesCopy y z) : ((x.merge y).merge z).added ≠ ⊤ ∧
      ((x.merge y).merge z).copy < max (max x.copy y.copy) z.copy := by
  obtain ⟨hxnone, hynone, hle, hadds, hnewer⟩ := h
  have htop := (added_merge_eq_top_iff hx hy).2 ⟨hxnone, hynone⟩
  have hadded : ((x.merge y).merge z).added = z.added := by
    show min (keep _ (x.merge y).added) (keep _ z.added) = z.added
    have hkeep : keep (max (x.merge y).removed z.removed) z.added = z.added :=
      keep_of_le (max_le hle hz.removed_le)
    rw [htop, keep_top, hkeep, min_eq_right le_top]
  have hne : ((x.merge y).merge z).added ≠ ⊤ := by
    rw [hadded]
    exact hadds.ne
  refine ⟨hne, ?_⟩
  rw [copy_merge_merge hne, if_pos htop, bot_sup_eq]
  exact hnewer.trans_le (le_max_left _ _)

omit [OrderBot σ] in
lemma LosesCopy.not_rev (h : x.LosesCopy y z) : ¬z.LosesCopy y x := by
  rintro ⟨hgone, -⟩
  obtain ⟨-, -, hle, hadds, -⟩ := h
  exact hgone.elim hadds.ne ((le_max_right _ _).trans hle).not_gt

/-- **When the grouping of three entries does not matter**: neither grouping forgets an addition or a
copy.

**Proof sketch.** A grouping that forgets nothing shows the first of the three additions that the
last removal keeps, and the newest of the three copies. One that forgets an addition shows a later
one, and one that forgets a copy an older one. At most one of the groupings forgets an addition, and
at most one a copy, so the other one shows what is missing. -/
theorem merge_assoc_iff (hx : x.Settled) (hy : y.Settled) (hz : z.Settled) :
    (x.merge y).merge z = x.merge (y.merge z) ↔
      (¬x.LosesAdded y z ∧ ¬z.LosesAdded y x) ∧ ¬x.LosesCopy y z ∧ ¬z.LosesCopy y x := by
  rw [merge_comm x (y.merge z), merge_comm y z]
  have hnewest : max (max z.copy y.copy) x.copy = max (max x.copy y.copy) z.copy :=
    max_max_rev _ _ _
  constructor
  · intro heq
    refine ⟨⟨fun h => ?_, fun h => ?_⟩, fun h => ?_, fun h => ?_⟩
    · have hlt := added_merge_merge_of_loses hz h
      rw [heq, added_merge_merge hx h.not_rev, firstOf_comm] at hlt
      exact lt_irrefl _ hlt
    · have hlt := added_merge_merge_of_loses hx h
      rw [← heq, added_merge_merge hz h.not_rev, firstOf_comm] at hlt
      exact lt_irrefl _ hlt
    · obtain ⟨hne, hlt⟩ := copy_merge_merge_of_loses hx hy hz h
      rw [heq] at hne hlt
      rw [copy_merge_merge_of_not_loses hz hy hne h.not_rev, hnewest] at hlt
      exact lt_irrefl _ hlt
    · obtain ⟨hne, hlt⟩ := copy_merge_merge_of_loses hz hy hx h
      rw [← heq] at hne hlt
      rw [copy_merge_merge_of_not_loses hx hy hne h.not_rev, hnewest] at hlt
      exact lt_irrefl _ hlt
  · rintro ⟨⟨hadd, hadd'⟩, hcopy, hcopy'⟩
    have hadded : ((x.merge y).merge z).added = ((z.merge y).merge x).added := by
      rw [added_merge_merge hz hadd, added_merge_merge hx hadd', firstOf_comm]
    ext
    · exact hadded
    · exact (max_max_rev x.removed y.removed z.removed).symm
    · by_cases htop : ((x.merge y).merge z).added = ⊤
      · show (if ((x.merge y).merge z).added = ⊤ then ⊥ else _) =
          if ((z.merge y).merge x).added = ⊤ then ⊥ else _
        rw [if_pos htop, if_pos (hadded ▸ htop)]
      · rw [copy_merge_merge_of_not_loses hx hy htop hcopy,
          copy_merge_merge_of_not_loses hz hy (hadded ▸ htop) hcopy', hnewest]

end Entry

end Tombstones
