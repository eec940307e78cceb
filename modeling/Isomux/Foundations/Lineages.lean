import Mathlib.Data.List.Induction

set_option autoImplicit false

/-!
# Lineages in a list of rows

Rows are added behind the others and belong to keys. The rows of one key are its lineage, and the
last of them is the one that counts. A row may be rewritten in its place.

## Main results

* `Lineage.latest_eq_some` — where the last row of a key is.
* `Lineage.find?_reverse` — a search from the end finds it.
* `Lineage.patch_split` — what it is rewritten to.
-/

namespace Lineage

variable {ρ κ : Type*} [DecidableEq κ] (key : ρ → κ)

def indexes (rows : List ρ) (k : κ) : List (ρ × ℕ) := rows.zipIdx.filter fun p => key p.1 = k

def latest (rows : List ρ) (k : κ) : Option (ρ × ℕ) := (indexes key rows k).getLast?

def patch (rows : List ρ) (index : ℕ) (f : ρ → ρ) : List ρ :=
  rows.mapIdx fun i row => if i = index then f row else row

variable {key} {rows : List ρ} {k : κ}

lemma map_fst_indexes : (indexes key rows k).map Prod.fst = rows.filter (key · = k) := by
  have hmap := (List.filter_map (p := fun row => decide (key row = k)) (f := Prod.fst)
    (l := rows.zipIdx)).symm
  rw [List.zipIdx_map_fst] at hmap
  exact hmap

theorem latest_eq_none_iff : latest key rows k = none ↔ ∀ row ∈ rows, key row ≠ k := by
  rw [latest, List.getLast?_eq_none_iff, ← List.map_eq_nil_iff (f := Prod.fst), map_fst_indexes,
    List.filter_eq_nil_iff]
  simp

theorem latest_eq_some {row : ρ} {index : ℕ} (h : latest key rows k = some (row, index)) :
    ∃ before after, rows = before ++ row :: after ∧ before.length = index ∧ key row = k ∧
      ∀ r ∈ after, key r ≠ k := by
  induction rows using List.reverseRecOn with
  | nil => simp [latest, indexes] at h
  | append_singleton rows r ih =>
    rw [latest, indexes, List.zipIdx_append, List.filter_append] at h
    by_cases hr : key r = k
    · have hlast : (r, rows.length) = (row, index) := by simpa [hr] using h
      obtain ⟨rfl, rfl⟩ := Prod.mk.inj hlast
      exact ⟨rows, [], rfl, rfl, hr, nofun⟩
    · have hprev : latest key rows k = some (row, index) := by simpa [hr, latest, indexes] using h
      obtain ⟨before, after, rfl, hindex, hrow, hafter⟩ := ih hprev
      refine ⟨before, after ++ [r], by simp, hindex, hrow, fun r' hr' => ?_⟩
      rcases List.mem_append.1 hr' with hr' | hr'
      · exact hafter r' hr'
      · exact (List.mem_singleton.1 hr') ▸ hr

theorem find?_reverse {before after : List ρ} {row : ρ} (hrow : key row = k)
    (hafter : ∀ r ∈ after, key r ≠ k) :
    (before ++ row :: after).reverse.find? (key · = k) = some row := by
  have hnone : after.reverse.find? (key · = k) = none :=
    List.find?_eq_none.2 fun r hr => by simpa using hafter r (List.mem_reverse.1 hr)
  simp [List.find?_append, hnone, hrow]

theorem patch_split (before after : List ρ) (row : ρ) (f : ρ → ρ) :
    patch (before ++ row :: after) before.length f = before ++ f row :: after := by
  have hbefore : before.mapIdx (fun i r => if i = before.length then f r else r) = before := by
    refine List.ext_getElem (by simp) fun i hi _ => ?_
    have hlt : i < before.length := by simpa using hi
    simp [Nat.ne_of_lt hlt]
  have hafter : after.mapIdx (fun i r => if i + (before.length + 1) = before.length then f r else r) =
      after := by
    refine List.ext_getElem (by simp) fun i _ _ => ?_
    have hne : i + (before.length + 1) ≠ before.length := by omega
    simp [hne]
  rw [patch, List.mapIdx_append, hbefore, List.mapIdx_cons]
  simp only [Nat.zero_add, if_true]
  refine congrArg (fun rest => before ++ f row :: rest) (Eq.trans ?_ hafter)
  refine congrArg (fun g => after.mapIdx g) (funext fun i => funext fun r => ?_)
  rw [Nat.add_right_comm, Nat.add_assoc]

end Lineage
