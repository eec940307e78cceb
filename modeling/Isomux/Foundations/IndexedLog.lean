import Mathlib.Data.List.Basic
import Mathlib.Algebra.Order.Group.Int

set_option autoImplicit false

/-!
# A log with the newest row of every key

Rows are added at the end of a log and dropped at its front. The rows of one key are some time apart,
so the newest of them is the only one that can be recent.

## Main results

* `IndexedLog.newest_concat`, `IndexedLog.newest_cons`, `IndexedLog.newest_map` — the newest row
  behind an addition, a drop and a rewrite.
* `IndexedLog.Spaced.concat` — a row may be added when the newest of its key is old enough.
* `IndexedLog.Spaced.eq_of_recent` — two recent rows of one key are the same row.
-/

namespace IndexedLog

variable {ρ κ : Type*} [DecidableEq κ] {key : ρ → κ} {time : ρ → ℤ} {gap now : ℤ} {rows : List ρ}
  {k : κ} {r : ρ}

def newest (key : ρ → κ) (rows : List ρ) (k : κ) : Option ρ :=
  rows.reverse.find? fun r => key r = k

/-- The rows of one key are some time apart. -/
def Spaced (key : ρ → κ) (time : ρ → ℤ) (gap : ℤ) (rows : List ρ) : Prop :=
  rows.Pairwise fun a b => key a = key b → time a + gap ≤ time b

/-! ## The newest row -/

lemma newest_concat : newest key (rows ++ [r]) k =
    if key r = k then some r else newest key rows k := by
  by_cases h : key r = k <;> simp [newest, h]

lemma newest_cons : newest key (r :: rows) k =
    (newest key rows k).or (if key r = k then some r else none) := by
  by_cases h : key r = k <;> simp [newest, h]

lemma newest_map {f : ρ → ρ} (hkey : ∀ r ∈ rows, key (f r) = key r) :
    newest key (rows.map f) k = (newest key rows k).map f := by
  induction rows with
  | nil => rfl
  | cons r rows ih =>
    rw [List.map_cons, newest_cons, newest_cons, ih fun r hr => hkey r (List.mem_cons_of_mem _ hr),
      hkey r List.mem_cons_self]
    cases newest key rows k with
    | none => by_cases h : key r = k <;> simp [h]
    | some _ => rfl

lemma mem_of_newest (h : newest key rows k = some r) : r ∈ rows ∧ key r = k := by
  refine ⟨List.mem_reverse.1 (List.mem_of_find?_eq_some h), ?_⟩
  simpa using List.find?_some h

lemma key_ne_of_newest (h : newest key rows k = none) (hr : r ∈ rows) : key r ≠ k := by
  have hnone := List.find?_eq_none.1 h r (List.mem_reverse.2 hr)
  simpa using hnone

/-! ## Rows that are apart -/

omit [DecidableEq κ] in
lemma Spaced.map {f : ρ → ρ} (h : Spaced key time gap rows)
    (hkey : ∀ r ∈ rows, key (f r) = key r) (htime : ∀ r ∈ rows, time (f r) = time r) :
    Spaced key time gap (rows.map f) := by
  refine List.pairwise_map.2 (List.Pairwise.imp_of_mem (fun ha hb hab => ?_) h)
  rw [hkey _ ha, hkey _ hb, htime _ ha, htime _ hb]
  exact hab

lemma Spaced.le_newest (h : Spaced key time gap rows) (hnew : newest key rows k = some r) {x : ρ}
    (hx : x ∈ rows) (hkey : key x = k) : x = r ∨ time x + gap ≤ time r := by
  induction rows with
  | nil => cases hx
  | cons first rows ih =>
    obtain ⟨hfirst, hrest⟩ := List.pairwise_cons.1 h
    rw [newest_cons] at hnew
    cases hlater : newest key rows k with
    | some y =>
      rw [hlater] at hnew
      obtain rfl : y = r := Option.some.inj hnew
      rcases List.mem_cons.1 hx with rfl | hx
      · obtain ⟨hmem, hyk⟩ := mem_of_newest hlater
        exact .inr (hfirst y hmem (hkey.trans hyk.symm))
      · exact ih hrest hlater hx
    | none =>
      rw [hlater] at hnew
      rcases List.mem_cons.1 hx with rfl | hx
      · simp only [hkey, if_true, Option.none_or, Option.some.injEq] at hnew
        exact .inl hnew
      · exact absurd hkey (key_ne_of_newest hlater hx)

lemma Spaced.concat (h : Spaced key time gap rows)
    (hold : ∀ x, newest key rows (key r) = some x → time x + gap ≤ time r) (hgap : 0 ≤ gap) :
    Spaced key time gap (rows ++ [r]) := by
  refine List.pairwise_append.2 ⟨h, List.pairwise_singleton _ _, fun x hx y hy hkey => ?_⟩
  obtain rfl : y = r := List.mem_singleton.1 hy
  cases hnew : newest key rows (key y) with
  | none => exact absurd hkey (key_ne_of_newest hnew hx)
  | some z =>
    have hz := hold z hnew
    rcases h.le_newest hnew hx hkey with rfl | hle
    · exact hz
    · omega

lemma Spaced.eq_of_recent (h : Spaced key time gap rows) (hpast : ∀ r ∈ rows, time r ≤ now)
    {a b : ρ} (ha : a ∈ rows) (hb : b ∈ rows) (hkey : key a = key b) (hra : now - time a < gap)
    (hrb : now - time b < gap) : a = b := by
  cases hnew : newest key rows (key b) with
  | none => exact absurd rfl (key_ne_of_newest hnew hb)
  | some r =>
    have hr := hpast r (mem_of_newest hnew).1
    have hea : a = r := (h.le_newest hnew ha hkey).resolve_right (by omega)
    have heb : b = r := (h.le_newest hnew hb rfl).resolve_right (by omega)
    exact hea.trans heb.symm

end IndexedLog
