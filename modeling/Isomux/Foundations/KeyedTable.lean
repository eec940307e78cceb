import Mathlib.Data.List.Nodup

set_option autoImplicit false

/-!
# Tables under a primary key

A table whose rows have distinct keys. An insert is refused when the key is taken, so of two inserts
under one key at most one is made, whatever the order. An update goes to the row under a key and
leaves the key as it is.

## Main results

* `KeyedTable.has_insert` — the keys behind an insert.
* `KeyedTable.find_insert`, `KeyedTable.find_update`, `KeyedTable.find_put`,
  `KeyedTable.find_erase` — what is found behind a change.
* `KeyedTable.insert_eq_some` — an insert is made when the key is free.
-/

structure KeyedTable {α κ : Type*} (key : α → κ) where
  rows : List α
  nodup : (rows.map key).Nodup

namespace KeyedTable

variable {α κ : Type*} {key : α → κ} [DecidableEq κ]

omit [DecidableEq κ] in
@[ext] theorem ext {t t' : KeyedTable key} (h : t.rows = t'.rows) : t = t' := by
  cases t
  cases t'
  cases h
  rfl

def empty : KeyedTable key := ⟨[], List.nodup_nil⟩

def find (t : KeyedTable key) (k : κ) : Option α := t.rows.find? (key · = k)

variable (t : KeyedTable key)

def Has (k : κ) : Prop := k ∈ t.rows.map key

instance (t : KeyedTable key) (k : κ) : Decidable (t.Has k) :=
  inferInstanceAs (Decidable (k ∈ t.rows.map key))

/-- The table with one more row, unless the key is taken. -/
def insert (row : α) : Option (KeyedTable key) :=
  if h : t.Has (key row) then none
  else some ⟨t.rows ++ [row], by
    rw [List.map_append, List.nodup_append]
    exact ⟨t.nodup, by simp, fun k hk k' hk' => by
      rintro rfl
      obtain rfl : k = key row := by simpa using hk'
      exact h hk⟩⟩

def update (k : κ) (f : α → α) (hf : ∀ row, key (f row) = key row) : KeyedTable key :=
  ⟨t.rows.map fun row => if key row = k then f row else row, by
    have hmap : (t.rows.map fun row => if key row = k then f row else row).map key =
        t.rows.map key := by
      rw [List.map_map]
      refine List.map_congr_left fun row _ => ?_
      rw [Function.comp_apply]
      split_ifs
      · exact hf row
      · rfl
    rw [hmap]
    exact t.nodup⟩

/-- A row in the place of the one under its key, or behind the others. -/
def put (row : α) : KeyedTable key :=
  (t.insert row).getD (t.update (key row) (fun old => if key old = key row then row else old)
    fun old => by
      split_ifs with h
      · exact h.symm
      · rfl)

def filter (t : KeyedTable key) (p : α → Bool) : KeyedTable key :=
  ⟨t.rows.filter p, t.nodup.sublist (List.filter_sublist.map key)⟩

def erase (k : κ) : KeyedTable key := t.filter fun row => key row ≠ k

variable {t t' : KeyedTable key} {k k' : κ} {row : α}

theorem find_of_mem (h : row ∈ t.rows) : t.find (key row) = some row := by
  unfold find
  have hnodup := t.nodup
  revert hnodup h
  induction t.rows with
  | nil => simp
  | cons first rows ih =>
    intro h hnodup
    rw [List.map_cons, List.nodup_cons] at hnodup
    rcases List.mem_cons.1 h with rfl | hrow
    · simp
    · have hne : key first ≠ key row := fun heq => hnodup.1 (heq ▸ List.mem_map_of_mem hrow)
      rw [List.find?_cons_of_neg (by simpa using hne)]
      exact ih hrow hnodup.2

theorem find_eq_some_iff : t.find k = some row ↔ row ∈ t.rows ∧ key row = k := by
  constructor
  · intro h
    exact ⟨List.mem_of_find?_eq_some h, by simpa using List.find?_some h⟩
  · rintro ⟨hmem, rfl⟩
    exact find_of_mem hmem

theorem has_iff_find : t.Has k ↔ ∃ row, t.find k = some row := by
  simp only [Has, find, List.mem_map, ← Option.isSome_iff_exists, List.find?_isSome]
  simp

theorem insert_eq_some (h : t.insert row = some t') :
    ¬ t.Has (key row) ∧ t'.rows = t.rows ++ [row] := by
  unfold insert at h
  split_ifs at h with hhas
  obtain rfl := Option.some.inj h
  exact ⟨hhas, rfl⟩

theorem has_insert (h : t.insert row = some t') : t'.Has k ↔ t.Has k ∨ k = key row := by
  obtain ⟨-, hrows⟩ := insert_eq_some h
  simp [Has, hrows, List.mem_map, eq_comm]

theorem find_insert (h : t.insert row = some t') :
    t'.find k = if key row = k then some row else t.find k := by
  obtain ⟨hfresh, hrows⟩ := insert_eq_some h
  unfold find
  rw [hrows, List.find?_append]
  split_ifs with hkey
  · have hnone : t.rows.find? (key · = k) = none := by
      rw [List.find?_eq_none]
      intro r hr
      subst hkey
      simpa using fun heq => hfresh (List.mem_map.2 ⟨r, hr, heq⟩)
    simp [hnone, hkey]
  · cases hfind : t.rows.find? (key · = k) <;> simp [hkey]

variable {f : α → α} {hf : ∀ row, key (f row) = key row}

theorem find_update :
    (t.update k f hf).find k' = if k' = k then (t.find k').map f else t.find k' := by
  unfold find update
  rw [List.find?_map]
  have hkeys : (fun row => decide (key row = k')) ∘
      (fun row => if key row = k then f row else row) = fun row => decide (key row = k') := by
    funext row
    rw [Function.comp_apply]
    split_ifs with h
    · rw [hf row]
    · rfl
  rw [hkeys]
  cases hfind : t.rows.find? (key · = k') with
  | none => simp
  | some row =>
    have hkey : key row = k' := by simpa using List.find?_some hfind
    simp only [Option.map_some, hkey]
    split_ifs <;> rfl

theorem mem_rows_update (h : row ∈ (t.update k f hf).rows) :
    row ∈ t.rows ∨ ∃ old, t.find k = some old ∧ row = f old := by
  obtain ⟨old, hold, hrow⟩ := List.mem_map.1 h
  split_ifs at hrow with hkey
  · exact .inr ⟨old, find_eq_some_iff.2 ⟨hold, hkey⟩, hrow.symm⟩
  · exact .inl (hrow ▸ hold)

@[simp] theorem has_update : (t.update k f hf).Has k' ↔ t.Has k' := by
  rw [has_iff_find, has_iff_find, find_update]
  split_ifs
  · simp
  · rfl

theorem find_put : (t.put row).find k = if key row = k then some row else t.find k := by
  unfold put
  cases hinsert : t.insert row with
  | some t' => exact find_insert hinsert
  | none =>
    have hhas : t.Has (key row) := by
      by_contra hfree
      rw [insert, dif_neg hfree] at hinsert
      cases hinsert
    obtain ⟨old, hold⟩ := has_iff_find.1 hhas
    rw [Option.getD_none, find_update]
    rcases eq_or_ne (key row) k with rfl | h
    · rw [if_pos rfl, if_pos rfl, hold, Option.map_some, if_pos (find_eq_some_iff.1 hold).2]
    · rw [if_neg h.symm, if_neg h]

omit [DecidableEq κ] in
@[simp] theorem mem_rows_filter {p : α → Bool} :
    row ∈ (t.filter p).rows ↔ row ∈ t.rows ∧ p row = true := List.mem_filter

@[simp] theorem mem_rows_erase : row ∈ (t.erase k).rows ↔ row ∈ t.rows ∧ key row ≠ k := by
  simp [erase]

theorem mem_rows_put {other : α} :
    other ∈ (t.put row).rows ↔ other = row ∨ other ∈ t.rows ∧ key other ≠ key row := by
  have hfind : other ∈ (t.put row).rows ↔ (t.put row).find (key other) = some other :=
    (find_eq_some_iff.trans (and_iff_left rfl)).symm
  rw [hfind, find_put]
  rcases eq_or_ne (key row) (key other) with h | h
  · rw [if_pos h, Option.some.injEq, eq_comm]
    exact ⟨.inl, fun hor => hor.resolve_right fun hother => hother.2 h.symm⟩
  · rw [if_neg h, find_eq_some_iff]
    refine ⟨fun hother => .inr ⟨hother.1, h.symm⟩, fun hor => ?_⟩
    rcases hor with rfl | hother
    · exact absurd rfl h
    · exact ⟨hother.1, rfl⟩

theorem find_filter {p : α → Bool} : (t.filter p).find k = (t.find k).filter p := by
  refine Option.ext fun row => ?_
  rw [find_eq_some_iff, mem_rows_filter, Option.filter_eq_some_iff, find_eq_some_iff]
  exact and_right_comm

theorem find_erase : (t.erase k).find k' = if k' = k then none else t.find k' := by
  rw [erase, find_filter]
  cases hfind : t.find k' with
  | none => exact (ite_self none).symm
  | some row =>
    obtain ⟨-, rfl⟩ := find_eq_some_iff.1 hfind
    rw [Option.filter_some]
    rcases eq_or_ne (key row) k with h | h <;> simp [h]

theorem find_put_erase (h : t.find (key row) = some row) :
    ((t.erase (key row)).put row).find k = t.find k := by
  rw [find_put, find_erase]
  rcases eq_or_ne (key row) k with rfl | hkey
  · rw [if_pos rfl, h]
  · rw [if_neg hkey, if_neg hkey.symm]

end KeyedTable
