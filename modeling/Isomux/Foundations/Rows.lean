import Mathlib.Data.List.Perm.Lattice

set_option autoImplicit false

/-!
# Rows under keys

A table is a list of rows with a key each. It changes by putting a row under its key, in the place
of the row that is there, and by dropping a key. A mirror of a table holds the rows that pass a
test. It follows every change of the table by a put or a drop of its own, whether the changed row
passes the test before the change, after it, both times or never.

## Main results

* `Rows.Mirrors.put`, `Rows.Mirrors.hide`, `Rows.Mirrors.drop` — how a mirror follows a change.
* `Rows.Mirrors.perm` — a mirror is the filtered table, up to the order of the rows.
* `Rows.find?_eq_some_iff`, `Rows.filter_key_eq` — what distinct keys find.
* `Rows.flatMap_filter_key` — rows whose keys ascend are their groups.
-/

namespace Rows

section

variable {α κ : Type*} [DecidableEq κ] (key : α → κ)

/-- The row takes the place of the rows under its key, or comes behind the others. -/
def put (rows : List α) (row : α) : List α :=
  if rows.any (key · = key row) then rows.map fun r => if key r = key row then row else r
  else rows ++ [row]

def drop (rows : List α) (k : κ) : List α := rows.filter (key · ≠ k)

/-- The mirror holds each row that passes the test once, and no other row. -/
structure Mirrors (test : α → Bool) (rows mirror : List α) : Prop where
  nodup : (mirror.map key).Nodup
  mem_iff : ∀ row, row ∈ mirror ↔ row ∈ rows ∧ test row = true

variable {key} {rows mirror : List α} {test : α → Bool}

theorem mem_put {row r : α} : r ∈ put key rows row ↔ r = row ∨ r ∈ rows ∧ key r ≠ key row := by
  unfold put
  split_ifs with hany
  · rw [List.mem_map]
    constructor
    · rintro ⟨r', hr', rfl⟩
      split_ifs with hkey
      · exact Or.inl rfl
      · exact Or.inr ⟨hr', hkey⟩
    · rintro (rfl | ⟨hr, hkey⟩)
      · obtain ⟨r', hr', hkey⟩ := List.any_eq_true.1 hany
        exact ⟨r', hr', if_pos (by simpa using hkey)⟩
      · exact ⟨r, hr, if_neg hkey⟩
  · rw [List.mem_append, List.mem_singleton]
    constructor
    · rintro (hr | rfl)
      · refine Or.inr ⟨hr, fun hkey => hany ?_⟩
        exact List.any_eq_true.2 ⟨r, hr, by simpa using hkey⟩
      · exact Or.inl rfl
    · rintro (rfl | ⟨hr, -⟩)
      · exact Or.inr rfl
      · exact Or.inl hr

@[simp] theorem mem_drop {k : κ} {r : α} : r ∈ drop key rows k ↔ r ∈ rows ∧ key r ≠ k := by
  simp [drop]

theorem nodup_put (h : (rows.map key).Nodup) (row : α) : ((put key rows row).map key).Nodup := by
  unfold put
  split_ifs with hany
  · have hkeys : (rows.map fun r => if key r = key row then row else r).map key =
        rows.map key := by
      rw [List.map_map]
      refine List.map_congr_left fun r _ => ?_
      by_cases hkey : key r = key row
      · simp [hkey]
      · simp [hkey]
    rw [hkeys]
    exact h
  · rw [List.map_append, List.nodup_append]
    refine ⟨h, by simp, ?_⟩
    rintro k hk k' hk' rfl
    obtain ⟨r, hr, rfl⟩ := List.mem_map.1 hk
    have hkey : key r = key row := by simpa using hk'
    exact hany (List.any_eq_true.2 ⟨r, hr, by simpa using hkey⟩)

theorem nodup_drop (h : (rows.map key).Nodup) (k : κ) : ((drop key rows k).map key).Nodup :=
  h.sublist (List.filter_sublist.map key)

omit [DecidableEq κ] in
theorem mirrors_filter (h : (rows.map key).Nodup) : Mirrors key test rows (rows.filter test) where
  nodup := h.sublist (List.filter_sublist.map key)
  mem_iff := fun _ => List.mem_filter

theorem Mirrors.put (h : Mirrors key test rows mirror) {row : α} (htest : test row = true) :
    Mirrors key test (put key rows row) (Rows.put key mirror row) where
  nodup := nodup_put h.nodup row
  mem_iff := by
    intro r
    rw [mem_put, mem_put, h.mem_iff]
    constructor
    · rintro (rfl | ⟨⟨hr, hpass⟩, hkey⟩)
      · exact ⟨Or.inl rfl, htest⟩
      · exact ⟨Or.inr ⟨hr, hkey⟩, hpass⟩
    · rintro ⟨rfl | ⟨hr, hkey⟩, hpass⟩
      · exact Or.inl rfl
      · exact Or.inr ⟨⟨hr, hpass⟩, hkey⟩

theorem Mirrors.hide (h : Mirrors key test rows mirror) {row : α} (htest : test row = false) :
    Mirrors key test (Rows.put key rows row) (Rows.drop key mirror (key row)) where
  nodup := nodup_drop h.nodup _
  mem_iff := by
    intro r
    rw [mem_put, mem_drop, h.mem_iff]
    constructor
    · rintro ⟨⟨hr, hpass⟩, hkey⟩
      exact ⟨Or.inr ⟨hr, hkey⟩, hpass⟩
    · rintro ⟨rfl | ⟨hr, hkey⟩, hpass⟩
      · rw [htest] at hpass
        cases hpass
      · exact ⟨⟨hr, hpass⟩, hkey⟩

theorem Mirrors.drop (h : Mirrors key test rows mirror) (k : κ) :
    Mirrors key test (Rows.drop key rows k) (Rows.drop key mirror k) where
  nodup := nodup_drop h.nodup _
  mem_iff := by
    intro r
    rw [mem_drop, mem_drop, h.mem_iff]
    exact and_right_comm

theorem drop_eq_self {k : κ} (h : ∀ row ∈ rows, key row ≠ k) : drop key rows k = rows :=
  List.filter_eq_self.2 fun row hrow => by simpa using h row hrow

theorem find?_eq_some_iff (h : (rows.map key).Nodup) {k : κ} {row : α} :
    rows.find? (key · = k) = some row ↔ row ∈ rows ∧ key row = k := by
  constructor
  · intro hfind
    exact ⟨List.mem_of_find?_eq_some hfind, by simpa using List.find?_some hfind⟩
  · rintro ⟨hmem, rfl⟩
    cases hfind : rows.find? (key · = key row) with
    | none => exact absurd (decide_eq_true rfl) (List.find?_eq_none.1 hfind row hmem)
    | some other =>
      have hkey : key other = key row := by simpa using List.find?_some hfind
      rw [List.inj_on_of_nodup_map h (List.mem_of_find?_eq_some hfind) hmem hkey]

theorem filter_key_eq (h : (rows.map key).Nodup) (k : κ) :
    rows.filter (key · = k) = (rows.find? (key · = k)).toList := by
  induction rows with
  | nil => rfl
  | cons row rows ih =>
    obtain ⟨hnew, hrest⟩ := List.nodup_cons.1 h
    rw [List.filter_cons, List.find?_cons]
    by_cases hkey : key row = k
    · have hnone : rows.filter (key · = k) = [] := by
        refine List.filter_eq_nil_iff.2 fun other hother hk => hnew ?_
        exact List.mem_map.2 ⟨other, hother, (of_decide_eq_true hk).trans hkey.symm⟩
      simp [hkey, hnone]
    · simpa [hkey] using ih hrest

theorem find?_perm {rows' : List α} (h : (rows.map key).Nodup) (hperm : rows'.Perm rows) (k : κ) :
    rows'.find? (key · = k) = rows.find? (key · = k) := by
  have h' : (rows'.map key).Nodup := (hperm.map key).nodup_iff.2 h
  ext row
  rw [find?_eq_some_iff h', find?_eq_some_iff h, hperm.mem_iff]

theorem foldl_filter_append {τ : Type*} {join : τ → τ → τ} {none : τ} (shown : α → τ)
    (hleft : ∀ x, join none x = x) (hright : ∀ x, join x none = x) {rows' : List α}
    (h : (rows.map key).Nodup) (h' : (rows'.map key).Nodup) (k : κ) :
    (((rows ++ rows').filter (key · = k)).map shown).foldl join none =
      join ((rows.find? (key · = k)).elim none shown)
        ((rows'.find? (key · = k)).elim none shown) := by
  rw [List.filter_append, filter_key_eq h, filter_key_eq h']
  cases rows.find? (key · = k) <;> cases rows'.find? (key · = k) <;> simp [hleft, hright]

/-- **Rows whose keys ascend are their groups**, one behind the other: one for every key of a list in
which the keys ascend, and which has them all. -/
theorem flatMap_filter_key {R : κ → κ → Prop} {keys : List κ} (hirrefl : ∀ k, ¬R k k)
    (hkeys : keys.Pairwise R) (hrows : rows.Pairwise fun a b => ¬R (key b) (key a))
    (hmem : ∀ row ∈ rows, key row ∈ keys) :
    (keys.flatMap fun k => rows.filter (key · = k)) = rows := by
  induction rows with
  | nil => exact List.flatMap_eq_nil_iff.2 fun _ _ => rfl
  | cons row rows ih =>
    obtain ⟨hrow, hrest⟩ := List.pairwise_cons.1 hrows
    have hgroups := ih hrest fun r hr => hmem r (List.mem_cons_of_mem _ hr)
    obtain ⟨before, after, rfl⟩ := List.mem_iff_append.1 (hmem row List.mem_cons_self)
    obtain ⟨-, hafter, hcross⟩ := List.pairwise_append.1 hkeys
    have hbefore : ∀ k ∈ before, R k (key row) := fun k hk => hcross k hk _ List.mem_cons_self
    -- no row has a key before that of the first one
    have hnone : ∀ k ∈ before, ∀ r ∈ row :: rows, ¬decide (key r = k) = true := by
      intro k hk r hr hkey
      obtain rfl : key r = k := of_decide_eq_true hkey
      rcases List.mem_cons.1 hr with rfl | hr
      · exact hirrefl _ (hbefore _ hk)
      · exact hrow r hr (hbefore _ hk)
    have hfront : (before.flatMap fun k => (row :: rows).filter (key · = k)) = [] :=
      List.flatMap_eq_nil_iff.2 fun k hk => List.filter_eq_nil_iff.2 (hnone k hk)
    have hfront' : (before.flatMap fun k => rows.filter (key · = k)) = [] :=
      List.flatMap_eq_nil_iff.2 fun k hk => List.filter_eq_nil_iff.2 fun r hr =>
        hnone k hk r (List.mem_cons_of_mem _ hr)
    have hback : (after.flatMap fun k => (row :: rows).filter (key · = k)) =
        after.flatMap fun k => rows.filter (key · = k) := by
      refine List.flatMap_congr fun k hk => ?_
      have hne : key row ≠ k := fun heq =>
        hirrefl k (heq ▸ (List.pairwise_cons.1 hafter).1 k hk)
      rw [List.filter_cons_of_neg (by simpa using hne)]
    rw [List.flatMap_append, List.flatMap_cons, hfront', List.nil_append] at hgroups
    rw [List.flatMap_append, List.flatMap_cons, hfront, hback, List.nil_append,
      List.filter_cons_of_pos (by simp), List.cons_append, hgroups]

omit [DecidableEq κ] in
/-- **A mirror is the filtered table**, up to the order of the rows. -/
theorem Mirrors.perm (h : Mirrors key test rows mirror) (hrows : (rows.map key).Nodup) :
    mirror.Perm (rows.filter test) := by
  refine (List.perm_ext_iff_of_nodup h.nodup.of_map (hrows.of_map.filter _)).2 fun row => ?_
  rw [h.mem_iff, List.mem_filter]

end

end Rows
