import Mathlib.Data.List.Perm.Subperm
import Mathlib.Order.MinMax

set_option autoImplicit false

/-!
# Keeping the largest

Who wants the `k` largest of many items keeps a buffer: every item is pushed, and at any moment the
buffer may be sorted and cut to its `k` largest. What is dropped is never one of the `k` largest, so in
the end the buffer has them, as if nothing had been dropped before.

## Main results

* `Largest.Keeps.push`, `Largest.Keeps.cut` — what a push and a cut keep.
* `Largest.Keeps.largest` — a cut buffer has the largest of all items.
-/

namespace Largest

section

variable {α κ : Type*} [LinearOrder κ] (key : α → κ)

def sorted (items : List α) : List α := items.mergeSort fun a b => key b ≤ key a

/-- The largest items of a buffer, in descending order. -/
def cut (k : ℕ) (buffer : List α) : List α := (sorted key buffer).take k

/-- The buffer has all items but some, and for each of these `k` items that are as large. -/
def Keeps (k : ℕ) (buffer all : List α) : Prop :=
  ∃ dropped, (buffer ++ dropped).Perm all ∧
    ∀ d ∈ dropped, k ≤ (buffer.filter fun b => key d ≤ key b).length

variable {key} {k : ℕ} {buffer all : List α}

lemma sorted_perm (items : List α) : (sorted key items).Perm items := List.mergeSort_perm _ _

lemma pairwise_sorted (items : List α) : (sorted key items).Pairwise fun a b => key b ≤ key a := by
  have hsorted : (sorted key items).Pairwise fun a b => decide (key b ≤ key a) = true := by
    refine List.pairwise_mergeSort (fun a b c hab hbc => ?_) (fun a b => ?_) _
    · exact decide_eq_true (le_trans (of_decide_eq_true hbc) (of_decide_eq_true hab))
    · simpa using le_total (key b) (key a)
  exact hsorted.imp fun h => of_decide_eq_true h

lemma le_of_mem_drop {items : List α} {a d : α} (ha : a ∈ cut key k items)
    (hd : d ∈ (sorted key items).drop k) : key d ≤ key a := by
  have hpairwise : (sorted key items).Pairwise fun a b => key b ≤ key a := pairwise_sorted items
  rw [← List.take_append_drop k (sorted key items)] at hpairwise
  exact (List.pairwise_append.1 hpairwise).2.2 a ha d hd

lemma keeps_nil : Keeps key k [] [] := ⟨[], List.Perm.nil, nofun⟩

/-- **One more item.** -/
theorem Keeps.push (h : Keeps key k buffer all) (a : α) : Keeps key k (buffer ++ [a]) (all ++ [a]) := by
  obtain ⟨dropped, hperm, hlarge⟩ := h
  refine ⟨dropped, ?_, fun d hd => ?_⟩
  · have hswap : (buffer ++ [a] ++ dropped).Perm (buffer ++ dropped ++ [a]) := by
      rw [List.append_assoc, List.append_assoc]
      exact List.perm_append_comm.append_left buffer
    exact hswap.trans (hperm.append_right [a])
  · rw [List.filter_append, List.length_append]
    have hle := hlarge d hd
    omega

lemma length_filter_cut {x : κ} (h : k ≤ (buffer.filter fun b => x ≤ key b).length) :
    ((cut key k buffer).filter fun b => x ≤ key b) = cut key k buffer ∧ (cut key k buffer).length = k := by
  have hlength : (sorted key buffer).length = buffer.length := (sorted_perm buffer).length_eq
  have hle : (buffer.filter fun b => x ≤ key b).length ≤ buffer.length := List.length_filter_le _ _
  have hcut : (cut key k buffer).length = k := by
    rw [cut, List.length_take, hlength]
    omega
  refine ⟨List.filter_eq_self.2 fun b hb => ?_, hcut⟩
  by_contra hsmall
  -- the items behind `b` are as small, so fewer than `k` are as large as `x`
  have hfilter : ((sorted key buffer).filter fun b => x ≤ key b).length =
      (buffer.filter fun b => x ≤ key b).length := ((sorted_perm buffer).filter _).length_eq
  have hrest : ((sorted key buffer).drop k).filter (fun b => x ≤ key b) = [] := by
    refine List.filter_eq_nil_iff.2 fun d hd hx => hsmall (decide_eq_true ?_)
    exact le_trans (of_decide_eq_true hx) (le_of_mem_drop hb hd)
  rw [← List.take_append_drop k (sorted key buffer), List.filter_append, hrest, List.append_nil] at hfilter
  have hfew : ((cut key k buffer).filter fun b => x ≤ key b).length < (cut key k buffer).length := by
    rcases Nat.lt_or_eq_of_le (List.length_filter_le (fun b => decide (x ≤ key b)) (cut key k buffer))
      with hlt | heq
    · exact hlt
    · exact absurd (List.filter_eq_self.1 (List.filter_sublist.eq_of_length heq) b hb) hsmall
  have hsame : ((cut key k buffer).filter fun b => x ≤ key b).length =
      (buffer.filter fun b => x ≤ key b).length := hfilter
  omega

/-- **The buffer is cut.** -/
theorem Keeps.cut (h : Keeps key k buffer all) : Keeps key k (cut key k buffer) all := by
  obtain ⟨dropped, hperm, hlarge⟩ := h
  refine ⟨(sorted key buffer).drop k ++ dropped, ?_, fun d hd => ?_⟩
  · rw [← List.append_assoc, Largest.cut, List.take_append_drop]
    exact ((sorted_perm buffer).append_right dropped).trans hperm
  · rcases List.mem_append.1 hd with hd | hd
    · have hall : (Largest.cut key k buffer).filter (fun b => key d ≤ key b) =
          Largest.cut key k buffer :=
        List.filter_eq_self.2 fun b hb => decide_eq_true (le_of_mem_drop hb hd)
      have hlt : k < (sorted key buffer).length := by
        by_contra hle
        rw [List.drop_eq_nil_of_le (Nat.not_lt.1 hle)] at hd
        exact absurd hd List.not_mem_nil
      rw [hall, Largest.cut, List.length_take]
      omega
    · obtain ⟨hsame, hlength⟩ := length_filter_cut (hlarge d hd)
      rw [hsame]
      exact Nat.le_of_eq hlength.symm

/-- **A cut buffer has the largest of all items**, in descending order: as many as there may be, and no
other item is larger than one of them. -/
theorem Keeps.largest (h : Keeps key k buffer all) :
    ((Largest.cut key k buffer).Pairwise fun a b => key b ≤ key a) ∧
      (Largest.cut key k buffer).length = min k all.length ∧
      ∃ rest, (Largest.cut key k buffer ++ rest).Perm all ∧
        ∀ a ∈ Largest.cut key k buffer, ∀ d ∈ rest, key d ≤ key a := by
  have hcut := h.cut
  obtain ⟨rest, hperm, hlarge⟩ := hcut
  have hmost : (Largest.cut key k buffer).length ≤ k := List.length_take_le _ _
  have htotal := hperm.length_eq
  rw [List.length_append] at htotal
  refine ⟨(pairwise_sorted buffer).sublist (List.take_sublist _ _), ?_, rest, hperm,
    fun a ha d hd => ?_⟩
  · cases rest with
    | nil =>
      rw [List.length_nil] at htotal
      omega
    | cons d rest =>
      have hle := Nat.le_trans (hlarge d List.mem_cons_self) (List.length_filter_le _ _)
      omega
  · have hle := hlarge d hd
    have hfilter := List.length_filter_le (fun b => decide (key d ≤ key b)) (Largest.cut key k buffer)
    have hall := List.filter_sublist.eq_of_length
      (show ((Largest.cut key k buffer).filter fun b => key d ≤ key b).length = _ by omega)
    exact of_decide_eq_true (List.filter_eq_self.1 hall a ha)

end

section

variable {α : Type*} [LinearOrder α] {P : α → Prop} {n : ℕ} {list : List α} {x : α}

lemma foldl_max_eq_iff {init : α} :
    list.foldl max init = x ↔ (x = init ∨ x ∈ list) ∧ init ≤ x ∧ ∀ y ∈ list, y ≤ x := by
  induction list generalizing init with
  | nil => simp +contextual [eq_comm]
  | cons a list ih =>
    rw [List.foldl_cons, ih, max_le_iff, List.forall_mem_cons, List.mem_cons]
    constructor
    · rintro ⟨hx, ⟨hinit, ha⟩, hall⟩
      exact ⟨by rcases max_choice init a with h | h <;> rw [h] at hx <;> tauto, hinit, ha, hall⟩
    · rintro ⟨hx, hinit, ha, hall⟩
      refine ⟨?_, ⟨hinit, ha⟩, hall⟩
      rcases hx with rfl | rfl | hx
      · exact .inl (max_eq_left ha).symm
      · exact .inl (max_eq_right hinit).symm
      · exact .inr hx

/-- One of the `n` largest items with a property: at most `n` of them are as large. -/
def Among (P : α → Prop) (n : ℕ) (x : α) : Prop :=
  P x ∧ ∀ upper : List α, upper.Nodup → (∀ y ∈ upper, P y ∧ x ≤ y) → upper.length ≤ n

lemma among_of_length_le (hlist : ∀ y, P y → y ∈ list) (hle : list.length ≤ n) (hx : P x) :
    Among P n x :=
  ⟨hx, fun _ hnodup hupper => (List.subperm_of_subset hnodup fun y hy =>
    hlist y (hupper y hy).1).length_le.trans hle⟩

/-- **The end of a list in ascending order** has the largest of its items. -/
theorem mem_drop_iff (hsorted : list.Pairwise (· < ·)) (hlist : ∀ x, x ∈ list ↔ P x) :
    x ∈ list.drop (list.length - n) ↔ Among P n x := by
  have hsplit : ∀ y, P y → y ∈ list.take (list.length - n) ∨ y ∈ list.drop (list.length - n) :=
    fun y hy => List.mem_append.1 (by rw [List.take_append_drop]; exact (hlist y).2 hy)
  have hacross := hsorted
  rw [← List.take_append_drop (list.length - n) list, List.pairwise_append] at hacross
  constructor
  · intro hx
    refine ⟨(hlist x).1 (List.mem_of_mem_drop hx), fun upper hnodup hupper => ?_⟩
    have hsub : upper ⊆ list.drop (list.length - n) := fun y hy =>
      (hsplit y (hupper y hy).1).resolve_left fun hfront =>
        not_lt.2 (hupper y hy).2 (hacross.2.2 y hfront x hx)
    have hle := (List.subperm_of_subset hnodup hsub).length_le
    rw [List.length_drop] at hle
    omega
  · rintro ⟨hx, hfew⟩
    refine (hsplit x hx).resolve_left fun hfront => ?_
    -- it and the whole end of the list would be too many
    have hlater := hacross.2.2 x hfront
    have hle := hfew (x :: list.drop (list.length - n))
      (List.nodup_cons.2 ⟨fun h => lt_irrefl x (hlater x h), hacross.2.1.imp ne_of_lt⟩)
      (List.forall_mem_cons.2 ⟨⟨hx, le_rfl⟩, fun y hy =>
        ⟨(hlist y).1 (List.mem_of_mem_drop hy), (hlater y hy).le⟩⟩)
    have hpos := List.length_pos_of_mem hfront
    rw [List.length_take] at hpos
    rw [List.length_cons, List.length_drop] at hle
    omega

end

end Largest
