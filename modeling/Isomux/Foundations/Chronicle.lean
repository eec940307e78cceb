import Mathlib.Data.List.Basic
import Mathlib.Order.Lattice

set_option autoImplicit false

/-!
# Chronicles

A chronicle lists what happened in the order of its instants. Cut at an instant it falls into what
came first and what came later. Entries that lead from one value to the next are linked: the value
at an instant is the one that the last entry by then led to.

## Main results

* `Chronicle.InOrder.filter_append` — a chronicle falls into what came first and the rest.
* `Chronicle.InOrder.upTo_eq` — what came by an entry is what came before it, and the entry.
* `Chronicle.Linked.current_upTo`, `Chronicle.Linked.current_before` — the values around an entry.
-/

namespace Chronicle

variable {α τ σ : Type} [LinearOrder τ]

/-! ## Instants -/

def InOrder (time : α → τ) (entries : List α) : Prop :=
  entries.Pairwise fun a b => time a < time b

variable {time : α → τ} {entries : List α}

def upTo (time : α → τ) (entries : List α) (t : τ) : List α := entries.filter (time · ≤ t)

def before (time : α → τ) (entries : List α) (t : τ) : List α := entries.filter (time · < t)

/-- **A chronicle falls into what came first and the rest.** -/
lemma InOrder.filter_append (h : InOrder time entries) (p : α → Bool)
    (hp : ∀ a b, time a < time b → p b → p a) :
    entries.filter p ++ entries.filter (fun a => !p a) = entries := by
  induction entries with
  | nil => rfl
  | cons a rest ih =>
    obtain ⟨hfirst, hrest⟩ := List.pairwise_cons.1 h
    by_cases ha : p a
    · rw [List.filter_cons_of_pos ha, List.filter_cons_of_neg (by simpa using ha),
        List.cons_append, ih hrest]
    · -- nothing that comes later is among what came first
      have hlater : ∀ b ∈ rest, ¬p b := fun b hb hpb => ha (hp a b (hfirst b hb) hpb)
      rw [List.filter_cons_of_neg ha, List.filter_eq_nil_iff.2 hlater, List.nil_append]
      refine List.filter_eq_self.2 fun b hb => ?_
      rcases List.mem_cons.1 hb with rfl | hb
      · simpa using ha
      · simpa using hlater b hb

lemma InOrder.filter_time_eq (h : InOrder time entries) {entry : α} (hmem : entry ∈ entries) :
    entries.filter (fun a => time a = time entry) = [entry] := by
  induction entries with
  | nil => cases hmem
  | cons a rest ih =>
    obtain ⟨hfirst, hrest⟩ := List.pairwise_cons.1 h
    rcases List.mem_cons.1 hmem with rfl | hmem
    · have hlater : ∀ b ∈ rest, ¬decide (time b = time entry) = true :=
        fun b hb => by simpa using (hfirst b hb).ne'
      rw [List.filter_cons_of_pos (by simp), List.filter_eq_nil_iff.2 hlater]
    · rw [List.filter_cons_of_neg (by simpa using (hfirst entry hmem).ne), ih hrest hmem]

/-- **What came by an entry is what came before it, and the entry.** -/
lemma InOrder.upTo_eq (h : InOrder time entries) {entry : α} (hmem : entry ∈ entries) :
    upTo time entries (time entry) = before time entries (time entry) ++ [entry] := by
  have hup : InOrder time (upTo time entries (time entry)) := h.filter _
  rw [← hup.filter_append (time · < time entry) fun a b hab hb => by
    simpa using hab.trans (of_decide_eq_true hb)]
  unfold upTo before
  rw [List.filter_filter, List.filter_filter, ← h.filter_time_eq hmem]
  refine congrArg₂ (· ++ ·) (List.filter_congr fun a _ => ?_) (List.filter_congr fun a _ => ?_)
  · by_cases hlt : time a < time entry
    · simp [hlt, hlt.le]
    · simp [hlt]
  · by_cases heq : time a = time entry
    · simp [heq]
    · by_cases hlt : time a < time entry
      · simp [heq, hlt]
      · have hgt : ¬time a ≤ time entry := fun hle => heq (le_antisymm hle (not_lt.1 hlt))
        simp [heq, hgt]

/-! ## Values -/

/-- Every entry starts from where the one before it led. -/
def Linked (source target : α → σ) (value : σ) : List α → Prop
  | [] => True
  | a :: rest => source a = value ∧ Linked source target (target a) rest

def current (target : α → σ) (value : σ) (entries : List α) : σ :=
  (entries.getLast?.map target).getD value

variable {source target : α → σ} {value : σ}

@[simp]
lemma current_nil : current target value [] = value := rfl

@[simp]
lemma current_append_singleton (entry : α) :
    current target value (entries ++ [entry]) = target entry := by
  simp [current]

lemma current_cons (a : α) (rest : List α) :
    current target value (a :: rest) = current target (target a) rest := by
  unfold current
  cases rest with
  | nil => rfl
  | cons b rest => simp [List.getLast?_cons]

lemma linked_append {later : List α} : Linked source target value (entries ++ later) ↔
    Linked source target value entries ∧
      Linked source target (current target value entries) later := by
  induction entries generalizing value with
  | nil => simp [Linked]
  | cons a rest ih =>
    rw [List.cons_append, Linked, Linked, ih, current_cons, and_assoc]

lemma Linked.filter (hlinked : Linked source target value entries) (h : InOrder time entries)
    {p : α → Bool} (hp : ∀ a b, time a < time b → p b → p a) :
    Linked source target value (entries.filter p) := by
  rw [← h.filter_append p hp] at hlinked
  exact (linked_append.1 hlinked).1

lemma Linked.upTo (hlinked : Linked source target value entries) (h : InOrder time entries) (t : τ) :
    Linked source target value (upTo time entries t) :=
  hlinked.filter h fun a b hab hb => by simpa using hab.le.trans (of_decide_eq_true hb)

lemma Linked.current_before (hlinked : Linked source target value entries)
    (h : InOrder time entries) {entry : α} (hmem : entry ∈ entries) :
    current target value (Chronicle.before time entries (time entry)) = source entry := by
  have hup := hlinked.upTo h (time entry)
  rw [h.upTo_eq hmem, linked_append] at hup
  exact hup.2.1.symm

lemma InOrder.current_upTo (h : InOrder time entries) {entry : α} (hmem : entry ∈ entries) :
    current target value (Chronicle.upTo time entries (time entry)) = target entry := by
  rw [h.upTo_eq hmem, current_append_singleton]

end Chronicle
