import Mathlib.Data.List.Basic

set_option autoImplicit false

/-!
# Lines with an end of two letters

A text is cut at each end of a line, which is two letters in a row. Lines that do not have the first
of the two come back when they are joined and the text is cut.

## Main results

* `TextLines.split_intercalate` — joined lines are cut apart where they were joined.
* `TextLines.length_le_of_empty` — where no line is empty, an empty line comes behind them.
-/

namespace TextLines

variable {α : Type*} [DecidableEq α] {cr lf : α}

def consFirst (c : α) : List (List α) → List (List α)
  | [] => [[c]]
  | line :: lines => (c :: line) :: lines

def split (cr lf : α) : List α → List (List α)
  | [] => [[]]
  | [c] => [[c]]
  | c :: d :: rest =>
    if c = cr ∧ d = lf then [] :: split cr lf rest else consFirst c (split cr lf (d :: rest))

lemma split_of_notMem {text : List α} (h : cr ∉ text) : split cr lf text = [text] := by
  induction text using split.induct cr lf with
  | case1 => rfl
  | case2 c => rfl
  | case3 c d rest hend => exact absurd (hend.1 ▸ List.mem_cons_self) h
  | case4 c d rest hend ih =>
    rw [split, if_neg hend, ih fun hmem => h (List.mem_cons_of_mem c hmem)]
    rfl

lemma split_cons {c : α} (hc : c ≠ cr) {text : List α} (h : text ≠ []) :
    split cr lf (c :: text) = consFirst c (split cr lf text) := by
  obtain ⟨d, rest, rfl⟩ := List.exists_cons_of_ne_nil h
  rw [split, if_neg fun hend => hc hend.1]

lemma split_append {line : List α} (h : cr ∉ line) (rest : List α) :
    split cr lf (line ++ cr :: lf :: rest) = line :: split cr lf rest := by
  induction line with
  | nil => rw [List.nil_append, split, if_pos ⟨rfl, rfl⟩]
  | cons c line ih =>
    have hc : c ≠ cr := fun heq => h (heq ▸ List.mem_cons_self)
    rw [List.cons_append, split_cons hc (by simp), ih fun hmem => h (List.mem_cons_of_mem c hmem)]
    rfl

/-- **Joined lines are cut apart where they were joined.** -/
theorem split_intercalate {lines : List (List α)} (hne : lines ≠ []) (h : ∀ line ∈ lines, cr ∉ line) :
    split cr lf ([cr, lf].intercalate lines) = lines := by
  induction lines with
  | nil => exact absurd rfl hne
  | cons line lines ih =>
    have hline := h line List.mem_cons_self
    cases lines with
    | nil =>
      rw [List.intercalate_singleton]
      exact split_of_notMem hline
    | cons next lines =>
      rw [List.intercalate_cons_cons, List.append_assoc]
      refine (split_append hline _).trans ?_
      exact congrArg (line :: ·)
        (ih (List.cons_ne_nil _ _) fun l hl => h l (List.mem_cons_of_mem _ hl))

omit [DecidableEq α] in
lemma mem_intercalate {sep : List α} {lines : List (List α)} {c : α}
    (h : c ∈ sep.intercalate lines) : c ∈ sep ∨ ∃ line ∈ lines, c ∈ line := by
  induction lines with
  | nil => cases h
  | cons line lines ih =>
    by_cases hlines : lines = []
    · rw [hlines, List.intercalate_singleton] at h
      exact .inr ⟨line, List.mem_cons_self, h⟩
    rw [List.intercalate_cons_of_ne_nil hlines] at h
    rcases List.mem_append.1 h with h | h
    · rcases List.mem_append.1 h with h | h
      · exact .inr ⟨line, List.mem_cons_self, h⟩
      · exact .inl h
    · exact (ih h).imp_right fun ⟨l, hl, hc⟩ => ⟨l, List.mem_cons_of_mem line hl, hc⟩

omit [DecidableEq α] in
/-- **Where no line is empty, an empty line comes behind them**: the first letter of an end, and
again two letters on.

**Proof sketch.** Induction on the lines. The first letter of an end is not in the first line, the
second one is another letter, and two letters behind the first one the next line begins. -/
theorem length_le_of_empty (hne : cr ≠ lf) {lines : List (List α)} {tail : List α}
    (h : ∀ line ∈ lines, line ≠ [] ∧ cr ∉ line) {k : ℕ}
    (hfirst : ([cr, lf].intercalate lines ++ tail)[k]? = some cr)
    (hsecond : ([cr, lf].intercalate lines ++ tail)[k + 2]? = some cr) :
    ([cr, lf].intercalate lines).length ≤ k := by
  have hline : ∀ {line rest : List α} {k : ℕ}, cr ∉ line → (line ++ rest)[k]? = some cr →
      line.length ≤ k := by
    intro line rest k hnot hget
    by_contra hlt
    rw [List.getElem?_append_left (Nat.lt_of_not_le hlt)] at hget
    exact hnot (List.mem_of_getElem? hget)
  induction lines generalizing k with
  | nil => exact Nat.zero_le k
  | cons line lines ih =>
    obtain ⟨-, hnot⟩ := h line List.mem_cons_self
    cases lines with
    | nil =>
      rw [List.intercalate_singleton] at hfirst ⊢
      exact hline hnot hfirst
    | cons next lines =>
      obtain ⟨hnext, hnextNot⟩ := h next (List.mem_cons_of_mem line List.mem_cons_self)
      have hshape : [cr, lf].intercalate (line :: next :: lines) ++ tail =
          line ++ cr :: lf :: ([cr, lf].intercalate (next :: lines) ++ tail) := by
        rw [List.intercalate_cons_cons]
        simp
      rw [hshape] at hfirst hsecond
      have hbehind := hline hnot hfirst
      obtain ⟨i, rfl⟩ := Nat.exists_eq_add_of_le hbehind
      rw [List.getElem?_append_right (by omega)] at hfirst hsecond
      rw [show line.length + i - line.length = i by omega] at hfirst
      rw [show line.length + i + 2 - line.length = i + 2 by omega] at hsecond
      rw [List.intercalate_cons_cons, List.length_append, List.length_append]
      match i, hfirst, hsecond with
      | 0, _, hsecond =>
        obtain ⟨c, next, rfl⟩ := List.exists_cons_of_ne_nil hnext
        rw [List.intercalate_cons_cons_left] at hsecond
        have hc : c = cr := by simpa using hsecond
        exact absurd (hc ▸ List.mem_cons_self) hnextNot
      | 1, hfirst, _ => exact absurd (by simpa using hfirst.symm) hne
      | i + 2, hfirst, hsecond =>
        have hle := ih (fun l hl => h l (List.mem_cons_of_mem line hl)) hfirst hsecond
        simp only [List.length_cons, List.length_nil]
        omega

end TextLines
