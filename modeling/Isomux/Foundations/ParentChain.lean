import Mathlib.Data.List.Nodup

set_option autoImplicit false

/-!
# Chains of parents

Nodes have at most one parent each. A walk goes from a node to its parent as long as there is one,
and stops at a node it has visited. It ends on every parent function that gives finitely many nodes a
parent, with a cycle or without. Where the nodes above a node are finitely many different ones, the
walk finds just these.

## Main results

* `ParentChain.walk_isSome` — the walk ends.
* `ParentChain.walk_of_isChain` — it finds the chain.
* `ParentChain.search_eq_find?` — the search finds the first node on the walk that passes the test.
-/

namespace ParentChain

variable {κ : Type*} [DecidableEq κ] {parent parent' : κ → Option κ} {x y : κ} {l : List κ}

/-- The nodes from a node up. With no steps left there is no result. -/
def walk (parent : κ → Option κ) : ℕ → Option κ → List κ → Option (List κ)
  | 0, _, _ => none
  | _ + 1, none, _ => some []
  | n + 1, some x, visited =>
    if x ∈ visited then some [] else (walk parent n (parent x) (x :: visited)).map (x :: ·)

example (n : ℕ) : walk parent (n + 1) none l = some [] := by rw [walk]

/-- The first node on the way up that passes a test. With no steps left there is no result. -/
def search (parent : κ → Option κ) (test : κ → Bool) :
    ℕ → Option κ → List κ → Option (Option κ)
  | 0, _, _ => none
  | _ + 1, none, _ => some none
  | n + 1, some x, visited =>
    if x ∈ visited then some none
    else if test x then some (some x)
    else search parent test n (parent x) (x :: visited)

example (n : ℕ) (test : κ → Bool) : search parent test (n + 1) none l = some none := by rw [search]

/-- The nodes from a node up to one without a parent. -/
inductive IsChain (parent : κ → Option κ) : κ → List κ → Prop
  | root {x : κ} (h : parent x = none) : IsChain parent x [x]
  | step {x p : κ} {l : List κ} (h : parent x = some p) (hl : IsChain parent p l) :
      IsChain parent x (x :: l)

omit [DecidableEq κ] in
lemma IsChain.eq_cons (h : IsChain parent x l) : ∃ above, l = x :: above := by
  cases h with
  | root => exact ⟨[], rfl⟩
  | step => exact ⟨_, rfl⟩

omit [DecidableEq κ] in
lemma IsChain.suffix {before after : List κ} (h : IsChain parent x (before ++ y :: after)) :
    IsChain parent y (y :: after) := by
  generalize hl : before ++ y :: after = l at h
  induction h generalizing before with
  | root hnone =>
    cases before with
    | nil =>
      obtain ⟨rfl, rfl⟩ := List.cons.inj hl
      exact .root hnone
    | cons _ before => simp at hl
  | step hparent hchain ih =>
    cases before with
    | nil =>
      obtain ⟨rfl, rfl⟩ := List.cons.inj hl
      exact .step hparent hchain
    | cons _ before => exact ih (List.cons.inj hl).2

omit [DecidableEq κ] in
lemma IsChain.congr (h : IsChain parent x l) (hsame : ∀ y ∈ l, parent' y = parent y) :
    IsChain parent' x l := by
  induction h with
  | root hnone => exact .root ((hsame _ List.mem_cons_self).trans hnone)
  | step hparent _ ih =>
    exact .step ((hsame _ List.mem_cons_self).trans hparent)
      (ih fun y hy => hsame y (List.mem_cons_of_mem _ hy))

variable {visited : List κ} {start : Option κ}

theorem walk_mono {n m : ℕ}
    (h : walk parent n start visited = some l) (hnm : n ≤ m) :
    walk parent m start visited = some l := by
  induction n generalizing m start visited l with
  | zero => cases h
  | succ n ih =>
    obtain ⟨m, rfl⟩ : ∃ k, m = k + 1 := ⟨m - 1, by omega⟩
    cases start with
    | none => exact h
    | some x =>
      simp only [walk] at h ⊢
      split_ifs at h ⊢
      · exact h
      · obtain ⟨rest, hrest, rfl⟩ := Option.map_eq_some_iff.1 h
        rw [ih hrest (by omega)]
        rfl

lemma length_filter_visited_lt {keys visited : List κ} (hx : x ∈ keys) (hnew : x ∉ visited) :
    (keys.filter (· ∉ x :: visited)).length < (keys.filter (· ∉ visited)).length := by
  have hsub : keys.filter (· ∉ x :: visited) = (keys.filter (· ∉ visited)).filter (· ≠ x) := by
    rw [List.filter_filter]
    refine List.filter_congr fun y _ => ?_
    simp
  rw [hsub]
  refine List.length_filter_lt_length_iff_exists.2 ⟨x, ?_, by simp⟩
  exact List.mem_filter.2 ⟨hx, by simpa using hnew⟩

/-- **The walk ends**, where the nodes with a parent are among `keys`.

**Proof sketch.** Induction on the bound. Each step visits one more of the keys, or a node without a
parent, which is the last one. -/
theorem walk_isSome {keys : List κ} (hkeys : ∀ x, parent x ≠ none → x ∈ keys) {n : ℕ}
    (hn : (keys.filter (· ∉ visited)).length + 1 < n) :
    (walk parent n start visited).isSome := by
  induction n generalizing start visited with
  | zero => omega
  | succ n ih =>
    cases start with
    | none => rfl
    | some x =>
      simp only [walk]
      split_ifs with hvisited
      · rfl
      · rw [Option.isSome_map]
        by_cases hx : x ∈ keys
        · have hlt := length_filter_visited_lt hx hvisited
          exact ih (by omega)
        · have hnone : parent x = none := by
            by_contra hparent
            exact hx (hkeys x hparent)
          obtain ⟨k, rfl⟩ : ∃ k, n = k + 1 := ⟨n - 1, by omega⟩
          rw [hnone]
          rfl

/-- **The walk finds the chain** of a node, where that has no node twice. -/
theorem walk_of_isChain (h : IsChain parent x l) (hnodup : l.Nodup)
    (hnew : ∀ y ∈ l, y ∉ visited) {n : ℕ} (hn : l.length < n) :
    walk parent n (some x) visited = some l := by
  induction h generalizing visited n with
  | root hnone =>
    obtain ⟨n, rfl⟩ : ∃ k, n = k + 2 := ⟨n - 2, by simp at hn; omega⟩
    simp [walk, hnone, hnew]
  | step hparent hchain ih =>
    obtain ⟨n, rfl⟩ : ∃ k, n = k + 1 := ⟨n - 1, by omega⟩
    obtain ⟨hfirst, hrest⟩ := List.nodup_cons.1 hnodup
    rw [walk, if_neg (hnew _ List.mem_cons_self), hparent, ih hrest ?_ (by simpa using hn)]
    · rfl
    · intro y hy hmem
      rcases List.mem_cons.1 hmem with rfl | hmem
      · exact hfirst hy
      · exact hnew y (List.mem_cons_of_mem _ hy) hmem

/-- **The search finds the first node on the walk** that passes the test. -/
theorem search_eq_find? {test : κ → Bool} {n : ℕ}
    (h : walk parent n start visited = some l) :
    search parent test n start visited = some (l.find? test) := by
  induction n generalizing start visited l with
  | zero => cases h
  | succ n ih =>
    cases start with
    | none =>
      obtain rfl := Option.some.inj h
      rfl
    | some x =>
      simp only [walk] at h
      simp only [search]
      split_ifs at h ⊢ with hvisited htest
      · obtain rfl := Option.some.inj h
        rfl
      · obtain ⟨rest, -, rfl⟩ := Option.map_eq_some_iff.1 h
        rw [List.find?_cons_of_pos htest]
      · obtain ⟨rest, hrest, rfl⟩ := Option.map_eq_some_iff.1 h
        rw [List.find?_cons_of_neg htest, ih hrest]

end ParentChain
