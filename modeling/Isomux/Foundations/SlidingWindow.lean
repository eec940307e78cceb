import Mathlib.Algebra.Order.Group.Defs
import Mathlib.Data.List.Basic
import Mathlib.Data.List.Count
import Mathlib.Data.List.TakeWhile

set_option autoImplicit false

/-!
# Sliding windows

A counter over a sliding window keeps the times of what happened, oldest first, and drops those that
have left the window. What it keeps of the window is what happened in it, so a limit that is checked
before each event bounds the events of every window, wherever it lies.

A window is open at its start and closed at its end: a time that is exactly as old as the window is
long has left it.

## Main results

* `SlidingWindow.Keeps.length_prune` — a pruned counter counts what happened in the window.
* `SlidingWindow.within_concat_le` — an event that the limit has room for keeps it in every window.
-/

namespace SlidingWindow

variable {τ : Type*} [LinearOrder τ]

/-- How many of some times are behind one and not behind another. -/
def within (times : List τ) (start stop : τ) : ℕ := times.countP fun t => start < t ∧ t ≤ stop

lemma within_concat (times : List τ) (t start stop : τ) :
    within (times ++ [t]) start stop =
      within times start stop + if start < t ∧ t ≤ stop then 1 else 0 := by
  rw [within, List.countP_append, List.countP_singleton]
  simp [within]

lemma countP_dropWhile (times : List τ) (hsorted : times.Pairwise (· ≤ ·)) (start : τ) :
    (times.dropWhile fun t => t ≤ start).length = times.countP fun t => start < t := by
  induction times with
  | nil => rfl
  | cons t times ih =>
    obtain ⟨hfirst, hrest⟩ := List.pairwise_cons.1 hsorted
    by_cases ht : t ≤ start
    · rw [List.dropWhile_cons_of_pos (by simpa using ht), ih hrest,
        List.countP_cons_of_neg (by simpa using ht)]
    · have hall : ∀ t' ∈ t :: times, decide (start < t') = true := by
        intro t' ht'
        rcases List.mem_cons.1 ht' with rfl | ht'
        · simpa using ht
        · simpa using (lt_of_not_ge ht).trans_le (hfirst t' ht')
      rw [List.dropWhile_cons_of_neg (by simpa using ht), List.countP_eq_length.2 hall]

variable [AddCommGroup τ]

/-- The times that are younger than the window. -/
def prune (times : List τ) (now window : τ) : List τ := times.dropWhile fun t => t ≤ now - window

/-- What is kept of a log: all but some of the times that have left the window. -/
structure Keeps (window : τ) (log kept : List τ) (now : τ) : Prop where
  split : ∃ gone, log = gone ++ kept ∧ ∀ t ∈ gone, t ≤ now - window
  sorted : log.Pairwise (· ≤ ·)
  past : ∀ t ∈ log, t ≤ now

variable {window now : τ} {log kept : List τ}

lemma Keeps.nil : Keeps window ([] : List τ) [] now :=
  ⟨⟨[], rfl, nofun⟩, List.Pairwise.nil, nofun⟩

lemma Keeps.later [IsOrderedAddMonoid τ] (h : Keeps window log kept now) {now' : τ} (hle : now ≤ now') :
    Keeps window log kept now' := by
  obtain ⟨gone, hlog, hgone⟩ := h.split
  exact ⟨⟨gone, hlog, fun t ht => (hgone t ht).trans (sub_le_sub_right hle window)⟩, h.sorted,
    fun t ht => (h.past t ht).trans hle⟩

lemma Keeps.prune (h : Keeps window log kept now) :
    Keeps window log (prune kept now window) now := by
  obtain ⟨gone, rfl, hgone⟩ := h.split
  refine ⟨⟨gone ++ kept.takeWhile fun t => t ≤ now - window, ?_, ?_⟩, h.sorted, h.past⟩
  · rw [SlidingWindow.prune, List.append_assoc, List.takeWhile_append_dropWhile]
  · intro t ht
    rcases List.mem_append.1 ht with hold | hnew
    · exact hgone t hold
    · simpa using List.mem_takeWhile_imp hnew

lemma Keeps.push (h : Keeps window log kept now) :
    Keeps window (log ++ [now]) (kept ++ [now]) now := by
  obtain ⟨gone, rfl, hgone⟩ := h.split
  refine ⟨⟨gone, by rw [List.append_assoc], hgone⟩, ?_, ?_⟩
  · rw [List.pairwise_append]
    refine ⟨h.sorted, List.pairwise_singleton _ _, fun t ht t' ht' => ?_⟩
    rw [List.mem_singleton.1 ht']
    exact h.past t ht
  · intro t ht
    rcases List.mem_append.1 ht with hold | hnew
    · exact h.past t hold
    · exact (List.mem_singleton.1 hnew).le

/-- **A pruned counter counts what happened in the window.** -/
theorem Keeps.length_prune (h : Keeps window log kept now) :
    (SlidingWindow.prune kept now window).length = within log (now - window) now := by
  obtain ⟨gone, rfl, hgone⟩ := h.split
  have hpast := h.past
  have hsorted := (List.pairwise_append.1 h.sorted).2.1
  have hnone : gone.countP (fun t => now - window < t ∧ t ≤ now) = 0 := by
    rw [List.countP_eq_zero]
    intro t ht
    simpa using fun hlt : now - window < t => absurd hlt (hgone t ht).not_gt
  rw [SlidingWindow.prune, countP_dropWhile kept hsorted, within, List.countP_append, hnone,
    Nat.zero_add]
  refine List.countP_congr fun t ht => ?_
  simp [hpast t (List.mem_append_right _ ht)]

lemma within_later [IsOrderedAddMonoid τ] (hpast : ∀ t ∈ log, t ≤ now) {now' : τ} (hle : now ≤ now') :
    within log (now' - window) now' ≤ within log (now - window) now := by
  refine List.countP_mono_left fun t ht hin => ?_
  simp only [decide_eq_true_eq] at hin ⊢
  exact ⟨(sub_le_sub_right hle window).trans_lt hin.1, hpast t ht⟩

/-- **An event that the limit has room for keeps it in every window.** A window that the event lies
in holds nothing that the window behind the event does not. -/
theorem within_concat_le [IsOrderedAddMonoid τ] {limit : ℕ} (hpast : ∀ t ∈ log, t ≤ now)
    (hall : ∀ start, within log start (start + window) ≤ limit)
    (hroom : within log (now - window) now + 1 ≤ limit) (start : τ) :
    within (log ++ [now]) start (start + window) ≤ limit := by
  rw [within_concat]
  split_ifs with hin
  · have hless : within log start (start + window) ≤ within log (now - window) now := by
      refine List.countP_mono_left fun t ht hbetween => ?_
      simp only [decide_eq_true_eq] at hbetween ⊢
      exact ⟨(sub_le_iff_le_add.2 hin.2).trans_lt hbetween.1, hpast t ht⟩
    omega
  · exact hall start

end SlidingWindow
