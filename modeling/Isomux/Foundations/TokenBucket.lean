import Mathlib.Algebra.Order.Field.Basic
import Mathlib.Data.List.Count
import Mathlib.Tactic.Linarith
import Mathlib.Tactic.Ring

set_option autoImplicit false

/-!
# Token buckets

A token bucket holds up to a burst of tokens, gets new ones at a rate, and pays one for everything it
admits. What it admitted since a time and what it still holds is paid by the burst and by what came
in since then, so no window has more than the burst and the rate times its length, wherever it lies.

## Main results

* `TokenBucket.Accounts.refill`, `TokenBucket.Accounts.take` — a bucket stays one.
* `TokenBucket.one_le_refill` — when a bucket that was empty admits again.
-/

structure TokenBucket (τ : Type*) where
  tokens : τ
  time : τ
  deriving DecidableEq

namespace TokenBucket

variable {τ : Type*} [Field τ] [LinearOrder τ]

/-- The tokens that came in since the last refill, up to the burst. -/
def refill (burst rate : τ) (b : TokenBucket τ) (t : τ) : TokenBucket τ :=
  ⟨min burst (b.tokens + (t - b.time) * rate), t⟩

def take (b : TokenBucket τ) : TokenBucket τ := { b with tokens := b.tokens - 1 }

/-- How many of some times are in a window, with both of its ends. -/
def admitted (log : List τ) (start stop : τ) : ℕ := log.countP fun t => start ≤ t ∧ t ≤ stop

/-- The tokens of a bucket and the times at which it admitted something add up. -/
structure Accounts (burst rate : τ) (log : List τ) (b : TokenBucket τ) : Prop where
  nonneg : 0 ≤ b.tokens
  le_burst : b.tokens ≤ burst
  past : ∀ t ∈ log, t ≤ b.time
  pays : ∀ start ≤ b.time,
    (log.countP fun t => start ≤ t : ℕ) + b.tokens ≤ burst + rate * (b.time - start)
  windows : ∀ start stop, start ≤ stop →
    (admitted log start stop : τ) ≤ burst + rate * (stop - start)

variable {burst rate : τ} {log : List τ} {b : TokenBucket τ} {t : τ}

omit [Field τ] in
lemma admitted_concat (log : List τ) (t start stop : τ) :
    admitted (log ++ [t]) start stop =
      admitted log start stop + if start ≤ t ∧ t ≤ stop then 1 else 0 := by
  rw [admitted, List.countP_append, List.countP_singleton]
  simp [admitted]

variable [IsStrictOrderedRing τ]

lemma Accounts.full (hburst : 0 ≤ burst) (hrate : 0 ≤ rate) (t : τ) :
    Accounts burst rate [] ⟨burst, t⟩ where
  nonneg := hburst
  le_burst := le_refl burst
  past _ ht := absurd ht List.not_mem_nil
  pays start hstart := by
    have hmore := mul_nonneg hrate (sub_nonneg.2 hstart)
    simpa using hmore
  windows start stop hle := by
    have hmore := mul_nonneg hrate (sub_nonneg.2 hle)
    simpa [admitted] using add_nonneg hburst hmore

lemma Accounts.refill (h : Accounts burst rate log b) (hrate : 0 ≤ rate) (hle : b.time ≤ t) :
    Accounts burst rate log (b.refill burst rate t) where
  nonneg := by
    have hmore := mul_nonneg (sub_nonneg.2 hle) hrate
    exact le_min (h.nonneg.trans h.le_burst) (add_nonneg h.nonneg hmore)
  le_burst := min_le_left _ _
  past s hs := (h.past s hs).trans hle
  pays start hstart := by
    rw [TokenBucket.refill] at hstart ⊢
    by_cases hold : start ≤ b.time
    · have hpays := h.pays start hold
      have htokens := min_le_right burst (b.tokens + (t - b.time) * rate)
      calc (log.countP fun s => start ≤ s : ℕ) + min burst (b.tokens + (t - b.time) * rate)
          ≤ (log.countP fun s => start ≤ s : ℕ) + (b.tokens + (t - b.time) * rate) := by gcongr
        _ ≤ burst + rate * (b.time - start) + (t - b.time) * rate := by linarith
        _ = burst + rate * (t - start) := by ring
    · -- nothing was admitted since a time behind the last refill
      have hnone : (log.countP fun s => start ≤ s) = 0 := by
        rw [List.countP_eq_zero]
        intro s hs
        simpa using (h.past s hs).trans_lt (not_le.1 hold)
      have htokens := min_le_left burst (b.tokens + (t - b.time) * rate)
      have hmore := mul_nonneg hrate (sub_nonneg.2 hstart)
      rw [hnone, Nat.cast_zero, zero_add]
      exact htokens.trans (le_add_of_nonneg_right hmore)
  windows := h.windows

lemma Accounts.take (h : Accounts burst rate log b) (hrate : 0 ≤ rate) (hpaid : 1 ≤ b.tokens) :
    Accounts burst rate (log ++ [b.time]) b.take := by
  have hpays : ∀ start ≤ b.time, ((log ++ [b.time]).countP fun t => start ≤ t : ℕ) +
      (b.tokens - 1) ≤ burst + rate * (b.time - start) := by
    intro start hstart
    have hold := h.pays start hstart
    rw [List.countP_append, List.countP_singleton, if_pos (by simpa using hstart), Nat.cast_add,
      Nat.cast_one]
    linarith
  refine ⟨sub_nonneg.2 hpaid, ?_, fun t ht => ?_, hpays, fun start stop hle => ?_⟩
  · exact (sub_le_self _ zero_le_one).trans h.le_burst
  · rcases List.mem_append.1 ht with hold | hnew
    · exact h.past t hold
    · exact (List.mem_singleton.1 hnew).le
  · rw [admitted_concat]
    split_ifs with hin
    · -- the window holds no more than what came since its start, and that is paid
      have hmost : admitted log start stop ≤ log.countP fun t => start ≤ t :=
        List.countP_mono_left fun t _ hbetween => by
          simp only [decide_eq_true_eq] at hbetween ⊢
          exact hbetween.1
      have hcast : (admitted log start stop : τ) ≤ (log.countP fun t => start ≤ t : ℕ) := by
        exact_mod_cast hmost
      have hold := h.pays start hin.1
      have hmore := mul_le_mul_of_nonneg_left (sub_le_sub_right hin.2 start) hrate
      rw [Nat.cast_add, Nat.cast_one]
      linarith
    · rw [Nat.add_zero]
      exact h.windows start stop hle

/-- **A bucket admits again** once what came in is worth the token that was missing. -/
lemma one_le_refill (hburst : 1 ≤ burst) (hpaid : 1 - b.tokens ≤ (t - b.time) * rate) :
    1 ≤ (b.refill burst rate t).tokens :=
  le_min hburst (by linarith)

end TokenBucket
