import Isomux.Runtime.Json
import Mathlib.Data.List.TakeWhile
import Mathlib.Tactic.Ring

set_option autoImplicit false

/-!
# The values of JSON numbers

The value of a number is the rational number that its literal stands for.

## Main results

* `Isomux.NumberLiteral.value_intText` — the text of a whole number has its value.
-/

namespace Isomux

def digitsValue (digits : JsString) : ℕ := digits.foldl (fun n c => 10 * n + (c.toNat - 48)) 0

/-- The power behind an `e`, which may have a sign. -/
def powerValue : JsString → ℤ
  | [] => 0
  | c :: digits =>
    if c = 45 then -digitsValue digits else if c = 43 then digitsValue digits
    else digitsValue (c :: digits)

/-- The `e` of a power. -/
def isExponentMark (c : CodeUnit) : Bool := c = 101 || c = 69

def magnitude (body : JsString) : ℚ :=
  let mantissa := body.takeWhile fun c => !isExponentMark c
  let power := (body.dropWhile fun c => !isExponentMark c).tail
  let whole := mantissa.takeWhile fun c => c ≠ 46
  let fraction := (mantissa.dropWhile fun c => c ≠ 46).tail
  digitsValue (whole ++ fraction) * 10 ^ (powerValue power - fraction.length)

def NumberLiteral.value (literal : NumberLiteral) : ℚ :=
  match literal.1 with
  | [] => 0
  | c :: body => if c = 45 then -magnitude body else magnitude (c :: body)

lemma digitsValue_decimalDigits (n : ℕ) : digitsValue (decimalDigits n) = n := by
  have hdigit : ∀ d < 10, (digitUnit d.digitChar).toNat - 48 = d := by decide
  induction n using Nat.strongRecOn with
  | ind n ih =>
    by_cases hlt : n < 10
    · rw [decimalDigits, Nat.toDigits_of_lt_base hlt]
      simpa [digitsValue] using hdigit n hlt
    · have hdigits : decimalDigits n = decimalDigits (n / 10) ++ [digitUnit (n % 10).digitChar] := by
        rw [decimalDigits, Nat.toDigits_of_base_le (by decide) (Nat.not_lt.1 hlt), List.map_append]
        rfl
      have hrest := ih (n / 10) (by omega)
      rw [digitsValue] at hrest ⊢
      rw [hdigits, List.foldl_append, hrest, List.foldl_cons, List.foldl_nil,
        hdigit _ (Nat.mod_lt _ (by decide))]
      omega

lemma isJsonDigit_decimalDigits (n : ℕ) : ∀ c ∈ decimalDigits n, isJsonDigit c = true := by
  intro c hc
  obtain ⟨d, hd, rfl⟩ := List.mem_map.1 hc
  have hval := Nat.isDigit_of_mem_toDigits (by decide) (by decide) hd
  simp only [Char.isDigit, Bool.and_eq_true, decide_eq_true_eq, ge_iff_le,
    UInt32.le_iff_toNat_le] at hval
  have hnat : (digitUnit d).toNat = d.toNat := by
    simp only [digitUnit, UInt16.toNat_ofNat']
    have : d.toNat ≤ 57 := hval.2
    omega
  simp only [isJsonDigit, Bool.and_eq_true, decide_eq_true_eq, UInt16.le_iff_toNat_le, hnat]
  exact hval

lemma magnitude_decimalDigits (n : ℕ) : magnitude (decimalDigits n) = n := by
  have hmark : ∀ c ∈ decimalDigits n, (!isExponentMark c) = true := by
    intro c hc
    have hdigit := isJsonDigit_decimalDigits n c hc
    by_contra hnot
    rw [Bool.not_eq_true, Bool.not_eq_false', isExponentMark, Bool.or_eq_true, decide_eq_true_eq,
      decide_eq_true_eq] at hnot
    rcases hnot with rfl | rfl <;> exact absurd hdigit (by decide)
  have hpoint : ∀ c ∈ decimalDigits n, (decide (c ≠ 46)) = true := by
    intro c hc
    have hdigit := isJsonDigit_decimalDigits n c hc
    rw [decide_eq_true_eq]
    rintro rfl
    exact absurd hdigit (by decide)
  unfold magnitude
  simp only [List.takeWhile_eq_self_iff.2 hmark, List.dropWhile_eq_nil_iff.2 hmark,
    List.takeWhile_eq_self_iff.2 hpoint, List.dropWhile_eq_nil_iff.2 hpoint, List.tail_nil,
    List.append_nil, digitsValue_decimalDigits]
  simp [powerValue]

/-- **The text of a whole number has its value.** -/
theorem NumberLiteral.value_intText (n : ℤ) :
    NumberLiteral.value ⟨intText n, isNumberLiteral_intText n⟩ = n := by
  unfold NumberLiteral.value intText
  split_ifs with hneg
  · show (if (45 : CodeUnit) = 45 then -magnitude (decimalDigits n.natAbs) else _) = (n : ℚ)
    rw [if_pos rfl, magnitude_decimalDigits]
    have habs : ((n.natAbs : ℤ) : ℚ) = ((-n : ℤ) : ℚ) := by rw [Int.ofNat_natAbs_of_nonpos hneg.le]
    rw [← Int.cast_natCast, habs, Int.cast_neg, neg_neg]
  · have habs : ((n.natAbs : ℤ) : ℚ) = (n : ℚ) := by rw [Int.natAbs_of_nonneg (Int.not_lt.1 hneg)]
    obtain ⟨c, digits, hcons⟩ : ∃ c digits, decimalDigits n.natAbs = c :: digits :=
      List.exists_cons_of_ne_nil (by simp [decimalDigits])
    have hdigit := isJsonDigit_decimalDigits n.natAbs c (by rw [hcons]; exact List.mem_cons_self)
    have hminus : c ≠ 45 := by
      rintro rfl
      exact absurd hdigit (by decide)
    simp only [hcons]
    rw [if_neg hminus, ← hcons, magnitude_decimalDigits, ← Int.cast_natCast, habs]

end Isomux
