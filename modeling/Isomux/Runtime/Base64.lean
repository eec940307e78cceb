import Isomux.Runtime.Text

set_option autoImplicit false

/-!
# base64

The letters of a text in base64 come in groups of four, one for every three bytes, and the last
group is padded. Groups are independent of each other, so bytes that fill whole groups are written
alike in front of any others.

## Main results

* `Isomux.Buffer.ofBase64_toBase64` — what was written is read back.
* `Isomux.Buffer.toBase64_append` — the text of bytes behind whole groups.
* `Isomux.Buffer.length_toBase64` — the length of the text.
-/

namespace Isomux

lemma base64Value_base64Letter : ∀ n < 64, base64Value (base64Letter n) = n := by
  decide +kernel

lemma isBase64Letter_base64Letter : ∀ n < 64, isBase64Letter (base64Letter n) = true := by
  decide +kernel

lemma base64Letter_ne_pad {n : ℕ} (hn : n < 64) : base64Letter n ≠ base64Pad := by
  intro h
  have hletter := isBase64Letter_base64Letter n hn
  rw [h] at hletter
  exact absurd hletter (by decide)

namespace Buffer

lemma ofNat_eq {a : UInt8} {n : ℕ} (h : n = a.toNat) : UInt8.ofNat n = a := by
  rw [h, UInt8.ofNat_toNat]

lemma ofBase64_nil : ofBase64 [] = [] := rfl

/-- **What was written in base64 is read back.** -/
theorem ofBase64_toBase64 (bytes : Buffer) : ofBase64 (toBase64 bytes) = bytes := by
  induction bytes using toBase64.induct with
  | case1 => rfl
  | case2 a =>
    have ha := a.toNat_lt
    rw [toBase64, ofBase64, if_pos rfl, ofBase64_nil,
      base64Value_base64Letter _ (by omega), base64Value_base64Letter _ (by omega),
      ofNat_eq (a := a) (by omega)]
  | case3 a b =>
    have ha := a.toNat_lt
    have hb := b.toNat_lt
    rw [toBase64, ofBase64, if_neg (base64Letter_ne_pad (by omega)), if_pos rfl,
      ofBase64_nil, base64Value_base64Letter _ (by omega),
      base64Value_base64Letter _ (by omega), base64Value_base64Letter _ (by omega)]
    rw [ofNat_eq (a := a) (by omega), ofNat_eq (a := b) (by omega)]
  | case4 a b c rest ih =>
    have ha := a.toNat_lt
    have hb := b.toNat_lt
    have hc := c.toNat_lt
    rw [toBase64, ofBase64, if_neg (base64Letter_ne_pad (by omega)),
      if_neg (base64Letter_ne_pad (by omega)), ih,
      base64Value_base64Letter _ (by omega), base64Value_base64Letter _ (by omega),
      base64Value_base64Letter _ (by omega), base64Value_base64Letter _ (by omega)]
    dsimp only
    rw [ofNat_eq (a := a) (by omega), ofNat_eq (a := b) (by omega), ofNat_eq (a := c) (by omega)]

theorem toBase64_append {a : Buffer} (b : Buffer) (h : a.length % 3 = 0) :
    toBase64 (a ++ b) = toBase64 a ++ toBase64 b := by
  induction a using toBase64.induct with
  | case1 => rfl
  | case2 x => simp at h
  | case3 x y => simp at h
  | case4 x y z rest ih =>
    have hrest : rest.length % 3 = 0 := by
      simp only [List.length_cons] at h
      omega
    simp only [List.cons_append, toBase64, ih hrest]

theorem length_toBase64 (bytes : Buffer) :
    (toBase64 bytes).length = (bytes.length + 2) / 3 * 4 := by
  induction bytes using toBase64.induct with
  | case1 => rfl
  | case2 a => simp [toBase64]
  | case3 a b => simp [toBase64]
  | case4 a b c rest ih =>
    simp only [toBase64, List.length_cons, ih]
    omega

/-- The text consists of letters and padding. -/
theorem mem_toBase64 {bytes : Buffer} {c : CodeUnit} (h : c ∈ toBase64 bytes) :
    isBase64Letter c = true ∨ c = base64Pad := by
  induction bytes using toBase64.induct with
  | case1 => exact absurd h List.not_mem_nil
  | case2 a =>
    have ha := a.toNat_lt
    simp only [toBase64, List.mem_cons, List.not_mem_nil, or_false] at h
    rcases h with rfl | rfl | rfl | rfl
    · exact .inl (isBase64Letter_base64Letter _ (by omega))
    · exact .inl (isBase64Letter_base64Letter _ (by omega))
    · exact .inr rfl
    · exact .inr rfl
  | case3 a b =>
    have ha := a.toNat_lt
    have hb := b.toNat_lt
    simp only [toBase64, List.mem_cons, List.not_mem_nil, or_false] at h
    rcases h with rfl | rfl | rfl | rfl
    · exact .inl (isBase64Letter_base64Letter _ (by omega))
    · exact .inl (isBase64Letter_base64Letter _ (by omega))
    · exact .inl (isBase64Letter_base64Letter _ (by omega))
    · exact .inr rfl
  | case4 a b d rest ih =>
    have ha := a.toNat_lt
    have hb := b.toNat_lt
    have hd := d.toNat_lt
    simp only [toBase64, List.mem_cons] at h
    rcases h with rfl | rfl | rfl | rfl | hrest
    · exact .inl (isBase64Letter_base64Letter _ (by omega))
    · exact .inl (isBase64Letter_base64Letter _ (by omega))
    · exact .inl (isBase64Letter_base64Letter _ (by omega))
    · exact .inl (isBase64Letter_base64Letter _ (by omega))
    · exact ih hrest

end Buffer

end Isomux
