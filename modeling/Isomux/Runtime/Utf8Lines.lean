import Isomux.Foundations.TextLines
import Isomux.Runtime.Text

set_option autoImplicit false

/-!
# Bytes of lines

In UTF-8 a unit of ASCII is a byte of its own, and a byte of ASCII is nothing else. So a text is cut
into lines where its bytes are.

## Main results

* `Isomux.toUtf8_append_cons` — an ASCII unit cuts the bytes of a text.
* `Isomux.mem_of_toUtf8` — a byte of ASCII is a unit of the text.
* `Isomux.split_toUtf8` — the bytes of joined lines have these lines.
-/

namespace Isomux

/-! ## Bytes of a text -/

variable {c : CodeUnit} {s : JsString}

lemma codePoints_append_cons (s : JsString) (hc : isLowSurrogate c = false)
    (t : JsString) :
    JsString.codePoints (s ++ c :: t) = s.codePoints ++ JsString.codePoints (c :: t) := by
  induction s using JsString.codePoints.induct with
  | case1 => rfl
  | case2 d =>
    rw [List.singleton_append, JsString.codePoints, JsString.codePoints, hc, Bool.and_false,
      if_neg Bool.false_ne_true]
    split_ifs <;> rfl
  | case3 d e s hpair ih =>
    rw [List.cons_append, List.cons_append, JsString.codePoints, if_pos hpair, ih,
      JsString.codePoints, if_pos hpair, List.cons_append]
  | case4 d e s hpair hlone ih =>
    rw [List.cons_append, List.cons_append, JsString.codePoints, if_neg hpair, if_pos hlone,
      ← List.cons_append, ih, JsString.codePoints, if_neg hpair, if_pos hlone, List.cons_append]
  | case5 d e s hpair hlone ih =>
    rw [List.cons_append, List.cons_append, JsString.codePoints, if_neg hpair, if_neg hlone,
      ← List.cons_append, ih, JsString.codePoints, if_neg hpair, if_neg hlone, List.cons_append]

lemma isSurrogate_of_ascii (hc : c < 128) :
    isHighSurrogate c = false ∧ isLowSurrogate c = false := by
  rw [UInt16.lt_iff_toNat_lt] at hc
  simp only [isHighSurrogate, isLowSurrogate, Bool.and_eq_false_iff, decide_eq_false_iff_not,
    UInt16.le_iff_toNat_le, UInt16.reduceToNat] at hc ⊢
  omega

lemma codePoints_cons (hc : c < 128) (t : JsString) :
    JsString.codePoints (c :: t) = some c.toNat :: t.codePoints := by
  obtain ⟨hhigh, hlow⟩ := isSurrogate_of_ascii hc
  cases t with
  | nil => simp [JsString.codePoints, hhigh, hlow]
  | cons d t =>
    rw [JsString.codePoints, hhigh, hlow, Bool.false_and, Bool.false_or,
      if_neg Bool.false_ne_true, if_neg Bool.false_ne_true]

/-- **An ASCII unit cuts the bytes of a text.** -/
theorem toUtf8_append_cons (s : JsString) (hc : c < 128) (t : JsString) :
    JsString.toUtf8 (s ++ c :: t) = s.toUtf8 ++ c.toUInt8 :: t.toUtf8 := by
  have hsmall : c.toNat < 0x80 := UInt16.lt_iff_toNat_lt.1 hc
  rw [JsString.toUtf8, codePoints_append_cons s (isSurrogate_of_ascii hc).2, codePoints_cons hc,
    List.flatMap_append, List.flatMap_cons, Option.getD_some, utf8Bytes, if_pos hsmall]
  rfl

lemma toUtf8_ascii (h : ∀ c ∈ s, c < 128) : s.toUtf8 = s.toBuffer := by
  induction s with
  | nil => rfl
  | cons c s ih =>
    have hcons := toUtf8_append_cons [] (h c List.mem_cons_self) s
    rw [List.nil_append, ih fun d hd => h d (List.mem_cons_of_mem c hd)] at hcons
    exact hcons

lemma codePoints_lt {p : ℕ} (h : some p ∈ s.codePoints) : p < 0x110000 := by
  induction s using JsString.codePoints.induct with
  | case1 => cases h
  | case2 d =>
    rw [JsString.codePoints, List.mem_singleton] at h
    have hd := d.toNat_lt
    split_ifs at h
    cases h
    omega
  | case3 d e s hpair ih =>
    rw [JsString.codePoints, if_pos hpair] at h
    rcases List.mem_cons.1 h with h | h
    · cases h
      simp only [isHighSurrogate, isLowSurrogate, Bool.and_eq_true, decide_eq_true_eq,
        UInt16.le_iff_toNat_le, UInt16.reduceToNat] at hpair
      unfold surrogatePair
      omega
    · exact ih h
  | case4 d e s hpair hlone ih =>
    rw [JsString.codePoints, if_neg hpair, if_pos hlone] at h
    exact ih ((List.mem_cons.1 h).resolve_left (Option.some_ne_none _))
  | case5 d e s hpair hlone ih =>
    rw [JsString.codePoints, if_neg hpair, if_neg hlone] at h
    rcases List.mem_cons.1 h with h | h
    · cases h
      have hd := d.toNat_lt
      omega
    · exact ih h

lemma mem_of_codePoints (hc : c < 128)
    (h : some c.toNat ∈ s.codePoints) : c ∈ s := by
  have hsmall : c.toNat < 128 := UInt16.lt_iff_toNat_lt.1 hc
  induction s using JsString.codePoints.induct with
  | case1 => cases h
  | case2 d =>
    rw [JsString.codePoints, List.mem_singleton] at h
    split_ifs at h
    exact List.mem_singleton.2 (UInt16.toNat_inj.1 (Option.some.inj h))
  | case3 d e s hpair ih =>
    rw [JsString.codePoints, if_pos hpair] at h
    rcases List.mem_cons.1 h with h | h
    · have hlarge : 0x10000 ≤ c.toNat := by
        rw [Option.some.inj h, surrogatePair]
        omega
      omega
    · exact List.mem_cons_of_mem d (List.mem_cons_of_mem e (ih h))
  | case4 d e s hpair hlone ih =>
    rw [JsString.codePoints, if_neg hpair, if_pos hlone] at h
    exact List.mem_cons_of_mem d (ih ((List.mem_cons.1 h).resolve_left (Option.some_ne_none _)))
  | case5 d e s hpair hlone ih =>
    rw [JsString.codePoints, if_neg hpair, if_neg hlone] at h
    rcases List.mem_cons.1 h with h | h
    · exact List.mem_cons.2 (.inl (UInt16.toNat_inj.1 (Option.some.inj h)))
    · exact List.mem_cons_of_mem d (ih h)

lemma eq_of_mem_utf8Bytes {p n : ℕ} (hp : p < 0x110000) (hn : n < 128)
    (h : UInt8.ofNat n ∈ (utf8Bytes p).map UInt8.ofNat) : p = n := by
  obtain ⟨m, hm, heq⟩ := List.mem_map.1 h
  have hmod : m % 256 = n := by
    have hnat := congrArg UInt8.toNat heq
    rw [UInt8.toNat_ofNat', UInt8.toNat_ofNat', Nat.mod_eq_of_lt (a := n) (by omega)] at hnat
    exact hnat
  unfold utf8Bytes at hm
  split_ifs at hm <;> simp only [List.mem_cons, List.not_mem_nil, or_false] at hm <;> omega

/-- **A byte of ASCII is a unit of the text.** -/
theorem mem_of_toUtf8 (hc : c < 128) (h : c.toUInt8 ∈ s.toUtf8) :
    c ∈ s := by
  have hsmall : c.toNat < 128 := UInt16.lt_iff_toNat_lt.1 hc
  obtain ⟨p, hp, hbyte⟩ := List.mem_flatMap.1 h
  cases p with
  | none =>
    have hmark := eq_of_mem_utf8Bytes (p := 0xFFFD) (by decide) hsmall hbyte
    omega
  | some p =>
    obtain rfl := eq_of_mem_utf8Bytes (codePoints_lt hp) hsmall hbyte
    exact mem_of_codePoints hc hp

/-! ## Lines -/

lemma toUtf8_intercalate (lines : List JsString) :
    JsString.toUtf8 ([13, 10].intercalate lines) =
      [13, 10].intercalate (lines.map JsString.toUtf8) := by
  induction lines with
  | nil => rfl
  | cons line lines ih =>
    by_cases hlines : lines = []
    · rw [hlines, List.map_singleton, List.intercalate_singleton, List.intercalate_singleton]
    · have hfeed := toUtf8_append_cons [] (c := 10) (by decide) ([13, 10].intercalate lines)
      rw [List.map_cons, List.intercalate_cons_of_ne_nil hlines,
        List.intercalate_cons_of_ne_nil (by simpa using hlines), ← ih, List.append_assoc,
        List.append_assoc, List.cons_append, toUtf8_append_cons line (by decide)]
      rw [List.nil_append] at hfeed
      exact congrArg (fun tail => line.toUtf8 ++ 13 :: tail) hfeed

lemma intercalate_concat_empty {lines : List JsString} (hne : lines ≠ []) :
    [13, 10].intercalate lines ++ js "\r\n\r\n" = [13, 10].intercalate (lines ++ [[], []]) := by
  induction lines with
  | nil => exact absurd rfl hne
  | cons line lines ih =>
    by_cases hlines : lines = []
    · rw [hlines, List.intercalate_singleton, List.singleton_append, List.intercalate_cons_cons,
        List.intercalate_cons_cons, List.intercalate_singleton]
      simp [show js "\r\n\r\n" = [13, 10, 13, 10] from by decide]
    · rw [List.intercalate_cons_of_ne_nil hlines, List.cons_append,
        List.intercalate_cons_of_ne_nil (by simp), ← ih hlines, List.append_assoc,
        List.append_assoc]

/-- **The lines of a text are those that it was joined from**, where none has a carriage return. -/
theorem split_toUtf8 {lines : List JsString} (hne : lines ≠ []) (h : ∀ line ∈ lines, 13 ∉ line) :
    TextLines.split 13 10
        (JsString.toUtf8 ((js "\r\n").intercalate lines ++ js "\r\n\r\n")) =
      lines.map JsString.toUtf8 ++ [[], []] := by
  rw [show js "\r\n" = [13, 10] from by decide, intercalate_concat_empty hne, toUtf8_intercalate,
    TextLines.split_intercalate (by simp)]
  · rw [List.map_append]
    rfl
  · intro line hline
    obtain ⟨text, htext, rfl⟩ := List.mem_map.1 hline
    intro hmem
    have hreturn : 13 ∈ text := mem_of_toUtf8 (c := 13) (by decide) hmem
    rcases List.mem_append.1 htext with htext | htext
    · exact h text htext hreturn
    · simp only [List.mem_cons, List.not_mem_nil, or_false, or_self] at htext
      rw [htext] at hreturn
      cases hreturn

end Isomux
