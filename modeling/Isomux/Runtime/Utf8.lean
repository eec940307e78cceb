import Isomux.Runtime.Text

set_option autoImplicit false

/-!
# UTF-8 there and back

A text is valid UTF-8 when it is what some characters encode to. The strict decoder reads exactly
these texts, and what it reads encodes to the bytes it came from, up to a byte order mark at the
front, which it drops.

## Main results

* `Isomux.utf8CodePoints_encode` — characters survive the way through UTF-8.
* `Isomux.utf8CodePoints_sound` — bytes without an ill-formed sequence are what they are read as.
* `Isomux.toUtf8_flatMap_codeUnits` — characters survive the way through a string.
* `Isomux.Buffer.decodeUtf8Fatal_toUtf8_iff` — the strict decoder is exact but for the mark.
-/

namespace Isomux

/-! ## Characters -/

/-- A code point that is a character: in the range of Unicode, and no surrogate. -/
def IsScalar (p : ℕ) : Prop := p < 0xD800 ∨ (0xE000 ≤ p ∧ p < 0x110000)

instance (p : ℕ) : Decidable (IsScalar p) := inferInstanceAs (Decidable (_ ∨ _))

def utf8Encode (points : List ℕ) : Buffer :=
  points.flatMap fun p => (utf8Bytes p).map UInt8.ofNat

/-- Bytes that are the UTF-8 of some characters. -/
def Buffer.IsUtf8 (b : Buffer) : Prop :=
  ∃ points : List ℕ, (∀ p ∈ points, IsScalar p) ∧ b = utf8Encode points

def byteOrderMark : Buffer := [0xEF, 0xBB, 0xBF]

/-! ## Characters and code units -/

/-- A character of a string is read back off its code units. -/
lemma codePoints_codeUnits {p : ℕ} (hp : IsScalar p) (s : JsString) :
    JsString.codePoints (codeUnits p ++ s) = some p :: s.codePoints := by
  unfold IsScalar at hp
  unfold codeUnits
  by_cases hbasic : p < 0x10000
  · have hnat : (UInt16.ofNat p).toNat = p := by
      rw [UInt16.toNat_ofNat']
      omega
    have hhigh : isHighSurrogate (UInt16.ofNat p) = false := by
      simp only [isHighSurrogate, UInt16.le_iff_toNat_le, hnat, UInt16.reduceToNat,
        Bool.and_eq_false_imp, decide_eq_true_eq, decide_eq_false_iff_not]
      omega
    have hlow : isLowSurrogate (UInt16.ofNat p) = false := by
      simp only [isLowSurrogate, UInt16.le_iff_toNat_le, hnat, UInt16.reduceToNat,
        Bool.and_eq_false_imp, decide_eq_true_eq, decide_eq_false_iff_not]
      omega
    rw [if_pos hbasic]
    cases s with
    | nil | cons d s => simp [JsString.codePoints, hhigh, hlow, hnat]
  · have hnatHigh : (UInt16.ofNat (0xD800 + (p - 0x10000) / 0x400)).toNat =
        0xD800 + (p - 0x10000) / 0x400 := by
      rw [UInt16.toNat_ofNat']
      omega
    have hnatLow : (UInt16.ofNat (0xDC00 + (p - 0x10000) % 0x400)).toNat =
        0xDC00 + (p - 0x10000) % 0x400 := by
      rw [UInt16.toNat_ofNat']
      omega
    have hhigh : isHighSurrogate (UInt16.ofNat (0xD800 + (p - 0x10000) / 0x400)) = true := by
      simp only [isHighSurrogate, UInt16.le_iff_toNat_le, hnatHigh, UInt16.reduceToNat,
        Bool.and_eq_true, decide_eq_true_eq]
      omega
    have hlow : isLowSurrogate (UInt16.ofNat (0xDC00 + (p - 0x10000) % 0x400)) = true := by
      simp only [isLowSurrogate, UInt16.le_iff_toNat_le, hnatLow, UInt16.reduceToNat,
        Bool.and_eq_true, decide_eq_true_eq]
      omega
    have hpair : surrogatePair (UInt16.ofNat (0xD800 + (p - 0x10000) / 0x400))
        (UInt16.ofNat (0xDC00 + (p - 0x10000) % 0x400)) = p := by
      unfold surrogatePair
      rw [hnatHigh, hnatLow]
      omega
    rw [if_neg hbasic, List.cons_append, List.cons_append, List.nil_append,
      JsString.codePoints, hhigh, hlow, hpair]
    rfl

variable {b : Buffer} {points : List ℕ}

theorem toUtf8_flatMap_codeUnits (h : ∀ p ∈ points, IsScalar p) :
    JsString.toUtf8 (points.flatMap codeUnits) = utf8Encode points := by
  have hpoints : JsString.codePoints (points.flatMap codeUnits) = points.map some := by
    induction points with
    | nil => rfl
    | cons p points ih =>
      rw [List.flatMap_cons, codePoints_codeUnits (h p List.mem_cons_self),
        ih fun q hq => h q (List.mem_cons_of_mem p hq), List.map_cons]
  unfold JsString.toUtf8 utf8Encode
  rw [hpoints, List.flatMap_map]
  rfl

/-! ## Characters and bytes -/

lemma continues_cons (b : UInt8) (rest : Buffer) (lo hi : UInt8) :
    continues (b :: rest) lo hi = decide (lo.toNat ≤ b.toNat ∧ b.toNat ≤ hi.toNat) := by
  simp [continues, UInt8.le_iff_toNat_le]

lemma toNat_ofNat_byte {n : ℕ} (h : n < 256) : (UInt8.ofNat n).toNat = n := by
  rw [UInt8.toNat_ofNat']
  omega

lemma utf8Step_two {f b : UInt8} (rest : Buffer) (hf : 0xC2 ≤ f.toNat ∧ f.toNat ≤ 0xDF)
    (hb : 0x80 ≤ b.toNat ∧ b.toNat ≤ 0xBF) :
    utf8Step f (b :: rest) = (some ((f.toNat - 0xC0) * 64 + b.toNat % 64), 1) := by
  have hbyte : continues (b :: rest) 0x80 0xBF = true := by
    rw [continues_cons]
    exact decide_eq_true hb
  simp only [utf8Step, hbyte, List.getD_cons_zero]
  rw [if_neg (by omega), if_pos hf, if_pos trivial]

lemma utf8Step_three {f b c : UInt8} (rest : Buffer) (hf : 0xE0 ≤ f.toNat ∧ f.toNat ≤ 0xEF)
    (hb : 0x80 ≤ b.toNat ∧ b.toNat ≤ 0xBF) (hlow : f.toNat = 0xE0 → 0xA0 ≤ b.toNat)
    (hhigh : f.toNat = 0xED → b.toNat ≤ 0x9F) (hc : 0x80 ≤ c.toNat ∧ c.toNat ≤ 0xBF) :
    utf8Step f (b :: c :: rest) =
      (some (((f.toNat - 0xE0) * 64 + b.toNat % 64) * 64 + c.toNat % 64), 2) := by
  have hfirst : continues (b :: c :: rest) (if f.toNat = 0xE0 then 0xA0 else 0x80)
      (if f.toNat = 0xED then 0x9F else 0xBF) = true := by
    rw [continues_cons]
    refine decide_eq_true ⟨?_, ?_⟩
    · split_ifs with h
      · exact hlow h
      · exact hb.1
    · split_ifs with h
      · exact hhigh h
      · exact hb.2
  have hsecond : continues (c :: rest) 0x80 0xBF = true := by
    rw [continues_cons]
    exact decide_eq_true hc
  simp only [utf8Step, hfirst, List.drop_succ_cons, List.drop_zero, hsecond, List.getD_cons_zero,
    List.getD_cons_succ]
  rw [if_neg (by omega), if_neg (by omega), if_pos hf, if_neg (by decide), if_neg (by decide)]

lemma utf8Step_four {f b c e : UInt8} (rest : Buffer) (hf : 0xF0 ≤ f.toNat ∧ f.toNat ≤ 0xF4)
    (hb : 0x80 ≤ b.toNat ∧ b.toNat ≤ 0xBF) (hlow : f.toNat = 0xF0 → 0x90 ≤ b.toNat)
    (hhigh : f.toNat = 0xF4 → b.toNat ≤ 0x8F) (hc : 0x80 ≤ c.toNat ∧ c.toNat ≤ 0xBF)
    (he : 0x80 ≤ e.toNat ∧ e.toNat ≤ 0xBF) :
    utf8Step f (b :: c :: e :: rest) =
      (some ((((f.toNat - 0xF0) * 64 + b.toNat % 64) * 64 + c.toNat % 64) * 64 + e.toNat % 64),
        3) := by
  have hfirst : continues (b :: c :: e :: rest) (if f.toNat = 0xF0 then 0x90 else 0x80)
      (if f.toNat = 0xF4 then 0x8F else 0xBF) = true := by
    rw [continues_cons]
    refine decide_eq_true ⟨?_, ?_⟩
    · split_ifs with h
      · exact hlow h
      · exact hb.1
    · split_ifs with h
      · exact hhigh h
      · exact hb.2
  have hsecond : continues (c :: e :: rest) 0x80 0xBF = true := by
    rw [continues_cons]
    exact decide_eq_true hc
  have hthird : continues (e :: rest) 0x80 0xBF = true := by
    rw [continues_cons]
    exact decide_eq_true he
  simp only [utf8Step, hfirst, List.drop_succ_cons, List.drop_zero, hsecond, hthird,
    List.getD_cons_zero, List.getD_cons_succ]
  rw [if_neg (by omega), if_neg (by omega), if_neg (by omega), if_pos hf, if_neg (by decide),
    if_neg (by decide), if_neg (by decide)]

/-- The bytes of a character are read as that character, whatever is behind them. -/
lemma utf8Step_encode {p : ℕ} (hp : IsScalar p) :
    ∃ first tail, (utf8Bytes p).map UInt8.ofNat = first :: tail ∧
      ∀ rest, utf8Step first (tail ++ rest) = (some p, tail.length) := by
  unfold IsScalar at hp
  unfold utf8Bytes
  split_ifs with h1 h2 h3
  · refine ⟨_, _, rfl, fun rest => ?_⟩
    simp only [utf8Step, toNat_ofNat_byte (show p < 256 by omega)]
    rw [if_pos h1]
    rfl
  · refine ⟨_, _, rfl, fun rest => ?_⟩
    have hf := toNat_ofNat_byte (show 0xC0 + p / 64 < 256 by omega)
    have hb := toNat_ofNat_byte (show 0x80 + p % 64 < 256 by omega)
    refine (utf8Step_two rest (by omega) (by omega)).trans ?_
    rw [hf, hb]
    exact Prod.ext (congrArg some (by omega)) rfl
  · refine ⟨_, _, rfl, fun rest => ?_⟩
    have hf := toNat_ofNat_byte (show 0xE0 + p / 4096 < 256 by omega)
    have hb := toNat_ofNat_byte (show 0x80 + p / 64 % 64 < 256 by omega)
    have hc := toNat_ofNat_byte (show 0x80 + p % 64 < 256 by omega)
    refine (utf8Step_three rest (by omega) (by omega) (by omega) (by omega) (by omega)).trans ?_
    rw [hf, hb, hc]
    exact Prod.ext (congrArg some (by omega)) rfl
  · refine ⟨_, _, rfl, fun rest => ?_⟩
    have hf := toNat_ofNat_byte (show 0xF0 + p / 262144 < 256 by omega)
    have hb := toNat_ofNat_byte (show 0x80 + p / 4096 % 64 < 256 by omega)
    have hc := toNat_ofNat_byte (show 0x80 + p / 64 % 64 < 256 by omega)
    have he := toNat_ofNat_byte (show 0x80 + p % 64 < 256 by omega)
    refine (utf8Step_four rest (by omega) (by omega) (by omega) (by omega) (by omega)
      (by omega)).trans ?_
    rw [hf, hb, hc, he]
    exact Prod.ext (congrArg some (by omega)) rfl

lemma continues_eq_true {rest : Buffer} {lo hi : UInt8} (h : continues rest lo hi = true) :
    ∃ b tail, rest = b :: tail ∧ lo.toNat ≤ b.toNat ∧ b.toNat ≤ hi.toNat := by
  cases rest with
  | nil => cases h
  | cons b tail =>
    rw [continues_cons, decide_eq_true_eq] at h
    exact ⟨b, tail, rfl, h⟩

/-- What holds behind a test of the bytes that continue a sequence: the test succeeded, or the
sequence is ill-formed. -/
lemma eq_some_of_test {c : Bool} {j p k : ℕ} {well : Option ℕ × ℕ}
    (h : (if !c then (none, j) else well) = (some p, k)) : c = true ∧ well = (some p, k) := by
  cases c with
  | false => simp at h
  | true => exact ⟨rfl, h⟩

/-- What is read as a character is the bytes of that character. -/
lemma utf8Step_sound {f : UInt8} {rest : Buffer} {p k : ℕ} (h : utf8Step f rest = (some p, k)) :
    IsScalar p ∧ k ≤ rest.length ∧ (utf8Bytes p).map UInt8.ofNat = f :: rest.take k := by
  have hbyte : ∀ {b : UInt8} {n : ℕ}, n = b.toNat → UInt8.ofNat n = b := by
    intro b n hn
    rw [hn, UInt8.ofNat_toNat]
  unfold utf8Step at h
  by_cases h1 : f.toNat < 0x80
  · rw [if_pos h1, Prod.mk.injEq, Option.some.injEq] at h
    obtain ⟨rfl, rfl⟩ := h
    refine ⟨Or.inl (by omega), Nat.zero_le _, ?_⟩
    rw [utf8Bytes, if_pos h1, List.take_zero, List.map_cons, hbyte rfl, List.map_nil]
  rw [if_neg h1] at h
  by_cases h2 : 0xC2 ≤ f.toNat ∧ f.toNat ≤ 0xDF
  · rw [if_pos h2] at h
    by_cases hb : continues rest 0x80 0xBF = true
    · rw [if_pos hb] at h
      obtain ⟨b, tail, rfl, hb'⟩ := continues_eq_true hb
      simp only [List.getD_cons_zero, Prod.mk.injEq, Option.some.injEq, UInt8.reduceToNat] at h hb'
      obtain ⟨rfl, rfl⟩ := h
      refine ⟨Or.inl (by omega), by simp, ?_⟩
      rw [utf8Bytes, if_neg (by omega), if_pos (by omega)]
      simp only [List.map_cons, List.map_nil, List.take_succ_cons, List.take_zero]
      rw [List.cons.injEq, List.cons.injEq]
      exact ⟨hbyte (by omega), hbyte (by omega), rfl⟩
    · rw [if_neg hb] at h
      cases h
  rw [if_neg h2] at h
  by_cases h3 : 0xE0 ≤ f.toNat ∧ f.toNat ≤ 0xEF
  · rw [if_pos h3] at h
    obtain ⟨hb, h⟩ := eq_some_of_test h
    obtain ⟨hc, h⟩ := eq_some_of_test h
    obtain ⟨b, tail, rfl, hlo, hhi⟩ := continues_eq_true hb
    obtain ⟨c, tail, rfl, hc'⟩ := continues_eq_true hc
    have hb' : 0x80 ≤ b.toNat ∧ b.toNat ≤ 0xBF ∧ (f.toNat = 0xE0 → 0xA0 ≤ b.toNat) ∧
        (f.toNat = 0xED → b.toNat ≤ 0x9F) := by
      split_ifs at hlo hhi <;> simp only [UInt8.reduceToNat] at hlo hhi <;> omega
    simp only [List.getD_cons_zero, List.getD_cons_succ, Prod.mk.injEq, Option.some.injEq,
      UInt8.reduceToNat] at h hc'
    obtain ⟨rfl, rfl⟩ := h
    refine ⟨by unfold IsScalar; omega, by simp, ?_⟩
    rw [utf8Bytes, if_neg (by omega), if_neg (by omega), if_pos (by omega)]
    simp only [List.map_cons, List.map_nil, List.take_succ_cons, List.take_zero]
    rw [List.cons.injEq, List.cons.injEq, List.cons.injEq]
    exact ⟨hbyte (by omega), hbyte (by omega), hbyte (by omega), rfl⟩
  rw [if_neg h3] at h
  by_cases h4 : 0xF0 ≤ f.toNat ∧ f.toNat ≤ 0xF4
  · rw [if_pos h4] at h
    obtain ⟨hb, h⟩ := eq_some_of_test h
    obtain ⟨hc, h⟩ := eq_some_of_test h
    obtain ⟨he, h⟩ := eq_some_of_test h
    obtain ⟨b, tail, rfl, hlo, hhi⟩ := continues_eq_true hb
    obtain ⟨c, tail, rfl, hc'⟩ := continues_eq_true hc
    obtain ⟨e, tail, rfl, he'⟩ := continues_eq_true he
    have hb' : 0x80 ≤ b.toNat ∧ b.toNat ≤ 0xBF ∧ (f.toNat = 0xF0 → 0x90 ≤ b.toNat) ∧
        (f.toNat = 0xF4 → b.toNat ≤ 0x8F) := by
      split_ifs at hlo hhi <;> simp only [UInt8.reduceToNat] at hlo hhi <;> omega
    simp only [List.getD_cons_zero, List.getD_cons_succ, Prod.mk.injEq, Option.some.injEq,
      UInt8.reduceToNat] at h hc' he'
    obtain ⟨rfl, rfl⟩ := h
    refine ⟨by unfold IsScalar; omega, by simp, ?_⟩
    rw [utf8Bytes, if_neg (by omega), if_neg (by omega), if_neg (by omega)]
    simp only [List.map_cons, List.map_nil, List.take_succ_cons, List.take_zero]
    rw [List.cons.injEq, List.cons.injEq, List.cons.injEq, List.cons.injEq]
    exact ⟨hbyte (by omega), hbyte (by omega), hbyte (by omega), hbyte (by omega), rfl⟩
  · rw [if_neg h4] at h
    cases h

/-! ## Texts -/

theorem utf8CodePoints_encode (h : ∀ p ∈ points, IsScalar p) {fuel : ℕ}
    (hfuel : (utf8Encode points).length ≤ fuel) :
    utf8CodePoints fuel (utf8Encode points) = points.map some := by
  induction points generalizing fuel with
  | nil => cases fuel <;> rfl
  | cons p points ih =>
    obtain ⟨first, tail, hbytes, hstep⟩ := utf8Step_encode (h p List.mem_cons_self)
    have hencode : utf8Encode (p :: points) = first :: (tail ++ utf8Encode points) := by
      rw [utf8Encode, List.flatMap_cons, hbytes, List.cons_append]
      rfl
    rw [hencode, List.length_cons, List.length_append] at hfuel
    obtain ⟨fuel, rfl⟩ : ∃ k, fuel = k + 1 := ⟨fuel - 1, by omega⟩
    rw [hencode, utf8CodePoints, hstep, List.drop_left,
      ih (fun q hq => h q (List.mem_cons_of_mem p hq)) (by omega), List.map_cons]

/-- Bytes without an ill-formed sequence are the bytes of the characters they are read as. -/
theorem utf8CodePoints_sound {fuel : ℕ} (hfuel : b.length ≤ fuel)
    (h : utf8CodePoints fuel b = points.map some) :
    (∀ p ∈ points, IsScalar p) ∧ b = utf8Encode points := by
  induction fuel generalizing b points with
  | zero =>
    obtain rfl := List.length_eq_zero_iff.mp (Nat.le_zero.mp hfuel)
    cases points with
    | nil => exact ⟨nofun, rfl⟩
    | cons p points => cases h
  | succ fuel ih =>
    cases b with
    | nil =>
      cases points with
      | nil => exact ⟨nofun, rfl⟩
      | cons p points => cases h
    | cons first rest =>
      cases points with
      | nil => cases h
      | cons p points =>
        rw [utf8CodePoints, List.map_cons, List.cons.injEq] at h
        obtain ⟨hscalar, hlength, hbytes⟩ := utf8Step_sound (Prod.ext h.1 rfl)
        obtain ⟨hscalars, hrest⟩ := ih (by
          rw [List.length_cons] at hfuel
          rw [List.length_drop]
          omega) h.2
        refine ⟨fun q hq => ?_, ?_⟩
        · rcases List.mem_cons.mp hq with rfl | hq
          · exact hscalar
          · exact hscalars q hq
        · rw [utf8Encode, List.flatMap_cons, hbytes, List.cons_append]
          change _ = first :: (_ ++ utf8Encode points)
          rw [← hrest, List.take_append_drop]

lemma mapM_id_eq_some {α : Type} {l : List (Option α)} {ys : List α} :
    l.mapM id = some ys ↔ l = ys.map some := by
  induction l generalizing ys with
  | nil => cases ys <;> simp
  | cons x l ih =>
    cases x with
    | none => cases ys <;> simp
    | some x =>
      have hcons : (some x :: l).mapM id = some ys ↔ ∃ zs, l.mapM id = some zs ∧ x :: zs = ys := by
        simp [Option.bind_eq_some_iff]
      rw [hcons]
      cases ys with
      | nil => simp
      | cons y ys => simp [ih, and_comm]

lemma utf8CodePoints_mark (fuel : ℕ) (body : Buffer) :
    utf8CodePoints (fuel + 1) (byteOrderMark ++ body) =
      some 0xFEFF :: utf8CodePoints fuel body := by
  have hstep : utf8Step 0xEF ([0xBB, 0xBF] ++ body) = (some 0xFEFF, 2) :=
    utf8Step_three body (by decide) (by decide) (by decide) (by decide) (by decide)
  change utf8CodePoints (fuel + 1) (0xEF :: ([0xBB, 0xBF] ++ body)) = _
  rw [utf8CodePoints, hstep]
  rfl

lemma decodeUtf8Fatal_mark (body : Buffer) :
    Buffer.decodeUtf8Fatal (byteOrderMark ++ body) =
      ((utf8CodePoints body.length body).mapM id).map fun ps => ps.flatMap codeUnits := by
  unfold Buffer.decodeUtf8Fatal
  rw [if_pos (by simp [byteOrderMark, List.isPrefixOf])]
  rfl

lemma decodeUtf8Fatal_plain (h : ¬ byteOrderMark <+: b) :
    b.decodeUtf8Fatal =
      ((utf8CodePoints b.length b).mapM id).map fun ps => ps.flatMap codeUnits := by
  have hprefix : ¬ [0xEF, 0xBB, 0xBF].isPrefixOf b = true :=
    fun hmark => h (List.isPrefixOf_iff_prefix.mp hmark)
  unfold Buffer.decodeUtf8Fatal
  rw [if_neg hprefix]

lemma toUtf8_of_read {text : JsString}
    (h : (((utf8CodePoints b.length b).mapM id).map fun ps => ps.flatMap codeUnits) = some text) :
    text.toUtf8 = b := by
  obtain ⟨points, hpoints, rfl⟩ := Option.map_eq_some_iff.mp h
  obtain ⟨hscalars, hb⟩ := utf8CodePoints_sound (Nat.le_refl _) (mapM_id_eq_some.mp hpoints)
  rw [toUtf8_flatMap_codeUnits hscalars, ← hb]

theorem Buffer.IsUtf8.decodeUtf8Fatal (h : b.IsUtf8) :
    ∃ text, b.decodeUtf8Fatal = some text := by
  obtain ⟨points, hscalars, hb⟩ := h
  have hpoints : utf8CodePoints b.length b = points.map some := by
    rw [hb]
    exact utf8CodePoints_encode hscalars (Nat.le_refl _)
  by_cases hmark : byteOrderMark <+: b
  · obtain ⟨body, rfl⟩ := hmark
    have hfuel : (byteOrderMark ++ body).length = body.length + 2 + 1 := by
      simp [byteOrderMark]
    rw [hfuel, utf8CodePoints_mark] at hpoints
    cases points with
    | nil => cases hpoints
    | cons p points =>
      rw [List.map_cons, List.cons.injEq] at hpoints
      obtain ⟨hscalars, hbody⟩ := utf8CodePoints_sound (by omega) hpoints.2
      have hread : utf8CodePoints body.length body = points.map some := by
        rw [hbody]
        exact utf8CodePoints_encode hscalars (Nat.le_refl _)
      exact ⟨_, by rw [decodeUtf8Fatal_mark, mapM_id_eq_some.mpr hread, Option.map_some]⟩
  · exact ⟨_, by rw [decodeUtf8Fatal_plain hmark, mapM_id_eq_some.mpr hpoints, Option.map_some]⟩

/-- A text the strict decoder reads encodes to the bytes it was read from, just if these do not
begin with a byte order mark. -/
theorem Buffer.decodeUtf8Fatal_toUtf8_iff {text : JsString}
    (h : b.decodeUtf8Fatal = some text) : text.toUtf8 = b ↔ ¬ byteOrderMark <+: b := by
  by_cases hmark : byteOrderMark <+: b
  · obtain ⟨body, rfl⟩ := hmark
    rw [decodeUtf8Fatal_mark] at h
    have hbody := toUtf8_of_read h
    refine ⟨fun htext => ?_, fun hplain => absurd (List.prefix_append _ _) hplain⟩
    have hlength := congrArg List.length (hbody.symm.trans htext)
    simp only [byteOrderMark, List.length_append, List.length_cons] at hlength
    omega
  · rw [decodeUtf8Fatal_plain hmark] at h
    exact ⟨fun _ => hmark, fun _ => toUtf8_of_read h⟩

end Isomux
