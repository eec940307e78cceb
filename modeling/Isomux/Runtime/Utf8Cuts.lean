import Isomux.Runtime.Utf8

set_option autoImplicit false

/-!
# UTF-8 that was cut

The bytes of a text may be cut anywhere, also inside of a character. Where ASCII follows, or nothing,
the part of the character that is left is read as one U+FFFD, and all that is around it is read as
it was written.

## Main results

* `Isomux.toUtf8String_toUtf8_append` — a text is read in front of any bytes.
* `Isomux.exists_of_prefix_toUtf8` — what the first bytes of a text are.
-/

namespace Isomux

/-! ## Texts in front of bytes -/

lemma utf8CodePoints_of_length_le {fuel : ℕ} {b : Buffer} (h : b.length ≤ fuel) :
    utf8CodePoints fuel b = utf8CodePoints b.length b := by
  induction fuel using Nat.strongRecOn generalizing b with
  | ind fuel ih =>
    cases b with
    | nil => cases fuel <;> rfl
    | cons first rest =>
      rw [List.length_cons] at h
      obtain ⟨fuel, rfl⟩ : ∃ k, fuel = k + 1 := ⟨fuel - 1, by omega⟩
      have hdrop : (rest.drop (utf8Step first rest).2).length ≤ rest.length := by
        rw [List.length_drop]
        omega
      rw [utf8CodePoints, List.length_cons, utf8CodePoints, ih fuel (by omega) (by omega)]
      by_cases hlt : rest.length < fuel + 1
      · rw [ih rest.length (by omega) hdrop]
      · omega

lemma utf8CodePoints_cons_encode {p : ℕ} (hp : IsScalar p) (rest : Buffer) :
    utf8CodePoints ((utf8Bytes p).map UInt8.ofNat ++ rest).length
      ((utf8Bytes p).map UInt8.ofNat ++ rest) = some p :: utf8CodePoints rest.length rest := by
  obtain ⟨first, tail, hbytes, hstep⟩ := utf8Step_encode hp
  rw [hbytes, List.cons_append, List.length_cons, utf8CodePoints, hstep, List.drop_left,
    utf8CodePoints_of_length_le (by rw [List.length_append]; omega)]

/-- A string without a lone surrogate: the code units of characters. -/
def JsString.IsWellFormed (s : JsString) : Prop :=
  ∃ points : List ℕ, (∀ p ∈ points, IsScalar p) ∧ s = points.flatMap codeUnits

lemma JsString.isWellFormed_nil : JsString.IsWellFormed [] := ⟨[], nofun, rfl⟩

lemma JsString.IsWellFormed.append {s t : JsString} (hs : s.IsWellFormed) (ht : t.IsWellFormed) :
    JsString.IsWellFormed (s ++ t) := by
  obtain ⟨points, hpoints, rfl⟩ := hs
  obtain ⟨points', hpoints', rfl⟩ := ht
  refine ⟨points ++ points', fun p hp => ?_, List.flatMap_append.symm⟩
  exact (List.mem_append.1 hp).elim (hpoints p) (hpoints' p)

lemma JsString.IsWellFormed.toUtf8_append {s t : JsString} (hs : s.IsWellFormed)
    (ht : t.IsWellFormed) : JsString.toUtf8 (s ++ t) = s.toUtf8 ++ t.toUtf8 := by
  obtain ⟨points, hpoints, rfl⟩ := hs
  obtain ⟨points', hpoints', rfl⟩ := ht
  have hboth : ∀ p ∈ points ++ points', IsScalar p := fun p hp =>
    (List.mem_append.1 hp).elim (hpoints p) (hpoints' p)
  rw [← List.flatMap_append, toUtf8_flatMap_codeUnits hboth, toUtf8_flatMap_codeUnits hpoints,
    toUtf8_flatMap_codeUnits hpoints', utf8Encode, List.flatMap_append]
  rfl

/-- **A text is read in front of any bytes.** -/
theorem toUtf8String_toUtf8_append {s : JsString} (hs : s.IsWellFormed) (rest : Buffer) :
    Buffer.toUtf8String (s.toUtf8 ++ rest) = s ++ rest.toUtf8String := by
  obtain ⟨points, hpoints, rfl⟩ := hs
  rw [toUtf8_flatMap_codeUnits hpoints]
  induction points with
  | nil => rfl
  | cons p points ih =>
    have htail := ih fun q hq => hpoints q (List.mem_cons_of_mem p hq)
    unfold Buffer.toUtf8String at htail ⊢
    rw [utf8Encode, List.flatMap_cons, List.append_assoc,
      utf8CodePoints_cons_encode (hpoints p List.mem_cons_self), List.flatMap_cons,
      List.flatMap_cons, List.append_assoc]
    exact congrArg (codeUnits p ++ ·) htail

/-! ## Cuts -/

/-- Bytes that do not continue a character: there are none, or the first one is ASCII. -/
def Buffer.StartsPlain (b : Buffer) : Prop := ∀ first ∈ b.head?, first.toNat < 0x80

lemma Buffer.StartsPlain.not_continues {rest : Buffer} (h : rest.StartsPlain) {lo hi : UInt8}
    (hlo : 0x80 ≤ lo.toNat) : continues rest lo hi = false := by
  cases rest with
  | nil => rfl
  | cons first rest =>
    have hfirst := h first rfl
    rw [continues_cons]
    exact decide_eq_false (by omega)

lemma Buffer.StartsPlain.not_continues_low {rest : Buffer} (h : rest.StartsPlain) {hi : UInt8} :
    continues rest 0x80 hi = false :=
  h.not_continues (by decide)

/-- What is left of a character is one ill-formed sequence. -/
lemma utf8Step_cut {p : ℕ} (hp : IsScalar p) {first : UInt8} {part gone rest : Buffer}
    (hbytes : (utf8Bytes p).map UInt8.ofNat = first :: (part ++ gone)) (hgone : gone ≠ [])
    (hrest : rest.StartsPlain) : utf8Step first (part ++ rest) = (none, part.length) := by
  unfold IsScalar at hp
  unfold utf8Bytes at hbytes
  split_ifs at hbytes with h1 h2 h3
  · rw [List.map_cons, List.map_nil, List.cons.injEq] at hbytes
    exact absurd (List.append_eq_nil_iff.1 hbytes.2.symm).2 hgone
  · simp only [List.map_cons, List.map_nil, List.cons.injEq] at hbytes
    obtain ⟨rfl, htail⟩ := hbytes
    have hf := toNat_ofNat_byte (show 0xC0 + p / 64 < 256 by omega)
    rcases part with _ | ⟨b, part⟩
    · simp only [utf8Step, hf, List.nil_append, hrest.not_continues_low]
      rw [if_neg (by omega), if_pos (by omega)]
      rfl
    · simp [hgone] at htail
  · simp only [List.map_cons, List.map_nil, List.cons.injEq] at hbytes
    obtain ⟨rfl, htail⟩ := hbytes
    have hf := toNat_ofNat_byte (show 0xE0 + p / 4096 < 256 by omega)
    have hb := toNat_ofNat_byte (show 0x80 + p / 64 % 64 < 256 by omega)
    rcases part with _ | ⟨b, _ | ⟨c, part⟩⟩
    · have hfirst : continues rest (if 0xE0 + p / 4096 = 0xE0 then 0xA0 else 0x80)
          (if 0xE0 + p / 4096 = 0xED then 0x9F else 0xBF) = false := by
        refine hrest.not_continues ?_
        split_ifs <;> decide
      simp only [utf8Step, hf, List.nil_append, hfirst]
      rw [if_neg (by omega), if_neg (by omega), if_pos (by omega)]
      rfl
    · obtain ⟨rfl, -⟩ : UInt8.ofNat (0x80 + p / 64 % 64) = b ∧ _ := by simpa using htail
      have hfirst : continues (UInt8.ofNat (0x80 + p / 64 % 64) :: rest)
          (if 0xE0 + p / 4096 = 0xE0 then 0xA0 else 0x80)
          (if 0xE0 + p / 4096 = 0xED then 0x9F else 0xBF) = true := by
        rw [continues_cons, hb]
        refine decide_eq_true ⟨?_, ?_⟩ <;> split_ifs <;> simp only [UInt8.reduceToNat] <;> omega
      simp only [utf8Step, hf, List.singleton_append, hfirst, List.drop_succ_cons, List.drop_zero,
        hrest.not_continues_low]
      rw [if_neg (by omega), if_neg (by omega), if_pos (by omega)]
      rfl
    · simp [hgone] at htail
  · simp only [List.map_cons, List.map_nil, List.cons.injEq] at hbytes
    obtain ⟨rfl, htail⟩ := hbytes
    have hf := toNat_ofNat_byte (show 0xF0 + p / 262144 < 256 by omega)
    have hb := toNat_ofNat_byte (show 0x80 + p / 4096 % 64 < 256 by omega)
    have hc := toNat_ofNat_byte (show 0x80 + p / 64 % 64 < 256 by omega)
    have hfirst : ∀ tail, continues (UInt8.ofNat (0x80 + p / 4096 % 64) :: tail)
        (if 0xF0 + p / 262144 = 0xF0 then 0x90 else 0x80)
        (if 0xF0 + p / 262144 = 0xF4 then 0x8F else 0xBF) = true := by
      intro tail
      rw [continues_cons, hb]
      refine decide_eq_true ⟨?_, ?_⟩ <;> split_ifs <;> simp only [UInt8.reduceToNat] <;> omega
    rcases part with _ | ⟨b, _ | ⟨c, _ | ⟨d, part⟩⟩⟩
    · have hnone : continues rest (if 0xF0 + p / 262144 = 0xF0 then 0x90 else 0x80)
          (if 0xF0 + p / 262144 = 0xF4 then 0x8F else 0xBF) = false := by
        refine hrest.not_continues ?_
        split_ifs <;> decide
      simp only [utf8Step, hf, List.nil_append, hnone]
      rw [if_neg (by omega), if_neg (by omega), if_neg (by omega), if_pos (by omega)]
      rfl
    · obtain ⟨rfl, -⟩ : UInt8.ofNat (0x80 + p / 4096 % 64) = b ∧ _ := by simpa using htail
      simp only [utf8Step, hf, List.singleton_append, hfirst, List.drop_succ_cons, List.drop_zero,
        hrest.not_continues_low]
      rw [if_neg (by omega), if_neg (by omega), if_neg (by omega), if_pos (by omega)]
      rfl
    · obtain ⟨rfl, rfl, -⟩ : UInt8.ofNat (0x80 + p / 4096 % 64) = b ∧
          UInt8.ofNat (0x80 + p / 64 % 64) = c ∧ _ := by simpa using htail
      have hsecond : continues (UInt8.ofNat (0x80 + p / 64 % 64) :: rest) 0x80 0xBF = true := by
        rw [continues_cons, hc]
        refine decide_eq_true ⟨?_, ?_⟩ <;> simp only [UInt8.reduceToNat] <;> omega
      simp only [utf8Step, hf, List.cons_append, List.nil_append, hfirst, List.drop_succ_cons,
        List.drop_zero, hsecond, hrest.not_continues_low]
      rw [if_neg (by omega), if_neg (by omega), if_neg (by omega), if_pos (by omega)]
      rfl
    · simp [hgone] at htail

lemma codeUnits_head {p : ℕ} (hp : IsScalar p) (h : 0x80 ≤ p) :
    ∃ c more, codeUnits p = c :: more ∧ 0x80 ≤ c := by
  unfold IsScalar at hp
  unfold codeUnits
  split_ifs
  · refine ⟨_, _, rfl, ?_⟩
    rw [UInt16.le_iff_toNat_le, UInt16.toNat_ofNat']
    simp only [UInt16.reduceToNat]
    omega
  · refine ⟨_, _, rfl, ?_⟩
    rw [UInt16.le_iff_toNat_le, UInt16.toNat_ofNat']
    simp only [UInt16.reduceToNat]
    omega

/-- **What the first bytes of a text are**: those of a first part of it, or these and a part of a
character beyond ASCII, which is read as U+FFFD.

**Proof sketch.** Induction on the characters. The bytes end in front of the first character, in it
or behind it. -/
theorem exists_of_prefix_toUtf8 {s : JsString} (hs : s.IsWellFormed) {b : Buffer}
    (h : b <+: s.toUtf8) :
    ∃ front back : JsString, s = front ++ back ∧ front.IsWellFormed ∧
      (b = front.toUtf8 ∨
        ∃ (cut : Buffer) (c : CodeUnit) (more : JsString), back = c :: more ∧ 0x80 ≤ c ∧
          b = front.toUtf8 ++ cut ∧
          ∀ rest : Buffer, rest.StartsPlain →
            Buffer.toUtf8String (cut ++ rest) = 0xFFFD :: rest.toUtf8String) := by
  obtain ⟨points, hpoints, rfl⟩ := hs
  rw [toUtf8_flatMap_codeUnits hpoints] at h
  induction points generalizing b with
  | nil =>
    exact ⟨[], [], rfl, JsString.isWellFormed_nil, Or.inl (List.prefix_nil.1 h)⟩
  | cons p points ih =>
    have hp := hpoints p List.mem_cons_self
    have hone : JsString.IsWellFormed (codeUnits p) :=
      ⟨[p], fun q hq => List.mem_singleton.1 hq ▸ hp, by simp⟩
    have hbytes : JsString.toUtf8 (codeUnits p) = (utf8Bytes p).map UInt8.ofNat := by
      have hsingle : ∀ q ∈ [p], IsScalar q := fun q hq => List.mem_singleton.1 hq ▸ hp
      simpa [utf8Encode] using toUtf8_flatMap_codeUnits hsingle
    rw [utf8Encode, List.flatMap_cons] at h
    obtain ⟨rest, hrest⟩ := h
    rcases List.append_eq_append_iff.1 hrest with ⟨gone, hb, hgone⟩ | ⟨tail, hb, htail⟩
    · by_cases hnil : gone = []
      · -- all of the character is there
        subst hnil
        rw [List.append_nil] at hb
        exact ⟨codeUnits p, points.flatMap codeUnits, rfl, hone, Or.inl (by rw [hbytes, hb])⟩
      · cases b with
        | nil => exact ⟨[], _, rfl, JsString.isWellFormed_nil, Or.inl rfl⟩
        | cons first part =>
          have hlarge : 0x80 ≤ p := by
            by_contra hsmall
            rw [utf8Bytes, if_pos (by omega)] at hb
            simp [hnil] at hb
          obtain ⟨c, more, hc, hle⟩ := codeUnits_head hp hlarge
          have hback : (p :: points).flatMap codeUnits = c :: (more ++ points.flatMap codeUnits) := by
            rw [List.flatMap_cons, hc, List.cons_append]
          refine ⟨[], _, rfl, JsString.isWellFormed_nil, Or.inr ⟨first :: part, c, _, hback, hle, rfl,
            fun rest hplain => ?_⟩⟩
          unfold Buffer.toUtf8String
          rw [List.cons_append, List.length_cons, utf8CodePoints, utf8Step_cut hp hb hnil hplain,
            List.drop_left, utf8CodePoints_of_length_le (by rw [List.length_append]; omega)]
          rfl
    · obtain ⟨front, back, hsplit, hwell, hcut⟩ :=
        ih (b := tail) (fun q hq => hpoints q (List.mem_cons_of_mem p hq)) ⟨rest, htail.symm⟩
      have hboth : JsString.toUtf8 (codeUnits p ++ front) =
          (utf8Bytes p).map UInt8.ofNat ++ front.toUtf8 := by
        rw [hone.toUtf8_append hwell, hbytes]
      refine ⟨codeUnits p ++ front, back, ?_, hone.append hwell, ?_⟩
      · rw [List.flatMap_cons, hsplit, List.append_assoc]
      · rcases hcut with htext | ⟨cut, c, more, hback, hle, htext, hread⟩
        · exact Or.inl (by rw [hboth, hb, htext])
        · exact Or.inr ⟨cut, c, more, hback, hle, by rw [hboth, hb, htext, List.append_assoc], hread⟩

end Isomux
