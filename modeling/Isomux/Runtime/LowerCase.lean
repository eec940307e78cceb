import Isomux.Foundations.Blocks
import Isomux.Runtime.JsonLines

set_option autoImplicit false

/-!
# Lower case

`toLowerCase` goes by code points: each becomes none, one or several, by a table. Only the capital sigma
looks at what is around it. So where an ASCII text occurs in a lower-case text, it comes from points one
behind the other that no string literal escapes, and it occurs in the lower-case text of every JSON line
that has the string.

## Main results

* `Isomux.CaseTable.exists_points` — where an ASCII text in a lower-case text comes from.
* `Isomux.CaseTable.isInfix_literal` — it is still there when the text is escaped.
-/

namespace Isomux

/-! ## Code points -/

/-- The code points of a string; a lone surrogate is one of its own. -/
def JsString.points : JsString → List ℕ
  | [] => []
  | [c] => [c.toNat]
  | c :: d :: rest =>
    if isHighSurrogate c && isLowSurrogate d then surrogatePair c d :: JsString.points rest
    else c.toNat :: JsString.points (d :: rest)

lemma points_cons {c : CodeUnit} (hc : isHighSurrogate c = false) (s : JsString) :
    JsString.points (c :: s) = c.toNat :: JsString.points s := by
  cases s with
  | nil => rfl
  | cons d s => rw [JsString.points, hc, Bool.false_and, if_neg Bool.false_ne_true]

lemma points_units {s : JsString} (h : ∀ c ∈ s, isSurrogate c = false) (t : JsString) :
    JsString.points (s ++ t) = s.map UInt16.toNat ++ JsString.points t := by
  induction s with
  | nil => rfl
  | cons c s ih =>
    have hc := (Bool.or_eq_false_iff.1 (h c List.mem_cons_self)).1
    rw [List.cons_append, points_cons hc, ih fun d hd => h d (List.mem_cons_of_mem c hd)]
    rfl

lemma points_append_cons (s : JsString) {c : CodeUnit} (hc : isLowSurrogate c = false) (t : JsString) :
    JsString.points (s ++ c :: t) = s.points ++ JsString.points (c :: t) := by
  induction s using JsString.points.induct with
  | case1 => rfl
  | case2 d =>
    rw [List.singleton_append, JsString.points, JsString.points, hc, Bool.and_false,
      if_neg Bool.false_ne_true]
    rfl
  | case3 d e s hpair ih =>
    rw [List.cons_append, List.cons_append, JsString.points, if_pos hpair, ih, JsString.points,
      if_pos hpair, List.cons_append]
  | case4 d e s hpair ih =>
    rw [List.cons_append, List.cons_append, JsString.points, if_neg hpair, ← List.cons_append, ih,
      JsString.points, if_neg hpair, List.cons_append]

lemma points_quoted (front s back : JsString) :
    s.points <:+: JsString.points (front ++ 34 :: (s ++ 34 :: back)) := by
  rw [points_append_cons front (by decide), points_cons (by decide), points_append_cons s (by decide)]
  exact ⟨front.points ++ [34], JsString.points (34 :: back), by simp⟩

/-! ## String literals -/

/-- The code points that a code point is written with. -/
def escapePoint (p : ℕ) : List ℕ :=
  if p < 0x10000 then (escapeUnit (UInt16.ofNat p)).map UInt16.toNat else [p]

lemma points_jsonEscape (s : JsString) : (jsonEscape s).points = s.points.flatMap escapePoint := by
  have hunit : ∀ (c : CodeUnit) (t : JsString), JsString.points (escapeUnit c ++ t) =
      escapePoint c.toNat ++ t.points := fun c t => by
    have hc : c.toNat < 0x10000 := c.toNat_lt
    rw [points_units fun d hd => (escapeUnit_units c d hd).2, escapePoint, if_pos hc, UInt16.ofNat_toNat]
  induction s using jsonEscape.induct with
  | case1 => rfl
  | case2 c =>
    have h := hunit c []
    rw [List.append_nil] at h
    rw [jsonEscape, h, JsString.points, JsString.points, List.append_nil, List.flatMap_singleton]
  | case3 c d s hpair ih =>
    have hlarge : ¬surrogatePair c d < 0x10000 := by
      unfold surrogatePair
      omega
    rw [jsonEscape, if_pos hpair, JsString.points, if_pos hpair, JsString.points, if_pos hpair, ih,
      List.flatMap_cons, escapePoint, if_neg hlarge]
    rfl
  | case4 c d s hpair ih =>
    rw [jsonEscape, if_neg hpair, hunit, ih, JsString.points, if_neg hpair, List.flatMap_cons]

/-- A unit of ASCII that no literal escapes. -/
def IsPlainUnit (c : CodeUnit) : Prop := 32 ≤ c ∧ c < 128 ∧ c ≠ 34 ∧ c ≠ 92

instance (c : CodeUnit) : Decidable (IsPlainUnit c) := inferInstanceAs (Decidable (_ ∧ _))

/-! ## The table -/

def CAPITAL_SIGMA : ℕ := 0x3A3

/-- Lower case by Unicode: what each code point becomes, and where a sigma is the last letter of a word,
by what is in front of it and behind it. -/
structure CaseTable where
  lower : ℕ → List ℕ
  isFinalSigma : List ℕ → List ℕ → Bool
  lower_ascii : ∀ p < 128, lower p = [if 65 ≤ p ∧ p ≤ 90 then p + 32 else p]
  lower_surrogate : ∀ p, 0xD800 ≤ p → p ≤ 0xDFFF → lower p = [p]

namespace CaseTable

variable (table : CaseTable)

/-- The units that a code point becomes wherever it is. -/
def units (p : ℕ) : JsString := (table.lower p).flatMap codeUnits

/-- The code points of a text and the units that they become. -/
def pieces : List ℕ → List ℕ → List (ℕ × JsString)
  | _, [] => []
  | before, p :: behind =>
    (p, if p = CAPITAL_SIGMA then codeUnits (if table.isFinalSigma before behind then 0x3C2 else 0x3C3)
      else table.units p) :: pieces (before ++ [p]) behind

/-- `text.toLowerCase()`. -/
def toLowerCase (s : JsString) : JsString := (table.pieces [] s.points).flatMap Prod.snd

variable {table}

lemma map_pieces (table : CaseTable) (before points : List ℕ) :
    (table.pieces before points).map Prod.fst = points := by
  induction points generalizing before with
  | nil => rfl
  | cons p points ih => rw [pieces, List.map_cons, ih]

lemma mem_pieces {before points : List ℕ} {piece : ℕ × JsString}
    (h : piece ∈ table.pieces before points) :
    (piece.1 ≠ CAPITAL_SIGMA ∧ piece.2 = table.units piece.1) ∨
      (piece.1 = CAPITAL_SIGMA ∧ ∃ p, 128 ≤ p ∧ p < 0x10000 ∧ piece.2 = [UInt16.ofNat p]) := by
  induction points generalizing before with
  | nil => exact absurd h List.not_mem_nil
  | cons p points ih =>
    rcases List.mem_cons.1 h with rfl | h
    · by_cases hp : p = CAPITAL_SIGMA
      · refine .inr ⟨hp, ?_⟩
        dsimp only
        rw [if_pos hp]
        split_ifs
        · exact ⟨0x3C2, by decide, by decide, rfl⟩
        · exact ⟨0x3C3, by decide, by decide, rfl⟩
      · exact .inl ⟨hp, if_neg hp⟩
    · exact ih h

lemma flatMap_pieces {before points : List ℕ} {part : List (ℕ × JsString)}
    (h : ∀ piece ∈ part, piece ∈ table.pieces before points)
    (hsigma : ∀ piece ∈ part, piece.1 ≠ CAPITAL_SIGMA) :
    part.flatMap Prod.snd = (part.map Prod.fst).flatMap table.units := by
  rw [List.flatMap_map]
  refine List.flatMap_congr fun piece hpiece => ?_
  rcases mem_pieces (h piece hpiece) with ⟨-, heq⟩ | ⟨heq, -⟩
  · exact heq
  · exact absurd heq (hsigma piece hpiece)

/-- **Where code points occur in a text**, what they become occurs in its lower-case text. -/
theorem isInfix_toLowerCase {part : List ℕ} {s : JsString} (h : part <:+: s.points)
    (hsigma : CAPITAL_SIGMA ∉ part) : part.flatMap table.units <:+: table.toLowerCase s := by
  obtain ⟨front, back, hpoints⟩ := h
  have hmap := map_pieces table [] s.points
  rw [← hpoints] at hmap
  obtain ⟨rest, last, hpieces, hrest, -⟩ := List.map_eq_append_iff.1 hmap
  obtain ⟨first, middle, rfl, -, hmiddle⟩ := List.map_eq_append_iff.1 hrest
  rw [hpoints] at hpieces
  have hflat : middle.flatMap Prod.snd = part.flatMap table.units := by
    rw [← hmiddle]
    refine flatMap_pieces (fun piece hpiece => (?_ : piece ∈ table.pieces [] s.points))
      fun piece hpiece heq => ?_
    · rw [hpieces]
      exact List.mem_append_left _ (List.mem_append_right _ hpiece)
    · exact hsigma (hmiddle ▸ heq ▸ List.mem_map_of_mem hpiece)
  rw [toLowerCase, hpieces, List.flatMap_append, List.flatMap_append, hflat]
  exact ⟨first.flatMap Prod.snd, last.flatMap Prod.snd, rfl⟩

/-- **Where an ASCII text in a lower-case text comes from**: from code points one behind the other, none
of them a sigma or one whose lower case has nothing of the text. -/
theorem exists_points {pattern s : JsString} (hne : pattern ≠ []) (hascii : ∀ c ∈ pattern, c < 128)
    (h : pattern <:+: table.toLowerCase s) :
    ∃ part, part <:+: s.points ∧ CAPITAL_SIGMA ∉ part ∧
      (∀ p ∈ part, table.units p ≠ [] → ∃ c ∈ table.units p, c ∈ pattern) ∧
      pattern <:+: part.flatMap table.units := by
  obtain ⟨before, middle, after, hpieces, hnear, hin⟩ := Blocks.exists_infix hne h
  have hmem : ∀ piece ∈ middle, piece ∈ table.pieces [] s.points := fun piece hpiece => by
    rw [hpieces]
    exact List.mem_append_left _ (List.mem_append_right _ hpiece)
  have hsigma : ∀ piece ∈ middle, piece.1 ≠ CAPITAL_SIGMA := fun piece hpiece heq => by
    rcases mem_pieces (hmem piece hpiece) with ⟨hne, -⟩ | ⟨-, p, hp, hlt, hunits⟩
    · exact hne heq
    · refine hnear piece hpiece ⟨by rw [hunits]; exact List.cons_ne_nil _ _, fun c hc hpattern => ?_⟩
      rw [hunits, List.mem_singleton] at hc
      have hsmall := UInt16.lt_iff_toNat_lt.1 (hascii c hpattern)
      rw [hc, UInt16.toNat_ofNat'] at hsmall
      have : (128 : UInt16).toNat = 128 := rfl
      omega
  refine ⟨middle.map Prod.fst, ?_, fun hin => ?_, fun p hp hunits => ?_, ?_⟩
  · have hmap := map_pieces table [] s.points
    rw [hpieces, List.map_append, List.map_append] at hmap
    exact ⟨before.map Prod.fst, after.map Prod.fst, hmap⟩
  · obtain ⟨piece, hpiece, heq⟩ := List.mem_map.1 hin
    exact hsigma piece hpiece heq
  · obtain ⟨piece, hpiece, rfl⟩ := List.mem_map.1 hp
    by_contra hnone
    refine hnear piece hpiece ?_
    rcases mem_pieces (hmem piece hpiece) with ⟨-, heq⟩ | ⟨heq, -⟩
    · rw [← heq] at hunits hnone
      exact ⟨hunits, fun c hc hpattern => hnone ⟨c, hc, hpattern⟩⟩
    · exact absurd heq (hsigma piece hpiece)
  · rwa [← flatMap_pieces hmem hsigma]

/-! ## Texts that no literal escapes -/

lemma units_ascii {p : ℕ} (hp : p < 128) :
    table.units p = [UInt16.ofNat (if 65 ≤ p ∧ p ≤ 90 then p + 32 else p)] := by
  have hlt : (if 65 ≤ p ∧ p ≤ 90 then p + 32 else p) < 0x10000 := by split_ifs <;> omega
  rw [units, table.lower_ascii p hp, List.flatMap_singleton, codeUnits, if_pos hlt]

/-- A code point is written as it is, unless its lower case is a unit that is not plain. -/
lemma escapePoint_or (table : CaseTable) (p : ℕ) :
    escapePoint p = [p] ∨ ∃ c, table.units p = [c] ∧ ¬IsPlainUnit c := by
  by_cases hp : p < 0x10000
  · have hnat : (UInt16.ofNat p).toNat = p := UInt16.toNat_ofNat_of_lt' hp
    cases hletter : escapeLetter (UInt16.ofNat p) with
    | some letter =>
      right
      have hall : shortEscapes.all (fun e => e.1.toNat < 128 ∧ ¬(65 ≤ e.1.toNat ∧ e.1.toNat ≤ 90) ∧
          ¬IsPlainUnit e.1) = true := by decide
      have hshort := of_decide_eq_true (List.all_eq_true.1 hall _ (mem_shortEscapes hletter))
      dsimp only at hshort
      rw [hnat] at hshort
      exact ⟨UInt16.ofNat p, by rw [units_ascii hshort.1, if_neg hshort.2.1], hshort.2.2⟩
    | none =>
      by_cases hcontrol : p < 32
      · refine .inr ⟨UInt16.ofNat p, ?_, fun hplain => ?_⟩
        · rw [units_ascii (by omega), if_neg (by omega)]
        · have hle := UInt16.le_iff_toNat_le.1 hplain.1
          rw [hnat] at hle
          exact absurd hle (Nat.not_le.2 hcontrol)
      by_cases hsurrogate : isSurrogate (UInt16.ofNat p) = true
      · right
        simp only [isSurrogate, isHighSurrogate, isLowSurrogate, Bool.or_eq_true, Bool.and_eq_true,
          decide_eq_true_eq, UInt16.le_iff_toNat_le, hnat, UInt16.reduceToNat] at hsurrogate
        refine ⟨UInt16.ofNat p, ?_, fun hplain => ?_⟩
        · rw [units, table.lower_surrogate p (by omega) (by omega), List.flatMap_singleton, codeUnits,
            if_pos hp]
        · have hlt := UInt16.lt_iff_toNat_lt.1 hplain.2.1
          rw [hnat, show (128 : UInt16).toNat = 128 from rfl] at hlt
          omega
      · left
        have hraw : ¬(UInt16.ofNat p < 32 || isSurrogate (UInt16.ofNat p)) = true := by
          rw [Bool.or_eq_true, decide_eq_true_eq, UInt16.lt_iff_toNat_lt, hnat]
          exact not_or.2 ⟨hcontrol, hsurrogate⟩
        rw [escapePoint, if_pos hp, escapeUnit, hletter]
        dsimp only
        rw [if_neg hraw, List.map_singleton, hnat]
  · exact .inl (if_neg hp)

/-- **A plain text in the lower case of a string** is in the lower case of every text that has the string
as a literal, whatever the literal escapes. -/
theorem isInfix_literal {pattern s : JsString} (hplain : ∀ c ∈ pattern, IsPlainUnit c)
    (h : pattern <:+: table.toLowerCase s) (front back : JsString) :
    pattern <:+: table.toLowerCase (front ++ 34 :: (jsonEscape s ++ 34 :: back)) := by
  by_cases hne : pattern = []
  · exact hne ▸ List.nil_infix
  · obtain ⟨part, hpart, hsigma, htouch, hin⟩ :=
      exists_points hne (fun c hc => (hplain c hc).2.1) h
    have hraw : ∀ p ∈ part, escapePoint p = [p] := fun p hp => by
      refine (escapePoint_or table p).resolve_right ?_
      rintro ⟨c, hunits, hspecial⟩
      obtain ⟨d, hd, hmem⟩ := htouch p hp (by rw [hunits]; exact List.cons_ne_nil _ _)
      rw [hunits, List.mem_singleton] at hd
      exact hspecial (hd ▸ hplain d hmem)
    have hescaped : part <:+: (jsonEscape s).points := by
      obtain ⟨first, last, hpoints⟩ := hpart
      rw [points_jsonEscape, ← hpoints, List.flatMap_append, List.flatMap_append]
      refine ⟨first.flatMap escapePoint, last.flatMap escapePoint, ?_⟩
      rw [List.flatMap_congr hraw, List.flatMap_singleton']
    exact hin.trans (isInfix_toLowerCase (hescaped.trans (points_quoted front _ back)) hsigma)

lemma toLowerCase_ascii {s : JsString} (h : ∀ c ∈ s, c < 128) : table.toLowerCase s =
    s.map fun c => UInt16.ofNat (if 65 ≤ c.toNat ∧ c.toNat ≤ 90 then c.toNat + 32 else c.toNat) := by
  have hnat : ∀ c ∈ s, c.toNat < 128 := fun c hc => UInt16.lt_iff_toNat_lt.1 (h c hc)
  have hpoints : s.points = s.map UInt16.toNat := by
    have happend := points_units (s := s) (fun c hc => ?_) []
    · rwa [List.append_nil, JsString.points, List.append_nil] at happend
    · have hlt := hnat c hc
      simp only [isSurrogate, isHighSurrogate, isLowSurrogate, Bool.or_eq_false_iff, Bool.and_eq_false_iff,
        decide_eq_false_iff_not, UInt16.le_iff_toNat_le, UInt16.reduceToNat]
      omega
  have hsigma : ∀ piece ∈ table.pieces [] s.points, piece.1 ≠ CAPITAL_SIGMA := fun piece hpiece heq => by
    have hmem := List.mem_map_of_mem (f := Prod.fst) hpiece
    rw [map_pieces, hpoints] at hmem
    obtain ⟨c, hc, hcp⟩ := List.mem_map.1 hmem
    have hlt := hnat c hc
    rw [hcp, heq] at hlt
    exact absurd hlt (by decide)
  rw [toLowerCase, flatMap_pieces (fun _ h => h) hsigma, map_pieces, hpoints, List.flatMap_map]
  rw [List.flatMap_congr fun c hc => units_ascii (hnat c hc), List.map_eq_flatMap]

end CaseTable

end Isomux
