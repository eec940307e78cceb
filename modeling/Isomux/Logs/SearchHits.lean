import Mathlib.Algebra.GroupWithZero.Nat
import Isomux.Logs.SearchExact

set_option autoImplicit false

/-!
# Where a hit points

A plain query is looked for in the lower case of a content, and the place that is found is used in the
content. A code point whose lower case is longer in front of it moves the place away from the match. So
does one in the match, and a capital sigma whose lower case is another one at the end of the match.

## Main results

* `Isomux.LogSearch.pointsToMatch_of_aligned` — a hit that is not moved points at its match.
* `Isomux.LogSearch.hit_moved` — one that is moved.
-/

namespace Isomux

namespace CaseTable

variable {table : CaseTable}

def width (table : CaseTable) (p : ℕ) : ℕ := if p = CAPITAL_SIGMA then 1 else (table.units p).length

lemma length_part {before points : List ℕ} {part : List (ℕ × JsString)}
    (h : ∀ piece ∈ part, piece ∈ table.pieces before points) :
    (part.flatMap Prod.snd).length = ((part.map Prod.fst).map table.width).sum := by
  rw [List.length_flatMap, List.map_map]
  refine congrArg List.sum (List.map_congr_left fun piece hpiece => ?_)
  rw [Function.comp_apply, width]
  rcases mem_pieces (h piece hpiece) with ⟨hne, hunits⟩ | ⟨heq, p, -, -, hunits⟩
  · rw [if_neg hne, hunits]
  · rw [if_pos heq, hunits]
    rfl

lemma drop_pieces (before points behind : List ℕ) :
    (table.pieces before (points ++ behind)).drop points.length =
      table.pieces (before ++ points) behind := by
  induction points generalizing before with
  | nil => rw [List.append_nil]; rfl
  | cons p points ih =>
    rw [List.cons_append, pieces, List.length_cons, List.drop_succ_cons, ih, List.append_assoc]
    rfl

end CaseTable

namespace LogSearch

open Rewriting

/-- The text of a snippet, without the dots. -/
def shortened (excerpt : JsString) : JsString :=
  let collapsed := (collapseSpaces excerpt).trim
  if MAX_SNIPPET < collapsed.length then trimEnd (collapsed.take MAX_SNIPPET) else collapsed

/-- **A hit points at its match**: what is there is the query but for the case, and the snippet is made of
it and of what is around it. -/
structure PointsToMatch (table : CaseTable) (content q : JsString) (index length : ℕ) : Prop where
  slice : table.toLowerCase ((content.drop index).take length) = table.toLowerCase q
  excerpt : ∃ far before after rest,
    content = far ++ (before ++ ((content.drop index).take length ++ (after ++ rest))) ∧
      before.length ≤ SNIPPET_RADIUS ∧ after.length ≤ SNIPPET_RADIUS ∧
      buildSnippet content index length = (if far = [] then [] else js "...") ++
        shortened (before ++ ((content.drop index).take length ++ after)) ++
          if rest = [] then [] else js "..."

/-- The first match in the lower case of a content is the lower case of a part of the content that has the
length of the query and begins at the same place. -/
structure Aligned (table : CaseTable) (content q front found back : JsString) : Prop where
  content_eq : content = front ++ (found ++ back)
  found_length : found.length = q.length
  lower_length : (table.toLowerCase found).length = (table.toLowerCase q).length
  /-- The code points in front do not become longer or shorter, and those that the part touches become
  what it becomes alone. Of one that it cuts, the rest stays as it is. -/
  kept : ∃ before touched behind left right, content.points = before ++ (touched ++ behind) ∧
    touched.flatMap codeUnits = left ++ (found ++ right) ∧ front = before.flatMap codeUnits ++ left ∧
    (before.map table.width).sum = (before.flatMap codeUnits).length ∧
    ((table.pieces before (touched ++ behind)).take touched.length).flatMap Prod.snd =
      left ++ (table.toLowerCase found ++ right)
  occurs : OccursAt (table.toLowerCase q) (table.toLowerCase content) front.length
  first : ∀ k < front.length, ¬OccursAt (table.toLowerCase q) (table.toLowerCase content) k

section

variable {language : SearchLanguage} {content q front found back : JsString} {index length : ℕ}

lemma Aligned.lower_eq (h : Aligned language.caseTable content q front found back) :
    language.caseTable.toLowerCase found = language.caseTable.toLowerCase q := by
  set table := language.caseTable
  obtain ⟨before, touched, behind, left, right, hpoints, -, hfront, hwidth, hkept⟩ := h.kept
  have hlower : table.toLowerCase content =
      ((table.pieces [] content.points).take before.length).flatMap Prod.snd ++
        (table.pieces before (touched ++ behind)).flatMap Prod.snd := by
    rw [CaseTable.toLowerCase, ← List.take_append_drop before.length (table.pieces [] content.points),
      List.flatMap_append, List.take_append_drop, hpoints, CaseTable.drop_pieces, List.nil_append]
  have hbefore : (((table.pieces [] content.points).take before.length).flatMap Prod.snd).length =
      (before.flatMap codeUnits).length := by
    rw [CaseTable.length_part fun _ hpiece => List.mem_of_mem_take hpiece, List.map_take,
      CaseTable.map_pieces, hpoints, List.take_left, hwidth]
  -- the lower case of the content, behind what is in front of the part
  have hbehind : (table.toLowerCase content).drop front.length = table.toLowerCase found ++
      (right ++ ((table.pieces before (touched ++ behind)).drop touched.length).flatMap Prod.snd) := by
    rw [hfront, List.length_append, ← List.drop_drop, hlower, List.drop_left' hbefore,
      ← List.take_append_drop touched.length (table.pieces before (touched ++ behind)),
      List.flatMap_append, hkept, List.take_append_drop, List.append_assoc, List.drop_left,
      List.append_assoc]
  have hq := h.occurs
  rw [OccursAt, hbehind] at hq
  exact (List.prefix_of_prefix_length_le (List.prefix_append _ _) hq h.lower_length.le).eq_of_length
    h.lower_length

/-- A snippet is made of what is around a part of the content. -/
lemma pointsToMatch_of_slice {table : CaseTable}
    (hslice : table.toLowerCase ((content.drop index).take length) = table.toLowerCase q)
    (hend : index + length ≤ content.length) : PointsToMatch table content q index length := by
  have hcontent : content = content.take (index - SNIPPET_RADIUS) ++
      ((content.take index).drop (index - SNIPPET_RADIUS) ++ ((content.drop index).take length ++
        ((content.drop (index + length)).take SNIPPET_RADIUS ++
          content.drop (index + length + SNIPPET_RADIUS)))) := by
    rw [← List.drop_drop (j := index + length), List.take_append_drop, ← List.drop_drop (j := index),
      List.take_append_drop, ← List.append_assoc]
    have htake : content.take (index - SNIPPET_RADIUS) =
        (content.take index).take (index - SNIPPET_RADIUS) := by
      rw [List.take_take, Nat.min_eq_left (Nat.sub_le _ _)]
    rw [htake, List.take_append_drop, List.take_append_drop]
  have hwindow : content.take (index + length + SNIPPET_RADIUS) =
      content.take (index - SNIPPET_RADIUS) ++ ((content.take index).drop (index - SNIPPET_RADIUS) ++
        ((content.drop index).take length ++ (content.drop (index + length)).take SNIPPET_RADIUS)) := by
    have happend := (List.take_append_drop (index + length + SNIPPET_RADIUS) content).trans hcontent
    simp only [← List.append_assoc] at happend
    simpa only [List.append_assoc] using List.append_cancel_right happend
  refine ⟨hslice, _, _, _, _, hcontent, ?_, List.length_take_le _ _, ?_⟩
  · rw [List.length_drop, List.length_take]
    omega
  · have hfar : content.take (index - SNIPPET_RADIUS) = [] ↔ ¬0 < index - SNIPPET_RADIUS := by
      rw [← List.length_eq_zero_iff, List.length_take]
      omega
    have hrest : content.drop (index + length + SNIPPET_RADIUS) = [] ↔
        ¬min content.length (index + length + SNIPPET_RADIUS) < content.length := by
      rw [List.drop_eq_nil_iff]
      omega
    have hfarLength : (content.take (index - SNIPPET_RADIUS)).length = index - SNIPPET_RADIUS := by
      rw [List.length_take]
      omega
    have hstop : content.take (min content.length (index + length + SNIPPET_RADIUS)) =
        content.take (index + length + SNIPPET_RADIUS) := by
      rw [← List.take_take, List.take_of_length_le (List.length_take_le' _ _)]
    rw [buildSnippet, hstop, hwindow, List.drop_left' hfarLength]
    simp only [hfar, hrest, ite_not]
    rfl

/-- **A hit that is not moved points at its match**: the first match in the lower case is that of a part
at the same place of the content. -/
theorem pointsToMatch_of_aligned (h : Aligned language.caseTable content q front found back)
    (hhit : findMatch language content q none = some (index, length)) :
    PointsToMatch language.caseTable content q index length := by
  obtain ⟨k, hk, heq⟩ := Option.map_eq_some_iff.1 hhit
  obtain ⟨rfl, rfl⟩ := Prod.mk.inj heq
  obtain ⟨-, hoccurs, hmin⟩ := indexOf_eq_some hk
  have hplace : k = front.length :=
    Nat.le_antisymm (hmin _ (Nat.zero_le _) h.occurs) (Nat.not_lt.1 fun hlt => h.first k hlt hoccurs)
  have hslice : (content.drop k).take q.length = found := by
    rw [hplace, h.content_eq, List.drop_left, List.take_left' h.found_length]
  refine pointsToMatch_of_slice (by rw [hslice, h.lower_eq]) ?_
  rw [hplace, h.content_eq, ← h.found_length, List.length_append, List.length_append]
  omega

end

/-! ## A capital letter with a dot -/

lemma dotted_ascii : ∀ p < 128,
    (if p = 0x130 then [0x69, 0x307] else [if 65 ≤ p ∧ p ≤ 90 then p + 32 else p]) =
      [if 65 ≤ p ∧ p ≤ 90 then p + 32 else p] := fun p hp => by rw [if_neg (by omega)]

lemma dotted_surrogate : ∀ p, 0xD800 ≤ p → p ≤ 0xDFFF →
    (if p = 0x130 then [0x69, 0x307] else [if 65 ≤ p ∧ p ≤ 90 then p + 32 else p]) = [p] :=
  fun p hp _ => by rw [if_neg (by omega), if_neg (by omega)]

/-- A table that knows ASCII and U+0130, whose lower case has two code points. -/
def dottedTable : CaseTable where
  lower p := if p = 0x130 then [0x69, 0x307] else [if 65 ≤ p ∧ p ≤ 90 then p + 32 else p]
  isFinalSigma _ _ := false
  lower_ascii := dotted_ascii
  lower_surrogate := dotted_surrogate

def dottedLanguage : SearchLanguage := ⟨dottedTable, fun _ => none, fun _ => none⟩

theorem pointsToMatch_of_aligned_letter : PointsToMatch dottedTable (js "xAb") (js "ab") 1 2 := by
  have haligned : Aligned dottedTable (js "xAb") (js "ab") (js "x") (js "Ab") [] := by
    refine ⟨rfl, by decide, by decide,
      ⟨[0x78], [0x41, 0x62], [], [], [], by decide, by decide, by decide, by decide, by decide⟩, ?_,
      fun k hk => ?_⟩
    · show _ <+: _
      decide
    · obtain rfl : k = 0 := Nat.lt_one_iff.1 hk
      show ¬_ <+: _
      decide
  have hhit : findMatch dottedLanguage (js "xAb") (js "ab") none = some (1, 2) := by decide
  exact @pointsToMatch_of_aligned dottedLanguage _ _ _ _ _ _ _ haligned hhit

/-- **A hit behind U+0130 is moved** by one unit, to the end of its match. -/
theorem hit_moved :
    ¬∀ (language : SearchLanguage) (content q : JsString) (index length : ℕ),
      findMatch language content q none = some (index, length) →
        PointsToMatch language.caseTable content q index length := by
  intro h
  have hslice := (h dottedLanguage [0x130, 97, 98] (js "ab") 2 2 (by decide)).slice
  exact absurd hslice (by decide)

end LogSearch

end Isomux
