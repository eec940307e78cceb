import Isomux.Foundations.RewritingCuts
import Isomux.SecretProxy.Scrub

set_option autoImplicit false

/-!
# The redacting text stream (`src/server/log-redaction.ts`)

What an agent writes reaches its log in chunks. The first stage of the redacting stream removes the
stored secret values: it holds back the end of the text that may begin a pattern, and everything
from the start of a match that this cut would divide, and scrubs the rest. The second stage masks
what looks like a secret; it sees only what the first one gives out, and is no part of this module.

## Main results

* `Isomux.occurrence_inside` — a match that begins before what is held back ends in the text.
* `Isomux.respects_cutOutside` — no later chunk changes what the scrub does before the cut.
* `Isomux.redactValuesStream_eq` — the stream is scrubbed as the whole text is.
-/

namespace Isomux

open Rewriting

/-! ## The stage -/

/-- The inner loop of `patternStartAtEnd`: `k` counts down to `longest`, until that many letters of
the pattern end the text. -/
def patternStartFrom (text pattern : JsString) (longest : ℕ) : ℕ → ℕ
  | 0 => longest
  | k + 1 =>
    if k + 1 ≤ longest then longest
    else if (pattern.take (k + 1)).isSuffixOf text then k + 1
    else patternStartFrom text pattern longest k

/-- The length of the longest end of `text` that is a proper start of a pattern. -/
def patternStartAtEnd (text : JsString) (patterns : List JsString) : ℕ :=
  patterns.foldl (fun longest pattern =>
    patternStartFrom text pattern longest (min (pattern.length - 1) text.length)) 0

/-- Moves `cut` back to the start of any span that crosses it; the loop goes from the last span to
the first. -/
def cutOutside (cut : ℕ) (spans : List (ℕ × ℕ)) : ℕ :=
  spans.foldr (fun span cut => if span.1 < cut ∧ cut < span.2 then span.1 else cut) cut

/-- `values(chunk, final)` with the text held back so far: what is given out, and what is held back
from now on. -/
def redactValues (patterns : List JsString) (valueHeld chunk : JsString) (final : Bool) :
    JsString × JsString :=
  let text := valueHeld ++ chunk
  let cut := if final then text.length
    else cutOutside (text.length - patternStartAtEnd text patterns) (scrubSpans text patterns)
  (scrubText (text.take cut) patterns, text.drop cut)

/-- What the stage gives out for `chunks`, then `end()`. -/
def redactValuesStream (patterns : List JsString) (valueHeld : JsString) : List JsString → JsString
  | [] => (redactValues patterns valueHeld [] true).1
  | chunk :: chunks =>
    let (out, valueHeld) := redactValues patterns valueHeld chunk false
    out ++ redactValuesStream patterns valueHeld chunks

/-! ## What is held back -/

lemma patternStartFrom_spec (text pattern : JsString) (longest k : ℕ) :
    longest ≤ patternStartFrom text pattern longest k ∧
      patternStartFrom text pattern longest k ≤ max longest k ∧
      ∀ j ≤ k, pattern.take j <:+ text → j ≤ patternStartFrom text pattern longest k := by
  induction k with
  | zero => exact ⟨le_rfl, le_max_left _ _, fun j hj _ => hj.trans (Nat.zero_le _)⟩
  | succ k ih =>
    obtain ⟨hge, hle, hall⟩ := ih
    unfold patternStartFrom
    split_ifs with hdone hsuffix
    · exact ⟨le_rfl, le_max_left _ _, fun j hj _ => hj.trans hdone⟩
    · exact ⟨by omega, le_max_right _ _, fun j hj _ => hj⟩
    · refine ⟨hge, by omega, fun j hj hend => ?_⟩
      rcases Nat.lt_or_ge k j with hlt | hle'
      · obtain rfl : j = k + 1 := by omega
        exact absurd (List.isSuffixOf_iff_suffix.2 hend) hsuffix
      · exact hall j hle' hend

/-- **The longest start of a pattern at the end of a text.** -/
lemma patternStartAtEnd_spec (text : JsString) (patterns : List JsString) :
    patternStartAtEnd text patterns ≤ text.length ∧
      ∀ p ∈ patterns, ∀ k < p.length, k ≤ text.length → p.take k <:+ text →
        k ≤ patternStartAtEnd text patterns := by
  suffices h : ∀ (todo : List JsString) (longest : ℕ), longest ≤ text.length →
      longest ≤ todo.foldl (fun longest pattern => patternStartFrom text pattern longest
          (min (pattern.length - 1) text.length)) longest ∧
        todo.foldl (fun longest pattern => patternStartFrom text pattern longest
          (min (pattern.length - 1) text.length)) longest ≤ text.length ∧
        ∀ p ∈ todo, ∀ k < p.length, k ≤ text.length → p.take k <:+ text →
          k ≤ todo.foldl (fun longest pattern => patternStartFrom text pattern longest
            (min (pattern.length - 1) text.length)) longest by
    exact (h patterns 0 (Nat.zero_le _)).2
  intro todo
  induction todo with
  | nil => exact fun longest h => ⟨le_rfl, h, fun p hp => absurd hp List.not_mem_nil⟩
  | cons pattern todo ih =>
    intro longest hlongest
    obtain ⟨hge, hle, hall⟩ :=
      patternStartFrom_spec text pattern longest (min (pattern.length - 1) text.length)
    obtain ⟨hge', hle', hall'⟩ := ih _ (hle.trans (max_le hlongest (min_le_right _ _)))
    refine ⟨hge.trans hge', hle', fun p hp k hk hlen hend => ?_⟩
    rcases List.mem_cons.1 hp with rfl | hp
    · exact (hall k (le_min (by omega) hlen) hend).trans hge'
    · exact hall' p hp k hk hlen hend

variable {patterns : List JsString}

/-- **A match that begins before what is held back ends in the text**, whatever follows: otherwise
its beginning would be a start of a pattern at the end of the text, longer than the longest. -/
lemma occurrence_inside {text : JsString} {p : JsString}
    (hp : p ∈ patterns) {i : ℕ} (hi : i < text.length - patternStartAtEnd text patterns)
    {later : JsString} (hoc : OccursAt p (text ++ later) i) : OccursAt p text i := by
  refine hoc.of_append ?_
  by_contra hlong
  unfold OccursAt at hoc
  rw [List.drop_append_of_le_length (by omega)] at hoc
  have hlen : (text.drop i).length = text.length - i := List.length_drop
  have hstart : text.drop i <+: p :=
    List.prefix_of_prefix_length_le (List.prefix_append _ _) hoc (by omega)
  have htake : p.take (text.length - i) = text.drop i := by
    rw [← hlen]
    exact (List.prefix_iff_eq_take.1 hstart).symm
  have hle := (patternStartAtEnd_spec text patterns).2 p hp (text.length - i) (by omega) (by omega)
    (htake ▸ List.drop_suffix i text)
  omega

/-! ## The spans of a text -/

lemma scrubSpansFrom_sorted (text : JsString)
    (hne : ∀ p ∈ patterns, p ≠ []) (rounds i : ℕ) :
    (∀ span ∈ scrubSpansFrom text patterns rounds i, i ≤ span.1 ∧ span.1 ≤ span.2) ∧
      (scrubSpansFrom text patterns rounds i).Pairwise fun a b => a.2 ≤ b.1 := by
  induction rounds generalizing i with
  | zero => exact ⟨fun span hspan => absurd hspan List.not_mem_nil, .nil⟩
  | succ rounds ih =>
    unfold scrubSpansFrom
    cases hbest : bestMatch text patterns i with
    | none => exact ⟨fun span hspan => absurd hspan List.not_mem_nil, .nil⟩
    | some match_ =>
      obtain ⟨b, p⟩ := match_
      obtain ⟨hle, -⟩ := bestMatch_eq_some hne hbest
      obtain ⟨hbehind, hsorted⟩ := ih (b + p.length)
      refine ⟨?_, List.pairwise_cons.2 ⟨fun span hspan => (hbehind span hspan).1, hsorted⟩⟩
      rintro span hspan
      rcases List.mem_cons.1 hspan with rfl | hspan
      · exact ⟨hle, Nat.le_add_right _ _⟩
      · obtain ⟨hfrom, hto⟩ := hbehind span hspan
        exact ⟨by omega, hto⟩

lemma cutOutside_spec {spans : List (ℕ × ℕ)} (hspans : ∀ span ∈ spans, span.1 ≤ span.2)
    (hsorted : spans.Pairwise fun a b => a.2 ≤ b.1) (cut : ℕ) :
    cutOutside cut spans ≤ cut ∧
      ∀ span ∈ spans, ¬(span.1 < cutOutside cut spans ∧ cutOutside cut spans < span.2) := by
  induction spans with
  | nil => exact ⟨le_rfl, fun span hspan => absurd hspan List.not_mem_nil⟩
  | cons first spans ih =>
    obtain ⟨hfirst, hrest⟩ := List.pairwise_cons.1 hsorted
    obtain ⟨hle, houtside⟩ := ih (fun span h => hspans span (List.mem_cons_of_mem _ h)) hrest
    have hcut : cutOutside cut (first :: spans) =
        if first.1 < cutOutside cut spans ∧ cutOutside cut spans < first.2 then first.1
        else cutOutside cut spans := rfl
    have hlen := hspans first List.mem_cons_self
    rw [hcut]
    split_ifs with hcross
    · refine ⟨by omega, fun span hspan => ?_⟩
      rcases List.mem_cons.1 hspan with rfl | hspan
      · omega
      · have hbehind := hfirst span hspan
        omega
    · refine ⟨hle, fun span hspan => ?_⟩
      rcases List.mem_cons.1 hspan with rfl | hspan
      · exact hcross
      · exact houtside span hspan

/-! ## The cut -/

/-- **No later chunk changes what the scrub does before the cut.**

**Proof sketch.** Induction on the rounds of the scrub of the text. A match that begins before the
cut lies in the text, so up to the cut the text and what follows it are scrubbed as the text alone
is; and no span of the text crosses the cut. -/
lemma respects_of_outside {text : JsString}
    (hne : ∀ p ∈ patterns, p ≠ []) (later : JsString) {cut : ℕ}
    (hcut : cut ≤ text.length - patternStartAtEnd text patterns) (rounds : ℕ) {i : ℕ} (hi : i ≤ cut)
    (hrounds : text.length + 1 ≤ rounds + i)
    (houtside : ∀ span ∈ scrubSpansFrom text patterns rounds i, ¬(span.1 < cut ∧ cut < span.2)) :
    Respects patterns ((text ++ later).drop i) (cut - i) := by
  have hback : ∀ p ∈ patterns, ∀ k, i + k < cut → OccursAt p ((text ++ later).drop i) k →
      OccursAt p (text.drop i) k := by
    intro p hp k hk hoc
    exact occursAt_drop.2 (occurrence_inside hp (hk.trans_le hcut) (occursAt_drop.1 hoc))
  induction rounds generalizing i with
  | zero => omega
  | succ rounds ih =>
    unfold scrubSpansFrom at houtside
    cases hbest : bestMatch text patterns i with
    | none =>
      refine .before fun p hp k hk hoc => ?_
      exact bestMatch_eq_none hne hbest p hp k (hback p hp k (by omega) hoc)
    | some match_ =>
      obtain ⟨b, p⟩ := match_
      obtain ⟨hle, hll⟩ := bestMatch_eq_some hne hbest
      rw [hbest] at houtside
      have hnot := houtside (b, b + p.length) List.mem_cons_self
      rcases Nat.lt_or_ge b cut with hlt | hge
      · have hend : b + p.length ≤ cut := not_lt.1 fun h => hnot ⟨hlt, h⟩
        have hpos := List.length_pos_iff.2 (hne p hll.mem)
        have hdrop : (text ++ later).drop i = text.drop i ++ later :=
          List.drop_append_of_le_length (by omega)
        have hnext : ((text ++ later).drop i).drop (b - i + p.length) =
            (text ++ later).drop (b + p.length) := by
          rw [List.drop_drop]
          congr 1
          omega
        refine .hit (k := b - i) (p := p) ⟨hll.mem, ?_, fun q hq j hoc => ?_, fun q hq hoc => ?_⟩
          (by omega) ?_
        · rw [hdrop]
          exact hll.occurs.append later
        · by_contra hj
          exact hj (hll.leftmost q hq j (hback q hq j (by omega) hoc))
        · exact hll.longest q hq (hback q hq (b - i) (by omega) hoc)
        · rw [hnext, show cut - i - (b - i + p.length) = cut - (b + p.length) by omega]
          refine ih (i := b + p.length) hend (by omega)
            (fun span hspan => houtside span (List.mem_cons_of_mem _ hspan)) ?_
          intro q hq k hk hoc
          exact occursAt_drop.2 (occurrence_inside hq (hk.trans_le hcut) (occursAt_drop.1 hoc))
      · refine .before fun q hq k hk hoc => ?_
        have hleft := hll.leftmost q hq k (hback q hq k (by omega) hoc)
        omega

lemma respects_cutOutside (text : JsString)
    (hne : ∀ p ∈ patterns, p ≠ []) (later : JsString) :
    cutOutside (text.length - patternStartAtEnd text patterns) (scrubSpans text patterns) ≤
        text.length ∧
      Respects patterns (text ++ later)
        (cutOutside (text.length - patternStartAtEnd text patterns) (scrubSpans text patterns)) := by
  obtain ⟨hspans, hsorted⟩ := scrubSpansFrom_sorted text hne (text.length + 1) 0
  obtain ⟨hle, houtside⟩ := cutOutside_spec (fun span h => (hspans span h).2) hsorted
    (text.length - patternStartAtEnd text patterns)
  refine ⟨hle.trans (Nat.sub_le _ _), ?_⟩
  have h := respects_of_outside hne later hle (text.length + 1) (Nat.zero_le _) (by omega) houtside
  rw [List.drop_zero, Nat.sub_zero] at h
  exact h

/-! ## The stream -/

/-- What the stage gives out for the chunks is the scrub of what it holds back and the chunks.

**Proof sketch.** Induction on the chunks. What is given out for one is the scrub of the text up to
a cut that the scrub of the whole text respects; what is held back and the later chunks are the text
behind the cut. -/
lemma redactValuesStream_eq_scrubText (hne : ∀ p ∈ patterns, p ≠ [])
    (chunks : List JsString) (valueHeld : JsString) :
    redactValuesStream patterns valueHeld chunks =
      scrubText (valueHeld ++ chunks.flatten) patterns := by
  induction chunks generalizing valueHeld with
  | nil => simp [redactValuesStream, redactValues]
  | cons chunk chunks ih =>
    set text := valueHeld ++ chunk with htext
    set cut := cutOutside (text.length - patternStartAtEnd text patterns)
      (scrubSpans text patterns) with hcutDef
    obtain ⟨hcut, hrespects⟩ := respects_cutOutside text hne chunks.flatten
    obtain ⟨e₁, r₁, hfront, -⟩ := rewrites_replaceAll hne (text.take cut)
    obtain ⟨e₂, r₂, hback, -⟩ := rewrites_replaceAll hne (text.drop cut ++ chunks.flatten)
    have htake : (text ++ chunks.flatten).take cut = text.take cut :=
      List.take_append_of_le_length hcut
    have hdrop : (text ++ chunks.flatten).drop cut = text.drop cut ++ chunks.flatten :=
      List.drop_append_of_le_length hcut
    have hle : cut ≤ (text ++ chunks.flatten).length :=
      hcut.trans (List.prefix_append text _).length_le
    obtain ⟨e, r, hrw, heq⟩ := hrespects.append hne hle (htake.symm ▸ hfront) (hdrop.symm ▸ hback)
    have hwhole : valueHeld ++ (chunk :: chunks).flatten = text ++ chunks.flatten := by
      rw [htext, List.flatten_cons, List.append_assoc]
    calc redactValuesStream patterns valueHeld (chunk :: chunks)
        = scrubText (text.take cut) patterns ++
            redactValuesStream patterns (text.drop cut) chunks := rfl
      _ = (e₁ ++ r₁) ++ (e₂ ++ r₂) := by
        rw [ih, scrubText_of_rewrites hne hfront, scrubText_of_rewrites hne hback]
      _ = scrubText (valueHeld ++ (chunk :: chunks).flatten) patterns := by
        rw [hwhole, scrubText_of_rewrites hne hrw, heq]

/-- **Chunking does not change what is redacted.** For every list of stored values and every split
of a text into chunks, what the stage gives out for the chunks and the end is the scrub of the whole
text with the patterns of the values. -/
theorem redactValuesStream_eq (secretValues chunks : List JsString) :
    (scrubPatterns secretValues).map (fun patterns => redactValuesStream patterns [] chunks) =
      (scrubPatterns secretValues).map fun patterns => scrubText chunks.flatten patterns := by
  cases hpatterns : scrubPatterns secretValues with
  | none => rfl
  | some patterns =>
    have hne : ∀ p ∈ patterns, p ≠ [] := by
      rintro p hp rfl
      exact absurd (scrubPatterns_length hpatterns [] hp) (by decide)
    exact congrArg some (redactValuesStream_eq_scrubText hne chunks [])

end Isomux
