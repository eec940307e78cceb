import Isomux.Foundations.LeftmostLongest
import Isomux.Runtime.Text
import Mathlib.Data.List.Sort

set_option autoImplicit false

/-!
# The response scrub (`src/server/secret-proxy/scrub.ts`)

The scrub removes secret values, in raw, URL-encoded and base64 form, from the headers and bodies
of responses. The module models the pattern list and the whole-text scrub and shows that the
whole-text scrub is the leftmost-longest pass of `Rewriting.Rewrites`.

## Main results

* `Isomux.scrubPatterns_length` — no pattern is shorter than `MIN_SCRUB_LENGTH`.
* `Isomux.rewrites_replaceAll` — `replaceAll` is the leftmost-longest pass.
-/

namespace Isomux

open Rewriting

/-- The mark that stands for a removed value. -/
def SCRUB_MARKER : JsString := js "ISOMUX-REDACTED"

/-- `SECRET_MIN_VALUE_LENGTH` of `shared/secret-hosts.ts`. -/
def SECRET_MIN_VALUE_LENGTH : ℕ := 8

/-- No pattern shorter than this is scrubbed. -/
def MIN_SCRUB_LENGTH : ℕ := SECRET_MIN_VALUE_LENGTH

/-! ## The patterns of a set of values -/

/-- The base64 text of `value` behind `offset` bytes, without the edge groups that mix in
neighbouring bytes; nothing when less than a group is left. -/
def base64Core (value : Buffer) (offset : ℕ) : List JsString :=
  let text := Buffer.toBase64 (List.replicate offset 0 ++ value)
  let start := if offset = 0 then 0 else 4
  let stop := if (offset + value.length) % 3 = 0 then text.length else text.length - 4
  let core := (text.take stop).drop start
  if 4 ≤ core.length then [core] else []

/-- The base64 cores at the three byte alignments. -/
def base64Cores (value : Buffer) : List JsString :=
  [0, 1, 2].flatMap (base64Core value)

/-- `patterns.add(p)` on a `Set`, which keeps its elements in insertion order. -/
def addPattern (patterns : List JsString) (p : JsString) : List JsString :=
  if p ∈ patterns then patterns else patterns ++ [p]

/-- The patterns of one value, added to those before it. `none` is the `URIError` that
`encodeURIComponent` throws on a lone surrogate. -/
def addValue (patterns : List JsString) (value : JsString) : Option (List JsString) :=
  if value = [] then some patterns
  else (encodeURIComponent value).map fun encoded =>
    (base64Cores value.toBuffer).foldl addPattern (addPattern (addPattern patterns value) encoded)

/-- The strings to remove for a set of values, longest first. The sort is stable, as the
runtime's is. -/
def scrubPatterns (values : List JsString) : Option (List JsString) :=
  (values.foldlM addValue []).map fun patterns =>
    (patterns.filter fun p => MIN_SCRUB_LENGTH ≤ p.length).insertionSort
      fun a b => b.length ≤ a.length

theorem scrubPatterns_length {values patterns : List JsString}
    (h : scrubPatterns values = some patterns) : ∀ p ∈ patterns, MIN_SCRUB_LENGTH ≤ p.length := by
  obtain ⟨all, -, rfl⟩ := Option.map_eq_some_iff.mp h
  intro p hp
  simpa using (List.mem_filter.mp ((List.mem_insertionSort _).mp hp)).2

/-! ## The whole-text scrub -/

/-- `text.indexOf(pattern, i)`; `none` is `-1`. -/
def indexOf (text pattern : JsString) (i : ℕ) : Option ℕ :=
  (List.range' i (text.length + 1 - i)).find? fun k => pattern.isPrefixOf (text.drop k)

variable (text : JsString)

/-- The body of the inner loop of `scrubSpans`: `best` is the leftmost start found so far with
the longest pattern found there. -/
def considerPattern (i : ℕ) (best : Option (ℕ × JsString)) (pattern : JsString) :
    Option (ℕ × JsString) :=
  match indexOf text pattern i, best with
  | none, best => best
  | some at_, none => some (at_, pattern)
  | some at_, some (b, bestPattern) =>
    if at_ < b then some (at_, pattern)
    else if at_ = b ∧ bestPattern.length < pattern.length then some (b, pattern)
    else some (b, bestPattern)

/-- The inner loop of `scrubSpans`: the next span's start and pattern, from `i` on. -/
def bestMatch (patterns : List JsString) (i : ℕ) : Option (ℕ × JsString) :=
  patterns.foldl (considerPattern text i) none

/-- The outer loop of `scrubSpans` from `i` on. Every round moves `i` to the right, so
`text.length + 1` rounds are enough (`rewrites_scrubSpansFrom`). -/
def scrubSpansFrom (text : JsString) (patterns : List JsString) : ℕ → ℕ → List (ℕ × ℕ)
  | 0, _ => []
  | fuel + 1, i =>
    match bestMatch text patterns i with
    | none => []
    | some (best, bestPattern) =>
      (best, best + bestPattern.length) ::
        scrubSpansFrom text patterns fuel (best + bestPattern.length)

/-- Where `scrubText` replaces, as `[start, end)` offsets into `text`. -/
def scrubSpans (patterns : List JsString) : List (ℕ × ℕ) :=
  scrubSpansFrom text patterns (text.length + 1) 0

/-- The accumulators of `replaceAll`. -/
structure ReplaceState where
  out : JsString
  i : ℕ
  lastEnd : ℕ

/-- The body of the loop of `replaceAll`. -/
def replaceSpan (s : ReplaceState) (span : ℕ × ℕ) : ReplaceState :=
  let out := s.out ++ (text.take span.1).drop s.i ++ SCRUB_MARKER
  ⟨out, span.2, out.length⟩

/-- Replace every pattern in `text`, at the spans `scrubSpans` finds: the new text and the end of
its last mark. -/
def replaceAll (patterns : List JsString) : JsString × ℕ :=
  let s := (scrubSpans text patterns).foldl (replaceSpan text) ⟨[], 0, 0⟩
  (s.out ++ text.drop s.i, s.lastEnd)

def scrubText (patterns : List JsString) : JsString :=
  if patterns = [] then text else (replaceAll text patterns).1

/-! ## The scrub is the leftmost-longest pass -/

theorem indexOf_eq_some {text p : JsString} {i k : ℕ} (h : indexOf text p i = some k) :
    i ≤ k ∧ OccursAt p text k ∧ ∀ j, i ≤ j → OccursAt p text j → k ≤ j :=
  occursAt_of_find h

theorem indexOf_eq_none {text p : JsString} {i : ℕ} (hp : p ≠ []) (h : indexOf text p i = none) :
    ∀ j, i ≤ j → ¬ OccursAt p text j := not_occursAt_of_find hp h

/-- What the inner loop knows after the patterns `seen`. -/
def BestSoFar (i : ℕ) (seen : List JsString) : Option (ℕ × JsString) → Prop
  | none => ∀ p ∈ seen, ∀ j, i ≤ j → ¬ OccursAt p text j
  | some (b, bp) => bp ∈ seen ∧ i ≤ b ∧ OccursAt bp text b ∧
      ∀ q ∈ seen, ∀ j, i ≤ j → OccursAt q text j → b ≤ j ∧ (j = b → q.length ≤ bp.length)

variable {patterns : List JsString} {text : JsString}

/-- One round of the inner loop keeps what it knows. -/
theorem bestSoFar_considerPattern {i : ℕ} {seen : List JsString}
    {best : Option (ℕ × JsString)} {p : JsString} (hp : p ≠ []) (h : BestSoFar text i seen best) :
    BestSoFar text i (seen ++ [p]) (considerPattern text i best p) := by
  have hmem : ∀ q, q ∈ seen ++ [p] → q ∈ seen ∨ q = p := fun q hq => by simpa using hq
  unfold considerPattern
  cases hix : indexOf text p i with
  | none =>
    have hno := indexOf_eq_none hp hix
    cases best with
    | none =>
      intro q hq j hj
      rcases hmem q hq with hq | rfl
      · exact h q hq j hj
      · exact hno j hj
    | some b =>
      obtain ⟨hbp, hib, hoc, hall⟩ := h
      refine ⟨List.mem_append_left _ hbp, hib, hoc, fun q hq j hj hqj => ?_⟩
      rcases hmem q hq with hq | rfl
      · exact hall q hq j hj hqj
      · exact absurd hqj (hno j hj)
  | some a =>
    obtain ⟨hia, hoca, hfirst⟩ := indexOf_eq_some hix
    have hpmem : p ∈ seen ++ [p] := by simp
    cases best with
    | none =>
      refine ⟨hpmem, hia, hoca, fun q hq j hj hqj => ?_⟩
      rcases hmem q hq with hq | rfl
      · exact absurd hqj (h q hq j hj)
      · exact ⟨hfirst j hj hqj, fun _ => le_rfl⟩
    | some b =>
      obtain ⟨b, bp⟩ := b
      obtain ⟨hbp, hib, hoc, hall⟩ := h
      dsimp only
      split_ifs with hlt heq
      · -- `p` starts further left than everything seen
        refine ⟨hpmem, hia, hoca, fun q hq j hj hqj => ?_⟩
        rcases hmem q hq with hq | rfl
        · have := (hall q hq j hj hqj).1
          exact ⟨by omega, by omega⟩
        · exact ⟨hfirst j hj hqj, fun _ => le_rfl⟩
      · -- `p` starts at the same place and is longer
        obtain ⟨rfl, hlong⟩ := heq
        refine ⟨hpmem, hib, hoca, fun q hq j hj hqj => ?_⟩
        rcases hmem q hq with hq | rfl
        · obtain ⟨hle, hlen⟩ := hall q hq j hj hqj
          exact ⟨hle, fun hj => by have := hlen hj; omega⟩
        · exact ⟨hfirst j hj hqj, fun _ => le_rfl⟩
      · refine ⟨List.mem_append_left _ hbp, hib, hoc, fun q hq j hj hqj => ?_⟩
        rcases hmem q hq with hq | rfl
        · exact hall q hq j hj hqj
        · have := hfirst j hj hqj
          exact ⟨by omega, fun hjb => by omega⟩

theorem bestSoFar_bestMatch (text : JsString) (i : ℕ)
    (hne : ∀ p ∈ patterns, p ≠ []) : BestSoFar text i patterns (bestMatch text patterns i) := by
  suffices h : ∀ (todo seen : List JsString) (best : Option (ℕ × JsString)), (∀ p ∈ todo, p ≠ []) →
      BestSoFar text i seen best →
      BestSoFar text i (seen ++ todo) (todo.foldl (considerPattern text i) best) from
    h patterns [] none hne (by simp [BestSoFar])
  intro todo
  induction todo with
  | nil => intro seen best _ h; simpa using h
  | cons p todo ih =>
    intro seen best hne h
    have := ih (seen ++ [p]) _ (fun q hq => hne q (List.mem_cons_of_mem _ hq))
      (bestSoFar_considerPattern (hne p List.mem_cons_self) h)
    simpa using this

theorem bestMatch_eq_some {i b : ℕ} {p : JsString}
    (hne : ∀ p ∈ patterns, p ≠ []) (h : bestMatch text patterns i = some (b, p)) :
    i ≤ b ∧ LeftmostLongest patterns (text.drop i) (b - i) p := by
  have hbest := bestSoFar_bestMatch text i hne
  rw [h] at hbest
  obtain ⟨hmem, hib, hoc, hall⟩ := hbest
  refine ⟨hib, hmem, ?_, fun q hq j hqj => ?_, fun q hq hqj => ?_⟩
  · rw [occursAt_drop, Nat.add_sub_cancel' hib]
    exact hoc
  · have := (hall q hq (i + j) (by omega) (occursAt_drop.mp hqj)).1
    omega
  · rw [occursAt_drop, Nat.add_sub_cancel' hib] at hqj
    exact (hall q hq b hib hqj).2 rfl

theorem bestMatch_eq_none {i : ℕ}
    (hne : ∀ p ∈ patterns, p ≠ []) (h : bestMatch text patterns i = none) :
    ∀ p ∈ patterns, ∀ k, ¬ OccursAt p (text.drop i) k := by
  have hbest := bestSoFar_bestMatch text i hne
  rw [h] at hbest
  intro p hp k hk
  exact hbest p hp (i + k) (by omega) (occursAt_drop.mp hk)

/-- The outer loop and the replacement, from `i` on, are the pass over what is behind `i`.

**Proof sketch.** Induction on the fuel. A round without a match ends the pass. A round with one
replaces the leftmost-longest occurrence, and the next round goes on behind it, where the text is
shorter because no pattern is empty. -/
theorem rewrites_scrubSpansFrom (text : JsString)
    (hne : ∀ p ∈ patterns, p ≠ []) (fuel i : ℕ) (hi : i ≤ text.length)
    (hfuel : text.length + 1 ≤ fuel + i) :
    ∃ e r, Rewrites patterns SCRUB_MARKER (text.drop i) e r ∧ ∀ out : JsString, ∃ j,
      (scrubSpansFrom text patterns fuel i).foldl (replaceSpan text) ⟨out, i, out.length⟩ =
        ⟨out ++ e, j, (out ++ e).length⟩ ∧ text.drop j = r := by
  induction fuel generalizing i with
  | zero => omega
  | succ fuel ih =>
    unfold scrubSpansFrom
    cases hbest : bestMatch text patterns i with
    | none =>
      exact ⟨[], text.drop i, .done _ (bestMatch_eq_none hne hbest), fun out => ⟨i, by simp, rfl⟩⟩
    | some bp =>
      obtain ⟨b, p⟩ := bp
      obtain ⟨hib, hll⟩ := bestMatch_eq_some hne hbest
      have hpos : 0 < p.length := List.length_pos_iff.mpr (hne p hll.mem)
      have hend := hll.occurs.add_length_le (hne p hll.mem)
      rw [List.length_drop] at hend
      obtain ⟨e, r, hrw, hfold⟩ := ih (b + p.length) (by omega) (by omega)
      refine ⟨(text.drop i).take (b - i) ++ SCRUB_MARKER ++ e, r, .hit hll ?_, fun out => ?_⟩
      · rw [List.drop_drop, show i + (b - i + p.length) = b + p.length by omega]
        exact hrw
      · obtain ⟨j, hj, hr⟩ := hfold (out ++ (text.drop i).take (b - i) ++ SCRUB_MARKER)
        refine ⟨j, ?_, hr⟩
        simpa [replaceSpan, List.drop_take] using hj

/-- **`replaceAll` is the leftmost-longest pass**: its text is the output of the pass, and the end
of its last mark is where the raw rest begins. -/
theorem rewrites_replaceAll (hne : ∀ p ∈ patterns, p ≠ [])
    (text : JsString) :
    ∃ e r, Rewrites patterns SCRUB_MARKER text e r ∧
      replaceAll text patterns = (e ++ r, e.length) := by
  obtain ⟨e, r, hrw, hfold⟩ :=
    rewrites_scrubSpansFrom text hne (text.length + 1) 0 (by omega) (by omega)
  obtain ⟨j, hj, rfl⟩ := hfold []
  refine ⟨e, text.drop j, by simpa using hrw, ?_⟩
  have hs : (scrubSpans text patterns).foldl (replaceSpan text) ⟨[], 0, 0⟩ =
      ⟨e, j, e.length⟩ := by simpa [scrubSpans] using hj
  simp [replaceAll, hs]

theorem scrubText_of_rewrites (hne : ∀ p ∈ patterns, p ≠ [])
    {text e r : JsString} (h : Rewrites patterns SCRUB_MARKER text e r) :
    scrubText text patterns = e ++ r := by
  obtain ⟨e', r', h', heq⟩ := rewrites_replaceAll hne text
  obtain ⟨rfl, rfl⟩ := h.unique h'
  unfold scrubText
  split_ifs with hnil
  · subst hnil
    cases h with
    | done => rfl
    | hit hll => exact absurd hll.mem (by simp)
  · rw [heq]

end Isomux
