import Isomux.Runtime.Base64
import Isomux.SecretProxy.Scrub

set_option autoImplicit false

/-!
# Encoded secrets are scrubbed

In base64, three bytes make a group of four letters. Wherever a value stands among other bytes, the
groups that it fills by itself are the same letters for the same place modulo three, and these are
the cores that the scrub looks for. A value of eight bytes fills two groups at least, so no core is
too short to be looked for.

## Main results

* `Isomux.exists_wholeGroups` — the groups a value fills by itself.
* `Isomux.base64Core_eq` — a core is the text of these groups.
* `Isomux.exists_span_of_occursAt` — the scrub replaces a part of every occurrence of a pattern.
* `Isomux.base64_scrubbed` — a part of an encoded value is replaced, whatever surrounds it.
-/

namespace Isomux

open Rewriting

/-! ## What the scrub writes -/

/-- The text from a place on, with marks for the spans. -/
def withoutSpans (text : JsString) : ℕ → List (ℕ × ℕ) → JsString
  | i, [] => text.drop i
  | i, (start, stop) :: spans =>
    (text.take start).drop i ++ SCRUB_MARKER ++ withoutSpans text stop spans

variable {patterns : List JsString}

theorem scrubText_eq_withoutSpans (text : JsString)
    (hne : patterns ≠ []) :
    scrubText text patterns = withoutSpans text 0 (scrubSpans text patterns) := by
  have hfold : ∀ (spans : List (ℕ × ℕ)) (s : ReplaceState),
      (spans.foldl (replaceSpan text) s).out ++ text.drop (spans.foldl (replaceSpan text) s).i =
        s.out ++ withoutSpans text s.i spans := by
    intro spans
    induction spans with
    | nil => exact fun s => rfl
    | cons span spans ih =>
      intro s
      rw [List.foldl_cons, ih, withoutSpans]
      simp [replaceSpan]
  rw [scrubText, if_neg hne, replaceAll]
  exact hfold _ _

/-- The scrub from a place on replaces a part of every occurrence of a pattern behind it.

**Proof sketch.** Induction on the rounds. The next span starts at the occurrence or before it; when
it also ends before it, the next round still has the occurrence in front of it. -/
lemma exists_span_of_occursAt_from {text p : JsString} {k : ℕ}
    (hne : ∀ q ∈ patterns, q ≠ []) (hp : p ∈ patterns) (hoccurs : OccursAt p text k)
    (fuel i : ℕ) (hi : i ≤ k) (hfuel : text.length + 1 ≤ fuel + i) :
    ∃ span ∈ scrubSpansFrom text patterns fuel i, span.1 < k + p.length ∧ k < span.2 := by
  have hpositive := List.length_pos_iff.mpr (hne p hp)
  have hend := hoccurs.add_length_le (hne p hp)
  induction fuel generalizing i with
  | zero => omega
  | succ fuel ih =>
    unfold scrubSpansFrom
    have hdrop : OccursAt p (text.drop i) (k - i) := by
      rw [occursAt_drop, Nat.add_sub_cancel' hi]
      exact hoccurs
    cases hbest : bestMatch text patterns i with
    | none => exact absurd hdrop (bestMatch_eq_none hne hbest p hp _)
    | some best =>
      obtain ⟨b, q⟩ := best
      obtain ⟨hib, hll⟩ := bestMatch_eq_some hne hbest
      have hfirst := hll.leftmost p hp _ hdrop
      have hlength := List.length_pos_iff.mpr (hne q hll.mem)
      rcases Nat.lt_or_ge k (b + q.length) with hlt | hge
      · exact ⟨_, List.mem_cons_self, by dsimp only; omega, hlt⟩
      · obtain ⟨span, hspan, hover⟩ := ih (b + q.length) hge (by omega)
        exact ⟨span, List.mem_cons_of_mem _ hspan, hover⟩

/-- **The scrub replaces a part of every occurrence of a pattern.** -/
theorem exists_span_of_occursAt {text p : JsString} {k : ℕ}
    (hne : ∀ q ∈ patterns, q ≠ []) (hp : p ∈ patterns) (hoccurs : OccursAt p text k) :
    ∃ span ∈ scrubSpans text patterns, span.1 < k + p.length ∧ k < span.2 :=
  exists_span_of_occursAt_from hne hp hoccurs _ 0 (Nat.zero_le k) (Nat.le_refl _)

/-! ## Whole groups -/

/-- A value cut at the groups that it fills by itself, behind `offset` bytes. -/
structure WholeGroups (offset : ℕ) (value front middle back : Buffer) : Prop where
  parts : value = front ++ (middle ++ back)
  front_mod : (offset + front.length) % 3 = 0
  middle_mod : middle.length % 3 = 0
  front_lt : front.length < 3
  back_lt : back.length < 3

/-- **A value of eight bytes fills two groups by itself**, wherever it stands. -/
theorem exists_wholeGroups (offset : ℕ) {value : Buffer} (hlength : 8 ≤ value.length) :
    ∃ front middle back, WholeGroups offset value front middle back ∧ 6 ≤ middle.length := by
  set n := (3 - offset % 3) % 3 with hn
  set m := (value.length - n) / 3 * 3 with hm
  refine ⟨value.take n, (value.drop n).take m, (value.drop n).drop m, ⟨?_, ?_, ?_, ?_, ?_⟩, ?_⟩
  · rw [List.take_append_drop, List.take_append_drop]
  all_goals
    simp only [List.length_take, List.length_drop]
    omega

variable {offset : ℕ} {value front middle back : Buffer}

/-- The text of a value behind other bytes: the letters of the groups that it fills by itself stand
behind those of the groups before them. -/
lemma toBase64_wholeGroups (h : WholeGroups offset value front middle back) {before : Buffer}
    (hbefore : before.length % 3 = offset % 3) (after : Buffer) :
    Buffer.toBase64 (before ++ value ++ after) =
      Buffer.toBase64 (before ++ front) ++ (Buffer.toBase64 middle ++
        Buffer.toBase64 (back ++ after)) := by
  have hfront : (before ++ front).length % 3 = 0 := by
    have := h.front_mod
    rw [List.length_append]
    omega
  rw [h.parts, show before ++ (front ++ (middle ++ back)) ++ after =
      (before ++ front) ++ (middle ++ (back ++ after)) by simp only [List.append_assoc],
    Buffer.toBase64_append _ hfront, Buffer.toBase64_append _ h.middle_mod]

/-- **A core is the text of the groups the value fills by itself.** -/
theorem base64Core_eq (hoffset : offset < 3) (h : WholeGroups offset value front middle back)
    (hmiddle : 6 ≤ middle.length) :
    base64Core value offset = [Buffer.toBase64 middle] := by
  have hzeros : (List.replicate offset (0 : UInt8)).length % 3 = offset % 3 := by
    rw [List.length_replicate]
  have htext := toBase64_wholeGroups h hzeros []
  rw [List.append_nil, List.append_nil] at htext
  have hfront := h.front_mod
  have hfront_lt := h.front_lt
  have hback_lt := h.back_lt
  have hmiddle_mod := h.middle_mod
  have hvalue : value.length = front.length + (middle.length + back.length) := by
    rw [h.parts, List.length_append, List.length_append]
  have hstart : (Buffer.toBase64 (List.replicate offset 0 ++ front)).length =
      if offset = 0 then 0 else 4 := by
    rw [Buffer.length_toBase64, List.length_append, List.length_replicate]
    split_ifs <;> omega
  have hstop : (Buffer.toBase64 back).length =
      if (offset + value.length) % 3 = 0 then 0 else 4 := by
    rw [Buffer.length_toBase64]
    split_ifs <;> omega
  set start := Buffer.toBase64 (List.replicate offset 0 ++ front) with hstartText
  set core := Buffer.toBase64 middle with hcore
  set rest := Buffer.toBase64 back with hrest
  have hcut : ((start ++ (core ++ rest)).take (if (offset + value.length) % 3 = 0 then
      (start ++ (core ++ rest)).length else (start ++ (core ++ rest)).length - 4)).drop
        (if offset = 0 then 0 else 4) = core := by
    rw [← hstart]
    have hlast : (if (offset + value.length) % 3 = 0 then (start ++ (core ++ rest)).length else
        (start ++ (core ++ rest)).length - 4) = (start ++ core).length := by
      simp only [List.length_append, hstop]
      split_ifs <;> omega
    rw [hlast, ← List.append_assoc, List.take_left' rfl, List.drop_left' rfl]
  have hlong : 4 ≤ core.length := by
    rw [hcore, Buffer.length_toBase64]
    omega
  rw [base64Core, htext, hcut, if_pos hlong]

/-! ## Encoded values -/

lemma mem_addPattern {p q : JsString} :
    q ∈ addPattern patterns p ↔ q ∈ patterns ∨ q = p := by
  unfold addPattern
  split_ifs with h
  · exact ⟨.inl, fun hq => hq.elim id fun heq => heq ▸ h⟩
  · simp

lemma mem_foldl_addPattern {ps patterns : List JsString} {q : JsString} :
    q ∈ ps.foldl addPattern patterns ↔ q ∈ patterns ∨ q ∈ ps := by
  induction ps generalizing patterns with
  | nil => simp
  | cons p ps ih => rw [List.foldl_cons, ih, mem_addPattern, List.mem_cons, or_assoc]

lemma mem_scrubPatterns {value : JsString} (hvalue : value ≠ [])
    (hascii : AllAscii value) :
    ∃ patterns, scrubPatterns [value] = some patterns ∧
      ∀ core ∈ base64Cores value.toBuffer, MIN_SCRUB_LENGTH ≤ core.length → core ∈ patterns := by
  obtain ⟨encoded, hencoded⟩ := encodeURIComponent_of_allAscii hascii
  have hall : [value].foldlM addValue [] = some ((base64Cores value.toBuffer).foldl addPattern
      (addPattern (addPattern [] value) encoded)) := by
    rw [List.foldlM_cons, addValue, if_neg hvalue, hencoded]
    rfl
  refine ⟨_, by rw [scrubPatterns, hall, Option.map_some], fun core hcore hlength => ?_⟩
  refine (List.mem_insertionSort _).mpr (List.mem_filter.mpr ⟨?_, by simpa using hlength⟩)
  exact mem_foldl_addPattern.mpr (.inr hcore)

/-- **Encoded values are scrubbed.** Whatever bytes stand before and behind a value of at least
eight letters of printable ASCII, the base64 text of all of them has a pattern of the value in it;
and whatever text surrounds that, the scrub replaces a part of this occurrence by its mark.

**Proof sketch.** The value fills two groups at least by itself, and their letters are the core at
the place of the value modulo three. An occurrence of a pattern is replaced at least in part. -/
theorem base64_scrubbed (value : JsString) (hlength : 8 ≤ value.length)
    (hprintable : ∀ c ∈ value, 0x20 ≤ c ∧ c ≤ 0x7e) :
    ∃ patterns, scrubPatterns [value] = some patterns ∧ ∀ before after : Buffer,
      ∃ left core right : JsString,
        Buffer.toBase64 (before ++ value.toBuffer ++ after) = left ++ core ++ right ∧
        core ∈ patterns ∧
        ∀ (front back : JsString) (text : JsString),
          text = front ++ Buffer.toBase64 (before ++ value.toBuffer ++ after) ++ back →
          scrubText text patterns = withoutSpans text 0 (scrubSpans text patterns) ∧
          ∃ span ∈ scrubSpans text patterns,
            span.1 < front.length + left.length + core.length ∧
              front.length + left.length < span.2 := by
  have hascii : AllAscii value := fun c hc =>
    UInt16.lt_of_le_of_lt (hprintable c hc).2 (by decide)
  have hne : value ≠ [] := by
    rintro rfl
    simp at hlength
  obtain ⟨patterns, hpatterns, hcores⟩ := mem_scrubPatterns hne hascii
  refine ⟨patterns, hpatterns, fun before after => ?_⟩
  have hlength' : 8 ≤ (value.toBuffer).length := by rwa [JsString.toBuffer, List.length_map]
  obtain ⟨front, middle, back, hgroups, hmiddle⟩ :=
    exists_wholeGroups (before.length % 3) hlength'
  have hlt : before.length % 3 < 3 := Nat.mod_lt _ (by decide)
  have hcore : Buffer.toBase64 middle ∈ patterns := by
    refine hcores _ (List.mem_flatMap.mpr ⟨before.length % 3, ?_, ?_⟩) ?_
    · simp only [List.mem_cons, List.not_mem_nil, or_false]
      omega
    · rw [base64Core_eq hlt hgroups hmiddle]
      exact List.mem_singleton_self _
    · rw [Buffer.length_toBase64, MIN_SCRUB_LENGTH, SECRET_MIN_VALUE_LENGTH]
      omega
  have hpositive : ∀ p ∈ patterns, p ≠ [] := by
    rintro p hp rfl
    exact absurd (scrubPatterns_length hpatterns [] hp) (by decide)
  have hparts := toBase64_wholeGroups hgroups (Nat.mod_mod _ _).symm after
  rw [← List.append_assoc] at hparts
  refine ⟨_, _, _, hparts, hcore, fun outerFront outerBack text htext => ⟨?_, ?_⟩⟩
  · exact scrubText_eq_withoutSpans text (List.ne_nil_of_mem hcore)
  · refine exists_span_of_occursAt hpositive hcore ?_
    rw [OccursAt, htext, hparts, ← List.length_append]
    simp only [List.append_assoc]
    rw [← List.append_assoc, List.drop_left' rfl]
    exact List.prefix_append _ _

theorem base64_scrubbed_password :
    ∃ patterns, scrubPatterns [js "password"] = some patterns ∧
      ∃ core ∈ patterns, core <:+: Buffer.toBase64 (js "user:password").toBuffer := by
  have hprintable : (js "password").all fun c => decide (0x20 ≤ c ∧ c ≤ 0x7e) := by decide
  obtain ⟨patterns, hpatterns, hscrubbed⟩ := base64_scrubbed (js "password") (by decide)
    fun c hc => of_decide_eq_true (List.all_eq_true.mp hprintable c hc)
  obtain ⟨left, core, right, htext, hcore, -⟩ := hscrubbed (js "user:").toBuffer []
  have hbytes : (js "user:").toBuffer ++ (js "password").toBuffer ++ [] =
      (js "user:password").toBuffer := by decide
  rw [hbytes] at htext
  exact ⟨patterns, hpatterns, core, hcore, left, right, htext.symm⟩

end Isomux
