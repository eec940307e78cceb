import Isomux.Webhooks.Block
import Mathlib.Algebra.BigOperators.Ring.List
import Mathlib.Algebra.Order.BigOperators.Group.List
import Mathlib.Tactic.Ring

set_option autoImplicit false

/-!
# What fits into a webhook block

The escaped length of a string is the sum of those of its code points, so the loop that cuts a value
keeps the longest front part of its code points that fits with the marker behind it. The shares that
the arguments get grow from one to the next, and what the arguments take with the last share fits
into the room.

## Main results

* `Isomux.fitted_fitValue` — what the loop makes of a value.
* `Isomux.length_escapeArgsJson` — the length of the JSON line.
* `Isomux.sum_min_finalShare_le` — the arguments fit into the room.
-/

namespace Isomux

/-! ## Escaped lengths -/

lemma escapedLength_eq (text : JsString) : escapedLength text = (escapedText text).length := by
  have htext : escapeArgsJson [(js "v", text)] =
      js "\x7b\x22v\x22:\x22" ++ (escapedText text ++ js "\x22\x7d") := by
    have hquote : (Json.object [(js "v", .string text)]).text =
        js "\x7b\x22v\x22:\x22" ++ (jsonEscape text ++ js "\x22\x7d") := by
      have hclose : js "\x22\x7d" = [34] ++ [125] := by decide
      have hopen : js "\x7b\x22v\x22:\x22" = 123 :: (jsonQuote (js "v") ++ [58, 34]) := by
        decide
      rw [hclose, hopen, Json.text, Json.fieldsText, Json.text, jsonQuote, jsonQuote]
      simp
    rw [escapeArgsJson, List.map_singleton, hquote, escapeAngles_append, escapeAngles_append,
      escapeAngles_of_all (s := js "\x7b\x22v\x22:\x22") (by decide),
      escapeAngles_of_all (s := js "\x22\x7d") (by decide), escapedText]
  have hopen : (js "\x7b\x22v\x22:\x22").length = 6 := by decide
  have hclose : (js "\x22\x7d").length = 2 := by decide
  have hempty : (js "\x7b\x22v\x22:\x22\x22\x7d").length = 8 := by decide
  rw [escapedLength, htext, List.length_append, List.length_append, hopen, hclose, hempty]
  omega

lemma escapedLength_nonneg (text : JsString) : 0 ≤ escapedLength text := by
  rw [escapedLength_eq]
  exact Int.natCast_nonneg _

variable (front : List JsString)

/-- The escaped length of some code points. -/
def charactersLength : ℤ := (front.map escapedLength).sum

lemma charactersLength_append (front back : List JsString) :
    charactersLength (front ++ back) = charactersLength front + charactersLength back := by
  rw [charactersLength, List.map_append, List.sum_append, ← charactersLength, ← charactersLength]

lemma charactersLength_nonneg : 0 ≤ charactersLength front :=
  List.sum_nonneg fun _ h => by
    obtain ⟨text, -, rfl⟩ := List.mem_map.1 h
    exact escapedLength_nonneg text

lemma length_flatMap_escapedText :
    ((front.flatMap escapedText).length : ℤ) = charactersLength front := by
  induction front with
  | nil => rfl
  | cons text front ih =>
    rw [List.flatMap_cons, List.length_append, Int.natCast_add, ih, charactersLength,
      charactersLength, List.map_cons, List.sum_cons, escapedLength_eq]

/-- **The escaped length of a string is the sum of those of its code points.** -/
lemma escapedLength_eq_sum (s : JsString) : escapedLength s = charactersLength (characters s) := by
  rw [escapedLength_eq, escapedText_eq, length_flatMap_escapedText]

lemma escapedLength_marker {s : JsString} {front back : List JsString}
    (h : characters s = front ++ back) :
    escapedLength (front.flatten ++ WEBHOOK_CUT_MARKER) = charactersLength front + MARKER_COST := by
  obtain ⟨c, rest, hmarker, hc⟩ : ∃ c rest, WEBHOOK_CUT_MARKER = c :: rest ∧
      isLowSurrogate c = false := ⟨0x2026, js "[cut]", by decide, by decide⟩
  rw [MARKER_COST, escapedLength_eq_sum, escapedLength_eq_sum WEBHOOK_CUT_MARKER, hmarker,
    characters_append_cons _ hc, characters_flatten_prefix h, charactersLength_append]

lemma MARKER_COST_eq : MARKER_COST = 6 := by decide

/-! ## Cuts -/

/-- A value in the block: whole where it fits, or else the longest front part of its code points
that fits with the marker behind it. -/
inductive Fitted (share : ℤ) (value : JsString) : JsString → Prop where
  | whole (h : escapedLength value ≤ share) : Fitted share value value
  | cut (front back : List JsString) (h : share < escapedLength value)
      (hsplit : characters value = front ++ back)
      (hfits : escapedLength (front.flatten ++ WEBHOOK_CUT_MARKER) ≤ share)
      (hmost : ∀ longer, longer <+: characters value → front.length < longer.length →
        share < escapedLength (longer.flatten ++ WEBHOOK_CUT_MARKER)) :
      Fitted share value (front.flatten ++ WEBHOOK_CUT_MARKER)

/-- What the loop makes of a value, from behind some of its code points on. -/
lemma fitted_fitLoop {value : JsString} {share : ℤ} {rest past front : List JsString}
    {used : ℤ} {units keep : ℕ}
    (hvalue : characters value = past ++ rest) (hused : used = charactersLength past)
    (hless : used ≤ share) (hunits : units = past.flatten.length) (hfront : front <+: past)
    (hkeep : keep = front.flatten.length) (hfits : charactersLength front + MARKER_COST ≤ share)
    (hmost : ∀ longer, longer <+: past → front.length < longer.length →
      share < charactersLength longer + MARKER_COST) :
    Fitted share value (fitLoop value share rest used units keep) := by
  induction rest generalizing past front used units keep with
  | nil =>
    refine .whole ?_
    rw [List.append_nil] at hvalue
    rw [escapedLength_eq_sum, hvalue, ← hused]
    exact hless
  | cons codePoint rest ih =>
    have hnext : characters value = (past ++ [codePoint]) ++ rest := by
      rw [hvalue, List.append_assoc, List.singleton_append]
    have hcost : used + escapedLength codePoint = charactersLength (past ++ [codePoint]) := by
      rw [charactersLength_append, hused]
      simp [charactersLength]
    -- The front part that is kept from here on.
    obtain ⟨front', hfront', hkeep', hfits', hmost'⟩ : ∃ front', front' <+: past ++ [codePoint] ∧
        (if used + escapedLength codePoint + MARKER_COST ≤ share then units + codePoint.length
          else keep) = front'.flatten.length ∧
        charactersLength front' + MARKER_COST ≤ share ∧
        ∀ longer, longer <+: past ++ [codePoint] → front'.length < longer.length →
          share < charactersLength longer + MARKER_COST := by
      split_ifs with hroom
      · refine ⟨past ++ [codePoint], List.prefix_rfl, by simp [hunits], hcost ▸ hroom, ?_⟩
        intro longer hlonger hlt
        exact absurd hlonger.length_le (not_le.2 hlt)
      · refine ⟨front, hfront.trans (List.prefix_append _ _), hkeep, hfits, ?_⟩
        intro longer hlonger hlt
        rcases List.prefix_concat_iff.1 hlonger with rfl | hlonger
        · rw [← hcost]
          exact not_le.1 hroom
        · exact hmost longer hlonger hlt
    unfold fitLoop
    dsimp only
    rw [hkeep']
    split_ifs with hover
    · obtain ⟨back, hback⟩ := hfront'
      have hsplit : characters value = front' ++ (back ++ rest) := by
        rw [hnext, ← hback, List.append_assoc]
      have htake : value.take front'.flatten.length = front'.flatten := by
        have hflat := congrArg List.flatten hsplit
        rw [characters_flatten, List.flatten_append] at hflat
        rw [hflat, List.take_left]
      rw [htake]
      refine .cut front' (back ++ rest) ?_ hsplit ?_ ?_
      · rw [escapedLength_eq_sum, hnext, charactersLength_append, ← hcost]
        have hrest := charactersLength_nonneg rest
        omega
      · rw [escapedLength_marker hsplit]
        exact hfits'
      · rintro longer ⟨more, hmore⟩ hlt
        rw [escapedLength_marker hmore.symm]
        -- Up to here it is one of the front parts that were tried; a longer one costs more.
        rcases List.prefix_or_prefix_of_prefix ⟨more, hmore⟩ (hnext ▸ List.prefix_append _ rest)
          with hbefore | ⟨behind, hbehind⟩
        · exact hmost' longer hbefore hlt
        · rw [← hbehind, charactersLength_append, ← hcost, MARKER_COST_eq]
          have hpos := charactersLength_nonneg behind
          omega
    · exact ih hnext hcost (not_lt.1 hover) (by simp [hunits]) hfront' rfl hfits' hmost'

/-- **What becomes of a value.** -/
theorem fitted_fitValue {share : ℤ} (hshare : MARKER_COST ≤ share) (value : JsString) :
    Fitted share value (fitValue value share) := by
  have hpos : 0 ≤ share := by
    rw [MARKER_COST_eq] at hshare
    omega
  have hfits : charactersLength [] + MARKER_COST ≤ share := (zero_add MARKER_COST).trans_le hshare
  have hmost : ∀ longer : List JsString, longer <+: [] →
      ([] : List JsString).length < longer.length →
      share < charactersLength longer + MARKER_COST := by
    intro longer hlonger hlt
    rw [List.prefix_nil.1 hlonger] at hlt
    exact absurd hlt (lt_irrefl _)
  exact fitted_fitLoop rfl rfl hpos rfl List.prefix_rfl rfl hfits hmost

lemma Fitted.escapedLength_le {share : ℤ} {value fitted : JsString}
    (h : Fitted share value fitted) : escapedLength fitted ≤ min (escapedLength value) share := by
  cases h with
  | whole h => exact le_min le_rfl h
  | cut front back h hsplit hfits hmost => exact le_min (hfits.trans h.le) hfits

lemma Fitted.ne_iff {share : ℤ} {value fitted : JsString} (h : Fitted share value fitted) :
    fitted ≠ value ↔ share < escapedLength value := by
  cases h with
  | whole h => simpa using h
  | cut front back h hsplit hfits hmost =>
    refine iff_of_true (fun heq => ?_) h
    rw [heq] at hfits
    exact absurd h (not_lt.2 hfits)

/-! ## The length of the JSON line -/

variable (args : WebhookArgs)

def valuesLength : ℤ := (args.map fun arg => escapedLength arg.2).sum

lemma length_member (k v rest : JsString) :
    ((escapeAngles (jsonQuote k ++ 58 :: (jsonQuote v ++ rest))).length : ℤ) =
      (escapeAngles (jsonQuote k)).length + 3 + escapedLength v + (escapeAngles rest).length := by
  have hparts : jsonQuote k ++ 58 :: (jsonQuote v ++ rest) =
      jsonQuote k ++ ([58] ++ ([34] ++ (jsonEscape v ++ ([34] ++ rest)))) := by
    rw [show jsonQuote v = 34 :: (jsonEscape v ++ [34]) from rfl]
    simp
  have hcolon : (escapeAngles [58]).length = 1 := rfl
  have hquote : (escapeAngles [34]).length = 1 := rfl
  rw [escapedLength_eq, escapedText, hparts]
  simp only [escapeAngles_append, List.length_append, hcolon, hquote]
  omega

/-- The members of the JSON line. -/
lemma length_members :
    ((escapeAngles (Json.fieldsText (args.map fun arg => (arg.1, .string arg.2)))).length : ℤ) =
      (escapeAngles (Json.fieldsText (args.map fun arg => (arg.1, .string [])))).length +
        valuesLength args := by
  have hzero : escapedLength [] = 0 := by decide
  induction args with
  | nil => rfl
  | cons arg args ih =>
    obtain ⟨k, v⟩ := arg
    cases args with
    | nil =>
      have hlast : ∀ v, Json.fieldsText [(k, .string v)] =
          jsonQuote k ++ 58 :: (jsonQuote v ++ []) := by
        intro v
        rw [List.append_nil]
        rfl
      simp only [List.map_cons, List.map_nil, valuesLength, List.sum_cons, List.sum_nil]
      rw [hlast, hlast, length_member, length_member, hzero]
      omega
    | cons arg' args =>
      have hfields : ∀ (v : JsString) (field : JsString × Json) (fields : List (JsString × Json)),
          Json.fieldsText ((k, .string v) :: field :: fields) =
            jsonQuote k ++ 58 :: (jsonQuote v ++ 44 :: Json.fieldsText (field :: fields)) :=
        fun _ _ _ => rfl
      have hcomma : ∀ text, ((escapeAngles (44 :: text)).length : ℤ) =
          (escapeAngles text).length + 1 := by
        intro text
        rw [escapeAngles_cons_of_not (by decide), List.length_cons]
        omega
      simp only [List.map_cons, valuesLength, List.sum_cons] at ih ⊢
      rw [hfields, hfields, length_member, length_member, hcomma, hcomma, ih, hzero]
      omega

/-- **The length of the JSON line**: what it has without the values, and the values. -/
theorem length_escapeArgsJson :
    ((escapeArgsJson args).length : ℤ) = skeletonLength args + valuesLength args := by
  have hobject : ∀ fields, escapeAngles (Json.object fields).text =
      123 :: (escapeAngles (Json.fieldsText fields) ++ [125]) := by
    intro fields
    rw [Json.text, escapeAngles_cons_of_not (by decide), escapeAngles_append]
    rfl
  have hmembers := length_members args
  unfold skeletonLength escapeArgsJson
  rw [List.map_map, hobject, hobject]
  simp only [List.length_cons, List.length_append, List.length_nil]
  push_cast
  rw [hmembers]
  have hsame : (args.map ((fun arg : JsString × JsString => (arg.1, Json.string arg.2)) ∘
      fun arg => (arg.1, []))) = args.map fun arg => (arg.1, Json.string []) := rfl
  rw [hsame]
  omega

/-! ## The shares -/

lemma div_le_finalShare {lengths : List ℤ} (hne : lengths ≠ []) (room : ℤ) {left : ℤ}
    (hleft : left = lengths.length) (share : ℤ) :
    room / left ≤ finalShare lengths room left share := by
  induction lengths generalizing room left share with
  | nil => exact absurd rfl hne
  | cons length lengths ih =>
    unfold finalShare
    dsimp only
    split_ifs with hover
    · exact le_rfl
    · rw [List.length_cons, Nat.cast_succ] at hleft
      cases lengths with
      | nil => exact le_rfl
      | cons next lengths =>
        have hmore : 0 < left - 1 := by
          rw [hleft, List.length_cons]
          push_cast
          omega
        refine le_trans ?_ (ih (List.cons_ne_nil _ _) (room - length) (by omega) (room / left))
        rw [Int.le_ediv_iff_mul_le hmore]
        have hroom := Int.ediv_mul_le room (show left ≠ 0 by omega)
        have hsub : room / left * (left - 1) = room / left * left - room / left := by ring
        omega

/-- **The arguments fit into the room**, where each takes no more than it has, and no more than the
share that is found. -/
theorem sum_min_finalShare_le {lengths : List ℤ} {room : ℤ} (hroom : 0 ≤ room) {left : ℤ}
    (hleft : left = lengths.length) (share : ℤ) :
    (lengths.map fun length => min length (finalShare lengths room left share)).sum ≤ room := by
  induction lengths generalizing room left share with
  | nil => exact hroom
  | cons length lengths ih =>
    rw [List.length_cons, Nat.cast_succ] at hleft
    have hpos : 0 < left := by omega
    have hdiv := Int.ediv_mul_le room hpos.ne'
    unfold finalShare
    dsimp only
    split_ifs with hover
    · have hall : ∀ x ∈ ((length :: lengths).map fun length => min length (room / left)),
          x ≤ room / left := by
        intro x hx
        obtain ⟨l, -, rfl⟩ := List.mem_map.1 hx
        exact min_le_right _ _
      have hsum := List.sum_le_card_nsmul _ _ hall
      rw [List.length_map, List.length_cons, nsmul_eq_mul, Nat.cast_succ, ← hleft] at hsum
      exact hsum.trans (by rw [mul_comm]; exact hdiv)
    · have hsmall : room / left ≤ room := Int.ediv_le_self left hroom
      have hrest := ih (show 0 ≤ room - length by omega) (show left - 1 = lengths.length by omega)
        (room / left)
      rw [List.map_cons, List.sum_cons]
      have hle := min_le_left length (finalShare lengths (room - length) (left - 1) (room / left))
      omega

end Isomux
