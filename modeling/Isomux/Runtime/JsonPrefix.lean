import Isomux.Runtime.Json

set_option autoImplicit false

/-!
# JSON texts that were cut

What is left of the text of an object that was cut is no JSON, and it does not become JSON when the
text of an object is joined to it: either the new object is read inside of the old one, which stays
open, or it is read in a string, where all its strings are outside and the other way round.

## Main results

* `Isomux.JsonReader.inside_of_cut` — the object is open behind every part of its text.
* `Isomux.Json.parse_of_inside` — a text that leaves something open is no JSON.
* `Isomux.Json.parse_joined` — a text that was cut, or is complete, with an object joined to it.
-/

namespace Isomux

namespace JsonReader

/-! ## What is open -/

/-- Something is open: the state has frames. -/
def Inside : JsonReader → Prop
  | value frames => frames ≠ []
  | firstItem frames => frames ≠ []
  | firstKey frames => frames ≠ []
  | key frames => frames ≠ []
  | colon frames _ => frames ≠ []
  | after frames => frames ≠ []
  | token frames _ => frames ≠ []
  | string frames _ _ => frames ≠ []
  | escape frames _ _ => frames ≠ []
  | hex frames _ _ _ _ => frames ≠ []
  | done _ => False
  | failed => False

/-- What a parse that started may come to: something is open, or it is over. -/
def Begun (r : JsonReader) : Prop := r = failed ∨ r.Inside ∨ ∃ v, r = done v

lemma begun_finish (frames : List JsonFrame) (v : Json) : (finish frames v).Begun := by
  cases frames with
  | nil => exact Or.inr (Or.inr ⟨v, rfl⟩)
  | cons frame frames =>
    cases frame with
    | fields fields => exact Or.inl rfl
    | items items | member fields k => exact Or.inr (Or.inl (List.cons_ne_nil _ _))

lemma begun_close (frames : List JsonFrame) (c : CodeUnit) : (close frames c).Begun := by
  cases frames with
  | nil => exact Or.inl rfl
  | cons frame frames =>
    cases frame with
    | member fields k => exact Or.inl rfl
    | items items | fields fields =>
      rw [close]
      split_ifs
      · exact begun_finish _ _
      · exact Or.inl rfl

lemma begun_comma (frames : List JsonFrame) : (comma frames).Begun := by
  cases frames with
  | nil => exact Or.inl rfl
  | cons frame frames =>
    cases frame with
    | member fields k => exact Or.inl rfl
    | items items | fields fields => exact Or.inr (Or.inl (List.cons_ne_nil _ _))

lemma begun_startValue {frames : List JsonFrame} (h : frames ≠ []) (c : CodeUnit) :
    (startValue frames c).Begun := by
  unfold startValue
  split_ifs
  · exact Or.inr (Or.inl h)
  · exact Or.inr (Or.inl (List.cons_ne_nil _ _))
  · exact Or.inr (Or.inl (List.cons_ne_nil _ _))
  · exact Or.inr (Or.inl h)
  · exact Or.inl rfl

variable {r : JsonReader} {c : CodeUnit}

lemma begun_behind (h : r.Begun) (c : CodeUnit) : (behind r c).Begun := by
  cases r with
  | after frames =>
    rw [behind]
    split_ifs
    · exact h
    · exact begun_comma frames
    · exact begun_close frames c
  | done v =>
    rw [behind]
    split_ifs
    · exact h
    · exact Or.inl rfl
  | _ => exact Or.inl rfl

/-- A parse that started has started behind one more unit. -/
lemma begun_step (h : r.Begun) (c : CodeUnit) : (r.step c).Begun := by
  rcases h with rfl | hinside | ⟨v, rfl⟩
  · exact Or.inl rfl
  · cases r with
    | value frames =>
      rw [step]
      split_ifs
      · exact Or.inr (Or.inl hinside)
      · exact begun_startValue hinside c
    | firstItem frames =>
      rw [step]
      split_ifs
      · exact Or.inr (Or.inl hinside)
      · exact begun_close frames c
      · exact begun_startValue hinside c
    | firstKey frames =>
      rw [step]
      split_ifs
      · exact Or.inr (Or.inl hinside)
      · exact begun_close frames c
      · exact Or.inr (Or.inl hinside)
      · exact Or.inl rfl
    | key frames =>
      rw [step]
      split_ifs
      · exact Or.inr (Or.inl hinside)
      · exact Or.inr (Or.inl hinside)
      · exact Or.inl rfl
    | colon frames k =>
      simp only [step]
      split_ifs
      · exact Or.inr (Or.inl hinside)
      · split
        · exact Or.inr (Or.inl (List.cons_ne_nil _ _))
        · exact Or.inl rfl
      · exact Or.inl rfl
    | after frames => exact begun_behind (Or.inr (Or.inl hinside)) c
    | token frames read =>
      rw [step]
      split_ifs
      · exact Or.inr (Or.inl hinside)
      · split
        · exact begun_behind (begun_finish _ _) c
        · exact Or.inl rfl
    | string frames isKey read =>
      rw [step]
      split_ifs
      · rw [finishString]
        split_ifs
        · exact Or.inr (Or.inl hinside)
        · exact begun_finish _ _
      · exact Or.inr (Or.inl hinside)
      · exact Or.inl rfl
      · exact Or.inr (Or.inl hinside)
    | escape frames isKey read =>
      rw [step]
      split
      · exact Or.inr (Or.inl hinside)
      · split_ifs
        · exact Or.inr (Or.inl hinside)
        · exact Or.inl rfl
    | hex frames isKey read left code =>
      rw [step]
      split
      · exact Or.inl rfl
      · split
        · exact Or.inr (Or.inl hinside)
        · exact Or.inr (Or.inl hinside)
    | done v | failed => exact absurd hinside id
  · exact begun_behind (Or.inr (Or.inr ⟨v, rfl⟩)) c

lemma step_space_ne_done (h : r.Inside) (v : Json) : r.step 32 ≠ done v := by
  have hfinish : ∀ (frames : List JsonFrame) (w : Json), frames ≠ [] →
      behind (finish frames w) 32 ≠ done v := by
    intro frames w hne
    cases frames with
    | nil => exact absurd rfl hne
    | cons frame frames => cases frame <;> rintro ⟨⟩
  cases r with
  | token frames read =>
    rw [step]
    rw [if_neg (by decide)]
    split
    · exact hfinish frames _ h
    · rintro ⟨⟩
  | hex frames isKey read left code => rintro ⟨⟩
  | done w => exact absurd h id
  | failed => exact absurd h id
  | _ => rintro ⟨⟩

lemma run_done (v : Json) (text : JsString) :
    (done v).run text = done v ∨ (done v).run text = failed := by
  induction text with
  | nil => exact Or.inl rfl
  | cons c text ih =>
    have hstep : (done v).step c = done v ∨ (done v).step c = failed := by
      rw [step, behind]
      split_ifs
      · exact Or.inl rfl
      · exact Or.inr rfl
    rw [run, Machine.run_cons]
    rcases hstep with h | h
    · rw [h]
      exact ih
    · rw [h]
      exact Or.inr (run_failed text)

/-- **Behind every part of the text of an object the object is open.**

**Proof sketch.** The parse has begun. It cannot have failed, as it goes on to the end, and it
cannot be over: the text ends with a brace, and no brace may follow what is over. -/
theorem inside_of_cut {fields : List (JsString × Json)} {front rest : JsString}
    (h : (Json.object fields).text = front ++ rest) (hfront : front ≠ []) (hrest : rest ≠ []) :
    ((value []).run front).Inside := by
  have hwhole : ((value []).run front).run rest = done (.object fields) := by
    have hread := run_text (.object fields) [] (c := 32) (by decide) []
    have hend : (value []).run (Json.object fields).text = done (.object fields) := by
      have hfields := run_fieldsText fields [] []
      rw [Json.text, run, Machine.run_cons]
      cases fields with
      | nil => rfl
      | cons f fields => exact hfields (List.cons_ne_nil _ _) _ (Or.inl rfl) []
    rw [h, run, Machine.run_append] at hend
    exact hend
  have hbegun : ((value []).run front).Begun := by
    obtain ⟨c, front, rfl⟩ := List.exists_cons_of_ne_nil hfront
    obtain rfl : (123 : CodeUnit) = c := (List.cons.inj h).1
    have hopened : (firstKey [.fields []]).Begun := Or.inr (Or.inl (List.cons_ne_nil _ _))
    exact Machine.run_invariant (s := firstKey [.fields []]) (fun r c hr => begun_step hr c) hopened
  rcases hbegun with hfailed | hinside | ⟨v, hdone⟩
  · rw [hfailed, run_failed] at hwhole
    cases hwhole
  · exact hinside
  · -- the last unit of the rest is a brace
    have hlast : (Json.object fields).text = 123 :: Json.fieldsText fields ++ [125] := rfl
    obtain ⟨middle, rfl⟩ : ∃ middle, rest = middle ++ [125] := by
      obtain ⟨middle, c, rfl⟩ := (List.eq_nil_or_concat rest).resolve_left hrest
      rw [List.concat_eq_append] at h ⊢
      rw [h, ← List.append_assoc] at hlast
      exact ⟨middle, by rw [(List.append_inj' hlast rfl).2]⟩
    have hbrace : ((done v).run middle).run [125] = done (.object fields) := by
      rw [hdone, run, Machine.run_append] at hwhole
      exact hwhole
    rcases run_done v middle with hmiddle | hmiddle
    · rw [hmiddle] at hbrace
      cases hbrace
    · rw [hmiddle] at hbrace
      cases hbrace

/-! ## Inside and outside of strings -/

def Outside : JsonReader → Prop
  | string _ _ _ => False
  | escape _ _ _ => False
  | hex _ _ _ _ _ => False
  | failed => False
  | _ => True

/-- The parser is in a string, and in no escape. -/
def InString : JsonReader → Prop
  | string _ _ _ => True
  | _ => False

lemma outside_finish (frames : List JsonFrame) (v : Json) :
    finish frames v = failed ∨ (finish frames v).Outside := by
  cases frames with
  | nil => exact Or.inr trivial
  | cons frame frames =>
    cases frame with
    | fields fields => exact Or.inl rfl
    | items items => exact Or.inr trivial
    | member fields k => exact Or.inr trivial

lemma outside_close (frames : List JsonFrame) (c : CodeUnit) :
    close frames c = failed ∨ (close frames c).Outside := by
  cases frames with
  | nil => exact Or.inl rfl
  | cons frame frames =>
    cases frame with
    | member fields k => exact Or.inl rfl
    | items items | fields fields =>
      rw [close]
      split_ifs
      · exact outside_finish _ _
      · exact Or.inl rfl

lemma outside_comma (frames : List JsonFrame) :
    comma frames = failed ∨ (comma frames).Outside := by
  cases frames with
  | nil => exact Or.inl rfl
  | cons frame frames =>
    cases frame with
    | member fields k => exact Or.inl rfl
    | items items => exact Or.inr trivial
    | fields fields => exact Or.inr trivial

lemma outside_behind (r : JsonReader) (c : CodeUnit) :
    behind r c = failed ∨ (behind r c).Outside := by
  cases r with
  | after frames =>
    rw [behind]
    split_ifs
    · exact Or.inr trivial
    · exact outside_comma frames
    · exact outside_close frames c
  | done v =>
    rw [behind]
    split_ifs
    · exact Or.inr trivial
    · exact Or.inl rfl
  | _ => exact Or.inl rfl

lemma outside_startValue (frames : List JsonFrame) (hc : c ≠ 34) :
    startValue frames c = failed ∨ (startValue frames c).Outside := by
  rw [startValue, if_neg hc]
  split_ifs
  · exact Or.inr trivial
  · exact Or.inr trivial
  · exact Or.inr trivial
  · exact Or.inl rfl

/-- Only a quote leads into a string. -/
lemma outside_step (h : r.Outside) (hc : c ≠ 34) :
    r.step c = failed ∨ (r.step c).Outside := by
  cases r with
  | value frames =>
    rw [step]
    split_ifs
    · exact Or.inr trivial
    · exact outside_startValue frames hc
  | firstItem frames =>
    rw [step]
    split_ifs
    · exact Or.inr trivial
    · exact outside_close frames c
    · exact outside_startValue frames hc
  | firstKey frames =>
    rw [step, if_neg hc]
    split_ifs
    · exact Or.inr trivial
    · exact outside_close frames c
    · exact Or.inl rfl
  | key frames =>
    rw [step, if_neg hc]
    split_ifs
    · exact Or.inr trivial
    · exact Or.inl rfl
  | colon frames k =>
    simp only [step]
    split_ifs
    · exact Or.inr trivial
    · split
      · exact Or.inr trivial
      · exact Or.inl rfl
    · exact Or.inl rfl
  | after frames => exact outside_behind (after frames) c
  | token frames read =>
    rw [step]
    split_ifs
    · exact Or.inr trivial
    · split
      · exact outside_behind _ c
      · exact Or.inl rfl
  | done v => exact outside_behind (done v) c
  | _ => exact absurd h id

lemma behind_failed (hspace : isJsonSpace c = false) (hcomma : c ≠ 44)
    (hbracket : c ≠ 93) (hbrace : c ≠ 125) : behind r c = failed := by
  cases r with
  | after frames =>
    rw [behind, if_neg (by rw [hspace]; decide), if_neg hcomma]
    cases frames with
    | nil => rfl
    | cons frame frames =>
      cases frame with
      | member fields k => rfl
      | items items => exact if_neg hbracket
      | fields fields => exact if_neg hbrace
  | done v => rw [behind, if_neg (by rw [hspace]; decide)]
  | _ => rfl

lemma outside_step_quote (h : r.Outside) :
    r.step 34 = failed ∨ (r.step 34).InString := by
  cases r with
  | value frames => exact Or.inr trivial
  | firstItem frames => exact Or.inr trivial
  | firstKey frames => exact Or.inr trivial
  | key frames => exact Or.inr trivial
  | colon frames k => exact Or.inl rfl
  | after frames =>
    exact Or.inl (behind_failed (r := after frames) (c := 34) (by decide) (by decide) (by decide)
      (by decide))
  | token frames read =>
    left
    rw [step, if_neg (by decide)]
    split
    · exact behind_failed (by decide) (by decide) (by decide) (by decide)
    · rfl
  | done v => exact Or.inl rfl
  | _ => exact absurd h id

/-- Some units may stand in strings only. -/
lemma outside_step_failed (h : r.Outside)
    (htoken : isTokenUnit c = false) (hspace : isJsonSpace c = false)
    (hpart : c ∉ ([34, 44, 58, 91, 93, 123, 125] : List CodeUnit)) : r.step c = failed := by
  simp only [List.mem_cons, List.not_mem_nil, or_false, not_or] at hpart
  obtain ⟨hquote, hcomma, hcolon, hopen, hclose, hbegin, hend⟩ := hpart
  have hbehind : ∀ r, behind r c = failed := fun r => behind_failed hspace hcomma hclose hend
  have hstart : ∀ frames, startValue frames c = failed := by
    intro frames
    rw [startValue, if_neg hquote, if_neg hopen, if_neg hbegin, if_neg (by rw [htoken]; decide)]
  have hnospace : ¬ isJsonSpace c = true := by
    rw [hspace]
    decide
  cases r with
  | value frames => rw [step, if_neg hnospace, hstart]
  | firstItem frames => rw [step, if_neg hnospace, if_neg hclose, hstart]
  | firstKey frames => rw [step, if_neg hnospace, if_neg hend, if_neg hquote]
  | key frames => rw [step, if_neg hnospace, if_neg hquote]
  | colon frames k =>
    simp only [step]
    rw [if_neg hnospace, if_neg hcolon]
  | after frames => exact hbehind (after frames)
  | token frames read =>
    rw [step, if_neg (by rw [htoken]; decide)]
    split
    · exact hbehind _
    · rfl
  | done v => exact hbehind (done v)
  | _ => exact absurd h id

lemma string_step_quote (h : r.InString) :
    r.step 34 = failed ∨ (r.step 34).Outside := by
  cases r with
  | string frames isKey read =>
    cases isKey with
    | true => exact Or.inr trivial
    | false => exact outside_finish frames _
  | _ => exact absurd h id

lemma string_step (h : r.InString) (hquote : c ≠ 34)
    (hslash : c ≠ 92) : r.step c = failed ∨ (r.step c).InString := by
  cases r with
  | string frames isKey read =>
    rw [step, if_neg hquote, if_neg hslash]
    split_ifs
    · exact Or.inl rfl
    · exact Or.inr trivial
  | _ => exact absurd h id

/-- One parse is in a string where the other one is not. -/
def Opposite (r r' : JsonReader) : Prop :=
  (r.Outside ∧ r'.InString) ∨ (r.InString ∧ r'.Outside)

lemma opposite_step {r r' : JsonReader} (h : Opposite r r') (c : CodeUnit) :
    r.step c = failed ∨ r'.step c = failed ∨ Opposite (r.step c) (r'.step c) := by
  wlog hin : r.Outside ∧ r'.InString generalizing r r'
  · have hswap := h.resolve_left hin
    rcases this (Or.inl ⟨hswap.2, hswap.1⟩) ⟨hswap.2, hswap.1⟩ with h' | h' | h'
    · exact Or.inr (Or.inl h')
    · exact Or.inl h'
    · exact Or.inr (Or.inr (h'.symm.imp And.symm And.symm))
  obtain ⟨hout, hstring⟩ := hin
  by_cases hquote : c = 34
  · subst hquote
    rcases outside_step_quote hout with h₁ | h₁
    · exact Or.inl h₁
    · rcases string_step_quote hstring with h₂ | h₂
      · exact Or.inr (Or.inl h₂)
      · exact Or.inr (Or.inr (Or.inr ⟨h₁, h₂⟩))
  · by_cases hslash : c = 92
    · subst hslash
      exact Or.inl (outside_step_failed hout (by decide) (by decide) (by decide))
    · rcases outside_step hout hquote with h₁ | h₁
      · exact Or.inl h₁
      · rcases string_step hstring hquote hslash with h₂ | h₂
        · exact Or.inr (Or.inl h₂)
        · exact Or.inr (Or.inr (Or.inl ⟨h₁, h₂⟩))

lemma opposite_run {r r' : JsonReader} (h : Opposite r r') {text : JsString}
    (hread : r.run text ≠ failed) : r'.run text = failed ∨ Opposite (r.run text) (r'.run text) := by
  induction text generalizing r r' with
  | nil => exact Or.inr h
  | cons c text ih =>
    rw [run, Machine.run_cons] at hread
    rw [run, run, Machine.run_cons, Machine.run_cons]
    rcases opposite_step h c with h₁ | h₁ | h₁
    · rw [h₁] at hread
      exact absurd (run_failed text) hread
    · rw [h₁]
      exact Or.inl (run_failed text)
    · exact ih h₁ hread

lemma string_run_object (h : r.InString) (fields : List (JsString × Json)) (v : Json) :
    r.run ((Json.object fields).text ++ [32]) ≠ done v := by
  have hread : (value []).run ((Json.object fields).text ++ [32]) = done (.object fields) :=
    run_text (.object fields) [] (by decide) []
  intro hdone
  have hopposites : (value []).Opposite r := Or.inl ⟨trivial, h⟩
  have hreads : (value []).run ((Json.object fields).text ++ [32]) ≠ failed := by
    rw [hread]
    exact fun heq => nomatch heq
  rcases opposite_run hopposites hreads with hfailed | hopposite
  · rw [hfailed] at hdone
    cases hdone
  · rw [hread, hdone] at hopposite
    rcases hopposite with ⟨-, hfalse⟩ | ⟨hfalse, -⟩ <;> exact hfalse

/-- **An object that is read behind something that is open, or over, does not end a value.**

**Proof sketch.** Where a value may stand the object is read as one, inside of what is open. In a
string it is read inside out. Nowhere else may a brace open anything. -/
theorem run_object_ne_done (h : r.Inside ∨ ∃ w, r = done w)
    (fields : List (JsString × Json)) (v : Json) :
    r.run ((Json.object fields).text ++ [32]) ≠ done v := by
  have hother : r.step 123 = failed → r.run ((Json.object fields).text ++ [32]) ≠ done v := by
    intro hstep
    rw [Json.text, List.cons_append, run, Machine.run_cons, hstep]
    rw [← run, run_failed]
    exact fun heq => nomatch heq
  have hvalue : ∀ frames : List JsonFrame, frames ≠ [] →
      (value frames).run ((Json.object fields).text ++ [32]) ≠ done v := by
    intro frames hne
    rw [run_text _ _ (by decide)]
    have hinside : finish frames (.object fields) = failed ∨
        (finish frames (.object fields)).Inside := by
      cases frames with
      | nil => exact absurd rfl hne
      | cons frame frames =>
        cases frame with
        | fields fields => exact Or.inl rfl
        | items items | member fields k => exact Or.inr (List.cons_ne_nil _ _)
    rcases hinside with hfailed | hinside
    · rw [hfailed]
      exact fun heq => nomatch heq
    · exact step_space_ne_done hinside v
  rcases h with hinside | ⟨w, rfl⟩
  · cases r with
    | value frames | firstItem frames => exact hvalue frames hinside
    | firstKey frames => exact hother rfl
    | key frames => exact hother rfl
    | colon frames k => exact hother rfl
    | after frames =>
      exact hother (behind_failed (r := after frames) (c := 123) (by decide) (by decide) (by decide)
        (by decide))
    | token frames read =>
      refine hother ?_
      rw [step, if_neg (by decide)]
      split
      · exact behind_failed (by decide) (by decide) (by decide) (by decide)
      · rfl
    | string frames isKey read =>
      exact string_run_object (r := string frames isKey read) trivial fields v
    | escape frames isKey read => exact hother rfl
    | hex frames isKey read left code => exact hother rfl
    | done w | failed => exact absurd hinside id
  · exact hother rfl

/-- Beyond ASCII there are only units of strings. -/
lemma inString_of_step (hc : 0x80 ≤ c) (h : r.step c ≠ failed) :
    r.InString := by
  have hlt := UInt16.le_iff_toNat_le.1 hc
  have hne : ∀ d : CodeUnit, d.toNat < 128 → c ≠ d := by
    rintro d hd rfl
    simp only [UInt16.reduceToNat] at hlt
    omega
  have hdigit : isJsonDigit c = false := by
    simp only [isJsonDigit, Bool.and_eq_false_imp, decide_eq_true_eq, decide_eq_false_iff_not,
      UInt16.le_iff_toNat_le]
    simp only [UInt16.reduceToNat] at hlt ⊢
    omega
  have hletters : ∀ a b : CodeUnit, b.toNat < 128 → (a ≤ c && c ≤ b) = false := by
    intro a b hb
    simp only [Bool.and_eq_false_imp, decide_eq_true_eq, decide_eq_false_iff_not,
      UInt16.le_iff_toNat_le]
    simp only [UInt16.reduceToNat] at hlt
    omega
  have houtside : r.Outside → False := by
    intro hout
    refine h (outside_step_failed hout ?_ ?_ ?_)
    · simp only [isTokenUnit, hdigit, hletters 97 122 (by decide), hne 69 (by decide),
        hne 43 (by decide), hne 45 (by decide), hne 46 (by decide), decide_false, Bool.or_self]
    · simp only [isJsonSpace, hne 32 (by decide), hne 9 (by decide), hne 10 (by decide),
        hne 13 (by decide), decide_false, Bool.or_self]
    · simp only [List.mem_cons, List.not_mem_nil, or_false, not_or]
      exact ⟨hne _ (by decide), hne _ (by decide), hne _ (by decide), hne _ (by decide),
        hne _ (by decide), hne _ (by decide), hne _ (by decide)⟩
  cases r with
  | string frames isKey read => trivial
  | escape frames isKey read =>
    refine absurd ?_ h
    have hletter : unescape c = none := by
      rw [unescape, if_neg (hne 47 (by decide)), Option.map_eq_none_iff, List.find?_eq_none]
      intro e he
      have hall : shortEscapes.all (fun e => e.2.toNat < 128) = true := by decide
      have hlow := of_decide_eq_true (List.all_eq_true.1 hall e he)
      exact fun heq => hne e.2 hlow (of_decide_eq_true heq).symm
    simp only [step, hletter, if_neg (hne 117 (by decide))]
  | hex frames isKey read left code =>
    refine absurd ?_ h
    have hvalue : jsonHexValue c = none := by
      simp only [jsonHexValue, hdigit, hletters 97 102 (by decide), hletters 65 70 (by decide),
        Bool.false_eq_true, if_false]
    simp only [step, hvalue]
  | failed => exact absurd rfl h
  | _ => exact absurd trivial houtside

end JsonReader

namespace Json

/-- **A text that leaves something open is no JSON.** -/
theorem parse_of_inside {text : JsString} (h : ((JsonReader.value []).run text).Inside) :
    parse text = none := by
  have hspace := JsonReader.step_space_ne_done h
  rw [parse, JsonReader.run, Machine.run_append]
  split
  · next v hdone => exact absurd hdone (hspace v)
  · rfl

/-- **A text that was cut, or is complete, is no JSON with an object joined to it.** -/
theorem parse_joined {text : JsString}
    (h : ((JsonReader.value []).run text).Inside ∨ ∃ w, (JsonReader.value []).run text = .done w)
    (fields : List (JsString × Json)) : parse (text ++ (object fields).text) = none := by
  have hne := JsonReader.run_object_ne_done h fields
  rw [parse, JsonReader.run, List.append_assoc, Machine.run_append]
  split
  · next v hdone => exact absurd hdone (hne v)
  · rfl

end Json

end Isomux
