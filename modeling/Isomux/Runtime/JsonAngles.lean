import Isomux.Runtime.LowerCase

set_option autoImplicit false

/-!
# JSON texts without angle brackets

A JSON text has `<`, `>` and `&` only inside its strings. Written as `\u` escapes there, they are
the same to a reader, and the text has none of them.

## Main results

* `Isomux.parse_escapeAngles` — the text with the escapes has the same value.
* `Isomux.escapedText_eq` — a string is escaped a code point at a time.
-/

namespace Isomux

/-- The units that `/[<>&]/g` finds. -/
def isAngle (c : CodeUnit) : Bool := c == 60 || c == 62 || c == 38

/-- `ANGLE_ESCAPES`. -/
def angleEscape (c : CodeUnit) : JsString :=
  if c = 60 then js "\\u003c" else if c = 62 then js "\\u003e" else js "\\u0026"

/-- `text.replace(/[<>&]/g, (c) => ANGLE_ESCAPES[c])`. -/
def escapeAngles (text : JsString) : JsString :=
  text.flatMap fun c => if isAngle c then angleEscape c else [c]

lemma escapeAngles_append (s t : JsString) :
    escapeAngles (s ++ t) = escapeAngles s ++ escapeAngles t := List.flatMap_append

variable {c : CodeUnit} {text : JsString}

lemma escapeAngles_cons_of_not (h : isAngle c = false) (t : JsString) :
    escapeAngles (c :: t) = c :: escapeAngles t := by
  rw [escapeAngles, List.flatMap_cons, h, if_neg Bool.false_ne_true]
  rfl

lemma escapeAngles_of_all {s : JsString} (h : s.all fun c => !isAngle c) : escapeAngles s = s := by
  induction s with
  | nil => rfl
  | cons c s ih =>
    rw [List.all_cons, Bool.and_eq_true, Bool.not_eq_true'] at h
    rw [escapeAngles_cons_of_not h.1, ih h.2]

lemma angleEscape_eq (h : isAngle c = true) : angleEscape c = unicodeEscape c := by
  simp only [isAngle, Bool.or_eq_true, beq_iff_eq] at h
  rcases h with (rfl | rfl) | rfl <;> decide

lemma not_isAngle_of_mem (h : c ∈ escapeAngles text) :
    isAngle c = false := by
  obtain ⟨d, -, hc⟩ := List.mem_flatMap.1 h
  by_cases hd : isAngle d
  · rw [if_pos hd] at hc
    have hall : ∀ d, isAngle d → (angleEscape d).all (fun c => !isAngle c) := by
      intro d hd
      simp only [isAngle, Bool.or_eq_true, beq_iff_eq] at hd
      rcases hd with (rfl | rfl) | rfl <;> decide
    simpa using List.all_eq_true.1 (hall d hd) c hc
  · rw [if_neg hd, List.mem_singleton] at hc
    rw [hc]
    simpa using hd

lemma isTextUnit_escapeAngles (h : ∀ c ∈ text, IsTextUnit c) :
    ∀ c ∈ escapeAngles text, IsTextUnit c := by
  intro c hc
  obtain ⟨d, hd, hc⟩ := List.mem_flatMap.1 hc
  by_cases hangle : isAngle d
  · rw [if_pos hangle] at hc
    rw [angleEscape_eq hangle] at hc
    have hall : ∀ d, isAngle d → (unicodeEscape d).all fun c => 32 ≤ c := by
      intro d hd
      simp only [isAngle, Bool.or_eq_true, beq_iff_eq] at hd
      rcases hd with (rfl | rfl) | rfl <;> decide
    exact of_decide_eq_true (List.all_eq_true.1 (hall d hangle) c hc)
  · rw [if_neg hangle, List.mem_singleton] at hc
    exact hc ▸ h d hd

/-! ## The same value -/

namespace JsonReader

/-- An angle bracket that is read is inside a string. -/
lemma string_of_step_angle {r : JsonReader} {c : CodeUnit} (hc : isAngle c = true)
    (h : r.step c ≠ failed) : ∃ frames isKey read, r = string frames isKey read := by
  have hspace : isJsonSpace c = false := by
    simp only [isAngle, Bool.or_eq_true, beq_iff_eq] at hc
    rcases hc with (rfl | rfl) | rfl <;> decide
  have htoken : isTokenUnit c = false := by
    simp only [isAngle, Bool.or_eq_true, beq_iff_eq] at hc
    rcases hc with (rfl | rfl) | rfl <;> decide
  have hne : c ≠ 34 ∧ c ≠ 44 ∧ c ≠ 58 ∧ c ≠ 91 ∧ c ≠ 93 ∧ c ≠ 117 ∧ c ≠ 123 ∧ c ≠ 125 := by
    simp only [isAngle, Bool.or_eq_true, beq_iff_eq] at hc
    rcases hc with (rfl | rfl) | rfl <;> decide
  have hhex : jsonHexValue c = none := by
    simp only [isAngle, Bool.or_eq_true, beq_iff_eq] at hc
    rcases hc with (rfl | rfl) | rfl <;> decide
  have hunescape : unescape c = none := by
    simp only [isAngle, Bool.or_eq_true, beq_iff_eq] at hc
    rcases hc with (rfl | rfl) | rfl <;> decide
  obtain ⟨hquote, hcomma, hcolon, hopen, hclose, hletter, hbrace, hend⟩ := hne
  have hclosed : ∀ frames : List JsonFrame, close frames c = failed := by
    intro frames
    unfold close
    split
    · exact if_neg hclose
    · exact if_neg hend
    · rfl
  have hstart : ∀ frames : List JsonFrame, startValue frames c = failed := by
    intro frames
    simp [startValue, hquote, hopen, hbrace, htoken]
  have hbehind : ∀ r : JsonReader, behind r c = failed := by
    intro r
    unfold behind
    split
    · rw [hspace, if_neg Bool.false_ne_true, if_neg hcomma, hclosed]
    · rw [hspace, if_neg Bool.false_ne_true]
    · rfl
  cases r with
  | string frames isKey read => exact ⟨frames, isKey, read, rfl⟩
  | value frames => exact absurd (by simp [step, hspace, hstart]) h
  | firstItem frames => exact absurd (by simp [step, hspace, hclose, hstart]) h
  | firstKey frames => exact absurd (by simp [step, hspace, hend, hquote]) h
  | key frames => exact absurd (by simp [step, hspace, hquote]) h
  | colon frames k => exact absurd (by simp [step, hspace, hcolon]) h
  | after frames | done v => exact absurd (by rw [step, hbehind]) h
  | token frames read =>
    refine absurd ?_ h
    rw [step, htoken, if_neg Bool.false_ne_true]
    cases scalar read with
    | none => rfl
    | some v => exact hbehind _
  | escape frames isKey read => exact absurd (by simp [step, hunescape, hletter]) h
  | hex frames isKey read left code => exact absurd (by simp [step, hhex]) h
  | failed => exact absurd rfl h

theorem run_escapeAngles {r : JsonReader} {text : JsString} (h : r.run text ≠ failed) :
    r.run (escapeAngles text) = r.run text := by
  induction text generalizing r with
  | nil => rfl
  | cons c text ih =>
    rw [run, Machine.run_cons] at h
    by_cases hc : isAngle c
    · have hstep : r.step c ≠ failed := fun hfailed => h (by rw [hfailed, ← run, run_failed])
      obtain ⟨frames, isKey, read, rfl⟩ := string_of_step_angle hc hstep
      have hraw : (string frames isKey read).step c = string frames isKey (read ++ [c]) := by
        simp only [isAngle, Bool.or_eq_true, beq_iff_eq] at hc
        rcases hc with (rfl | rfl) | rfl <;> exact step_raw (by decide) (by decide) (by decide)
      rw [escapeAngles, List.flatMap_cons, if_pos hc, angleEscape_eq hc, run_unicodeEscape, run,
        run, Machine.run_cons, hraw]
      exact ih (hraw ▸ h)
    · rw [Bool.not_eq_true] at hc
      rw [escapeAngles_cons_of_not hc, run, Machine.run_cons, run, Machine.run_cons]
      exact ih h

end JsonReader

/-- **The text with the escapes has the same value.** -/
theorem parse_escapeAngles {v : Json} (h : Json.parse text = some v) :
    Json.parse (escapeAngles text) = some v := by
  have hspace : escapeAngles text ++ [32] = escapeAngles (text ++ [32]) := by
    rw [escapeAngles_append]
    rfl
  unfold Json.parse at h ⊢
  rw [hspace, JsonReader.run_escapeAngles]
  · exact h
  · intro hfailed
    rw [hfailed] at h
    cases h

/-! ## Strings, a code point at a time -/

/-- A string as its iterator gives it: the code points, as texts. -/
def characters : JsString → List JsString
  | [] => []
  | [c] => [[c]]
  | c :: d :: rest =>
    if isHighSurrogate c && isLowSurrogate d then [c, d] :: characters rest
    else [c] :: characters (d :: rest)

example : characters [] = [] := by rw [characters]

lemma characters_flatten (s : JsString) : (characters s).flatten = s := by
  induction s using characters.induct with
  | case1 => rfl
  | case2 c => rfl
  | case3 c d rest hpair ih =>
    rw [characters, if_pos hpair, List.flatten_cons, ih]
    rfl
  | case4 c d rest hpair ih =>
    rw [characters, if_neg hpair, List.flatten_cons, ih]
    rfl

/-- What a string has between its quotes, with the escapes. -/
def escapedText (s : JsString) : JsString := escapeAngles (jsonEscape s)

/-- **A string is escaped a code point at a time.** -/
theorem escapedText_eq (s : JsString) : escapedText s = (characters s).flatMap escapedText := by
  induction s using characters.induct with
  | case1 => rfl
  | case2 c => rw [characters, List.flatMap_singleton]
  | case3 c d rest hpair ih =>
    have hpairText : jsonEscape [c, d] = [c, d] := by
      rw [jsonEscape, if_pos hpair]
      rfl
    rw [characters, if_pos hpair, List.flatMap_cons, ← ih, escapedText, escapedText, escapedText,
      hpairText, ← escapeAngles_append, jsonEscape, if_pos hpair]
    rfl
  | case4 c d rest hpair ih =>
    have hunit : jsonEscape (c :: d :: rest) = jsonEscape [c] ++ jsonEscape (d :: rest) :=
      if_neg hpair
    rw [characters, if_neg hpair, List.flatMap_cons, ← ih, escapedText, escapedText, escapedText,
      ← escapeAngles_append, hunit]

lemma characters_append_cons (s : JsString) (hc : isLowSurrogate c = false)
    (t : JsString) : characters (s ++ c :: t) = characters s ++ characters (c :: t) := by
  induction s using characters.induct with
  | case1 => rfl
  | case2 d =>
    have hpair : ¬(isHighSurrogate d && isLowSurrogate c) = true := by
      rw [hc, Bool.and_false]
      exact Bool.false_ne_true
    exact if_neg hpair
  | case3 d e rest hpair ih =>
    rw [List.cons_append, List.cons_append, characters, if_pos hpair, ih, characters, if_pos hpair]
    rfl
  | case4 d e rest hpair ih =>
    rw [List.cons_append, List.cons_append, characters, if_neg hpair, ← List.cons_append, ih,
      characters, if_neg hpair]
    rfl

/-- The first code points of a string are those of the text that they make. -/
lemma characters_flatten_prefix {s : JsString} {front back : List JsString}
    (h : characters s = front ++ back) : characters front.flatten = front := by
  induction s using characters.induct generalizing front with
  | case1 =>
    obtain ⟨rfl, -⟩ := List.append_eq_nil_iff.1 h.symm
    rfl
  | case2 c =>
    cases front with
    | nil => rfl
    | cons text front =>
      obtain ⟨rfl, hfront⟩ := List.cons.inj h
      obtain ⟨rfl, -⟩ := List.append_eq_nil_iff.1 hfront.symm
      rfl
  | case3 c d rest hpair ih =>
    rw [characters, if_pos hpair] at h
    cases front with
    | nil => rfl
    | cons text front =>
      obtain ⟨rfl, hfront⟩ := List.cons.inj h
      change characters (c :: d :: front.flatten) = _
      rw [characters, if_pos hpair, ih hfront]
  | case4 c d rest hpair ih =>
    rw [characters, if_neg hpair] at h
    cases front with
    | nil => rfl
    | cons text front =>
      obtain ⟨rfl, hfront⟩ := List.cons.inj h
      change characters (d :: rest) = front ++ back at hfront
      have hih := ih hfront
      have hflat := congrArg List.flatten hfront
      rw [characters_flatten, List.flatten_append] at hflat
      change characters (c :: front.flatten) = _
      cases hunits : front.flatten with
      | nil =>
        rw [hunits] at hih
        rw [← hih]
        rfl
      | cons e more =>
        rw [hunits] at hflat hih
        obtain rfl : d = e := (List.cons.inj hflat).1
        rw [characters, if_neg hpair, hih]

end Isomux
