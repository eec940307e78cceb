import Isomux.Runtime.JsonText
import Isomux.Foundations.Machine
import Mathlib.Data.Int.Notation

set_option autoImplicit false

/-!
# JSON

A JSON value, the text `JSON.stringify` makes of it, and `JSON.parse`. The parser takes a text unit
by unit: its state is what has to come next and the arrays and objects that are still open. What
becomes of a text that is cut or joined with another one is then a matter of states.

A number is its literal. An object is the list of its members, as the text has them; where a name is
there twice, the last one counts.

## Main results

* `Isomux.Json.run_text` — the parser reads a value off its text, wherever it stands.
* `Isomux.Json.parse_text` — a value survives the way through its text.
-/

namespace Isomux

/-! ## Numbers -/

inductive NumberPart where
  | start
  | minus
  | zero
  | digits
  | point
  | fraction
  | exponent
  | sign
  | power
  | bad
  deriving DecidableEq

variable (c : CodeUnit)

def isJsonDigit : Bool := 48 ≤ c && c ≤ 57

def NumberPart.step : NumberPart → CodeUnit → NumberPart
  | start, c => if c = 45 then minus else if c = 48 then zero else if isJsonDigit c then digits else bad
  | minus, c => if c = 48 then zero else if isJsonDigit c then digits else bad
  | zero, c => if c = 46 then point else if c = 101 || c = 69 then exponent else bad
  | digits, c =>
    if isJsonDigit c then digits else if c = 46 then point
    else if c = 101 || c = 69 then exponent else bad
  | point, c => if isJsonDigit c then fraction else bad
  | fraction, c =>
    if isJsonDigit c then fraction else if c = 101 || c = 69 then exponent else bad
  | exponent, c => if c = 43 || c = 45 then sign else if isJsonDigit c then power else bad
  | sign, c => if isJsonDigit c then power else bad
  | power, c => if isJsonDigit c then power else bad
  | bad, _ => bad

def NumberPart.isEnd : NumberPart → Bool
  | zero => true
  | digits => true
  | fraction => true
  | power => true
  | _ => false

def isNumberLiteral (s : JsString) : Bool := (s.foldl NumberPart.step .start).isEnd

abbrev NumberLiteral := { s : JsString // isNumberLiteral s = true }

def digitUnit (d : Char) : CodeUnit := UInt16.ofNat d.toNat

def decimalDigits (n : ℕ) : JsString := (Nat.toDigits 10 n).map digitUnit

def intText (n : ℤ) : JsString := if n < 0 then 45 :: decimalDigits n.natAbs else decimalDigits n.natAbs

lemma ofNat_digitUnit {d : Char} (h : d.isDigit = true) : Char.ofNat (digitUnit d).toNat = d := by
  have hval : 48 ≤ d.toNat ∧ d.toNat ≤ 57 := by
    simp only [Char.isDigit, Bool.and_eq_true, decide_eq_true_eq, ge_iff_le, UInt32.le_iff_toNat_le] at h
    exact h
  have hnat : (digitUnit d).toNat = d.toNat := by
    simp only [digitUnit, UInt16.toNat_ofNat']
    omega
  rw [hnat, Char.ofNat_toNat]

theorem decimalDigits_injective : Function.Injective decimalDigits := by
  intro n m h
  have hmap : ∀ k, (decimalDigits k).map (fun c => Char.ofNat c.toNat) = Nat.toDigits 10 k := by
    intro k
    rw [decimalDigits, List.map_map]
    refine (List.map_congr_left fun d hd => ?_).trans (List.map_id _)
    exact ofNat_digitUnit (Nat.isDigit_of_mem_toDigits (by decide) (by decide) hd)
  have hdigits : Nat.toDigits 10 n = Nat.toDigits 10 m := by rw [← hmap, ← hmap, h]
  have hvalue := congrArg (Nat.ofDigitChars 10 · 0) hdigits
  simpa using hvalue

lemma foldl_decimalDigits (n : ℕ) {part : NumberPart} (h : part = .start ∨ part = .minus) :
    (decimalDigits n).foldl NumberPart.step part = if n = 0 then .zero else .digits := by
  have hfirst : ∀ d < 10, part.step (digitUnit d.digitChar) = if d = 0 then .zero else .digits := by
    rcases h with rfl | rfl <;> decide
  have hnext : ∀ d < 10, NumberPart.digits.step (digitUnit d.digitChar) = .digits := by decide
  induction n using Nat.strongRecOn with
  | ind n ih =>
    by_cases hlt : n < 10
    · rw [decimalDigits, Nat.toDigits_of_lt_base hlt]
      exact hfirst n hlt
    · have hdigits : decimalDigits n = decimalDigits (n / 10) ++ [digitUnit (n % 10).digitChar] := by
        rw [decimalDigits, Nat.toDigits_of_base_le (by decide) (Nat.not_lt.1 hlt), List.map_append]
        rfl
      rw [hdigits, List.foldl_append, ih (n / 10) (by omega), if_neg (by omega : ¬n / 10 = 0),
        if_neg (by omega : ¬n = 0)]
      exact hnext _ (Nat.mod_lt _ (by decide))

lemma isNumberLiteral_intText (n : ℤ) : isNumberLiteral (intText n) = true := by
  unfold isNumberLiteral intText
  split_ifs
  · rw [List.foldl_cons, show NumberPart.step .start 45 = .minus from rfl,
      foldl_decimalDigits _ (Or.inr rfl)]
    split_ifs <;> rfl
  · rw [foldl_decimalDigits _ (Or.inl rfl)]
    split_ifs <;> rfl

/-! ## Values and their texts -/

inductive Json where
  | null
  | bool (b : Bool)
  | number (literal : NumberLiteral)
  | string (s : JsString)
  | array (items : List Json)
  | object (fields : List (JsString × Json))

namespace Json

mutual

/-- `JSON.stringify(value)`. -/
def text : Json → JsString
  | null => js "null"
  | bool true => js "true"
  | bool false => js "false"
  | number literal => literal.1
  | string s => jsonQuote s
  | array items => 91 :: (itemsText items ++ [93])
  | object fields => 123 :: (fieldsText fields ++ [125])

/-- The items of an array with commas between them. -/
def itemsText : List Json → JsString
  | [] => []
  | [v] => text v
  | v :: w :: items => text v ++ 44 :: itemsText (w :: items)

/-- The members of an object with commas between them. -/
def fieldsText : List (JsString × Json) → JsString
  | [] => []
  | [(k, v)] => jsonQuote k ++ 58 :: text v
  | (k, v) :: f :: fields => jsonQuote k ++ 58 :: (text v ++ 44 :: fieldsText (f :: fields))

end

/-- What an object has under a name: the last member counts. -/
def field : Json → String → Option Json
  | object fields, name => (fields.reverse.find? fun f => f.1 = js name).map Prod.snd
  | _, _ => none

/-- The string that an object has under a name. -/
def str (v : Json) (name : String) : Option JsString :=
  match v.field name with
  | some (.string s) => some s
  | _ => none

def ofInt (n : ℤ) : Json := number ⟨intText n, isNumberLiteral_intText n⟩

/-- Whether a condition takes the value for true. A number is false when all digits before its
exponent are zeros. -/
def isTruthy : Json → Bool
  | null => false
  | bool b => b
  | number literal =>
    (literal.1.takeWhile fun c => c ≠ 101 && c ≠ 69).any fun c => 49 ≤ c && c ≤ 57
  | string s => s ≠ []
  | array _ => true
  | object _ => true

lemma field_cons (k : JsString) (v : Json) (fields : List (JsString × Json)) (name : String) :
    (object ((k, v) :: fields)).field name =
      ((object fields).field name).or (if k = js name then some v else none) := by
  rw [field, field, List.reverse_cons, List.find?_append, Option.map_or, List.find?_singleton]
  congr 1
  by_cases h : k = js name
  · rw [if_pos (decide_eq_true h), if_pos h]
    rfl
  · rw [if_neg (by simpa using h), if_neg h]
    rfl

lemma field_nil (name : String) : (object []).field name = none := rfl

end Json

/-! ## The parser -/

/-- White space between the parts of a text. -/
def isJsonSpace : Bool := c = 32 || c = 9 || c = 10 || c = 13

/-- The units of numbers and of `true`, `false` and `null`. -/
def isTokenUnit : Bool :=
  isJsonDigit c || (97 ≤ c && c ≤ 122) || c = 69 || c = 43 || c = 45 || c = 46

def scalar (token : JsString) : Option Json :=
  if token = js "null" then some .null
  else if token = js "true" then some (.bool true)
  else if token = js "false" then some (.bool false)
  else if h : isNumberLiteral token = true then some (.number ⟨token, h⟩)
  else none

/-- The meaning of a letter behind a backslash. -/
def unescape : Option CodeUnit :=
  if c = 47 then some 47 else (shortEscapes.find? fun e => e.2 = c).map Prod.fst

def jsonHexValue : Option ℕ :=
  if isJsonDigit c then some (c.toNat - 48)
  else if 97 ≤ c && c ≤ 102 then some (c.toNat - 87)
  else if 65 ≤ c && c ≤ 70 then some (c.toNat - 55)
  else none

/-- What is still open: an array, an object, or an object whose next member has its name. -/
inductive JsonFrame where
  | items (items : List Json)
  | fields (fields : List (JsString × Json))
  | member (fields : List (JsString × Json)) (key : JsString)

/-- The state of the parser, with the frames that are open around it. -/
inductive JsonReader where
  | value (frames : List JsonFrame)
  /-- The first item of an array, or its end, has to come. -/
  | firstItem (frames : List JsonFrame)
  /-- The first name of an object, or its end, has to come. -/
  | firstKey (frames : List JsonFrame)
  | key (frames : List JsonFrame)
  | colon (frames : List JsonFrame) (key : JsString)
  | after (frames : List JsonFrame)
  | token (frames : List JsonFrame) (read : JsString)
  | string (frames : List JsonFrame) (isKey : Bool) (read : JsString)
  | escape (frames : List JsonFrame) (isKey : Bool) (read : JsString)
  | hex (frames : List JsonFrame) (isKey : Bool) (read : JsString) (left code : ℕ)
  | done (v : Json)
  | failed

namespace JsonReader

def finish : List JsonFrame → Json → JsonReader
  | [], v => done v
  | .items items :: frames, v => after (.items (items ++ [v]) :: frames)
  | .member fields k :: frames, v => after (.fields (fields ++ [(k, v)]) :: frames)
  | .fields _ :: _, _ => failed

variable (frames : List JsonFrame)

def finishString (isKey : Bool) (s : JsString) : JsonReader :=
  if isKey then colon frames s else finish frames (.string s)

def startValue (c : CodeUnit) : JsonReader :=
  if c = 34 then string frames false []
  else if c = 91 then firstItem (.items [] :: frames)
  else if c = 123 then firstKey (.fields [] :: frames)
  else if isTokenUnit c then token frames [c]
  else failed

def close : List JsonFrame → CodeUnit → JsonReader
  | .items items :: frames, c => if c = 93 then finish frames (.array items) else failed
  | .fields fields :: frames, c => if c = 125 then finish frames (.object fields) else failed
  | _, _ => failed

def comma : List JsonFrame → JsonReader
  | .items items :: frames => value (.items items :: frames)
  | .fields fields :: frames => key (.fields fields :: frames)
  | _ => failed

def behind : JsonReader → CodeUnit → JsonReader
  | after frames, c =>
    if isJsonSpace c then after frames else if c = 44 then comma frames else close frames c
  | done v, c => if isJsonSpace c then done v else failed
  | _, _ => failed

def step : JsonReader → CodeUnit → JsonReader
  | value frames, c => if isJsonSpace c then value frames else startValue frames c
  | firstItem frames, c =>
    if isJsonSpace c then firstItem frames
    else if c = 93 then close frames c else startValue frames c
  | firstKey frames, c =>
    if isJsonSpace c then firstKey frames
    else if c = 125 then close frames c
    else if c = 34 then string frames true [] else failed
  | key frames, c =>
    if isJsonSpace c then key frames else if c = 34 then string frames true [] else failed
  | colon frames k, c =>
    if isJsonSpace c then colon frames k
    else if c = 58 then
      match frames with
      | .fields fields :: frames => value (.member fields k :: frames)
      | _ => failed
    else failed
  | after frames, c => behind (after frames) c
  | token frames read, c =>
    if isTokenUnit c then token frames (read ++ [c])
    else
      match scalar read with
      | some v => behind (finish frames v) c
      | none => failed
  | string frames isKey read, c =>
    if c = 34 then finishString frames isKey read
    else if c = 92 then escape frames isKey read
    else if c < 32 then failed
    else string frames isKey (read ++ [c])
  | escape frames isKey read, c =>
    match unescape c with
    | some d => string frames isKey (read ++ [d])
    | none => if c = 117 then hex frames isKey read 3 0 else failed
  | hex frames isKey read left code, c =>
    match jsonHexValue c with
    | none => failed
    | some d =>
      match left with
      | 0 => string frames isKey (read ++ [UInt16.ofNat (code * 16 + d)])
      | left + 1 => hex frames isKey read left (code * 16 + d)
  | done v, c => behind (done v) c
  | failed, _ => failed

example (c : CodeUnit) : step .failed c = .failed := by rw [step]

abbrev run (r : JsonReader) (text : JsString) : JsonReader := Machine.run step r text

end JsonReader

/-- `JSON.parse(text)`: `none` is the `SyntaxError`. The white space behind the text ends a number
there. -/
def Json.parse (text : JsString) : Option Json :=
  match (JsonReader.value []).run (text ++ [32]) with
  | .done v => some v
  | _ => none

namespace JsonReader

/-! ## Numbers and words -/

lemma foldl_bad (s : JsString) : s.foldl NumberPart.step .bad = .bad := by
  induction s with
  | nil => rfl
  | cons c s ih => exact ih

variable {frames : List JsonFrame} {c : CodeUnit}

lemma numberPart_step_bad {part : NumberPart} (h : isTokenUnit c = false) :
    part.step c = .bad := by
  simp only [isTokenUnit, Bool.or_eq_false_iff, Bool.and_eq_false_imp, decide_eq_true_eq,
    decide_eq_false_iff_not] at h
  obtain ⟨⟨⟨⟨⟨hdigit, hletter⟩, hupper⟩, hplus⟩, hminus⟩, hpoint⟩ := h
  have hzero : c ≠ 48 := by
    rintro rfl
    exact absurd hdigit (by decide)
  have hlower : c ≠ 101 := by
    rintro rfl
    exact absurd (hletter (by decide)) (by decide)
  cases part <;> simp [NumberPart.step, hdigit, hzero, hlower, hupper, hplus, hminus, hpoint]

lemma isTokenUnit_of_number {s : JsString} (h : isNumberLiteral s = true) :
    ∀ c ∈ s, isTokenUnit c = true := by
  intro c hc
  by_contra hnot
  obtain ⟨front, rest, rfl⟩ := List.append_of_mem hc
  rw [isNumberLiteral, List.foldl_append, List.foldl_cons,
    numberPart_step_bad (Bool.eq_false_iff.2 hnot), foldl_bad] at h
  exact absurd h (by decide)

lemma scalar_number (literal : NumberLiteral) : scalar literal.1 = some (.number literal) := by
  obtain ⟨s, h⟩ := literal
  have hword : ∀ word : JsString, isNumberLiteral word = false → s ≠ word := by
    rintro word hno rfl
    exact absurd (hno.symm.trans h) (by decide)
  simp only [scalar]
  rw [if_neg (hword _ (by decide)), if_neg (hword _ (by decide)), if_neg (hword _ (by decide)),
    dif_pos h]

lemma number_ne_nil (literal : NumberLiteral) : literal.1 ≠ [] := by
  intro h
  have hliteral := literal.2
  rw [h] at hliteral
  exact absurd hliteral (by decide)

@[simp] lemma run_failed (text : JsString) : failed.run text = failed := by
  induction text with
  | nil => rfl
  | cons c text ih => exact ih

lemma run_token {read token : JsString}
    (h : ∀ c ∈ token, isTokenUnit c = true) (rest : JsString) :
    (JsonReader.token frames read).run (token ++ rest) =
      (JsonReader.token frames (read ++ token)).run rest := by
  induction token generalizing read with
  | nil => rw [List.nil_append, List.append_nil]
  | cons c token ih =>
    rw [List.cons_append, run, Machine.run_cons, step, if_pos (h c List.mem_cons_self),
      List.append_cons read c token]
    exact ih fun d hd => h d (List.mem_cons_of_mem _ hd)

lemma step_finish (frames : List JsonFrame) (v : Json) (c : CodeUnit) :
    (finish frames v).step c = behind (finish frames v) c := by
  cases frames with
  | nil => rfl
  | cons frame frames => cases frame <;> rfl

lemma run_scalar {token : JsString} {v : Json}
    (hne : token ≠ []) (hall : token.all isTokenUnit = true) (hscalar : scalar token = some v)
    (hc : isTokenUnit c = false) (rest : JsString) :
    (value frames).run (token ++ c :: rest) = (finish frames v).run (c :: rest) := by
  have hunits := List.all_eq_true.1 hall
  obtain ⟨d, token, rfl⟩ := List.exists_cons_of_ne_nil hne
  have hd := hunits d List.mem_cons_self
  have hstart : (value frames).step d = JsonReader.token frames [d] := by
    have hother : ∀ e : CodeUnit, isTokenUnit e = false → d ≠ e := by
      rintro e he rfl
      exact absurd (he.symm.trans hd) (by decide)
    simp only [step, startValue, isJsonSpace, hother 32 (by decide), hother 9 (by decide),
      hother 10 (by decide), hother 13 (by decide), hother 34 (by decide), hother 91 (by decide),
      hother 123 (by decide), hd, decide_false, Bool.or_self, Bool.false_eq_true, if_false, if_true]
  rw [List.cons_append, run, Machine.run_cons, hstart,
    ← run, run_token fun e he => hunits e (List.mem_cons_of_mem _ he)]
  simp only [run, Machine.run_cons]
  rw [step_finish, step, if_neg (by rw [hc]; decide), List.singleton_append, hscalar]

/-! ## Strings -/

lemma jsonHexValue_lowerHexDigit {n : ℕ} (h : n < 16) : jsonHexValue (lowerHexDigit n) = some n := by
  have hall : ∀ n < 16, jsonHexValue (lowerHexDigit n) = some n := by decide
  exact hall n h

lemma step_raw {isKey : Bool} {read : JsString}
    (hquote : c ≠ 34) (hslash : c ≠ 92) (hcontrol : ¬ c < 32) :
    (JsonReader.string frames isKey read).step c = string frames isKey (read ++ [c]) := by
  rw [step, if_neg hquote, if_neg hslash, if_neg hcontrol]

lemma run_unicodeEscape (frames : List JsonFrame) (isKey : Bool) (read : JsString) (c : CodeUnit)
    (rest : JsString) : (JsonReader.string frames isKey read).run (unicodeEscape c ++ rest) =
      (JsonReader.string frames isKey (read ++ [c])).run rest := by
  have hc : c.toNat < 65536 := c.toNat_lt
  have hcode : UInt16.ofNat ((((0 * 16 + c.toNat / 4096) * 16 + c.toNat / 256 % 16) * 16 +
      c.toNat / 16 % 16) * 16 + c.toNat % 16) = c := by
    rw [← UInt16.toNat_inj, UInt16.toNat_ofNat']
    omega
  simp only [unicodeEscape, List.cons_append, List.nil_append, run, Machine.run_cons]
  have hslash : (JsonReader.string frames isKey read).step 92 = escape frames isKey read := rfl
  have hletter : (escape frames isKey read).step 117 = hex frames isKey read 3 0 := rfl
  rw [hslash, hletter]
  simp only [step, jsonHexValue_lowerHexDigit (show c.toNat / 4096 < 16 by omega),
    jsonHexValue_lowerHexDigit (Nat.mod_lt _ (show 0 < 16 by omega)), hcode]

lemma run_escapeUnit (frames : List JsonFrame) (isKey : Bool) (read : JsString) (c : CodeUnit)
    (rest : JsString) : (JsonReader.string frames isKey read).run (escapeUnit c ++ rest) =
      (JsonReader.string frames isKey (read ++ [c])).run rest := by
  unfold escapeUnit
  cases hletter : escapeLetter c with
  | some letter =>
    have hall : shortEscapes.all (fun e => unescape e.2 = some e.1) = true := by decide
    have hback : unescape letter = some c :=
      of_decide_eq_true (List.all_eq_true.1 hall _ (mem_shortEscapes hletter))
    dsimp only
    rw [List.cons_append, List.cons_append, List.nil_append, run, Machine.run_cons,
      Machine.run_cons]
    have hslash : (JsonReader.string frames isKey read).step 92 = escape frames isKey read := rfl
    rw [hslash, step, hback]
  | none =>
    dsimp only
    split_ifs with hlong
    · exact run_unicodeEscape frames isKey read c rest
    · simp only [Bool.or_eq_true, decide_eq_true_eq, not_or] at hlong
      have hquote : c ≠ 34 := by
        rintro rfl
        exact absurd hletter (by decide)
      have hslash : c ≠ 92 := by
        rintro rfl
        exact absurd hletter (by decide)
      rw [List.singleton_append, run, Machine.run_cons, step_raw hquote hslash hlong.1]

lemma step_surrogate {isKey : Bool} {read : JsString}
    (h : isSurrogate c = true) :
    (JsonReader.string frames isKey read).step c = string frames isKey (read ++ [c]) := by
  refine step_raw ?_ ?_ ?_
  · rintro rfl
    exact absurd h (by decide)
  · rintro rfl
    exact absurd h (by decide)
  · intro hcontrol
    have hlt := UInt16.lt_iff_toNat_lt.1 hcontrol
    simp only [isSurrogate, isHighSurrogate, isLowSurrogate, Bool.or_eq_true, Bool.and_eq_true,
      decide_eq_true_eq, UInt16.le_iff_toNat_le] at h
    simp only [UInt16.reduceToNat] at hlt h
    omega

lemma run_jsonEscape (frames : List JsonFrame) (isKey : Bool) (read s rest : JsString) :
    (JsonReader.string frames isKey read).run (jsonEscape s ++ rest) =
      (JsonReader.string frames isKey (read ++ s)).run rest := by
  induction s using jsonEscape.induct generalizing read with
  | case1 => rw [jsonEscape, List.nil_append, List.append_nil]
  | case2 c => rw [jsonEscape, run_escapeUnit]
  | case3 c d s hpair ih =>
    obtain ⟨hhigh, hlow⟩ := Bool.and_eq_true_iff.1 hpair
    have hc : isSurrogate c = true := by rw [isSurrogate, hhigh, Bool.true_or]
    have hd : isSurrogate d = true := by rw [isSurrogate, hlow, Bool.or_true]
    rw [jsonEscape, if_pos hpair, List.cons_append, List.cons_append, run, Machine.run_cons,
      Machine.run_cons, step_surrogate hc, step_surrogate hd]
    rw [← run, ih]
    simp
  | case4 c d s hpair ih =>
    rw [jsonEscape, if_neg hpair, List.append_assoc, run_escapeUnit, ih]
    simp

lemma run_jsonQuote_key {r : JsonReader}
    (hr : r = firstKey frames ∨ r = key frames) (k rest : JsString) :
    r.run (jsonQuote k ++ rest) = (colon frames k).run rest := by
  have hquote : r.step 34 = string frames true [] := by
    rcases hr with rfl | rfl <;> rfl
  rw [jsonQuote, List.cons_append, run, Machine.run_cons, hquote, ← run, List.append_assoc,
    run_jsonEscape]
  rfl

lemma run_jsonQuote (frames : List JsonFrame) (s rest : JsString) :
    (value frames).run (jsonQuote s ++ rest) = (finish frames (.string s)).run rest := by
  have hquote : (value frames).step 34 = string frames false [] := rfl
  rw [jsonQuote, List.cons_append, run, Machine.run_cons, hquote, ← run, List.append_assoc,
    run_jsonEscape]
  rfl

/-! ## Whole values -/

lemma step_firstItem (frames : List JsonFrame) (v : Json) :
    ∃ c rest, v.text = c :: rest ∧ (firstItem frames).step c = (value frames).step c := by
  have hstep : ∀ c : CodeUnit, c ≠ 93 → (firstItem frames).step c = (value frames).step c ∨
      isJsonSpace c = true := by
    intro c hc
    by_cases hspace : isJsonSpace c = true
    · exact Or.inr hspace
    · simp only [step, hspace, hc, Bool.false_eq_true, if_false, true_or]
  have hknown : ∀ c : CodeUnit, c ≠ 93 → isJsonSpace c = false →
      (firstItem frames).step c = (value frames).step c := fun c hc hspace =>
    (hstep c hc).resolve_right (by rw [hspace]; decide)
  cases v with
  | null => exact ⟨110, js "ull", rfl, hknown _ (by decide) (by decide)⟩
  | bool b =>
    cases b with
    | true => exact ⟨116, js "rue", rfl, hknown _ (by decide) (by decide)⟩
    | false => exact ⟨102, js "alse", rfl, hknown _ (by decide) (by decide)⟩
  | number literal =>
    obtain ⟨c, rest, hcons⟩ := List.exists_cons_of_ne_nil (number_ne_nil literal)
    have hunit : isTokenUnit c = true :=
      isTokenUnit_of_number literal.2 c (by rw [hcons]; exact List.mem_cons_self)
    refine ⟨c, rest, hcons, hknown c ?_ ?_⟩
    · rintro rfl
      exact absurd hunit (by decide)
    · by_contra hspace
      simp only [isJsonSpace, Bool.not_eq_false, Bool.or_eq_true, decide_eq_true_eq] at hspace
      rcases hspace with ((rfl | rfl) | rfl) | rfl <;> exact absurd hunit (by decide)
  | string s => exact ⟨34, _, rfl, hknown _ (by decide) (by decide)⟩
  | array items => exact ⟨91, _, rfl, hknown _ (by decide) (by decide)⟩
  | object fields => exact ⟨123, _, rfl, hknown _ (by decide) (by decide)⟩

mutual

/-- **A value is read off its text**, whatever is open around it, up to a unit behind it that is no
part of a token. -/
theorem run_text : ∀ (v : Json) (frames : List JsonFrame) {c : CodeUnit},
    isTokenUnit c = false → ∀ rest : JsString,
      (value frames).run (v.text ++ c :: rest) = (finish frames v).run (c :: rest)
  | .null, _, _, hc, rest => run_scalar (by decide) (by decide) rfl hc rest
  | .bool true, _, _, hc, rest => run_scalar (by decide) (by decide) rfl hc rest
  | .bool false, _, _, hc, rest => run_scalar (by decide) (by decide) rfl hc rest
  | .number literal, _, _, hc, rest =>
    run_scalar (number_ne_nil literal) (List.all_eq_true.2 (isTokenUnit_of_number literal.2))
      (scalar_number literal) hc rest
  | .string s, frames, c, _, rest => run_jsonQuote frames s (c :: rest)
  | .array items, frames, c, _, rest => by
    have hopen : (value frames).step 91 = firstItem (.items [] :: frames) := rfl
    have hitems := run_itemsText items [] frames
    rw [Json.text, List.cons_append, run, Machine.run_cons, hopen, ← run, List.append_assoc,
      List.singleton_append]
    cases items with
    | nil => rfl
    | cons v items =>
      obtain ⟨d, text, htext, hstep⟩ := step_firstItem (.items [] :: frames) v
      obtain ⟨more, hmore⟩ : ∃ more, Json.itemsText (v :: items) = d :: more := by
        cases items with
        | nil => exact ⟨text, htext⟩
        | cons w items => exact ⟨text ++ 44 :: Json.itemsText (w :: items), by
            rw [Json.itemsText, htext, List.cons_append]⟩
      have hfirst := hitems (List.cons_ne_nil _ _) (c :: rest)
      rw [hmore, List.cons_append, run, Machine.run_cons] at hfirst ⊢
      rw [hstep]
      exact hfirst
  | .object fields, frames, c, _, rest => by
    have hopen : (value frames).step 123 = firstKey (.fields [] :: frames) := rfl
    have hfields := run_fieldsText fields [] frames
    rw [Json.text, List.cons_append, run, Machine.run_cons, hopen, ← run, List.append_assoc,
      List.singleton_append]
    cases fields with
    | nil => rfl
    | cons f fields => exact hfields (List.cons_ne_nil _ _) _ (Or.inl rfl) (c :: rest)
termination_by structural v => v

theorem run_itemsText : ∀ (items read : List Json) (frames : List JsonFrame), items ≠ [] →
    ∀ rest : JsString, (value (.items read :: frames)).run (Json.itemsText items ++ 93 :: rest) =
      (finish frames (.array (read ++ items))).run rest
  | [], _, _, hne, _ => absurd rfl hne
  | [v], read, frames, _, rest => by
    rw [Json.itemsText, run_text v _ (by decide)]
    rfl
  | v :: w :: items, read, frames, _, rest => by
    have hcomma : (finish (.items read :: frames) v).step 44 =
        value (.items (read ++ [v]) :: frames) := rfl
    rw [Json.itemsText, List.append_assoc, List.cons_append, run_text v _ (by decide), run,
      Machine.run_cons, hcomma, ← run, run_itemsText (w :: items) _ _ (List.cons_ne_nil _ _),
      List.append_assoc]
    rfl
termination_by structural items => items

theorem run_fieldsText : ∀ (fields read : List (JsString × Json)) (frames : List JsonFrame),
    fields ≠ [] → ∀ r : JsonReader,
      r = firstKey (.fields read :: frames) ∨ r = key (.fields read :: frames) → ∀ rest : JsString,
        r.run (Json.fieldsText fields ++ 125 :: rest) =
          (finish frames (.object (read ++ fields))).run rest
  | [], _, _, hne, _, _, _ => absurd rfl hne
  | [(k, v)], read, frames, _, r, hr, rest => by
    have hcolon : (colon (.fields read :: frames) k).step 58 = value (.member read k :: frames) := rfl
    rw [Json.fieldsText, List.append_assoc, List.cons_append, run_jsonQuote_key hr, run,
      Machine.run_cons, hcolon, ← run, run_text v _ (by decide)]
    rfl
  | (k, v) :: f :: fields, read, frames, _, r, hr, rest => by
    have hcolon : (colon (.fields read :: frames) k).step 58 = value (.member read k :: frames) := rfl
    have hcomma : (finish (.member read k :: frames) v).step 44 =
        key (.fields (read ++ [(k, v)]) :: frames) := rfl
    rw [Json.fieldsText, List.append_assoc, List.cons_append, List.append_assoc, List.cons_append,
      run_jsonQuote_key hr, run, Machine.run_cons, hcolon, ← run, run_text v _ (by decide), run,
      Machine.run_cons, hcomma, ← run,
      run_fieldsText (f :: fields) _ _ (List.cons_ne_nil _ _) _ (Or.inr rfl), List.append_assoc]
    rfl
termination_by structural fields => fields

end

end JsonReader

/-- **A value survives the way through its text.** -/
theorem Json.parse_text (v : Json) : Json.parse v.text = some v := by
  rw [Json.parse, JsonReader.run_text v [] (by decide)]
  rfl

example : (Json.parse (js " [ 1, -2.5e3 , null ] ")).map Json.text = some (js "[1,-2.5e3,null]") := by
  decide +kernel

end Isomux
