import Isomux.Runtime.Text

set_option autoImplicit false

/-!
# JSON texts of strings

`JSON.stringify` of a string and of an array of strings. A text determines what it is a text of.

## Main results

* `Isomux.jsonStrings_injective` — the text of an array of strings determines the array.
-/

namespace Isomux

variable (c : CodeUnit)

def isSurrogate : Bool := isHighSurrogate c || isLowSurrogate c

def lowerHexDigit (n : ℕ) : CodeUnit := (js "0123456789abcdef").getD n 0

/-- `\u` and the four digits of a code unit. -/
def unicodeEscape : JsString :=
  let n := c.toNat
  [92, 117, lowerHexDigit (n / 4096), lowerHexDigit (n / 256 % 16), lowerHexDigit (n / 16 % 16),
    lowerHexDigit (n % 16)]

/-- The short escapes: code units and their letters. -/
def shortEscapes : List (CodeUnit × CodeUnit) :=
  [(8, 98), (9, 116), (10, 110), (12, 102), (13, 114), (34, 34), (92, 92)]

/-- The letter of the short escape of a code unit. -/
def escapeLetter : Option CodeUnit :=
  (shortEscapes.find? fun e => e.1 = c).map Prod.snd

/-- A code unit that is not one of a pair of surrogates. -/
def escapeUnit : JsString :=
  match escapeLetter c with
  | some letter => [92, letter]
  | none => if c < 32 || isSurrogate c then unicodeEscape c else [c]

def jsonEscape : JsString → JsString
  | [] => []
  | [c] => escapeUnit c
  | c :: d :: rest =>
    if isHighSurrogate c && isLowSurrogate d then c :: d :: jsonEscape rest
    else escapeUnit c ++ jsonEscape (d :: rest)

/-- `JSON.stringify` of a string. -/
def jsonQuote (s : JsString) : JsString := 34 :: (jsonEscape s ++ [34])

def commaJoin : List JsString → JsString
  | [] => []
  | [s] => s
  | s :: t :: rest => s ++ 44 :: commaJoin (t :: rest)

/-- `JSON.stringify` of an array of strings. -/
def jsonStrings (list : List JsString) : JsString := 91 :: (commaJoin (list.map jsonQuote) ++ [93])

example : jsonStrings [js "a\"", js "\n"] = js "[\"a\\\"\",\"\\n\"]" := by decide

/-! ## A text determines its string -/

inductive UnitText (c : CodeUnit) : JsString → Prop where
  | raw (hquote : c ≠ 34) (hslash : c ≠ 92) : UnitText c [c]
  | short (letter : CodeUnit) (h : escapeLetter c = some letter) : UnitText c [92, letter]
  | unicode : UnitText c (unicodeEscape c)

lemma UnitText.head_ne {c : CodeUnit} {text rest rest' : JsString} (h : UnitText c text) :
    text ++ rest ≠ 34 :: rest' := by
  cases h with
  | raw hquote hslash => exact fun heq => hquote (List.cons.inj heq).1
  | short letter h | unicode => exact fun heq => absurd (List.cons.inj heq).1 (by decide)

lemma mem_shortEscapes {c letter : CodeUnit} (h : escapeLetter c = some letter) :
    (c, letter) ∈ shortEscapes := by
  obtain ⟨e, hfind, rfl⟩ := Option.map_eq_some_iff.1 h
  obtain rfl : e.1 = c := by simpa using List.find?_some hfind
  exact List.mem_of_find?_eq_some hfind

lemma escapeLetter_ne : escapeLetter c ≠ some 117 := by
  intro h
  have hall : shortEscapes.all (fun e => e.2 ≠ 117) = true := by decide
  exact absurd rfl (of_decide_eq_true (List.all_eq_true.1 hall _ (mem_shortEscapes h)))

lemma escapeLetter_inj {c d letter : CodeUnit} (hc : escapeLetter c = some letter)
    (hd : escapeLetter d = some letter) : c = d := by
  have hall : shortEscapes.all (fun e => shortEscapes.all fun e' => e.2 = e'.2 → e.1 = e'.1) =
      true := by decide
  have hrow := List.all_eq_true.1 hall _ (mem_shortEscapes hc)
  exact of_decide_eq_true (List.all_eq_true.1 hrow _ (mem_shortEscapes hd)) rfl

lemma lowerHexDigit_inj {m n : ℕ} (hm : m < 16) (hn : n < 16)
    (h : lowerHexDigit m = lowerHexDigit n) : m = n := by
  have hall : ∀ m < 16, ∀ n < 16, lowerHexDigit m = lowerHexDigit n → m = n := by decide
  exact hall m hm n hn h

lemma unicodeEscape_inj {c d : CodeUnit} {rest rest' : JsString}
    (h : unicodeEscape c ++ rest = unicodeEscape d ++ rest') : c = d ∧ rest = rest' := by
  simp only [unicodeEscape, List.cons_append, List.nil_append, List.cons.injEq, true_and] at h
  obtain ⟨h₁, h₂, h₃, h₄, hrest⟩ := h
  have hc : c.toNat < 65536 := c.toNat_lt
  have hd : d.toNat < 65536 := d.toNat_lt
  have e₁ := lowerHexDigit_inj (by omega) (by omega) h₁
  have e₂ := lowerHexDigit_inj (by omega) (by omega) h₂
  have e₃ := lowerHexDigit_inj (by omega) (by omega) h₃
  have e₄ := lowerHexDigit_inj (by omega) (by omega) h₄
  exact ⟨UInt16.toNat_inj.1 (by omega), hrest⟩

lemma UnitText.inj {c d : CodeUnit} {text text' rest rest' : JsString} (hc : UnitText c text)
    (hd : UnitText d text') (h : text ++ rest = text' ++ rest') : c = d ∧ rest = rest' := by
  cases hc with
  | raw hquote hslash =>
    cases hd with
    | raw hquote' hslash' => exact List.cons.inj h
    | short letter' h' | unicode => exact absurd (List.cons.inj h).1 hslash
  | short letter hletter =>
    cases hd with
    | raw hquote' hslash' => exact absurd (List.cons.inj h).1.symm hslash'
    | short letter' hletter' =>
      obtain ⟨rfl, hrest⟩ := List.cons.inj (List.cons.inj h).2
      exact ⟨escapeLetter_inj hletter hletter', hrest⟩
    | unicode =>
      obtain rfl : letter = 117 := (List.cons.inj (List.cons.inj h).2).1
      exact absurd hletter (escapeLetter_ne c)
  | unicode =>
    cases hd with
    | raw hquote' hslash' => exact absurd (List.cons.inj h).1.symm hslash'
    | short letter' hletter' =>
      obtain rfl : 117 = letter' := (List.cons.inj (List.cons.inj h).2).1
      exact absurd hletter' (escapeLetter_ne d)
    | unicode => exact unicodeEscape_inj h

lemma unitText_escapeUnit : UnitText c (escapeUnit c) := by
  unfold escapeUnit
  split
  · next letter h => exact .short letter h
  · next h =>
    split_ifs
    · exact .unicode
    · refine .raw ?_ ?_
      · rintro rfl
        exact absurd h (by decide)
      · rintro rfl
        exact absurd h (by decide)

lemma unitText_surrogate {c : CodeUnit} (h : isSurrogate c = true) : UnitText c [c] := by
  refine .raw ?_ ?_
  · rintro rfl
    exact absurd h (by decide)
  · rintro rfl
    exact absurd h (by decide)

lemma jsonEscape_units : ∀ s : JsString, ∃ texts : List JsString,
    List.Forall₂ UnitText s texts ∧ jsonEscape s = texts.flatten
  | [] => ⟨[], .nil, rfl⟩
  | [c] => ⟨[escapeUnit c], .cons (unitText_escapeUnit c) .nil, by simp [jsonEscape]⟩
  | c :: d :: rest => by
    by_cases hpair : (isHighSurrogate c && isLowSurrogate d) = true
    · obtain ⟨texts, htexts, heq⟩ := jsonEscape_units rest
      obtain ⟨hhigh, hlow⟩ := Bool.and_eq_true_iff.1 hpair
      have hc : isSurrogate c = true := by rw [isSurrogate, hhigh, Bool.true_or]
      have hd : isSurrogate d = true := by rw [isSurrogate, hlow, Bool.or_true]
      refine ⟨[c] :: [d] :: texts,
        .cons (unitText_surrogate hc) (.cons (unitText_surrogate hd) htexts), ?_⟩
      rw [jsonEscape, if_pos hpair, heq]
      rfl
    · obtain ⟨texts, htexts, heq⟩ := jsonEscape_units (d :: rest)
      refine ⟨escapeUnit c :: texts, .cons (unitText_escapeUnit c) htexts, ?_⟩
      rw [jsonEscape, if_neg hpair, heq]
      rfl

lemma jsonEscape_inj {s t rest rest' : JsString}
    (h : jsonEscape s ++ 34 :: rest = jsonEscape t ++ 34 :: rest') : s = t ∧ rest = rest' := by
  obtain ⟨texts, htexts, hs⟩ := jsonEscape_units s
  obtain ⟨texts', htexts', ht⟩ := jsonEscape_units t
  rw [hs, ht] at h
  clear hs ht
  induction htexts generalizing t texts' with
  | nil =>
    cases htexts' with
    | nil => exact ⟨rfl, (List.cons.inj h).2⟩
    | cons hd _ =>
      rw [List.flatten_cons, List.append_assoc] at h
      exact absurd h.symm hd.head_ne
  | cons hc _ ih =>
    cases htexts' with
    | nil =>
      rw [List.flatten_cons, List.append_assoc] at h
      exact absurd h hc.head_ne
    | cons hd htexts' =>
      rw [List.flatten_cons, List.append_assoc, List.flatten_cons, List.append_assoc] at h
      obtain ⟨rfl, hrest⟩ := hc.inj hd h
      obtain ⟨rfl, hrest⟩ := ih _ hrest htexts'
      exact ⟨rfl, hrest⟩

lemma jsonQuote_inj {s t rest rest' : JsString}
    (h : jsonQuote s ++ rest = jsonQuote t ++ rest') : s = t ∧ rest = rest' := by
  have hbody : jsonEscape s ++ [34] ++ rest = jsonEscape t ++ [34] ++ rest' := (List.cons.inj h).2
  rw [List.append_assoc, List.append_assoc] at hbody
  exact jsonEscape_inj hbody

lemma commaJoin_inj : ∀ list list' : List JsString,
    commaJoin (list.map jsonQuote) ++ [93] = commaJoin (list'.map jsonQuote) ++ [93] → list = list'
  | [], [], _ => rfl
  | [], [t], h => absurd (List.cons.inj h).1 (by decide)
  | [], t :: t' :: list', h => absurd (List.cons.inj h).1 (by decide)
  | [s], [], h => absurd (List.cons.inj h).1 (by decide)
  | s :: s' :: list, [], h => absurd (List.cons.inj h).1 (by decide)
  | [s], [t], h => by rw [(jsonQuote_inj h).1]
  | [s], t :: t' :: list', h => by
    simp only [List.map_cons, commaJoin, List.append_assoc, List.cons_append] at h
    exact absurd (List.cons.inj (jsonQuote_inj h).2).1 (by decide)
  | s :: s' :: list, [t], h => by
    simp only [List.map_cons, commaJoin, List.append_assoc, List.cons_append] at h
    exact absurd (List.cons.inj (jsonQuote_inj h).2).1 (by decide)
  | s :: s' :: list, t :: t' :: list', h => by
    simp only [List.map_cons, commaJoin, List.append_assoc, List.cons_append] at h
    obtain ⟨rfl, hrest⟩ := jsonQuote_inj h
    rw [commaJoin_inj (s' :: list) (t' :: list') (List.cons.inj hrest).2]

/-- **The text of an array of strings determines the array.** -/
theorem jsonStrings_injective : Function.Injective jsonStrings := by
  intro list list' h
  exact commaJoin_inj list list' (List.cons.inj h).2

end Isomux
