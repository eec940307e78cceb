import Isomux.Runtime.JsonPrefix
import Isomux.Runtime.Utf8Cuts

set_option autoImplicit false

/-!
# Files of JSON lines

A file of JSON lines grows by one line at a time, and every line is the text of an object and a line
feed. The text of an object has no line feed and no lone surrogate. When the process dies in the
middle of a line the next one is joined to what is there, and the two of them are one line, which is
no JSON.

## Main results

* `Isomux.Json.isPrintable_text` — what the text of a value is made of.
* `Isomux.splitOn_lines` — the lines of a file whose first lines are complete.
* `Isomux.exists_torn` — what is read where a line was cut.
* `Isomux.parse_torn`, `Isomux.parse_joined` — such a line is no JSON.
-/

namespace Isomux

/-! ## Strings without lone surrogates -/

lemma isWellFormed_unit {c : CodeUnit} (h : isSurrogate c = false) : JsString.IsWellFormed [c] := by
  have hlt : c.toNat < 65536 := c.toNat_lt
  simp only [isSurrogate, isHighSurrogate, isLowSurrogate, Bool.or_eq_false_iff,
    Bool.and_eq_false_imp, decide_eq_true_eq, decide_eq_false_iff_not, UInt16.le_iff_toNat_le] at h
  simp only [UInt16.reduceToNat] at h
  refine ⟨[c.toNat], fun p hp => ?_, ?_⟩
  · rw [List.mem_singleton.1 hp]
    unfold IsScalar
    omega
  · rw [List.flatMap_singleton, codeUnits, if_pos hlt, UInt16.ofNat_toNat]

lemma isWellFormed_pair {c d : CodeUnit} (hc : isHighSurrogate c = true)
    (hd : isLowSurrogate d = true) : JsString.IsWellFormed [c, d] := by
  simp only [isHighSurrogate, isLowSurrogate, Bool.and_eq_true, decide_eq_true_eq,
    UInt16.le_iff_toNat_le] at hc hd
  simp only [UInt16.reduceToNat] at hc hd
  refine ⟨[surrogatePair c d], fun p hp => ?_, ?_⟩
  · rw [List.mem_singleton.1 hp]
    unfold IsScalar surrogatePair
    omega
  · rw [List.flatMap_singleton, codeUnits, if_neg (by unfold surrogatePair; omega)]
    unfold surrogatePair
    rw [List.cons.injEq, List.cons.injEq, ← UInt16.toNat_inj, ← UInt16.toNat_inj,
      UInt16.toNat_ofNat', UInt16.toNat_ofNat']
    refine ⟨?_, ?_, rfl⟩ <;> omega

lemma isWellFormed_of_units {s : JsString} (h : ∀ c ∈ s, isSurrogate c = false) :
    s.IsWellFormed := by
  induction s with
  | nil => exact JsString.isWellFormed_nil
  | cons c s ih =>
    exact (isWellFormed_unit (h c List.mem_cons_self)).append
      (ih fun d hd => h d (List.mem_cons_of_mem c hd))

/-! ## The texts of values -/

def IsTextUnit (c : CodeUnit) : Prop := 32 ≤ c

instance (c : CodeUnit) : Decidable (IsTextUnit c) := inferInstanceAs (Decidable (_ ≤ _))

/-- What the text of a value is made of: no control, and no lone surrogate. -/
def JsString.IsPrintable (s : JsString) : Prop := (∀ c ∈ s, IsTextUnit c) ∧ s.IsWellFormed

lemma JsString.IsPrintable.append {s t : JsString} (hs : s.IsPrintable) (ht : t.IsPrintable) :
    JsString.IsPrintable (s ++ t) :=
  ⟨fun c hc => (List.mem_append.1 hc).elim (hs.1 c) (ht.1 c), hs.2.append ht.2⟩

lemma isPrintable_of_units {s : JsString} (h : ∀ c ∈ s, IsTextUnit c ∧ isSurrogate c = false) :
    s.IsPrintable :=
  ⟨fun c hc => (h c hc).1, isWellFormed_of_units fun c hc => (h c hc).2⟩

lemma isPrintable_of_all {s : JsString}
    (h : s.all (fun c => IsTextUnit c ∧ isSurrogate c = false) = true) : s.IsPrintable :=
  isPrintable_of_units fun c hc => of_decide_eq_true (List.all_eq_true.1 h c hc)

lemma isPrintable_unit {c : CodeUnit} (hc : IsTextUnit c) (hsurrogate : isSurrogate c = false) :
    JsString.IsPrintable [c] :=
  isPrintable_of_units fun _ hd => List.mem_singleton.1 hd ▸ ⟨hc, hsurrogate⟩

lemma JsString.IsPrintable.cons {c : CodeUnit} {s : JsString} (hs : s.IsPrintable)
    (hc : IsTextUnit c) (hsurrogate : isSurrogate c = false) : JsString.IsPrintable (c :: s) :=
  (isPrintable_unit hc hsurrogate).append hs

lemma escapeUnit_units (c : CodeUnit) : ∀ d ∈ escapeUnit c, IsTextUnit d ∧ isSurrogate d = false := by
  have hdigit : ∀ n, n < 16 → IsTextUnit (lowerHexDigit n) ∧ isSurrogate (lowerHexDigit n) = false := by
    decide
  have hc : c.toNat < 65536 := c.toNat_lt
  intro d hd
  unfold escapeUnit at hd
  cases hletter : escapeLetter c with
  | some letter =>
    have hall : shortEscapes.all (fun e => IsTextUnit e.2 ∧ isSurrogate e.2 = false) = true := by
      decide
    rw [hletter] at hd
    rcases List.mem_cons.1 hd with rfl | hd
    · decide
    · rw [List.mem_singleton.1 hd]
      exact of_decide_eq_true (List.all_eq_true.1 hall _ (mem_shortEscapes hletter))
  | none =>
    rw [hletter] at hd
    dsimp only at hd
    split_ifs at hd with hlong
    · simp only [unicodeEscape, List.mem_cons, List.not_mem_nil, or_false] at hd
      rcases hd with rfl | rfl | rfl | rfl | rfl | rfl
      · decide
      · decide
      · exact hdigit _ (by omega)
      · exact hdigit _ (Nat.mod_lt _ (by decide))
      · exact hdigit _ (Nat.mod_lt _ (by decide))
      · exact hdigit _ (Nat.mod_lt _ (by decide))
    · simp only [Bool.or_eq_true, decide_eq_true_eq, not_or, Bool.not_eq_true] at hlong
      rw [List.mem_singleton.1 hd]
      exact ⟨UInt16.not_lt.1 hlong.1, hlong.2⟩

lemma isPrintable_escapeUnit (c : CodeUnit) : (escapeUnit c).IsPrintable :=
  isPrintable_of_units (escapeUnit_units c)

lemma isPrintable_jsonEscape (s : JsString) : (jsonEscape s).IsPrintable := by
  induction s using jsonEscape.induct with
  | case1 => exact isPrintable_of_units (by rintro _ ⟨⟩)
  | case2 c => exact isPrintable_escapeUnit c
  | case3 c d s hpair ih =>
    obtain ⟨hc, hd⟩ := Bool.and_eq_true_iff.1 hpair
    have htext : ∀ e : CodeUnit, isSurrogate e = true → IsTextUnit e := by
      intro e he
      simp only [isSurrogate, isHighSurrogate, isLowSurrogate, Bool.or_eq_true, Bool.and_eq_true,
        decide_eq_true_eq, UInt16.le_iff_toNat_le] at he
      simp only [IsTextUnit, UInt16.le_iff_toNat_le]
      simp only [UInt16.reduceToNat] at he ⊢
      omega
    rw [jsonEscape, if_pos hpair]
    refine JsString.IsPrintable.append (s := [c, d]) ⟨fun e he => ?_, isWellFormed_pair hc hd⟩ ih
    rcases List.mem_cons.1 he with rfl | he
    · exact htext _ (by rw [isSurrogate, hc, Bool.true_or])
    · rw [List.mem_singleton.1 he]
      exact htext _ (by rw [isSurrogate, hd, Bool.or_true])
  | case4 c d s hpair ih =>
    rw [jsonEscape, if_neg hpair]
    exact (isPrintable_escapeUnit c).append ih

lemma isPrintable_jsonQuote (s : JsString) : (jsonQuote s).IsPrintable :=
  ((isPrintable_jsonEscape s).append (isPrintable_unit (c := 34) (by decide) (by decide))).cons
    (by decide) (by decide)

lemma isPrintable_number (literal : NumberLiteral) : JsString.IsPrintable literal.1 := by
  refine isPrintable_of_units fun c hc => ?_
  have hunit := JsonReader.isTokenUnit_of_number literal.2 c hc
  simp only [isTokenUnit, isJsonDigit, Bool.or_eq_true, Bool.and_eq_true, decide_eq_true_eq,
    UInt16.le_iff_toNat_le, ← UInt16.toNat_inj] at hunit
  simp only [IsTextUnit, isSurrogate, isHighSurrogate, isLowSurrogate, Bool.or_eq_false_iff,
    Bool.and_eq_false_imp, decide_eq_true_eq, decide_eq_false_iff_not, UInt16.le_iff_toNat_le]
  simp only [UInt16.reduceToNat] at hunit ⊢
  omega

mutual

/-- **The text of a value has no control and no lone surrogate.** -/
theorem Json.isPrintable_text : ∀ v : Json, v.text.IsPrintable
  | .null => isPrintable_of_all (by decide)
  | .bool true => isPrintable_of_all (by decide)
  | .bool false => isPrintable_of_all (by decide)
  | .number literal => isPrintable_number literal
  | .string s => isPrintable_jsonQuote s
  | .array items =>
    ((isPrintable_itemsText items).append
      (isPrintable_unit (c := 93) (by decide) (by decide))).cons (by decide) (by decide)
  | .object fields =>
    ((isPrintable_fieldsText fields).append
      (isPrintable_unit (c := 125) (by decide) (by decide))).cons (by decide) (by decide)
termination_by structural v => v

theorem Json.isPrintable_itemsText : ∀ items : List Json, (Json.itemsText items).IsPrintable
  | [] => isPrintable_of_units nofun
  | [v] => Json.isPrintable_text v
  | v :: w :: items =>
    (Json.isPrintable_text v).append
      ((Json.isPrintable_itemsText (w :: items)).cons (by decide) (by decide))
termination_by structural items => items

theorem Json.isPrintable_fieldsText : ∀ fields : List (JsString × Json),
    (Json.fieldsText fields).IsPrintable
  | [] => isPrintable_of_units nofun
  | [(k, v)] =>
    (isPrintable_jsonQuote k).append ((Json.isPrintable_text v).cons (by decide) (by decide))
  | (k, v) :: f :: fields =>
    (isPrintable_jsonQuote k).append
      (((Json.isPrintable_text v).append
        ((Json.isPrintable_fieldsText (f :: fields)).cons (by decide) (by decide))).cons (by decide)
          (by decide))
termination_by structural fields => fields

end

/-! ## Lines -/

variable (fields : List (JsString × Json))

def lineBytes : Buffer :=
  JsString.toUtf8 ((Json.object fields).text ++ [10])

lemma isWellFormed_lineFeed : JsString.IsWellFormed [10] := isWellFormed_unit (by decide)

lemma lineFeed_not_mem (v : Json) : 10 ∉ v.text := fun h =>
  absurd (v.isPrintable_text.1 10 h) (by decide)

lemma lineBytes_eq : lineBytes fields = (Json.object fields).text.toUtf8 ++ [10] :=
  (Json.object fields).isPrintable_text.2.toUtf8_append isWellFormed_lineFeed

lemma trim_object : JsString.trim (Json.object fields).text = (Json.object fields).text := by
  have hends : (Json.object fields).text = 123 :: (Json.fieldsText fields ++ [125]) := rfl
  rw [JsString.trim, hends, List.dropWhile_cons_of_neg (by decide), List.reverse_cons,
    List.reverse_append, List.reverse_singleton, List.singleton_append, List.cons_append,
    List.dropWhile_cons_of_neg (by decide)]
  simp

lemma exists_lineBytes : ∃ more, lineBytes fields = 123 :: more := by
  have htail : JsString.IsWellFormed (Json.fieldsText fields ++ [125]) :=
    ((Json.isPrintable_fieldsText fields).append
      (isPrintable_unit (c := 125) (by decide) (by decide))).2
  have htext : (Json.object fields).text.toUtf8 =
      JsString.toUtf8 [123] ++ JsString.toUtf8 (Json.fieldsText fields ++ [125]) :=
    (isWellFormed_unit (c := 123) (by decide)).toUtf8_append htail
  rw [lineBytes_eq, htext]
  exact ⟨_, rfl⟩

lemma startsPlain_lines (entries : List (List (JsString × Json))) :
    Buffer.StartsPlain (entries.flatMap lineBytes) := by
  cases entries with
  | nil => exact nofun
  | cons fields entries =>
    obtain ⟨more, hmore⟩ := exists_lineBytes fields
    intro first hfirst
    rw [List.flatMap_cons, hmore, List.cons_append, List.head?_cons] at hfirst
    obtain rfl := Option.some.inj hfirst
    decide

lemma toUtf8String_lines (entries : List (List (JsString × Json))) (rest : Buffer) :
    Buffer.toUtf8String (entries.flatMap lineBytes ++ rest) =
      (entries.flatMap fun fields => (Json.object fields).text ++ [10]) ++ rest.toUtf8String := by
  induction entries with
  | nil => rfl
  | cons fields entries ih =>
    have hline : JsString.IsWellFormed ((Json.object fields).text ++ [10]) :=
      (Json.object fields).isPrintable_text.2.append isWellFormed_lineFeed
    rw [List.flatMap_cons, List.append_assoc, lineBytes, toUtf8String_toUtf8_append hline, ih,
      List.flatMap_cons, List.append_assoc _ _ rest.toUtf8String]

/-- **The lines of a file whose first lines are complete.** -/
theorem splitOn_lines (entries : List (List (JsString × Json))) (rest : Buffer) :
    (Buffer.toUtf8String (entries.flatMap lineBytes ++ rest)).splitOn 10 =
      (entries.map fun fields => (Json.object fields).text) ++ rest.toUtf8String.splitOn 10 := by
  rw [toUtf8String_lines]
  induction entries with
  | nil => rfl
  | cons fields entries ih =>
    rw [List.flatMap_cons, List.append_assoc, List.append_assoc, List.singleton_append,
      List.splitOn_append_cons_self_of_not_mem (lineFeed_not_mem _), ih, List.map_cons,
      List.cons_append]

/-! ## Torn lines -/

/-- The bytes are read as a text in front of anything that does not continue a character. -/
def Reads (b : Buffer) (text : JsString) : Prop :=
  ∀ rest : Buffer, rest.StartsPlain → Buffer.toUtf8String (b ++ rest) = text ++ rest.toUtf8String

abbrev Json.readerBehind (text : JsString) : JsonReader := (JsonReader.value []).run text

lemma readerBehind_object :
    Json.readerBehind (Json.object fields).text = .done (.object fields) := by
  have hfields := JsonReader.run_fieldsText fields [] []
  rw [Json.readerBehind, Json.text, JsonReader.run, Machine.run_cons]
  cases fields with
  | nil => rfl
  | cons f fields => exact hfields (List.cons_ne_nil _ _) _ (Or.inl rfl) []

lemma inside_of_prefix {more gone : JsString}
    (h : (Json.readerBehind ((123 :: more) ++ gone)).Inside) :
    (Json.readerBehind (123 :: more)).Inside := by
  have hbegun : (Json.readerBehind (123 :: more)).Begun :=
    Machine.run_invariant (s := JsonReader.firstKey [.fields []])
      (fun _ c hr => JsonReader.begun_step hr c) (Or.inr (Or.inl (List.cons_ne_nil _ _)))
  have hrest : ((Json.readerBehind (123 :: more)).run gone).Inside := by
    rwa [Json.readerBehind, JsonReader.run, Machine.run_append] at h
  rcases hbegun with hfailed | hinside | ⟨v, hdone⟩
  · rw [hfailed, JsonReader.run_failed] at hrest
    exact absurd hrest id
  · exact hinside
  · rw [hdone] at hrest
    rcases JsonReader.run_done v gone with hover | hover
    · rw [hover] at hrest
      exact absurd hrest id
    · rw [hover] at hrest
      exact absurd hrest id

/-- **What is read where a line was cut**: a text that starts with a brace. It is all of the object,
when only the line feed is missing, or the object is still open behind it.

**Proof sketch.** The bytes that are there are a part of the text of the object, or they end in a
character beyond ASCII. In the second case the parser was in a string, and there it stays behind
U+FFFD. -/
theorem exists_torn {fields : List (JsString × Json)} {torn : Buffer}
    (hstart : torn <+: lineBytes fields) (hcut : torn ≠ lineBytes fields) (hnil : torn ≠ []) :
    ∃ text : JsString, (∃ more, text = 123 :: more) ∧ 10 ∉ text ∧ Reads torn text ∧
      ((text = (Json.object fields).text ∧ torn = (Json.object fields).text.toUtf8) ∨
        ((Json.readerBehind text).Inside ∧ torn ≠ (Json.object fields).text.toUtf8)) := by
  have hprintable := (Json.object fields).isPrintable_text
  have hread : Buffer.toUtf8String (Json.object fields).text.toUtf8 = (Json.object fields).text := by
    have hself := toUtf8String_toUtf8_append hprintable.2 []
    rwa [List.append_nil, show Buffer.toUtf8String [] = [] from rfl, List.append_nil] at hself
  rw [lineBytes_eq] at hstart hcut
  obtain ⟨front, back, hsplit, hwell, htorn⟩ :=
    exists_of_prefix_toUtf8 hprintable.2 ((List.prefix_concat_iff.1 hstart).resolve_left hcut)
  have hfeed : 10 ∉ front := fun h =>
    lineFeed_not_mem (.object fields) (hsplit ▸ List.mem_append_left _ h)
  rcases htorn with rfl | ⟨cut, c, more, rfl, hc, rfl, hcutRead⟩
  · -- no character was cut
    have hfront : front ≠ [] := by
      rintro rfl
      exact hnil rfl
    refine ⟨front, ?_, hfeed, fun rest _ => toUtf8String_toUtf8_append hwell rest, ?_⟩
    · obtain ⟨d, more, rfl⟩ := List.exists_cons_of_ne_nil hfront
      exact ⟨more, by rw [(List.cons.inj hsplit).1]⟩
    · by_cases hback : back = []
      · rw [hback, List.append_nil] at hsplit
        exact Or.inl ⟨hsplit.symm, by rw [hsplit]⟩
      · refine Or.inr ⟨JsonReader.inside_of_cut hsplit hfront hback, fun heq => hback ?_⟩
        have hsame : front ++ Buffer.toUtf8String [] = (Json.object fields).text := by
          rw [← toUtf8String_toUtf8_append hwell, List.append_nil, heq, hread]
        rw [hsplit] at hsame
        exact (List.append_cancel_left hsame).symm
  · have hfront : front ≠ [] := by
      rintro rfl
      rw [List.nil_append] at hsplit
      have hbrace : (123 : CodeUnit) = c := (List.cons.inj hsplit).1
      rw [← hbrace] at hc
      exact absurd hc (by decide)
    refine ⟨front ++ [0xFFFD], ?_, ?_, fun rest hplain => ?_, Or.inr ⟨?_, fun heq => ?_⟩⟩
    · obtain ⟨d, tail, rfl⟩ := List.exists_cons_of_ne_nil hfront
      exact ⟨tail ++ [0xFFFD], by rw [(List.cons.inj hsplit).1, List.cons_append]⟩
    · intro h
      rcases List.mem_append.1 h with h | h
      · exact hfeed h
      · exact absurd h (by decide)
    · rw [List.append_assoc, toUtf8String_toUtf8_append hwell, hcutRead rest hplain,
        List.append_assoc, List.singleton_append]
    · -- the parser is in a string, as the unit that was cut could be read
      have hinside : (Json.readerBehind front).Inside :=
        JsonReader.inside_of_cut hsplit hfront (List.cons_ne_nil _ _)
      have hstring : (Json.readerBehind front).InString := by
        refine JsonReader.inString_of_step hc fun hfailed => ?_
        have hwhole := readerBehind_object fields
        rw [hsplit, Json.readerBehind, JsonReader.run, Machine.run_append, Machine.run_cons,
          hfailed] at hwhole
        exact nomatch (JsonReader.run_failed more).symm.trans hwhole
      rw [Json.readerBehind, JsonReader.run, Machine.run_append]
      change (JsonReader.step (Json.readerBehind front) 0xFFFD).Inside
      cases hr : Json.readerBehind front with
      | string frames isKey read =>
        rw [hr] at hinside
        exact hinside
      | _ =>
        rw [hr] at hstring
        exact absurd hstring id
    · have hsame := hcutRead [] nofun
      rw [List.append_nil] at hsame
      have hwhole : front ++ [0xFFFD] = (Json.object fields).text := by
        rw [← hread, ← heq, toUtf8String_toUtf8_append hwell, hsame]
        rfl
      have hlast : (Json.object fields).text = (123 :: Json.fieldsText fields) ++ [125] := rfl
      rw [hlast] at hwhole
      exact absurd (List.append_inj' hwhole rfl).2 (by decide)

theorem parse_torn {text : JsString} (h : (Json.readerBehind text).Inside) :
    Json.parse text = none := Json.parse_of_inside h

theorem parse_joined {text : JsString} {fields : List (JsString × Json)}
    (h : text = (Json.object fields).text ∨ (Json.readerBehind text).Inside)
    (next : List (JsString × Json)) : Json.parse (text ++ (Json.object next).text) = none := by
  rcases h with rfl | hinside
  · exact Json.parse_joined (Or.inr ⟨_, readerBehind_object fields⟩) next
  · exact Json.parse_joined (Or.inl hinside) next

/-! ## Literals in lines -/

namespace Json

lemma exists_fieldsText {fields : List (JsString × Json)} {k : JsString} {v : Json}
    (h : (k, v) ∈ fields) : ∃ front back, fieldsText fields = front ++ (v.text ++ back) := by
  induction fields with
  | nil => exact absurd h List.not_mem_nil
  | cons f fields ih =>
    obtain ⟨k', v'⟩ := f
    cases fields with
    | nil =>
      obtain ⟨rfl, rfl⟩ := Prod.mk.inj (List.mem_singleton.1 h)
      exact ⟨jsonQuote k ++ [58], [], by simp [fieldsText]⟩
    | cons f fields =>
      rcases List.mem_cons.1 h with heq | h
      · obtain ⟨rfl, rfl⟩ := Prod.mk.inj heq
        exact ⟨jsonQuote k ++ [58], 44 :: fieldsText (f :: fields), by simp [fieldsText]⟩
      · obtain ⟨front, back, htext⟩ := ih h
        exact ⟨jsonQuote k' ++ 58 :: (v'.text ++ 44 :: front), back, by simp [fieldsText, htext]⟩

lemma exists_text {v : Json} {name : String} {s : JsString} (h : v.str name = some s) :
    ∃ front back, v.text = front ++ 34 :: (jsonEscape s ++ 34 :: back) := by
  have hfield : v.field name = some (.string s) := by
    unfold str at h
    split at h
    · rename_i s' hfield
      rw [hfield, Option.some.inj h]
    · exact absurd h (by simp)
  cases v with
  | object fields =>
    obtain ⟨f, hfind, hf⟩ := Option.map_eq_some_iff.1 hfield
    have hmem : (f.1, .string s) ∈ fields := by
      rw [← hf]
      exact List.mem_reverse.1 (List.mem_of_find?_eq_some hfind)
    obtain ⟨front, back, htext⟩ := exists_fieldsText hmem
    refine ⟨123 :: front, back ++ [125], ?_⟩
    rw [text, htext]
    simp [text, jsonQuote]
  | _ => exact absurd hfield (by simp [field])

end Json

end Isomux
