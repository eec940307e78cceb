import Mathlib.Data.List.TakeWhile
import Isomux.Runtime.JsonLines
import Isomux.Storage.PruneSafety

set_option autoImplicit false

/-!
# The attachments that are still referenced

What a transcript refers to is looked for in its raw text, by a regular expression that takes one match
behind the other. A match begins at a quotation mark, and the name behind the mark has letters that JSON has
nowhere outside a string. So the mark is in a string or opens one, the match ends with the string behind the
key, and no match swallows the beginning of a reference: there a brace or a comma stands in front of a
string, in a match only a colon does.

## Main results

* `Isomux.Prune.mem_filenameRefs` — every reference in a text is found.
* `Isomux.Prune.attachment_kept` — no attachment that is referenced or owed is a candidate.
-/

namespace Isomux.Prune

/-! ## Strings in a raw text -/

/-- Where a raw text is: outside of strings, in one, or behind a backslash in one. -/
inductive RawMode where
  | outside
  | inside
  | escaped
  deriving DecidableEq

def RawMode.step : RawMode → CodeUnit → RawMode
  | outside, c => if c = 34 then inside else outside
  | inside, c => if c = 34 then outside else if c = 92 then escaped else inside
  | escaped, _ => inside

/-- The mode behind a text. There is none when an `i` is outside of the strings. -/
def rawScan : RawMode → JsString → Option RawMode
  | mode, [] => some mode
  | mode, c :: s => if mode = .outside ∧ c = 105 then none else rawScan (mode.step c) s

section Scan

variable {mode mode' : RawMode} {s t : JsString}

lemma rawScan_append : rawScan mode (s ++ t) = (rawScan mode s).bind fun mode => rawScan mode t := by
  induction s generalizing mode with
  | nil => rfl
  | cons c s ih =>
    rw [List.cons_append, rawScan, rawScan]
    split_ifs
    · rfl
    · exact ih

lemma rawScan_trans {m m' m'' : RawMode} (h : rawScan m s = some m') (h' : rawScan m' t = some m'') :
    rawScan m (s ++ t) = some m'' := by
  rw [rawScan_append, h]
  exact h'

lemma rawScan_outside (h : ∀ c ∈ s, c ≠ 34 ∧ c ≠ 105) : rawScan .outside s = some .outside := by
  induction s with
  | nil => rfl
  | cons c s ih =>
    obtain ⟨hmark, hletter⟩ := h c List.mem_cons_self
    rw [rawScan, if_neg fun hand => hletter hand.2, RawMode.step, if_neg hmark]
    exact ih fun d hd => h d (List.mem_cons_of_mem c hd)

lemma lowerHexDigit_ne (n : ℕ) : lowerHexDigit n ≠ 34 ∧ lowerHexDigit n ≠ 92 := by
  rcases Nat.lt_or_ge n 16 with hlt | hge
  · have hall : ∀ n < 16, lowerHexDigit n ≠ 34 ∧ lowerHexDigit n ≠ 92 := by decide
    exact hall n hlt
  · rw [lowerHexDigit, List.getD_eq_getElem?_getD, List.getElem?_eq_none hge]
    decide

lemma rawScan_inside {c : CodeUnit} (h : c ≠ 34 ∧ c ≠ 92) : rawScan .inside (c :: s) = rawScan .inside s := by
  rw [rawScan, if_neg nofun, RawMode.step, if_neg h.1, if_neg h.2]

lemma rawScan_unitText {c : CodeUnit} (h : UnitText c s) : rawScan .inside s = some .inside := by
  cases h with
  | raw hquote hslash => exact rawScan_inside ⟨hquote, hslash⟩
  | short letter _ => rfl
  | unicode =>
    refine (?_ : rawScan .inside [_, _, _, _] = _)
    iterate 4 rw [rawScan_inside (lowerHexDigit_ne _)]
    rfl

lemma rawScan_jsonQuote (s : JsString) : rawScan .outside (jsonQuote s) = some .outside := by
  obtain ⟨texts, htexts, heq⟩ := jsonEscape_units s
  have hinside : rawScan .inside (jsonEscape s) = some .inside := by
    rw [heq]
    clear heq
    induction htexts with
    | nil => rfl
    | cons hunit _ ih => exact rawScan_trans (rawScan_unitText hunit) ih
  exact rawScan_trans (t := [34]) (s := 34 :: jsonEscape s) hinside rfl

lemma rawScan_number (literal : NumberLiteral) : rawScan .outside literal.1 = some .outside := by
  refine rawScan_outside fun c hc => ?_
  by_contra hnot
  have hbad : ∀ part : NumberPart, part.step c = .bad := by
    have hc' : c = 34 ∨ c = 105 := by
      by_contra hne
      exact hnot (not_or.1 hne)
    rcases hc' with rfl | rfl <;> exact fun part => by cases part <;> rfl
  obtain ⟨front, rest, heq⟩ := List.append_of_mem hc
  have hliteral := literal.2
  rw [heq, isNumberLiteral, List.foldl_append, List.foldl_cons, hbad, JsonReader.foldl_bad] at hliteral
  exact absurd hliteral (by decide)

end Scan

mutual

theorem rawScan_text : ∀ v : Json, rawScan .outside v.text = some .outside
  | .null => by decide
  | .bool true => by decide
  | .bool false => by decide
  | .number literal => rawScan_number literal
  | .string s => rawScan_jsonQuote s
  | .array items => rawScan_trans (s := 91 :: Json.itemsText items) (rawScan_itemsText items) rfl
  | .object fields => rawScan_trans (s := 123 :: Json.fieldsText fields) (rawScan_fieldsText fields) rfl

theorem rawScan_itemsText : ∀ items : List Json, rawScan .outside (Json.itemsText items) = some .outside
  | [] => rfl
  | [v] => rawScan_text v
  | v :: w :: items =>
    rawScan_trans (rawScan_text v) (t := 44 :: Json.itemsText (w :: items)) (rawScan_itemsText (w :: items))

theorem rawScan_fieldsText : ∀ fields : List (JsString × Json),
    rawScan .outside (Json.fieldsText fields) = some .outside
  | [] => rfl
  | [(k, v)] => rawScan_trans (rawScan_jsonQuote k) (t := 58 :: v.text) (rawScan_text v)
  | (k, v) :: f :: fields =>
    rawScan_trans (rawScan_jsonQuote k) (t := 58 :: (v.text ++ 44 :: Json.fieldsText (f :: fields)))
      (rawScan_trans (rawScan_text v) (t := 44 :: Json.fieldsText (f :: fields))
        (rawScan_fieldsText (f :: fields)))

end

/-! ## Matches -/

def filenameKey : JsString := js "\"filename\""

/-- What the expression looks for: the name of a file as `JSON.stringify` writes it. -/
def refText (name : JsString) : JsString := filenameKey ++ 58 :: jsonQuote name

section Matches

variable {mode : RawMode} {name taken text behind back : JsString}

lemma takeQuoted_raw {c : CodeUnit} (h : c ≠ 34 ∧ c ≠ 92) :
    takeQuoted taken (c :: text) = takeQuoted (taken ++ [c]) text := by
  rw [takeQuoted.eq_def]
  dsimp only
  rw [if_neg h.1, if_neg h.2]

lemma takeQuoted_escape {d : CodeUnit} (h : isLineTerminator d = false) :
    takeQuoted taken (92 :: d :: text) = takeQuoted (taken ++ [92, d]) text := by
  rw [takeQuoted.eq_def]
  dsimp only
  rw [if_neg (by decide), if_pos rfl]
  refine if_neg fun hline => ?_
  simp only [isLineTerminator, Bool.or_eq_false_iff, beq_eq_false_iff_ne] at h
  simp [h] at hline

lemma takeQuoted_unitText {c : CodeUnit} {unit : JsString} (h : UnitText c unit) :
    takeQuoted taken (unit ++ text) = takeQuoted (taken ++ unit) text := by
  cases h with
  | raw hquote hslash => exact takeQuoted_raw ⟨hquote, hslash⟩
  | short letter h =>
    have hall : shortEscapes.all (fun e => isLineTerminator e.2 = false) = true := by decide
    exact takeQuoted_escape (of_decide_eq_true (List.all_eq_true.1 hall _ (mem_shortEscapes h)))
  | unicode =>
    rw [unicodeEscape]
    simp only [List.cons_append, List.nil_append]
    rw [takeQuoted_escape (by decide)]
    iterate 4 rw [takeQuoted_raw (lowerHexDigit_ne _)]
    simp

lemma takeQuoted_jsonEscape (s : JsString) :
    takeQuoted [] (jsonEscape s ++ 34 :: behind) = some (jsonEscape s, behind) := by
  obtain ⟨texts, htexts, heq⟩ := jsonEscape_units s
  have htaken : ∀ taken, takeQuoted taken (texts.flatten ++ 34 :: behind) =
      some (taken ++ texts.flatten, behind) := by
    clear heq
    induction htexts with
    | nil =>
      intro taken
      rw [List.flatten_nil, List.append_nil, List.nil_append, takeQuoted.eq_def]
      exact if_pos rfl
    | cons hunit _ ih =>
      intro taken
      rw [List.flatten_cons, List.append_assoc, takeQuoted_unitText hunit, ih, List.append_assoc]
  rw [heq, htaken, List.nil_append]

/-- What is taken ends at a mark, and does not leave the string before. -/
lemma takeQuoted_some (h : takeQuoted taken text = some (name, behind)) :
    ∃ q, text = q ++ 34 :: behind ∧ ∀ front, front <+: q → rawScan .inside front ≠ some .outside := by
  have hstart : ∀ front : JsString, front <+: [] → rawScan .inside front ≠ some .outside :=
    fun front hfront => by rw [List.prefix_nil.1 hfront]; nofun
  induction taken, text using takeQuoted.induct with
  | case1 => exact absurd h nofun
  | case2 taken rest =>
    rw [takeQuoted.eq_def] at h
    exact ⟨[], by rw [(Prod.mk.inj (Option.some.inj h)).2]; rfl, hstart⟩
  | case3 => exact absurd h (by rw [takeQuoted.eq_def]; nofun)
  | case4 taken d rest hline hne =>
    rw [takeQuoted.eq_def] at h
    dsimp only at h
    rw [if_neg hne, if_pos rfl, if_pos hline] at h
    exact absurd h nofun
  | case5 taken d rest hne hline ih =>
    rw [takeQuoted.eq_def] at h
    dsimp only at h
    rw [if_neg hne, if_pos rfl, if_neg hline] at h
    obtain ⟨q, rfl, hq⟩ := ih h
    refine ⟨92 :: d :: q, rfl, fun front hfront => ?_⟩
    rcases List.prefix_cons_iff.1 hfront with rfl | ⟨front₁, rfl, hfront₁⟩
    · nofun
    rcases List.prefix_cons_iff.1 hfront₁ with rfl | ⟨front₂, rfl, hfront₂⟩
    · nofun
    · exact hq front₂ hfront₂
  | case6 taken c rest hquote hslash ih =>
    obtain ⟨q, rfl, hq⟩ := ih (by rwa [takeQuoted_raw ⟨hquote, hslash⟩] at h)
    refine ⟨c :: q, rfl, fun front hfront => ?_⟩
    rcases List.prefix_cons_iff.1 hfront with rfl | ⟨front₁, rfl, hfront₁⟩
    · nofun
    · rw [rawScan_inside ⟨hquote, hslash⟩]
      exact hq front₁ hfront₁

/-- Between the key and the literal of a match. -/
def IsGap (gap : JsString) : Prop := gap ≠ [] ∧ ∀ c ∈ gap, c = 58 ∨ isJsWhitespace c = true

lemma matchFilenameRef_refText (name back : JsString) :
    matchFilenameRef (refText name ++ back) = some (jsonEscape name, back) := by
  have htext : refText name ++ back = filenameKey ++ 58 :: 34 :: (jsonEscape name ++ 34 :: back) := by
    simp [refText, jsonQuote]
  rw [htext, matchFilenameRef, show js "\"filename\"" = filenameKey from rfl,
    if_pos (List.isPrefixOf_iff_prefix.2 (List.prefix_append _ _)), List.drop_left,
    List.dropWhile_cons_of_neg (by decide)]
  exact takeQuoted_jsonEscape name

lemma matchFilenameRef_some (h : matchFilenameRef text = some (name, behind)) :
    ∃ gap q, text = filenameKey ++ (gap ++ 34 :: (q ++ 34 :: behind)) ∧ IsGap gap ∧
      ∀ front, front <+: q → rawScan .inside front ≠ some .outside := by
  rw [matchFilenameRef] at h
  split_ifs at h with hkey
  obtain ⟨rest, rfl⟩ := List.isPrefixOf_iff_prefix.1 hkey
  rw [List.drop_left] at h
  split at h
  · rename_i rest₁ hcolon
    split at h
    · rename_i rest₂ hmark
      obtain ⟨q, rfl, hq⟩ := takeQuoted_some h
      refine ⟨rest.takeWhile isJsWhitespace ++ 58 :: rest₁.takeWhile isJsWhitespace, q, ?_,
        ⟨List.append_ne_nil_of_right_ne_nil _ (List.cons_ne_nil _ _), fun c hc => ?_⟩, hq⟩
      · rw [List.append_assoc, List.cons_append, ← hmark, List.takeWhile_append_dropWhile, ← hcolon,
          List.takeWhile_append_dropWhile]
        rfl
      · rcases List.mem_append.1 hc with hc | hc
        · exact .inr (List.mem_takeWhile_imp hc)
        · exact (List.mem_cons.1 hc).imp_right List.mem_takeWhile_imp
    · exact absurd h nofun
  · exact absurd h nofun

/-- A brace or a comma ends the text, if anything does. -/
def EndsOpen (s : JsString) : Prop := ∀ c, s.getLast? = some c → c = 123 ∨ c = 44

lemma EndsOpen.right {s t : JsString} (h : EndsOpen (s ++ t)) : EndsOpen t := fun c hc =>
  h c (by rw [List.getLast?_append, hc]; rfl)

lemma EndsOpen.prepend {d : CodeUnit} (hd : d = 123 ∨ d = 44) {t : JsString} (h : EndsOpen t) (s : JsString) :
    EndsOpen (s ++ d :: t) := fun c hc => by
  rw [List.getLast?_append_of_ne_nil _ (List.cons_ne_nil _ _)] at hc
  cases t with
  | nil => exact Option.some.inj hc ▸ hd
  | cons e t => exact h c (by rwa [List.getLast?_cons_cons] at hc)

/-- **No match swallows the beginning of a reference.** In front of a mark that is outside of strings and
behind a brace or a comma a match ends, and behind it the text goes on in some mode.

**Proof sketch.** The mark is none of the key, where no brace and no comma stands; none of the gap; not the
one behind the gap, where a colon or a space stands; and none of the literal, which it would leave. -/
lemma match_ends_before {front t : JsString} (h : matchFilenameRef (front ++ 34 :: t) = some (name, behind))
    (hne : front ≠ []) (hopen : EndsOpen front) (hscan : rawScan mode front = some .outside) :
    ∃ before rest mode', front = before ++ rest ∧ before ≠ [] ∧ behind = rest ++ 34 :: t ∧
      rawScan mode' rest = some .outside := by
  obtain ⟨gap, q, htext, ⟨-, hunits⟩, hq⟩ := matchFilenameRef_some h
  -- neither the key nor the gap has a brace or a comma
  have hmore : ¬∀ c ∈ front, c ∈ filenameKey ∨ c ∈ gap := fun hall => by
    rcases List.eq_nil_or_concat' front with rfl | ⟨s, c, rfl⟩
    · exact hne rfl
    · have hc := hopen c List.getLast?_concat
      rcases hall c (List.mem_append_right _ List.mem_cons_self) with hkey | hgap
      · have hkeys : filenameKey.all (fun c => c ≠ 123 ∧ c ≠ 44) = true := by decide
        have hno := of_decide_eq_true (List.all_eq_true.1 hkeys c hkey)
        exact hc.elim hno.1 hno.2
      · rcases hunits c hgap with rfl | hspace
        · exact absurd hc (by decide)
        · rcases hc with rfl | rfl <;> exact absurd hspace (by decide)
  have hoff : ∀ c ∈ gap, c ≠ 34 ∧ c ≠ 105 := fun c hc => by
    rcases hunits c hc with rfl | hspace
    · decide
    · exact ⟨fun heq => absurd (heq ▸ hspace) (by decide), fun heq => absurd (heq ▸ hspace) (by decide)⟩
  rcases List.append_eq_append_iff.1 htext with ⟨rest, hkey, -⟩ | ⟨front₁, rfl, hbehind⟩
  · exact absurd (fun c hc => .inl (hkey ▸ List.mem_append_left _ hc)) hmore
  rcases List.append_eq_append_iff.1 hbehind with ⟨x, rfl, hx⟩ | ⟨y, rfl, -⟩
  · cases x with
    | nil => exact absurd (fun c hc => by simpa using hc) hmore
    | cons c front₂ =>
      obtain ⟨rfl, hliteral⟩ := List.cons.inj hx
      have hkeyScan : ∀ mode', rawScan mode filenameKey = some mode' → mode' = .outside := by
        cases mode <;> decide
      rw [rawScan_append] at hscan
      obtain ⟨mode', hmode, hscan⟩ := Option.bind_eq_some_iff.1 hscan
      obtain rfl := hkeyScan mode' hmode
      rw [rawScan_append, rawScan_outside hoff] at hscan
      have hinside : rawScan .inside front₂ = some .outside := hscan
      rcases List.append_eq_append_iff.1 hliteral with ⟨z, rfl, hz⟩ | ⟨z, rfl, -⟩
      · cases z with
        | nil => exact absurd hinside (hq _ (by simp))
        | cons c rest =>
          obtain ⟨rfl, rfl⟩ := List.cons.inj hz
          rw [rawScan_append] at hinside
          obtain ⟨mode', -, hrest⟩ := Option.bind_eq_some_iff.1 hinside
          rw [rawScan, if_neg fun hand => absurd hand.2 (by decide)] at hrest
          exact ⟨filenameKey ++ (gap ++ 34 :: (q ++ [34])), rest, mode'.step 34, by simp,
            List.append_ne_nil_of_left_ne_nil (by decide) _, rfl, hrest⟩
      · exact absurd hinside (hq _ (List.prefix_append _ _))
  · exact absurd (fun c hc => (List.mem_append.1 hc).imp_right (List.mem_append_left _)) hmore

/-- **Every reference in a text is found.** The reference is outside of strings and behind a brace or a
comma; what is in front of it may be anything that JSON has. -/
theorem mem_filenameRefs {front : JsString} (n : ℕ) (hlength : front.length < n)
    (hopen : EndsOpen front) (hscan : rawScan mode front = some .outside) :
    jsonEscape name ∈ filenameRefs n (front ++ (refText name ++ back)) := by
  induction n generalizing front mode with
  | zero => exact absurd hlength (Nat.not_lt_zero _)
  | succ n ih =>
    cases front with
    | nil =>
      have hmatch := matchFilenameRef_refText name back
      have hcons : refText name ++ back = 34 :: (refText name ++ back).tail := rfl
      rw [List.nil_append, hcons, filenameRefs, ← hcons, hmatch]
      exact List.mem_cons_self
    | cons c front =>
      rw [List.cons_append, filenameRefs]
      cases hmatch : matchFilenameRef (c :: (front ++ (refText name ++ back))) with
      | none =>
        rw [rawScan] at hscan
        split_ifs at hscan
        exact ih (Nat.lt_of_succ_lt_succ hlength) (hopen.right (s := [c])) hscan
      | some found =>
        obtain ⟨other, behind⟩ := found
        obtain ⟨before, rest, mode', hsplit, hne, hbehind, hrest⟩ :=
          match_ends_before hmatch (List.cons_ne_nil c front) hopen hscan
        have hshorter : rest.length < n := by
          have hlengths := congrArg List.length hsplit
          rw [List.length_append] at hlengths
          have := List.length_pos_iff.2 hne
          omega
        rw [hsplit] at hopen
        dsimp only
        rw [hbehind]
        exact List.mem_cons_of_mem _ (ih hshorter hopen.right hrest)

end Matches

/-! ## References in transcripts -/

/-- An object in a value has a member `filename` with a name. -/
inductive HasFilename (name : JsString) : Json → Prop where
  | here {fields : List (JsString × Json)} (h : (js "filename", .string name) ∈ fields) :
      HasFilename name (.object fields)
  | member {fields : List (JsString × Json)} {k : JsString} {v : Json} (h : (k, v) ∈ fields)
      (hv : HasFilename name v) : HasFilename name (.object fields)
  | item {items : List Json} {v : Json} (h : v ∈ items) (hv : HasFilename name v) :
      HasFilename name (.array items)

/-- A reference in a text, outside of strings and behind a brace or a comma. -/
def RefIn (name text : JsString) : Prop :=
  ∃ front back, text = front ++ (refText name ++ back) ∧ front ≠ [] ∧ EndsOpen front ∧
    rawScan .outside front = some .outside

section Transcripts

variable {name : JsString}

lemma RefIn.append {front text : JsString} (h : RefIn name text)
    (hscan : rawScan .outside front = some .outside) (back : JsString) :
    RefIn name (front ++ (text ++ back)) := by
  obtain ⟨first, last, rfl, hne, hopen, hfirst⟩ := h
  refine ⟨front ++ first, last ++ back, by simp, List.append_ne_nil_of_right_ne_nil _ hne,
    fun c hc => hopen c ?_, rawScan_trans hscan hfirst⟩
  rwa [List.getLast?_append_of_ne_nil _ hne] at hc

lemma exists_member {fields : List (JsString × Json)} {k : JsString} {v : Json} (h : (k, v) ∈ fields) :
    ∃ front back, Json.fieldsText fields = front ++ (jsonQuote k ++ 58 :: (v.text ++ back)) ∧
      EndsOpen front ∧ rawScan .outside front = some .outside := by
  induction fields with
  | nil => exact absurd h List.not_mem_nil
  | cons f fields ih =>
    obtain ⟨k', v'⟩ := f
    rcases List.mem_cons.1 h with heq | h
    · obtain ⟨rfl, rfl⟩ := Prod.mk.inj heq
      cases fields with
      | nil => exact ⟨[], [], by simp [Json.fieldsText], nofun, rfl⟩
      | cons f fields =>
        exact ⟨[], 44 :: Json.fieldsText (f :: fields), by simp [Json.fieldsText], nofun, rfl⟩
    · obtain ⟨front, back, htext, hopen, hscan⟩ := ih h
      cases fields with
      | nil => exact absurd h List.not_mem_nil
      | cons f fields =>
        refine ⟨jsonQuote k' ++ 58 :: (v'.text ++ 44 :: front), back, ?_, ?_, ?_⟩
        · rw [Json.fieldsText, htext]
          simp
        · simpa using EndsOpen.prepend (.inr rfl) hopen (jsonQuote k' ++ 58 :: v'.text)
        · exact rawScan_trans (rawScan_jsonQuote k') (t := 58 :: (v'.text ++ 44 :: front))
            (rawScan_trans (rawScan_text v') (t := 44 :: front) hscan)

lemma exists_item {items : List Json} {v : Json} (h : v ∈ items) :
    ∃ front back, Json.itemsText items = front ++ (v.text ++ back) ∧
      rawScan .outside front = some .outside := by
  induction items with
  | nil => exact absurd h List.not_mem_nil
  | cons w items ih =>
    rcases List.mem_cons.1 h with rfl | h
    · cases items with
      | nil => exact ⟨[], [], by simp [Json.itemsText], rfl⟩
      | cons w' items => exact ⟨[], 44 :: Json.itemsText (w' :: items), by simp [Json.itemsText], rfl⟩
    · obtain ⟨front, back, htext, hscan⟩ := ih h
      cases items with
      | nil => exact absurd h List.not_mem_nil
      | cons w' items =>
        refine ⟨w.text ++ 44 :: front, back, by rw [Json.itemsText, htext]; simp, ?_⟩
        exact rawScan_trans (rawScan_text w) (t := 44 :: front) hscan

/-- **What a value refers to stands in its text.** -/
theorem refIn_text {v : Json} (h : HasFilename name v) : RefIn name v.text := by
  induction h with
  | @here fields h =>
    obtain ⟨front, back, htext, hopen, hscan⟩ := exists_member h
    refine ⟨123 :: front, back ++ [125], ?_, List.cons_ne_nil _ _, EndsOpen.prepend (.inl rfl) hopen [], hscan⟩
    rw [Json.text, htext, refText, show jsonQuote (js "filename") = filenameKey from by decide,
      show Json.text (.string name) = jsonQuote name from rfl]
    simp
  | @member fields k v h _ ih =>
    obtain ⟨front, back, htext, -, hscan⟩ := exists_member h
    have hfront : rawScan .outside (123 :: (front ++ jsonQuote k ++ [58])) = some .outside :=
      rawScan_trans (s := front ++ jsonQuote k) (rawScan_trans hscan (rawScan_jsonQuote k)) rfl
    have href := ih.append hfront (back ++ [125])
    rw [Json.text, htext]
    simpa using href
  | @item items v h _ ih =>
    obtain ⟨front, back, htext, hscan⟩ := exists_item h
    have hfront : rawScan .outside (91 :: front) = some .outside := hscan
    have href := ih.append hfront (back ++ [93])
    rw [Json.text, htext]
    simpa using href

def entriesText (entries : List Json) : JsString := entries.flatMap fun v => v.text ++ [10]

lemma mem_refs {entries : List Json} {v : Json} (hv : v ∈ entries) (h : HasFilename name v) :
    name ∈ (filenameRefs (entriesText entries).length (entriesText entries)).flatMap refNames := by
  obtain ⟨before, after, rfl⟩ := List.append_of_mem hv
  have hbefore : rawScan .outside (entriesText before) = some .outside := by
    induction before with
    | nil => rfl
    | cons w before ih =>
      rw [entriesText, List.flatMap_cons]
      exact rawScan_trans (rawScan_trans (rawScan_text w) rfl)
        (ih (List.mem_append_right _ List.mem_cons_self))
  have htext : entriesText (before ++ v :: after) =
      entriesText before ++ (v.text ++ 10 :: entriesText after) := by
    simp [entriesText]
  obtain ⟨front, back, hsplit, hne, hopen, hscan⟩ :=
    (refIn_text h).append hbefore (10 :: entriesText after)
  refine List.mem_flatMap.2 ⟨jsonEscape name, ?_, ?_⟩
  · rw [htext, hsplit]
    refine mem_filenameRefs _ ?_ hopen hscan
    simp [refText, jsonQuote]
  · have hparse : Json.parse (34 :: jsonEscape name ++ [34]) = some (.string name) :=
      Json.parse_text (.string name)
    rw [refNames, hparse]
    exact List.mem_cons_of_mem _ List.mem_cons_self

end Transcripts

/-! ## Candidates -/

section Candidates

variable {sys : FileSystem} {files : OfficeFiles} {deps : PruneDeps} {policy : PrunePolicy}
  {ledger : SkipLedger} {agentId name : JsString}

/-- An entry of a transcript of an agent refers to an attachment. The transcript has the lines that
`JSON.stringify` wrote of its entries. -/
def Referenced (sys : FileSystem) (files : OfficeFiles) (deps : PruneDeps) (agentId name : JsString) :
    Prop :=
  ∃ listed file sessionId compressed entries v,
    readdirSync sys files (deps.logsDir ++ [agentId]) = some listed ∧
      ∃ entry ∈ listed, entry.2 = .file file ∧
        sessionIdOfTranscript entry.1 = some (sessionId, compressed) ∧
        readTranscript sys file compressed = some (entriesText entries) ∧ v ∈ entries ∧ HasFilename name v

def Owed (deps : PruneDeps) (agentId name : JsString) : Prop :=
  ∃ queued, deps.queuedAttachments agentId = some queued ∧ name ∈ queued

/-- One more entry of the directory of an agent. -/
def addRefs (sys : FileSystem) (referenced : Option (List JsString))
    (entry : JsString × FileTree.Node JsString LogFile) : Option (List JsString) :=
  match referenced, entry.2, sessionIdOfTranscript entry.1 with
  | some names, .file file, some (_, compressed) =>
    (readTranscript sys file compressed).map fun raw =>
      names ++ (filenameRefs raw.length raw).flatMap refNames
  | _, _, _ => referenced

/-- The names that are read of the entries of a directory. -/
structure RefsRead (sys : FileSystem) (listed : List (JsString × FileTree.Node JsString LogFile))
    (referenced : Option (List JsString)) (names : List JsString) : Prop where
  before : ∃ earlier, referenced = some earlier ∧ earlier ⊆ names
  entries : ∀ entry ∈ listed, ∀ file sessionId compressed raw, entry.2 = .file file →
    sessionIdOfTranscript entry.1 = some (sessionId, compressed) →
      readTranscript sys file compressed = some raw →
        (filenameRefs raw.length raw).flatMap refNames ⊆ names

/-- The names of every transcript are read. -/
lemma refsRead {listed : List (JsString × FileTree.Node JsString LogFile)}
    {referenced : Option (List JsString)} {names : List JsString}
    (h : listed.foldl (addRefs sys) referenced = some names) : RefsRead sys listed referenced names := by
  induction listed generalizing referenced with
  | nil => exact ⟨⟨names, h, fun _ hn => hn⟩, nofun⟩
  | cons entry listed ih =>
    obtain ⟨⟨earlier, hstep, hsub⟩, hentries⟩ := ih h
    cases referenced with
    | none => exact absurd hstep nofun
    | some before =>
      have hread : before ⊆ earlier ∧ ∀ file sessionId compressed raw, entry.2 = .file file →
          sessionIdOfTranscript entry.1 = some (sessionId, compressed) →
            readTranscript sys file compressed = some raw →
              (filenameRefs raw.length raw).flatMap refNames ⊆ earlier := by
        unfold addRefs at hstep
        split at hstep
        · rename_i heq hfile hname
          obtain ⟨raw, hraw, rfl⟩ := Option.map_eq_some_iff.1 hstep
          obtain rfl := Option.some.inj heq
          refine ⟨List.subset_append_left _ _, fun file' sessionId' compressed' raw' hf hn hr => ?_⟩
          obtain rfl := FileTree.Node.file.inj (hfile.symm.trans hf)
          obtain ⟨-, rfl⟩ := Prod.mk.inj (Option.some.inj (hname.symm.trans hn))
          obtain rfl := Option.some.inj (hraw.symm.trans hr)
          exact List.subset_append_right _ _
        · rename_i hother
          obtain rfl := Option.some.inj hstep
          exact ⟨fun _ hn => hn, fun file sessionId compressed raw hf hn _ =>
            absurd hn (hother _ _ sessionId compressed rfl hf)⟩
      refine ⟨⟨before, rfl, fun _ hn => hsub (hread.1 hn)⟩, fun e he => ?_⟩
      rcases List.mem_cons.1 he with rfl | he
      · exact fun file sessionId compressed raw hf hn hr _ hmem =>
          hsub (hread.2 file sessionId compressed raw hf hn hr hmem)
      · exact hentries e he

lemma exists_of_candidate {c : PruneCandidate}
    (h : c ∈ (planAttachments sys files deps policy ledger).1.candidates) :
    ∃ agentId ∈ listAgentDirs sys files deps, ∃ name mtimeMs,
      c.path = joinNames agentId (joinNames (js "files") name) ∧
        spareAttachment sys files deps policy agentId name mtimeMs = none := by
  rw [planAttachments] at h
  refine forall_foldl (P := fun c => ∃ agentId ∈ listAgentDirs sys files deps, ∃ name mtimeMs,
    c.path = joinNames agentId (joinNames (js "files") name) ∧
      spareAttachment sys files deps policy agentId name mtimeMs = none) _ ?_
        (fun c hc => absurd hc List.not_mem_nil) c ((List.mergeSort_perm _ _).mem_iff.1 h)
  intro draft agentId hagent hdraft
  dsimp only
  split_ifs
  · exact hdraft
  · refine forall_foldl _ (fun draft entry _ hdraft => ?_) hdraft
    split
    · exact forall_draftFile hdraft _ fun hnone => ⟨agentId, hagent, _, _, rfl, hnone⟩
    · exact hdraft

lemma joinNames_inj {a b x y : JsString} (ha : 47 ∉ a) (hb : 47 ∉ b)
    (h : joinNames a x = joinNames b y) : a = b ∧ x = y := by
  have hfirst : ∀ {s t : JsString}, 47 ∉ s → (joinNames s t).takeWhile (· ≠ 47) = s := by
    intro s t hs
    have hall : ∀ c ∈ s, decide (c ≠ 47) = true := fun c hc => decide_eq_true fun heq => hs (heq ▸ hc)
    rw [joinNames, List.takeWhile_append_of_pos hall, List.takeWhile_cons_of_neg (by decide),
      List.append_nil]
  obtain rfl : a = b := by rw [← hfirst (t := x) ha, h, hfirst hb]
  exact ⟨rfl, (List.cons.inj (List.append_cancel_left h)).2⟩

/-- **No attachment that is referenced or owed is a candidate.** -/
theorem attachment_kept (hagent : agentId ∈ listAgentDirs sys files deps)
    (h : Referenced sys files deps agentId name ∨ Owed deps agentId name) :
    ∀ c ∈ (planAttachments sys files deps policy ledger).1.candidates,
      c.path ≠ joinNames agentId (joinNames (js "files") name) := by
  intro c hc hpath
  obtain ⟨agentId', hagent', name', mtimeMs, hpath', hnone⟩ := exists_of_candidate hc
  have hslash : ∀ {id}, id ∈ listAgentDirs sys files deps → 47 ∉ id := fun hid => by
    obtain ⟨-, logs, listable, -, -, hnode⟩ := mem_listAgentDirs.1 hid
    exact (isFileName_agent hnode).2.2.2
  obtain ⟨rfl, hfile⟩ := joinNames_inj (hslash hagent') (hslash hagent) (hpath'.symm.trans hpath)
  obtain ⟨-, rfl⟩ := joinNames_inj (by decide) (by decide) hfile
  -- nothing spares it, so the references are known and it is none of them
  unfold spareAttachment at hnone
  split at hnone
  · exact absurd hnone nofun
  · rename_i queued hqueued
    split at hnone
    · exact absurd hnone nofun
    · rename_i referenced hreferenced
      split_ifs at hnone with hspared
      refine hspared (List.contains_iff_mem.2 ?_)
      rcases h with ⟨listed, file, sessionId, compressed, entries, v, hlisted, entry, hentry, hfile,
        hname, hraw, hv, href⟩ | ⟨owed, howed, hmem⟩
      · rw [referencedAttachments, hlisted, Option.getD_some] at hreferenced
        exact List.mem_append_left _ ((refsRead hreferenced).entries entry hentry file sessionId
          compressed _ hfile hname hraw (mem_refs hv href))
      · obtain rfl := Option.some.inj (hqueued.symm.trans howed)
        exact List.mem_append_right _ hmem

end Candidates

def attachedEntry : Json :=
  .object [(js "attachments", .array [.object [(js "filename", .string (js "a.png"))]])]

def attachedTranscript : LogFile := ⟨(entriesText [attachedEntry]).toUtf8, 5, true⟩

def attachedFiles : OfficeFiles where
  tree := [([js "s"], .directory true), ([js "s", js "logs"], .directory true),
    ([js "s", js "logs", js "agent-a"], .directory true),
    ([js "s", js "logs", js "agent-a", js "x.jsonl"], .file attachedTranscript),
    ([js "s", js "logs", js "agent-a", js "files"], .directory true),
    ([js "s", js "logs", js "agent-a", js "files", js "a.png"], .file ⟨[1], 5, true⟩)]
  nodup := by decide
  names := by decide

theorem attachment_kept_transcript :
    joinNames (js "agent-a") (joinNames (js "files") (js "a.png")) ∉
      (planAttachments exampleSystem attachedFiles exampleDeps ⟨1, 0⟩ newLedger).1.candidates.map
        (·.path) := by
  have hread : readTranscript exampleSystem attachedTranscript false =
      some (entriesText [attachedEntry]) := by
    have htext := toUtf8String_toUtf8_append
      ((Json.isPrintable_text attachedEntry).2.append isWellFormed_lineFeed) []
    rw [List.append_nil, show Buffer.toUtf8String [] = [] from rfl, List.append_nil] at htext
    exact congrArg some htext
  intro hmem
  obtain ⟨c, hc, hpath⟩ := List.mem_map.1 hmem
  refine attachment_kept (by decide) (.inl ⟨_, attachedTranscript, js "x", false, [attachedEntry],
    attachedEntry, rfl, (js "x.jsonl", .file attachedTranscript), ?_, rfl, rfl, hread, List.mem_cons_self,
    ?_⟩) c hc hpath
  · exact List.mem_cons_self
  · exact .member List.mem_cons_self (.item List.mem_cons_self (.here List.mem_cons_self))

end Isomux.Prune
