import Isomux.Runtime.Json

set_option autoImplicit false

/-!
# JSON texts with indentation

`JSON.stringify(value, null, 2)` puts every item and every member on a line of its own, two spaces
deeper than what it belongs to. The parser skips the white space.

## Main results

* `Isomux.JsonReader.run_indentedText` — the parser reads a value off its text, wherever it stands.
* `Isomux.Json.parse_indentedText` — a value survives the way through its text.
-/

namespace Isomux

/-- A line feed and the indentation of the next line. -/
def newLine (indent : ℕ) : JsString := 10 :: List.replicate indent 32

namespace Json

mutual

/-- `JSON.stringify(value, null, 2)`, where the lines around it are indented. -/
def indentedText (indent : ℕ) : Json → JsString
  | null => js "null"
  | bool true => js "true"
  | bool false => js "false"
  | number literal => literal.1
  | string s => jsonQuote s
  | array [] => js "[]"
  | array (v :: items) =>
    91 :: (newLine (indent + 2) ++ (indentedItems (indent + 2) (v :: items) ++
      (newLine indent ++ [93])))
  | object [] => 123 :: [125]
  | object (f :: fields) =>
    123 :: (newLine (indent + 2) ++ (indentedFields (indent + 2) (f :: fields) ++
      (newLine indent ++ [125])))

def indentedItems (indent : ℕ) : List Json → JsString
  | [] => []
  | [v] => indentedText indent v
  | v :: w :: items =>
    indentedText indent v ++ 44 :: (newLine indent ++ indentedItems indent (w :: items))

/-- The members of an object, one on a line. -/
def indentedFields (indent : ℕ) : List (JsString × Json) → JsString
  | [] => []
  | [(k, v)] => jsonQuote k ++ 58 :: 32 :: indentedText indent v
  | (k, v) :: f :: fields =>
    jsonQuote k ++ 58 :: 32 :: (indentedText indent v ++
      44 :: (newLine indent ++ indentedFields indent (f :: fields)))

end

end Json

namespace JsonReader

def Skips (r : JsonReader) : Prop := ∀ c, isJsonSpace c = true → r.step c = r

lemma Skips.run_newLine {r : JsonReader} (h : r.Skips) (indent : ℕ) (rest : JsString) :
    r.run (newLine indent ++ rest) = r.run rest := by
  have hspaces : ∀ n, r.run (List.replicate n 32 ++ rest) = r.run rest := by
    intro n
    induction n with
    | zero => rfl
    | succ n ih =>
      rw [List.replicate_succ, List.cons_append, run, Machine.run_cons, h 32 rfl]
      exact ih
  rw [newLine, List.cons_append, run, Machine.run_cons, h 10 rfl]
  exact hspaces indent

variable (frames : List JsonFrame)

lemma skips_value : (value frames).Skips := fun c hc => by
  rw [step, if_pos hc]

lemma skips_firstItem : (firstItem frames).Skips := fun c hc => by
  rw [step, if_pos hc]

lemma skips_firstKey : (firstKey frames).Skips := fun c hc => by
  rw [step, if_pos hc]

lemma skips_key : (key frames).Skips := fun c hc => by
  rw [step, if_pos hc]

lemma skips_after : (after frames).Skips := fun c hc => by
  rw [step, behind, if_pos hc]

lemma head_indentedText (indent : ℕ) (v : Json) :
    (v.indentedText indent).head? = v.text.head? := by
  match v with
  | .null => rfl
  | .bool true => rfl
  | .bool false => rfl
  | .number literal => rfl
  | .string s => rfl
  | .array [] => rfl
  | .array (v :: items) => rfl
  | .object [] => rfl
  | .object (f :: fields) => rfl

lemma run_firstItem (indent : ℕ) (v : Json) (rest : JsString) :
    (firstItem frames).run (v.indentedText indent ++ rest) =
      (value frames).run (v.indentedText indent ++ rest) := by
  obtain ⟨c, more, htext, hstep⟩ := step_firstItem frames v
  have hhead : (v.indentedText indent).head? = some c := by
    rw [head_indentedText, htext, List.head?_cons]
  obtain ⟨text, hcons⟩ := List.head?_eq_some_iff.1 hhead
  rw [hcons, List.cons_append, run, Machine.run_cons, hstep]
  rfl

mutual

/-- **A value is read off its text**, whatever is open around it, up to a unit behind it that is no
part of a token. -/
theorem run_indentedText : ∀ (v : Json) (indent : ℕ) (frames : List JsonFrame) {c : CodeUnit},
    isTokenUnit c = false → ∀ rest : JsString,
      (value frames).run (v.indentedText indent ++ c :: rest) = (finish frames v).run (c :: rest)
  | .null, _, frames, _, hc, rest => run_text .null frames hc rest
  | .bool true, _, frames, _, hc, rest => run_text (.bool true) frames hc rest
  | .bool false, _, frames, _, hc, rest => run_text (.bool false) frames hc rest
  | .number literal, _, frames, _, hc, rest => run_text (.number literal) frames hc rest
  | .string s, _, frames, _, hc, rest => run_text (.string s) frames hc rest
  | .array [], _, frames, _, hc, rest => run_text (.array []) frames hc rest
  | .array (v :: items), indent, frames, c, _, rest => by
    have hopen : (value frames).step 91 = firstItem (.items [] :: frames) := rfl
    have hfirst : ∃ text, Json.indentedItems (indent + 2) (v :: items) =
        v.indentedText (indent + 2) ++ text := by
      cases items with
      | nil => exact ⟨[], (List.append_nil _).symm⟩
      | cons w items => exact ⟨_, rfl⟩
    obtain ⟨text, htext⟩ := hfirst
    rw [Json.indentedText, List.cons_append, run, Machine.run_cons, hopen, ← run,
      List.append_assoc, (skips_firstItem _).run_newLine, List.append_assoc, List.append_assoc,
      List.singleton_append, htext, List.append_assoc, run_firstItem, ← List.append_assoc, ← htext]
    exact run_indentedItems (v :: items) (indent + 2) [] frames (List.cons_ne_nil _ _) indent
      (c :: rest)
  | .object [], _, frames, _, hc, rest => run_text (.object []) frames hc rest
  | .object (f :: fields), indent, frames, c, _, rest => by
    have hopen : (value frames).step 123 = firstKey (.fields [] :: frames) := rfl
    rw [Json.indentedText, List.cons_append, run, Machine.run_cons, hopen, ← run,
      List.append_assoc, (skips_firstKey _).run_newLine, List.append_assoc, List.append_assoc,
      List.singleton_append]
    exact run_indentedFields (f :: fields) (indent + 2) [] frames (List.cons_ne_nil _ _) indent _
      (Or.inl rfl) (c :: rest)
termination_by structural v => v

theorem run_indentedItems : ∀ (items : List Json) (indent : ℕ) (read : List Json)
    (frames : List JsonFrame), items ≠ [] → ∀ (outer : ℕ) (rest : JsString),
      (value (.items read :: frames)).run
        (Json.indentedItems indent items ++ (newLine outer ++ 93 :: rest)) =
        (finish frames (.array (read ++ items))).run rest
  | [], _, _, _, hne, _, _ => absurd rfl hne
  | [v], indent, read, frames, _, outer, rest => by
    have hfinish : finish (.items read :: frames) v = after (.items (read ++ [v]) :: frames) := rfl
    have hskip := (skips_after (.items (read ++ [v]) :: frames)).run_newLine outer (93 :: rest)
    rw [Json.indentedItems]
    rw [newLine, List.cons_append] at hskip ⊢
    rw [run_indentedText v _ _ (by decide), hfinish, hskip]
    rfl
  | v :: w :: items, indent, read, frames, _, outer, rest => by
    have hcomma : (finish (.items read :: frames) v).step 44 =
        value (.items (read ++ [v]) :: frames) := rfl
    rw [Json.indentedItems, List.append_assoc, List.cons_append, run_indentedText v _ _ (by decide),
      run, Machine.run_cons, hcomma, ← run, List.append_assoc, (skips_value _).run_newLine,
      run_indentedItems (w :: items) _ _ _ (List.cons_ne_nil _ _), List.append_assoc]
    rfl
termination_by structural items => items

theorem run_indentedFields : ∀ (fields : List (JsString × Json)) (indent : ℕ)
    (read : List (JsString × Json)) (frames : List JsonFrame), fields ≠ [] →
    ∀ (outer : ℕ) (r : JsonReader),
      r = firstKey (.fields read :: frames) ∨ r = key (.fields read :: frames) → ∀ rest : JsString,
        r.run (Json.indentedFields indent fields ++ (newLine outer ++ 125 :: rest)) =
          (finish frames (.object (read ++ fields))).run rest
  | [], _, _, _, hne, _, _, _, _ => absurd rfl hne
  | [(k, v)], indent, read, frames, _, outer, r, hr, rest => by
    have hcolon : (colon (.fields read :: frames) k).step 58 = value (.member read k :: frames) := rfl
    have hspace : (value (.member read k :: frames)).step 32 = value (.member read k :: frames) := rfl
    have hfinish : finish (.member read k :: frames) v = after (.fields (read ++ [(k, v)]) :: frames) :=
      rfl
    have hskip := (skips_after (.fields (read ++ [(k, v)]) :: frames)).run_newLine outer (125 :: rest)
    rw [Json.indentedFields, List.append_assoc, List.cons_append, List.cons_append,
      run_jsonQuote_key hr, run, Machine.run_cons, hcolon, Machine.run_cons, hspace, ← run]
    rw [newLine, List.cons_append] at hskip ⊢
    rw [run_indentedText v _ _ (by decide), hfinish, hskip]
    rfl
  | (k, v) :: f :: fields, indent, read, frames, _, outer, r, hr, rest => by
    have hcolon : (colon (.fields read :: frames) k).step 58 = value (.member read k :: frames) := rfl
    have hspace : (value (.member read k :: frames)).step 32 = value (.member read k :: frames) := rfl
    have hcomma : (finish (.member read k :: frames) v).step 44 =
        key (.fields (read ++ [(k, v)]) :: frames) := rfl
    rw [Json.indentedFields, List.append_assoc, List.cons_append, List.cons_append,
      run_jsonQuote_key hr, run, Machine.run_cons, hcolon, Machine.run_cons, hspace, ← run,
      List.append_assoc, List.cons_append, run_indentedText v _ _ (by decide), run,
      Machine.run_cons, hcomma, ← run, List.append_assoc, (skips_key _).run_newLine,
      run_indentedFields (f :: fields) _ _ _ (List.cons_ne_nil _ _) _ _ (Or.inr rfl),
      List.append_assoc]
    rfl
termination_by structural fields => fields

end

end JsonReader

/-- **A value survives the way through its text.** -/
theorem Json.parse_indentedText (v : Json) : Json.parse (v.indentedText 0) = some v := by
  rw [Json.parse, JsonReader.run_indentedText v 0 [] (by decide)]
  rfl

end Isomux
