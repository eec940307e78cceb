import Isomux.Messages.SenderLabels

set_option autoImplicit false

/-!
# Labels in a body with its marks

A mark stands in front of a line that looks like a label. The name of a label is quoted, and a
quoted text may run over every line break but `\n`. Such a label starts on a line that does not look
like one, the mark falls inside the name, and the label stays a label.

The parts of a label are read one behind the other. Each reader commutes with the marks, except the
one of the agent's id: a mark behind a next-line control, the one line break that an id may have,
ends the id.

## Main results

* `Isomux.readLabel_iff` — what is read is the match of the expression.
* `Isomux.readLabel_insertMarks` — a label in a text with marks.
* `Isomux.Unicode.hasSenderLabel_defuse_iff` — which bodies are defused.
-/

namespace Isomux

/-! ## Reading a label -/

/-- What comes behind a quoted text, from behind its first quote on. -/
def quotedRest : JsString → Option JsString
  | [] => none
  | c :: text =>
    if c = 34 then some text
    else if c = 10 then none
    else if c = 92 then
      match text with
      | [] => none
      | d :: text => if isLineTerminator d then none else quotedRest text
    else quotedRest text

def readQuoted : JsString → Option JsString
  | [] => none
  | c :: text => if c = 34 then quotedRest text else none

def readText : JsString → JsString → Option JsString
  | [], text => some text
  | _ :: _, [] => none
  | c :: expected, d :: text => if c = d then readText expected text else none

/-- What comes behind the units of an agent's id, a comma or a bracket. Each unit has to pass `ok`,
with the text behind it. -/
def agentIdRest (ok : CodeUnit → JsString → Bool) : JsString → Option JsString
  | [] => none
  | c :: text =>
    if isAgentIdUnit c then if ok c text then agentIdRest ok text else none
    else if c = 44 ∨ c = 41 then some (c :: text)
    else none

variable (ok : CodeUnit → JsString → Bool)

def readAgentId : JsString → Option JsString
  | [] => none
  | c :: text => if isAgentIdUnit c then agentIdRest ok (c :: text) else none

/-- What comes behind the markers, and behind what is left of one: the closing bracket. -/
def readMarkers : JsString → Option JsString
  | [] => none
  | c :: text =>
    if c = 41 then some (c :: text)
    else if c = 10 then none
    else if c = 44 then
      match text with
      | [] => none
      | [_] => none
      | s :: d :: text => if s = 32 ∧ isMarkerUnit d then readMarkers text else none
    else readMarkers text

def readLabel (text : JsString) : Option JsString :=
  (readQuoted text).bind fun text =>
    (readText (js " (agent id: ") text).bind fun text =>
      (readAgentId ok text).bind fun text =>
        (readMarkers text).bind fun text =>
          (readText (js ") from Room ") text).bind readQuoted

section Reading

variable {text rest : JsString}

lemma quotedRest_quote : quotedRest (34 :: text) = some text := by
  rw [quotedRest.eq_def]
  exact if_pos rfl

lemma quotedRest_line : quotedRest (10 :: text) = none := by
  rw [quotedRest.eq_def]
  exact (if_neg (by decide)).trans (if_pos rfl)

lemma quotedRest_unit {c : CodeUnit} (h : c ≠ 34 ∧ c ≠ 92 ∧ c ≠ 10) :
    quotedRest (c :: text) = quotedRest text := by
  rw [quotedRest.eq_def]
  dsimp only
  rw [if_neg h.1, if_neg h.2.2, if_neg h.2.1]

variable (c : CodeUnit)

lemma quotedRest_escape :
    quotedRest (92 :: c :: text) = if isLineTerminator c then none else quotedRest text := by
  rw [quotedRest.eq_def]
  exact (if_neg (by decide)).trans ((if_neg (by decide)).trans (if_pos rfl))

lemma quotedRest_iff : quotedRest text = some rest ↔
    ∃ content, QuotedContent content ∧ text = content ++ 34 :: rest := by
  constructor
  · intro h
    fun_induction quotedRest text with
    | case1 => cases h
    | case2 text =>
      cases h
      exact ⟨[], .nil, rfl⟩
    | case3 => cases h
    | case4 => cases h
    | case5 => cases h
    | case6 d text hd _ _ ih =>
      obtain ⟨content, hcontent, rfl⟩ := ih h
      exact ⟨92 :: d :: content, .escape d content (by simpa using hd) hcontent, rfl⟩
    | case7 c text hquote hline hslash ih =>
      obtain ⟨content, hcontent, rfl⟩ := ih h
      exact ⟨c :: content, .unit c content ⟨hquote, hslash, hline⟩ hcontent, rfl⟩
  · rintro ⟨content, hcontent, rfl⟩
    induction hcontent with
    | nil => exact quotedRest_quote
    | unit c content h hcontent ih => rw [List.cons_append, quotedRest_unit h, ih]
    | escape c content h hcontent ih =>
      rw [List.cons_append, List.cons_append, quotedRest_escape, h, if_neg Bool.false_ne_true, ih]

lemma readQuoted_iff : readQuoted text = some rest ↔
    ∃ quoted, IsQuoted quoted ∧ text = quoted ++ rest := by
  constructor
  · intro h
    fun_cases readQuoted text with
    | case1 => cases h
    | case2 text =>
      obtain ⟨content, hcontent, rfl⟩ := quotedRest_iff.1 h
      exact ⟨_, ⟨content, hcontent, rfl⟩, by simp⟩
    | case3 c text hc => simp [readQuoted, hc] at h
  · rintro ⟨quoted, ⟨content, hcontent, rfl⟩, rfl⟩
    exact quotedRest_iff.2 ⟨content, hcontent, by simp⟩

lemma readText_iff {expected : JsString} : readText expected text = some rest ↔
    text = expected ++ rest := by
  induction expected generalizing text with
  | nil => simp [readText, eq_comm]
  | cons c expected ih =>
    cases text with
    | nil => simp [readText]
    | cons d text =>
      by_cases hc : c = d
      · simp [readText, hc, ih]
      · simp [readText, hc, Ne.symm hc]

/-- What stands behind an agent's id: a comma or a bracket. -/
def EndsAgentId (rest : JsString) : Prop := ∃ c behind, rest = c :: behind ∧ (c = 44 ∨ c = 41)

variable {ok : CodeUnit → JsString → Bool}

lemma agentIdRest_iff : agentIdRest ok text = some rest ↔
    EndsAgentId rest ∧ ∃ agentId : JsString, (∀ c ∈ agentId, isAgentIdUnit c) ∧
      (∀ i c j, agentId = i ++ c :: j → ok c (j ++ rest)) ∧ text = agentId ++ rest := by
  constructor
  · intro h
    fun_induction agentIdRest ok text with
    | case1 => cases h
    | case2 c text hunit hok ih =>
      obtain ⟨hends, agentId, hunits, hoks, rfl⟩ := ih h
      refine ⟨hends, c :: agentId, by simpa using ⟨hunit, hunits⟩, fun i d j hd => ?_, rfl⟩
      cases i with
      | nil =>
        obtain ⟨rfl, rfl⟩ := List.cons.inj hd
        exact hok
      | cons e i => exact hoks i d j (List.cons.inj hd).2
    | case3 => cases h
    | case4 c text hunit hc =>
      cases h
      exact ⟨⟨c, text, rfl, hc⟩, [], by simp, by simp, rfl⟩
    | case5 => cases h
  · rintro ⟨⟨d, behind, rfl, hd⟩, agentId, hunits, hoks, rfl⟩
    induction agentId with
    | nil =>
      have hunit : isAgentIdUnit d = false := by rcases hd with rfl | rfl <;> decide
      rw [List.nil_append, agentIdRest, hunit, if_neg Bool.false_ne_true, if_pos hd]
    | cons c agentId ih =>
      rw [List.forall_mem_cons] at hunits
      rw [List.cons_append, agentIdRest, if_pos hunits.1, if_pos (hoks [] c agentId rfl)]
      exact ih hunits.2 fun i e j he => hoks (c :: i) e j (by rw [he, List.cons_append])

lemma readAgentId_iff : readAgentId ok text = some rest ↔
    EndsAgentId rest ∧ ∃ agentId : JsString, agentId ≠ [] ∧ (∀ c ∈ agentId, isAgentIdUnit c) ∧
      (∀ i c j, agentId = i ++ c :: j → ok c (j ++ rest)) ∧ text = agentId ++ rest := by
  constructor
  · intro h
    fun_cases readAgentId ok text with
    | case1 => cases h
    | case2 c text hunit =>
      rw [readAgentId, if_pos hunit] at h
      obtain ⟨hends, agentId, hunits, hoks, htext⟩ := agentIdRest_iff.1 h
      refine ⟨hends, agentId, ?_, hunits, hoks, htext⟩
      rintro rfl
      obtain ⟨d, behind, rfl, hd⟩ := hends
      obtain rfl : c = d := (List.cons.inj htext).1
      rcases hd with rfl | rfl <;> exact absurd hunit (by decide)
    | case3 c text hunit => rw [readAgentId, if_neg hunit] at h; cases h
  · rintro ⟨hends, agentId, hne, hunits, hoks, rfl⟩
    obtain ⟨c, agentId, rfl⟩ := List.exists_cons_of_ne_nil hne
    rw [List.cons_append, readAgentId, if_pos (hunits c List.mem_cons_self)]
    exact agentIdRest_iff.2 ⟨hends, c :: agentId, hunits, hoks, rfl⟩

lemma readMarkers_bracket : readMarkers (41 :: text) = some (41 :: text) := by
  rw [readMarkers.eq_def]
  exact if_pos rfl

lemma readMarkers_line : readMarkers (10 :: text) = none := by
  rw [readMarkers.eq_def]
  exact (if_neg (by decide)).trans (if_pos rfl)

lemma isMarkerUnit_iff {c : CodeUnit} : isMarkerUnit c ↔ c ≠ 41 ∧ c ≠ 10 ∧ c ≠ 44 := by
  simp only [isMarkerUnit, Bool.and_eq_true, bne_iff_ne]
  tauto

lemma readMarkers_unit {c : CodeUnit} (h : isMarkerUnit c) :
    readMarkers (c :: text) = readMarkers text := by
  obtain ⟨hbracket, hline, hcomma⟩ := isMarkerUnit_iff.1 h
  rw [readMarkers.eq_def]
  dsimp only
  rw [if_neg hbracket, if_neg hline, if_neg hcomma]

lemma readMarkers_marker (s d : CodeUnit) :
    readMarkers (44 :: s :: d :: text) =
      if s = 32 ∧ isMarkerUnit d then readMarkers text else none := by
  rw [readMarkers.eq_def]
  exact (if_neg (by decide)).trans ((if_neg (by decide)).trans (if_pos rfl))

lemma readMarkers_units {units : JsString} (h : ∀ c ∈ units, isMarkerUnit c) :
    readMarkers (units ++ text) = readMarkers text := by
  induction units with
  | nil => rfl
  | cons c units ih =>
    rw [List.forall_mem_cons] at h
    rw [List.cons_append, readMarkers_unit h.1, ih h.2]

/-- What is left of a marker, and the markers behind it. -/
lemma readMarkers_iff : readMarkers text = some rest ↔
    (∃ behind, rest = 41 :: behind) ∧ ∃ units marker : JsString, (∀ c ∈ units, isMarkerUnit c) ∧
      IsMarker marker ∧ text = units ++ (marker ++ rest) := by
  constructor
  · intro h
    fun_induction readMarkers text with
    | case1 => cases h
    | case2 text =>
      cases h
      exact ⟨⟨text, rfl⟩, [], [], by simp, .nil, rfl⟩
    | case3 => cases h
    | case4 => cases h
    | case5 => cases h
    | case6 s d text hd _ _ ih =>
      obtain ⟨hends, units, marker, hunits, hmarker, rfl⟩ := ih h
      refine ⟨hends, [], 44 :: 32 :: ((d :: units) ++ marker), by simp,
        .cons (d :: units) marker (by simp) (by simpa using ⟨hd.2, hunits⟩) hmarker, ?_⟩
      rw [hd.1]
      simp
    | case7 => cases h
    | case8 c text hbracket hline hcomma ih =>
      obtain ⟨hends, units, marker, hunits, hmarker, rfl⟩ := ih h
      exact ⟨hends, c :: units, marker,
        by simpa using ⟨isMarkerUnit_iff.2 ⟨hbracket, hline, hcomma⟩, hunits⟩, hmarker, rfl⟩
  · rintro ⟨⟨behind, rfl⟩, units, marker, hunits, hmarker, rfl⟩
    rw [readMarkers_units hunits]
    induction hmarker with
    | nil => exact readMarkers_bracket
    | cons marker rest hne hmarker hrest ih =>
      obtain ⟨d, marker, rfl⟩ := List.exists_cons_of_ne_nil hne
      rw [List.forall_mem_cons] at hmarker
      rw [List.cons_append, List.cons_append, List.cons_append, List.cons_append,
        readMarkers_marker, if_pos ⟨rfl, hmarker.1⟩, List.append_assoc, readMarkers_units hmarker.2,
        ih]

lemma readMarkers_iff_of_ends (h : EndsAgentId text) : readMarkers text = some rest ↔
    (∃ behind, rest = 41 :: behind) ∧ ∃ marker, IsMarker marker ∧ text = marker ++ rest := by
  rw [readMarkers_iff]
  refine and_congr_right fun _ => ⟨?_, ?_⟩
  · rintro ⟨units, marker, hunits, hmarker, htext⟩
    obtain ⟨c, behind, rfl, hc⟩ := h
    cases units with
    | nil => exact ⟨marker, hmarker, htext⟩
    | cons d units =>
      obtain rfl : c = d := (List.cons.inj htext).1
      obtain ⟨hbracket, -, hcomma⟩ := isMarkerUnit_iff.1 (hunits c List.mem_cons_self)
      exact absurd hc (not_or_intro hcomma hbracket)
  · rintro ⟨marker, hmarker, htext⟩
    exact ⟨[], marker, by simp, hmarker, htext⟩

lemma endsAgentId_marker {marker behind : JsString} (h : IsMarker marker) :
    EndsAgentId (marker ++ 41 :: behind) := by
  cases h with
  | nil => exact ⟨41, behind, rfl, Or.inr rfl⟩
  | cons marker rest hne hunits hrest => exact ⟨44, _, rfl, Or.inl rfl⟩

theorem readLabel_iff : readLabel ok text = some rest ↔ ∃ name agentId marker room,
    AgentSenderLabel text name agentId marker room rest ∧ ∀ i c j, agentId = i ++ c :: j →
      ok c (j ++ (marker ++ (js ") from Room " ++ (room ++ rest)))) := by
  constructor
  · intro h
    simp only [readLabel, Option.bind_eq_some_iff, readQuoted_iff, readText_iff,
      readAgentId_iff] at h
    obtain ⟨_, ⟨name, hname, rfl⟩, _, rfl, behind, ⟨hends, agentId, hne, hunits, hok, rfl⟩, _,
      hmarkers, _, rfl, room, hroom, rfl⟩ := h
    obtain ⟨-, marker, hmarker, rfl⟩ := (readMarkers_iff_of_ends hends).1 hmarkers
    exact ⟨name, agentId, marker, room, ⟨rfl, hname, hne, hunits, hmarker, hroom⟩, hok⟩
  · rintro ⟨name, agentId, marker, room, ⟨rfl, hname, hne, hunits, hmarker, hroom⟩, hok⟩
    have hends : EndsAgentId (marker ++ (js ") from Room " ++ (room ++ rest))) :=
      endsAgentId_marker hmarker
    simp only [readLabel, Option.bind_eq_some_iff, readQuoted_iff, readText_iff, readAgentId_iff]
    refine ⟨_, ⟨name, hname, rfl⟩, _, rfl, _, ⟨hends, agentId, hne, hunits, hok, rfl⟩, _,
      (readMarkers_iff_of_ends hends).2 ⟨⟨_, rfl⟩, marker, hmarker, rfl⟩, _, rfl, room, hroom, rfl⟩

end Reading

/-! ## Marks -/

/-- The text with a mark behind each unit that has one, by the text behind it. -/
def insertMarks (mark : CodeUnit → JsString → Bool) : JsString → JsString
  | [] => []
  | c :: text =>
    c :: ((if mark c text then DEFUSED_LABEL_LINE_PREFIX else []) ++ insertMarks mark text)

section Marks

variable {mark : CodeUnit → JsString → Bool} (hmark : ∀ c text, mark c text → isLineBreak c)

include hmark

lemma insertMarks_cons {c : CodeUnit} (h : isLineBreak c = false) (text : JsString) :
    insertMarks mark (c :: text) = c :: insertMarks mark text := by
  rw [insertMarks, if_neg fun hc => Bool.false_ne_true (h.symm.trans (hmark c text hc)),
    List.nil_append]

omit hmark in
lemma quotedRest_mark (b : Prop) [Decidable b] (text : JsString) :
    quotedRest ((if b then DEFUSED_LABEL_LINE_PREFIX else []) ++ text) = quotedRest text := by
  split_ifs
  · exact (quotedRest_unit (by decide)).trans (quotedRest_unit (by decide))
  · rfl

omit hmark in
lemma readMarkers_mark (b : Prop) [Decidable b] (text : JsString) :
    readMarkers ((if b then DEFUSED_LABEL_LINE_PREFIX else []) ++ text) = readMarkers text := by
  split_ifs
  · exact (readMarkers_unit (by decide)).trans (readMarkers_unit (by decide))
  · rfl

variable (text : JsString)

lemma quotedRest_insertMarks :
    quotedRest (insertMarks mark text) = (quotedRest text).map (insertMarks mark) := by
  fun_induction quotedRest text with
  | case1 => rfl
  | case2 text => rw [insertMarks_cons hmark (by decide), quotedRest_quote, Option.map_some]
  | case3 => rw [insertMarks, quotedRest_line, Option.map_none]
  | case4 => rw [insertMarks_cons hmark (by decide), insertMarks]; rfl
  | case5 d text hd =>
    rw [insertMarks_cons hmark (by decide), insertMarks, quotedRest_escape, if_pos hd,
      Option.map_none]
  | case6 d text hd _ _ ih =>
    rw [insertMarks_cons hmark (by decide), insertMarks, quotedRest_escape, if_neg hd,
      quotedRest_mark, ih]
  | case7 c text hquote hline hslash ih =>
    rw [insertMarks, quotedRest_unit ⟨hquote, hslash, hline⟩, quotedRest_mark, ih]

lemma readQuoted_insertMarks :
    readQuoted (insertMarks mark text) = (readQuoted text).map (insertMarks mark) := by
  fun_cases readQuoted text with
  | case1 => rfl
  | case2 text =>
    rw [insertMarks_cons hmark (by decide)]
    exact quotedRest_insertMarks hmark text
  | case3 c text hc =>
    rw [insertMarks, readQuoted.eq_def]
    exact if_neg hc

lemma readText_insertMarks {expected : JsString} (h : expected.all fun c => !isLineBreak c)
    (text : JsString) :
    readText expected (insertMarks mark text) =
      (readText expected text).map (insertMarks mark) := by
  induction expected generalizing text with
  | nil => rfl
  | cons c expected ih =>
    rw [List.all_cons, Bool.and_eq_true, Bool.not_eq_true'] at h
    cases text with
    | nil => rfl
    | cons d text =>
      by_cases hc : c = d
      · subst hc
        rw [insertMarks_cons hmark h.1, readText, readText, if_pos rfl, if_pos rfl, ih h.2]
      · rw [insertMarks, readText, readText, if_neg hc, if_neg hc, Option.map_none]

omit hmark in
lemma agentIdRest_mark (ok : CodeUnit → JsString → Bool) (text : JsString) :
    agentIdRest ok (DEFUSED_LABEL_LINE_PREFIX ++ text) = none := by
  have hblank : agentIdRest ok (32 :: text) = none := by
    rw [agentIdRest, if_neg (by decide), if_neg (by decide)]
  change agentIdRest ok (62 :: 32 :: text) = none
  rw [agentIdRest, if_pos (by decide), hblank, ite_self]

omit hmark in
lemma agentIdRest_insertMarks : agentIdRest (fun _ _ => true) (insertMarks mark text) =
      (agentIdRest (fun c text => !mark c text) text).map (insertMarks mark) := by
  induction text with
  | nil => rfl
  | cons c text ih =>
    rw [insertMarks, agentIdRest, agentIdRest]
    by_cases hunit : isAgentIdUnit c
    · rw [if_pos hunit, if_pos hunit, if_pos rfl]
      by_cases hc : mark c text
      · rw [if_pos hc, agentIdRest_mark, hc, Bool.not_true, if_neg Bool.false_ne_true,
          Option.map_none]
      · rw [if_neg hc, List.nil_append, if_pos (by simpa using hc), ih]
    · rw [if_neg hunit, if_neg hunit]
      by_cases hends : c = 44 ∨ c = 41
      · rw [if_pos hends, if_pos hends, Option.map_some, insertMarks]
      · rw [if_neg hends, if_neg hends, Option.map_none]

omit hmark in
lemma readAgentId_insertMarks : readAgentId (fun _ _ => true) (insertMarks mark text) =
      (readAgentId (fun c text => !mark c text) text).map (insertMarks mark) := by
  cases text with
  | nil => rfl
  | cons c text =>
    rw [readAgentId]
    by_cases hunit : isAgentIdUnit c
    · rw [if_pos hunit, ← agentIdRest_insertMarks, insertMarks, readAgentId, if_pos hunit]
    · rw [if_neg hunit, insertMarks, readAgentId, if_neg hunit, Option.map_none]

lemma readMarkers_insertMarks :
    readMarkers (insertMarks mark text) = (readMarkers text).map (insertMarks mark) := by
  fun_induction readMarkers text with
  | case1 => rfl
  | case2 text =>
    rw [insertMarks_cons hmark (by decide), readMarkers_bracket, Option.map_some,
      insertMarks_cons hmark (by decide)]
  | case3 => rw [insertMarks, readMarkers_line, Option.map_none]
  | case4 => rw [insertMarks_cons hmark (by decide), insertMarks]; rfl
  | case5 s =>
    rw [insertMarks_cons hmark (by decide), insertMarks, insertMarks, List.append_nil,
      Option.map_none]
    split_ifs with hs
    · refine (readMarkers_marker s 62).trans (if_neg fun h => ?_)
      exact absurd (hmark s [] hs) (by rw [h.1]; decide)
    · rfl
  | case6 s d text hd _ _ ih =>
    rw [hd.1, insertMarks_cons hmark (by decide), insertMarks_cons hmark (by decide), insertMarks,
      readMarkers_marker, if_pos ⟨rfl, hd.2⟩, readMarkers_mark, ih]
  | case7 s d text hd =>
    rw [insertMarks_cons hmark (by decide), Option.map_none]
    by_cases hs : s = 32
    · rw [hs, insertMarks_cons hmark (by decide), insertMarks, readMarkers_marker, if_neg (hs ▸ hd)]
    · rw [insertMarks]
      split_ifs
      · exact (readMarkers_marker s 62).trans (if_neg fun h => hs h.1)
      · rw [List.nil_append, insertMarks, readMarkers_marker, if_neg fun h => hs h.1]
  | case8 c text hbracket hline hcomma ih =>
    rw [insertMarks, readMarkers_unit (isMarkerUnit_iff.2 ⟨hbracket, hline, hcomma⟩),
      readMarkers_mark, ih]

omit hmark in
lemma bind_insertMarks {read : Option JsString} {next marked : JsString → Option JsString}
    (h : ∀ text, marked (insertMarks mark text) = (next text).map (insertMarks mark)) :
    (read.map (insertMarks mark)).bind marked = (read.bind next).map (insertMarks mark) := by
  cases read with
  | none => rfl
  | some text => exact h text

theorem readLabel_insertMarks : readLabel (fun _ _ => true) (insertMarks mark text) =
      (readLabel (fun c text => !mark c text) text).map (insertMarks mark) := by
  rw [readLabel, readLabel, readQuoted_insertMarks hmark]
  refine bind_insertMarks fun text => ?_
  rw [readText_insertMarks hmark (by decide)]
  refine bind_insertMarks fun text => ?_
  rw [readAgentId_insertMarks]
  refine bind_insertMarks fun text => ?_
  rw [readMarkers_insertMarks hmark]
  refine bind_insertMarks fun text => ?_
  rw [readText_insertMarks hmark (by decide)]
  exact bind_insertMarks (readQuoted_insertMarks hmark)

end Marks

/-! ## Labels behind a start of a line -/

/-- A label stands at the beginning, where a line starts there (`b`), or later, behind a unit that
starts a line, with the text behind it. -/
def LabelFrom (start ok : CodeUnit → JsString → Bool) : Bool → JsString → Prop
  | _, [] => False
  | b, c :: text => (b ∧ (readLabel ok (c :: text)).isSome) ∨ LabelFrom start ok (start c text) text

/-- A line starts behind this text, by its last unit; `b` where there is none. -/
def StartsLine (start : CodeUnit → JsString → Bool) (b : Bool) (before behind : JsString) : Prop :=
  before.getLast?.elim b fun c => start c behind

section Lines

variable {start ok : CodeUnit → JsString → Bool}

lemma startsLine_cons (c : CodeUnit) (b : Bool) (before behind : JsString) :
    StartsLine start b (c :: before) behind ↔
      StartsLine start (start c (before ++ behind)) before behind := by
  cases before using List.reverseRecOn with
  | nil => rfl
  | append_singleton before d =>
    rw [StartsLine, StartsLine, ← List.cons_append, List.getLast?_concat, List.getLast?_concat]
    rfl

lemma labelFrom_iff {b : Bool} {text : JsString} : LabelFrom start ok b text ↔
    ∃ before behind, text = before ++ behind ∧ StartsLine start b before behind ∧
      (readLabel ok behind).isSome := by
  induction text generalizing b with
  | nil =>
    refine iff_of_false id ?_
    rintro ⟨before, behind, htext, -, hlabel⟩
    rw [(List.append_eq_nil_iff.1 htext.symm).2] at hlabel
    cases hlabel
  | cons c text ih =>
    rw [LabelFrom, ih]
    constructor
    · rintro (⟨hb, hlabel⟩ | ⟨before, behind, rfl, hstart, hlabel⟩)
      · exact ⟨[], c :: text, rfl, hb, hlabel⟩
      · exact ⟨c :: before, behind, rfl, (startsLine_cons c b before behind).2 hstart, hlabel⟩
    · rintro ⟨before, behind, htext, hstart, hlabel⟩
      cases before with
      | nil =>
        rw [List.nil_append] at htext
        exact Or.inl ⟨hstart, htext ▸ hlabel⟩
      | cons d before =>
        obtain ⟨rfl, rfl⟩ := List.cons.inj htext
        exact Or.inr ⟨before, behind, rfl, (startsLine_cons c b before behind).1 hstart, hlabel⟩

lemma hasSenderLabel_iff {text : JsString} : HasSenderLabel text ↔
    LabelFrom (fun c _ => isLineTerminator c) (fun _ _ => true) true text := by
  have hstarts : ∀ before behind : JsString,
      StartsLine (fun c _ => isLineTerminator c) true before behind ↔ AtLineStart before := by
    intro before behind
    rw [StartsLine, AtLineStart]
    cases before.getLast? <;> rfl
  rw [labelFrom_iff]
  constructor
  · rintro ⟨before, behind, name, agentId, marker, room, rest, htext, hline, hlabel⟩
    exact ⟨before, behind, htext, (hstarts before behind).2 hline, Option.isSome_iff_exists.2
      ⟨rest, readLabel_iff.2 ⟨name, agentId, marker, room, hlabel, fun _ _ _ _ => rfl⟩⟩⟩
  · rintro ⟨before, behind, htext, hline, hlabel⟩
    obtain ⟨rest, hrest⟩ := Option.isSome_iff_exists.1 hlabel
    obtain ⟨name, agentId, marker, room, hlabel, -⟩ := readLabel_iff.1 hrest
    exact ⟨before, behind, name, agentId, marker, room, rest, htext,
      (hstarts before behind).1 hline, hlabel⟩

lemma labelFrom_mark (m b : Bool) (text : JsString) :
    LabelFrom (fun c _ => isLineTerminator c) ok b
        ((if m then DEFUSED_LABEL_LINE_PREFIX else []) ++ text) ↔
      LabelFrom (fun c _ => isLineTerminator c) ok (b && !m) text := by
  cases m with
  | false => rw [Bool.not_false, Bool.and_true]; rfl
  | true =>
    rw [if_pos rfl, Bool.not_true, Bool.and_false]
    change LabelFrom _ ok b (62 :: 32 :: text) ↔ _
    rw [LabelFrom, LabelFrom, or_iff_right, or_iff_right]
    · rfl
    · exact fun h => Bool.false_ne_true h.1
    · exact fun h => Bool.false_ne_true h.2

variable {mark : CodeUnit → JsString → Bool}

/-- A label in a text with marks stands behind a start of a line of the text that has no mark, with
no mark inside its id. -/
theorem labelFrom_insertMarks (hmark : ∀ c text, mark c text → isLineBreak c) (b : Bool)
    (text : JsString) :
    LabelFrom (fun c _ => isLineTerminator c) (fun _ _ => true) b (insertMarks mark text) ↔
      LabelFrom (fun c text => isLineTerminator c && !mark c text) (fun c text => !mark c text) b
        text := by
  induction text generalizing b with
  | nil => rfl
  | cons c text ih =>
    rw [LabelFrom, ← Option.isSome_map (f := insertMarks mark), ← readLabel_insertMarks hmark,
      insertMarks, LabelFrom, labelFrom_mark, ih]

end Lines

/-! ## Which bodies are defused -/

def firstLine (text : JsString) : JsString := text.takeWhile fun c => !isLineBreak c

lemma firstLine_break {c : CodeUnit} (h : isLineBreak c) (text : JsString) :
    firstLine (c :: text) = [] := by
  rw [firstLine, List.takeWhile_cons, if_neg (by simpa using h)]

lemma firstLine_unit {c : CodeUnit} (h : isLineBreak c = false) (text : JsString) :
    firstLine (c :: text) = c :: firstLine text := by
  rw [firstLine, List.takeWhile_cons, if_pos (by simpa using h)]
  rfl

/-- A line break ends here, with this text behind it. -/
def endsLineBreak (c : CodeUnit) (text : JsString) : Bool :=
  isLineBreak c && !(c == 13 && text.head? == some 10)

namespace Unicode

variable (u : Unicode)

def markPart (i : ℕ) (part : JsString) : JsString :=
  if i % 2 = 0 ∧ u.isLabelLookalike part then DEFUSED_LABEL_LINE_PREFIX ++ part else part

/-- A mark stands behind this unit, with this text behind it. -/
def marksLine (c : CodeUnit) (text : JsString) : Bool :=
  endsLineBreak c text && u.isLabelLookalike (firstLine text)

lemma markPart_line (part : JsString) : u.markPart 0 part =
    (if u.isLabelLookalike part then DEFUSED_LABEL_LINE_PREFIX else []) ++ part := by
  by_cases h : u.isLabelLookalike part <;> simp [markPart, h]

lemma mapIdx_markPart_cons (line separator : JsString) (parts : List JsString) :
    ((line :: separator :: parts).mapIdx u.markPart).flatten =
      (if u.isLabelLookalike line then DEFUSED_LABEL_LINE_PREFIX else []) ++
        (line ++ (separator ++ (parts.mapIdx u.markPart).flatten)) := by
  have hlater : (fun i => u.markPart (i + 1 + 1)) = u.markPart := by
    funext i part
    rw [markPart, markPart, Nat.add_assoc, Nat.add_mod_right]
  have hbreak : u.markPart (0 + 1) separator = separator := if_neg fun h => absurd h.1 (by decide)
  rw [List.mapIdx_cons, List.mapIdx_cons, List.flatten_cons, List.flatten_cons, markPart_line,
    hbreak, hlater, List.append_assoc]

/-- The marks of the lines of a text that begins inside a line. -/
lemma mapIdx_splitLineBreaks (line text : JsString) :
    ((splitLineBreaks line text).mapIdx u.markPart).flatten =
      (if u.isLabelLookalike (line ++ firstLine text) then DEFUSED_LABEL_LINE_PREFIX else []) ++
        (line ++ insertMarks u.marksLine text) := by
  fun_induction splitLineBreaks line text with
  | case1 line =>
    rw [List.mapIdx_cons, List.mapIdx_nil, List.flatten_cons, List.flatten_nil, markPart_line,
      insertMarks, List.append_nil, List.append_nil]
    exact congrArg (fun line' =>
      (if u.isLabelLookalike line' then DEFUSED_LABEL_LINE_PREFIX else []) ++ line)
      (List.append_nil line).symm
  | case2 line text ih =>
    have hmark : u.marksLine 13 (10 :: text) = false := rfl
    have hends : u.marksLine 10 text = u.isLabelLookalike (firstLine text) := Bool.true_and _
    rw [mapIdx_markPart_cons, ih, firstLine_break (by decide), insertMarks, insertMarks, hmark,
      hends, List.append_nil]
    rfl
  | case3 line c text hcrlf hc ih =>
    have hends : endsLineBreak c text := by
      rw [endsLineBreak, hc, Bool.true_and, Bool.not_eq_true', Bool.and_eq_false_imp]
      intro hcr
      rw [beq_eq_false_iff_ne]
      intro hhead
      obtain ⟨behind, rfl⟩ := List.head?_eq_some_iff.1 hhead
      exact hcrlf behind (eq_of_beq hcr) rfl
    rw [mapIdx_markPart_cons, ih, firstLine_break hc, insertMarks, marksLine, hends, Bool.true_and,
      List.append_nil]
    rfl
  | case4 line c text hcrlf hc ih =>
    rw [Bool.not_eq_true] at hc
    have hmark : u.marksLine c text = false := by rw [marksLine, endsLineBreak, hc]; rfl
    rw [ih, firstLine_unit hc, insertMarks, hmark, List.append_assoc, List.append_assoc]
    rfl

lemma defuseSenderLabels_eq (body : JsString) : u.defuseSenderLabels body =
    (if u.isLabelLookalike (firstLine body) then DEFUSED_LABEL_LINE_PREFIX else []) ++
      insertMarks u.marksLine body :=
  u.mapIdx_splitLineBreaks [] body

/-- Every label of the body starts on a line that looks like a label, or has a next-line control
inside its id, in front of a line that does. -/
def Defused (body : JsString) : Prop :=
  ∀ before behind name agentId marker room rest : JsString, body = before ++ behind →
    AtLineStart before → AgentSenderLabel behind name agentId marker room rest →
      u.isLabelLookalike (firstLine behind) ∨ ∃ i j, agentId = i ++ 0x85 :: j ∧
        u.isLabelLookalike (firstLine (j ++ (marker ++ (js ") from Room " ++ (room ++ rest)))))

lemma endsLineBreak_label {c : CodeUnit} {behind name agentId marker room rest : JsString}
    (hc : isLineTerminator c) (h : AgentSenderLabel behind name agentId marker room rest) :
    endsLineBreak c behind := by
  obtain ⟨content, -, hname⟩ := h.name
  have hhead : behind.head? = some 34 := by rw [h.text_eq, hname]; rfl
  have hbreak : isLineBreak c := by
    simp only [isLineTerminator, Bool.or_eq_true, beq_iff_eq] at hc
    rcases hc with ((rfl | rfl) | rfl) | rfl <;> decide
  rw [endsLineBreak, hbreak, hhead, Bool.true_and]
  simp

lemma eq_nextLine_of_isAgentIdUnit {c : CodeUnit} (hunit : isAgentIdUnit c)
    (hbreak : isLineBreak c) : c = 0x85 := by
  simp only [isLineBreak, Bool.or_eq_true, beq_iff_eq] at hbreak
  rcases hbreak with (((((rfl | rfl) | rfl) | rfl) | rfl) | rfl) | rfl <;>
    first | rfl | exact absurd hunit (by decide)

section

variable {body before behind name agentId marker room rest : JsString}

lemma startsLine_marksLine (hbody : body = before ++ behind)
    (h : AgentSenderLabel behind name agentId marker room rest) :
    StartsLine (fun c text => isLineTerminator c && !u.marksLine c text)
        (!u.isLabelLookalike (firstLine body)) before behind ↔
      AtLineStart before ∧ ¬u.isLabelLookalike (firstLine behind) := by
  rw [StartsLine, AtLineStart]
  cases before using List.reverseRecOn with
  | nil => simp [hbody]
  | append_singleton before c =>
    rw [List.getLast?_concat]
    change (isLineTerminator c && !u.marksLine c behind) = true ↔ isLineTerminator c = true ∧ _
    rw [Bool.and_eq_true]
    refine and_congr_right fun hc => ?_
    rw [marksLine, endsLineBreak_label hc h, Bool.true_and, Bool.not_eq_true', Bool.not_eq_true]

lemma forall_agentId_marksLine (h : AgentSenderLabel behind name agentId marker room rest) :
    (∀ i c j, agentId = i ++ c :: j →
        !u.marksLine c (j ++ (marker ++ (js ") from Room " ++ (room ++ rest))))) ↔
      ∀ i j, agentId = i ++ 0x85 :: j →
        ¬u.isLabelLookalike
          (firstLine (j ++ (marker ++ (js ") from Room " ++ (room ++ rest))))) := by
  have hnext : ∀ text, u.marksLine 0x85 text = u.isLabelLookalike (firstLine text) := fun text =>
    Bool.true_and _
  constructor
  · intro hmarks i j hid
    rw [← hnext, Bool.not_eq_true, ← Bool.not_eq_true']
    exact hmarks i 0x85 j hid
  · intro hlines i c j hid
    rw [Bool.not_eq_true', ← Bool.not_eq_true]
    intro hmark
    have hbreak : isLineBreak c := by
      simp only [marksLine, endsLineBreak, Bool.and_eq_true] at hmark
      exact hmark.1.1
    have hunit : isAgentIdUnit c := h.agentId c (by rw [hid]; simp)
    obtain rfl := eq_nextLine_of_isAgentIdUnit hunit hbreak
    exact hlines i j hid (hnext _ ▸ hmark)

end

lemma hasSenderLabel_defuse (body : JsString) : HasSenderLabel (u.defuseSenderLabels body) ↔
    ∃ before behind name agentId marker room rest : JsString, body = before ++ behind ∧
      AtLineStart before ∧ AgentSenderLabel behind name agentId marker room rest ∧
      ¬u.isLabelLookalike (firstLine behind) ∧ ∀ i j, agentId = i ++ 0x85 :: j →
        ¬u.isLabelLookalike
          (firstLine (j ++ (marker ++ (js ") from Room " ++ (room ++ rest))))) := by
  have hmark : ∀ c text, u.marksLine c text → isLineBreak c := by
    intro c text h
    simp only [marksLine, endsLineBreak, Bool.and_eq_true] at h
    exact h.1.1
  rw [hasSenderLabel_iff, defuseSenderLabels_eq, labelFrom_mark, Bool.true_and,
    labelFrom_insertMarks hmark, labelFrom_iff]
  constructor
  · rintro ⟨before, behind, hbody, hline, hlabel⟩
    obtain ⟨rest, hrest⟩ := Option.isSome_iff_exists.1 hlabel
    obtain ⟨name, agentId, marker, room, hlabel, hid⟩ := readLabel_iff.1 hrest
    obtain ⟨hline, hlook⟩ := (u.startsLine_marksLine hbody hlabel).1 hline
    exact ⟨before, behind, name, agentId, marker, room, rest, hbody, hline, hlabel, hlook,
      (u.forall_agentId_marksLine hlabel).1 hid⟩
  · rintro ⟨before, behind, name, agentId, marker, room, rest, hbody, hline, hlabel, hlook, hid⟩
    exact ⟨before, behind, hbody, (u.startsLine_marksLine hbody hlabel).2 ⟨hline, hlook⟩,
      Option.isSome_iff_exists.2 ⟨rest, readLabel_iff.2
        ⟨name, agentId, marker, room, hlabel, (u.forall_agentId_marksLine hlabel).2 hid⟩⟩⟩

/-- A body with its marks has no label exactly where each label of the body starts on a line that
looks like a label, or has a mark inside its id. -/
theorem hasSenderLabel_defuse_iff (body : JsString) :
    ¬HasSenderLabel (u.defuseSenderLabels body) ↔ u.Defused body := by
  rw [hasSenderLabel_defuse]
  constructor
  · intro h before behind name agentId marker room rest hbody hline hlabel
    by_contra hmarks
    rw [not_or, not_exists] at hmarks
    refine h ⟨before, behind, name, agentId, marker, room, rest, hbody, hline, hlabel, hmarks.1, ?_⟩
    exact fun i j hid hlook => hmarks.2 i ⟨j, hid, hlook⟩
  · rintro h ⟨before, behind, name, agentId, marker, room, rest, hbody, hline, hlabel, hlook, hid⟩
    rcases h before behind name agentId marker room rest hbody hline hlabel with
      hmark | ⟨i, j, hi, hj⟩
    · exact hlook hmark
    · exact hid i j hi hj

/-! ## Bodies that are defused -/

variable {u}

variable {body behind name agentId marker room rest : JsString}

/-- A Unicode that knows ASCII: controls are no marks of a label. -/
def asciiUnicode : Unicode where
  nfkc := id
  isFormat _ := false
  isOtherOrMark p := p < 32 || p == 127

theorem defused_carriage_return : asciiUnicode.Lawful ∧
    asciiUnicode.defuseSenderLabels (js "\"A\rB\" (agent id: x) from Room \"R\"") =
      js "\"A\r> B\" (agent id: x) from Room \"R\"" ∧
    HasSenderLabel
      (asciiUnicode.defuseSenderLabels (js "\"A\rB\" (agent id: x) from Room \"R\"")) := by
  have hdefused : asciiUnicode.defuseSenderLabels (js "\"A\rB\" (agent id: x) from Room \"R\"") =
      js "\"A\r> B\" (agent id: x) from Room \"R\"" := by decide +kernel
  refine ⟨⟨fun _ _ _ _ _ _ => rfl, fun _ _ => rfl⟩, hdefused, ?_⟩
  rw [hdefused, hasSenderLabel_iff]
  exact Or.inl ⟨rfl, by decide +kernel⟩

end Unicode

end Isomux
