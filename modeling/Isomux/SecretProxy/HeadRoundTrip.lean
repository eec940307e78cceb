import Isomux.SecretProxy.HeadReading

set_option autoImplicit false

/-!
# A head that is written is read (`src/server/secret-proxy/http1.ts`)

The proxy writes a head as `latin1`: its lines, and an empty one. What is read back are the fields
when their names are tokens and their values are such that the reader takes nothing away from them,
and the first line when it is `latin1` text without a line end. Of another text the low bytes are
written.

## Main results

* `Isomux.parseHead_serializeHead` — the reader finds the head again.
* `Isomux.readHead_serializeHead` — in whatever pieces it arrives, and whatever is behind it.
-/

namespace Isomux

open Rewriting

def headerLine (field : JsString × JsString) : JsString := field.1 ++ js ": " ++ field.2

/-- The lines of a head, without its empty line. -/
def headText (startLine : JsString) (headers : HeaderList) : List JsString :=
  startLine :: headers.map headerLine

/-- `serializeHead(startLine, headers)`: each line with its end, and an empty one. -/
def serializeHead (startLine : JsString) (headers : HeaderList) : Buffer :=
  JsString.toBuffer (headers.foldl (fun text field => text ++ headerLine field ++ js "\r\n")
    (startLine ++ js "\r\n") ++ js "\r\n")

/-- A field whose name is a token and whose value is a field value without blanks around it. -/
structure IsCanonicalField (field : JsString × JsString) : Prop where
  name : isToken field.1 = true
  value : isFieldValue field.2 = true
  trimmed : trimBlanks field.2 = field.2

/-! ## Lines -/

lemma isFieldValue_units {value : JsString} (h : isFieldValue value = true) :
    ∀ c ∈ value, c ≠ 10 ∧ c ≠ 13 ∧ c < 256 := by
  intro c hc
  have htest := List.all_eq_true.1 h c hc
  simp only [Bool.or_eq_true, Bool.and_eq_true, decide_eq_true_eq, beq_iff_eq] at htest
  refine ⟨?_, ?_, ?_⟩
  · rintro rfl
    exact absurd htest (by decide)
  · rintro rfl
    exact absurd htest (by decide)
  · rw [UInt16.lt_iff_toNat_lt]
    simp only [UInt16.le_iff_toNat_le, UInt16.reduceToNat] at htest ⊢
    rcases htest with (rfl | htest) | htest
    · decide
    · omega
    · omega

lemma IsCanonicalField.line {field : JsString × JsString} (h : IsCanonicalField field) :
    ∀ c ∈ headerLine field, c ≠ 10 ∧ c ≠ 13 ∧ c < 256 := by
  intro c hc
  rcases List.mem_append.1 hc with hc | hc
  · rcases List.mem_append.1 hc with hc | hc
    · obtain ⟨hsmall, hfeed, hreturn, -⟩ := isToken_units h.name c hc
      exact ⟨hfeed, hreturn, UInt16.lt_trans hsmall (show (128 : CodeUnit) < 256 by decide)⟩
    · have hmark : c = 58 ∨ c = 32 := by
        rw [show js ": " = [58, 32] from by decide] at hc
        simpa using hc
      rcases hmark with rfl | rfl <;> decide
  · exact isFieldValue_units h.value c hc

/-- **The reader of a header line finds the field.** -/
lemma parseHeader_headerLine {field : JsString × JsString} (h : IsCanonicalField field) :
    parseHeader (headerLine field) = .ok field := by
  have hline : headerLine field = field.1 ++ 58 :: 32 :: field.2 := by
    rw [headerLine, List.append_assoc]
    rfl
  have hblank : trimBlanks (32 :: field.2) = field.2 := by
    have hdrop : (32 :: field.2).dropWhile isBlank = field.2.dropWhile isBlank :=
      List.dropWhile_cons_of_pos (by decide)
    have htrimmed := h.trimmed
    rw [trimBlanks] at htrimmed ⊢
    rw [hdrop, htrimmed]
  rw [hline, parseHeader_field ?_ h.name (hblank.symm ▸ h.value), hblank]
  rw [← hline]
  exact ⟨fun hmem => (h.line 10 hmem).1 rfl, fun hmem => (h.line 13 hmem).2.1 rfl⟩

/-! ## Heads -/

lemma foldl_headerLine (headers : HeaderList) (text : JsString) :
    headers.foldl (fun text field => text ++ headerLine field ++ js "\r\n") (text ++ js "\r\n") =
      [13, 10].intercalate (text :: headers.map headerLine) ++ js "\r\n" := by
  induction headers generalizing text with
  | nil => rw [List.foldl_nil, List.map_nil, List.intercalate_singleton]
  | cons field headers ih =>
    have hfirst : ∀ lines : List JsString,
        [13, 10].intercalate ((text ++ js "\r\n" ++ headerLine field) :: lines) =
          text ++ js "\r\n" ++ [13, 10].intercalate (headerLine field :: lines) := by
      intro lines
      cases lines with
      | nil => rw [List.intercalate_singleton, List.intercalate_singleton]
      | cons line lines =>
        rw [List.intercalate_cons_cons, List.intercalate_cons_cons]
        simp only [List.append_assoc]
    rw [List.foldl_cons, ih, hfirst, List.map_cons, List.intercalate_cons_cons]
    rfl

lemma toBuffer_intercalate (lines : List JsString) :
    JsString.toBuffer ([13, 10].intercalate lines) =
      [13, 10].intercalate (lines.map JsString.toBuffer) := by
  induction lines with
  | nil => rfl
  | cons line lines ih =>
    by_cases hlines : lines = []
    · rw [hlines, List.map_singleton, List.intercalate_singleton, List.intercalate_singleton]
    · rw [List.map_cons, List.intercalate_cons_of_ne_nil hlines,
        List.intercalate_cons_of_ne_nil (by simpa using hlines), ← ih]
      simp [JsString.toBuffer]

lemma serializeHead_eq (startLine : JsString) (headers : HeaderList) :
    serializeHead startLine headers =
      JsString.toBuffer ([13, 10].intercalate (headText startLine headers)) ++ HEAD_END := by
  rw [serializeHead, foldl_headerLine, List.append_assoc, JsString.toBuffer, List.map_append]
  rfl

section

variable {startLine : JsString} {headers : HeaderList}
  (hheaders : ∀ field ∈ headers, IsCanonicalField field)

include hheaders in
lemma mapM_parseHeader : (headers.map headerLine).mapM parseHeader = .ok headers := by
  induction headers with
  | nil => rfl
  | cons field headers ih =>
    rw [List.map_cons, List.mapM_cons, parseHeader_headerLine (hheaders field List.mem_cons_self),
      ih fun f hf => hheaders f (List.mem_cons_of_mem field hf)]
    rfl

variable (hempty : startLine ≠ []) (hbroken : 10 ∉ startLine ∧ 13 ∉ startLine)

include hheaders hbroken in
lemma headText_units {line : JsString} (hline : line ∈ headText startLine headers) :
    10 ∉ line ∧ 13 ∉ line := by
  rcases List.mem_cons.1 hline with rfl | hline
  · exact hbroken
  · obtain ⟨field, hfield, rfl⟩ := List.mem_map.1 hline
    have hunits := (hheaders field hfield).line
    exact ⟨fun h => (hunits 10 h).1 rfl, fun h => (hunits 13 h).2.1 rfl⟩

variable (hlatin : startLine.IsLatin1)

include hheaders hlatin in
lemma isLatin1_intercalate :
    JsString.IsLatin1 ([13, 10].intercalate (headText startLine headers)) := by
  have hlines : ∀ line ∈ headText startLine headers, JsString.IsLatin1 line := by
    intro line hline
    rcases List.mem_cons.1 hline with rfl | hline
    · exact hlatin
    · obtain ⟨field, hfield, rfl⟩ := List.mem_map.1 hline
      exact fun c hc => ((hheaders field hfield).line c hc).2.2
  intro c hc
  rcases TextLines.mem_intercalate hc with hend | ⟨line, hline, hmem⟩
  · have hletters : c = 13 ∨ c = 10 := by simpa using hend
    rcases hletters with rfl | rfl <;> decide
  · exact hlines line hline c hmem

include hheaders hempty hbroken hlatin in
/-- **The reader finds the head again.** -/
theorem parseHead_serializeHead :
    parseHead (serializeHead startLine headers) = .ok ⟨startLine, headers⟩ := by
  have htext : (serializeHead startLine headers).toLatin1 =
      [13, 10].intercalate (headText startLine headers) ++ js "\r\n\r\n" := by
    rw [serializeHead_eq, Buffer.toLatin1_append,
      JsString.toLatin1_toBuffer (isLatin1_intercalate hheaders hlatin)]
    rfl
  have hlines : headLines (serializeHead startLine headers) = headText startLine headers := by
    rw [headLines, htext, List.length_append, show (js "\r\n\r\n").length = 4 from by decide,
      Nat.add_sub_cancel, List.take_left' rfl, splitLines_eq]
    exact TextLines.split_intercalate (List.cons_ne_nil _ _) fun line hline =>
      (headText_units hheaders hbroken hline).2
  have hstart : ¬ js "\r\n" <+: (serializeHead startLine headers).toLatin1 := by
    obtain ⟨c, rest, rfl⟩ := List.exists_cons_of_ne_nil hempty
    rw [htext, headText, List.intercalate_cons_cons_left, List.cons_append]
    intro hprefix
    have hfirst : 13 = c := (List.cons_prefix_cons.mp hprefix).1
    exact hbroken.2 (hfirst ▸ List.mem_cons_self)
  unfold parseHead
  rw [if_neg fun h => hstart (List.isPrefixOf_iff_prefix.mp h), hlines]
  dsimp only [headText, List.headD, List.tail]
  rw [if_neg (not_or.mpr hbroken), mapM_parseHeader hheaders]

include hheaders hempty hbroken hlatin in
lemma headText_bytes {line : Buffer}
    (hline : line ∈ (headText startLine headers).map JsString.toBuffer) : line ≠ [] ∧ 13 ∉ line := by
  obtain ⟨text, htext, rfl⟩ := List.mem_map.1 hline
  have hunits : text ≠ [] ∧ text.IsLatin1 ∧ 13 ∉ text := by
    refine ⟨?_, ?_, (headText_units hheaders hbroken htext).2⟩
    · rcases List.mem_cons.1 htext with rfl | htext
      · exact hempty
      · obtain ⟨field, -, rfl⟩ := List.mem_map.1 htext
        simp [headerLine, show js ": " = [58, 32] from by decide]
    · rcases List.mem_cons.1 htext with rfl | htext
      · exact hlatin
      · obtain ⟨field, hfield, rfl⟩ := List.mem_map.1 htext
        exact fun c hc => ((hheaders field hfield).line c hc).2.2
  obtain ⟨hne, hsmall, hreturn⟩ := hunits
  refine ⟨by simpa [JsString.toBuffer] using hne, fun hmem => ?_⟩
  have hback : (13 : CodeUnit) ∈ text.toBuffer.toLatin1 := List.mem_map.2 ⟨13, hmem, rfl⟩
  rw [JsString.toLatin1_toBuffer hsmall] at hback
  exact hreturn hback

include hheaders hempty hbroken hlatin in
lemma firstAt_serializeHead (rest : Buffer) :
    FirstAt HEAD_END (serializeHead startLine headers ++ rest)
      ((serializeHead startLine headers).length - HEAD_END.length) := by
  have hshape : serializeHead startLine headers ++ rest =
      [13, 10].intercalate ((headText startLine headers).map JsString.toBuffer) ++
        (HEAD_END ++ rest) := by
    rw [serializeHead_eq, List.append_assoc, toBuffer_intercalate]
  have hlength : (serializeHead startLine headers).length - HEAD_END.length =
      ([13, 10].intercalate ((headText startLine headers).map JsString.toBuffer)).length := by
    rw [serializeHead_eq, List.length_append, Nat.add_sub_cancel, toBuffer_intercalate]
  rw [hshape, hlength]
  refine ⟨?_, fun j hj => ?_⟩
  · rw [OccursAt, List.drop_left' rfl]
    exact List.prefix_append _ _
  · obtain ⟨tail, htail⟩ := hj
    -- an end is a line end, and another one two bytes behind it
    have hget : ∀ n < HEAD_END.length, ([13, 10].intercalate ((headText startLine headers).map
        JsString.toBuffer) ++ (HEAD_END ++ rest))[j + n]? = HEAD_END[n]? := by
      intro n hn
      rw [← List.getElem?_drop, ← htail, List.getElem?_append_left hn]
    exact TextLines.length_le_of_empty (by decide)
      (fun line hline => headText_bytes hheaders hempty hbroken hlatin hline)
      (hget 0 (by decide)) (hget 2 (by decide))

end

/-- **A head that is written is read**, in whatever pieces it arrives.

The first line is `latin1` text without a line end, the fields are canonical, and what is written is
within the limit. The reader finds the head and leaves what is behind it. -/
theorem readHead_serializeHead {startLine : JsString} {headers : HeaderList} {rest : Buffer}
    {r : ByteReader} {ending : StreamEnd} (hempty : startLine ≠ [])
    (hbroken : 10 ∉ startLine ∧ 13 ∉ startLine) (hlatin : startLine.IsLatin1)
    (hheaders : ∀ field ∈ headers, IsCanonicalField field)
    (hsize : (serializeHead startLine headers).length ≤ MAX_HEAD_BYTES)
    (hr : r.Brings (serializeHead startLine headers ++ rest) ending) :
    (readHead r).reading = .done (some ⟨startLine, headers⟩) rest := by
  have hfirst := firstAt_serializeHead hheaders hempty hbroken hlatin rest
  have hend : HEAD_END.length ≤ (serializeHead startLine headers).length := by
    rw [serializeHead_eq, List.length_append]
    exact Nat.le_add_left _ _
  have hdelimiter : HEAD_END ≠ [] := by decide
  have hoff : ¬ Straddles HEAD_END MAX_HEAD_BYTES r.unread := by
    rintro ⟨p, hp, -, hacross⟩
    rw [hr.bytes] at hp
    have hsame := le_antisymm (hp.first _ hfirst.occurs) (hfirst.first _ hp.occurs)
    omega
  rw [readHead_reading, ByteReader.readUntil_reading hdelimiter hoff, hr.bytes, hr.ending, readWhole,
    indexOf_of_firstAt hdelimiter hfirst]
  dsimp only
  rw [if_neg (by omega), Nat.sub_add_cancel hend, List.take_left' rfl, List.drop_left' rfl]
  simp only [headReading, parseHead_serializeHead hheaders hempty hbroken hlatin]

theorem readHead_serializeHead_request :
    (readHead (ByteReader.whole (serializeHead (js "POST / HTTP/1.1")
        [(js "Host", js "a.example")] ++ [1, 13, 10]) .ended)).reading =
      .done (some ⟨js "POST / HTTP/1.1", [(js "Host", js "a.example")]⟩) [1, 13, 10] := by
  have hlatin : (js "POST / HTTP/1.1").all (· < 256) = true := by decide
  refine readHead_serializeHead (by decide) (by decide)
    (fun c hc => of_decide_eq_true (List.all_eq_true.1 hlatin c hc)) ?_ (by decide)
    (ByteReader.whole_brings _ .ended)
  rintro field hfield
  obtain rfl := List.mem_singleton.1 hfield
  exact ⟨by decide, by decide, by decide⟩

/-- **Of a letter that is not `latin1` the low byte is written.** -/
theorem serializeHead_low_byte :
    ¬∀ (startLine : JsString) (headers : HeaderList) (rest : Buffer) (r : ByteReader)
      (ending : StreamEnd), startLine ≠ [] → 10 ∉ startLine ∧ 13 ∉ startLine →
        (∀ field ∈ headers, IsCanonicalField field) →
        (serializeHead startLine headers).length ≤ MAX_HEAD_BYTES →
        r.Brings (serializeHead startLine headers ++ rest) ending →
        (readHead r).reading = .done (some ⟨startLine, headers⟩) rest := by
  intro h
  have hread := h [256] [] [] (ByteReader.whole (serializeHead [256] [] ++ []) .ended) .ended
    (by decide) (by decide) nofun (by decide) (ByteReader.whole_brings _ .ended)
  have hlow : (readHead (ByteReader.whole (serializeHead [256] [] ++ []) .ended)).reading =
      .done (some ⟨[0], []⟩) [] := by decide
  rw [hlow] at hread
  simp at hread

end Isomux
