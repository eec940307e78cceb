import Isomux.Runtime.LowerCase
import Isomux.Runtime.Utf8Lines
import Isomux.SecretProxy.Swap

set_option autoImplicit false

/-!
# The upgrade request (`src/server/app-ws-upstream.ts`)

The office asks an app for a WebSocket with a request that it writes as bytes. The target, the host,
the subprotocols and the headers in it come from the browser. A target, a host or a subprotocol that
could break a line is refused; a header that the office writes itself is left out; any other header
is written on a line of its own, or the request is refused.

The headers are what `Object.entries` gives, in its order.

## Main results

* `Isomux.buildHandshakeRequest_lines` — the lines of the request are the intended ones.
-/

namespace Isomux

/-! ## The request -/

/-- `isSafeHeaderName(name)`: the test of `TOKEN_PATTERN`. -/
def isSafeHeaderName (name : JsString) : Bool := isToken name

/-- `isSafeHeaderValue(value)`: no control but the tab. -/
def isSafeHeaderValue (value : JsString) : Bool :=
  value.all fun code => !((code < 0x20 && code != 0x09) || code == 0x7F)

/-- `isSafeHostValue(host)`. -/
def isSafeHostValue (host : JsString) : Bool :=
  host != [] && !host.contains 0x09 && isSafeHeaderValue host

/-- `isSafeRequestTarget(target)`: printable ASCII behind a slash. -/
def isSafeRequestTarget (target : JsString) : Bool :=
  target.head? == some 47 && target.all fun code => 0x20 < code && code < 0x7F

/-- `isSafeProtocolToken(token)`. -/
def isSafeProtocolToken (token : JsString) : Bool := isToken token

structure HandshakeRequest where
  target : JsString
  host : JsString
  key : JsString
  protocols : List JsString
  headers : List (JsString × JsString)

def CLIENT_OWNED_HEADERS : List JsString :=
  [js "host", js "upgrade", js "connection", js "sec-websocket-key", js "sec-websocket-version",
    js "sec-websocket-protocol", js "sec-websocket-extensions", js "content-length",
    js "transfer-encoding"]

def fieldLine (field : JsString × JsString) : JsString := field.1 ++ js ": " ++ field.2

section

variable (table : CaseTable)

def isClientOwned (field : JsString × JsString) : Bool :=
  CLIENT_OWNED_HEADERS.contains (table.toLowerCase field.1)

def headerLines : List (JsString × JsString) → Option (List JsString)
  | [] => some []
  | field :: headers =>
    if isClientOwned table field then headerLines headers
    else if !isSafeHeaderName field.1 || !isSafeHeaderValue field.2 then none
    else (headerLines headers).map (fieldLine field :: ·)

/-- The lines that the office writes itself. -/
def ownLines (req : HandshakeRequest) : List JsString :=
  [js "GET " ++ req.target ++ js " HTTP/1.1", js "Host: " ++ req.host,
    js "Upgrade: websocket", js "Connection: Upgrade", js "Sec-WebSocket-Version: 13",
    js "Sec-WebSocket-Key: " ++ req.key] ++
  if 0 < req.protocols.length then
    [js "Sec-WebSocket-Protocol: " ++ (js ", ").intercalate req.protocols]
  else []

/-- `buildHandshakeRequest(req)`. -/
def buildHandshakeRequest (req : HandshakeRequest) : Option Buffer :=
  if !isSafeRequestTarget req.target then none
  else if !isSafeHostValue req.host then none
  else if !req.protocols.all isSafeProtocolToken then none
  else
    (headerLines table req.headers).map fun lines =>
      JsString.toUtf8 ((js "\r\n").intercalate (ownLines req ++ lines) ++ js "\r\n\r\n")

end

/-- The name that a reader finds on a line: what is in front of the first colon, in lower case. -/
def lineName (line : Buffer) : JsString :=
  JsString.toLowerCase (Buffer.toLatin1 (line.takeWhile (· ≠ 58)))

/-! ## What is refused -/

lemma notMem_target {target : JsString} (h : isSafeRequestTarget target = true) : 13 ∉ target := by
  intro hmem
  have hall := (Bool.and_eq_true_iff.1 h).2
  exact absurd (List.all_eq_true.1 hall 13 hmem) (by decide)

lemma notMem_value {value : JsString} (h : isSafeHeaderValue value = true) : 13 ∉ value :=
  fun hmem => absurd (List.all_eq_true.1 h 13 hmem) (by decide)

section

variable {table : CaseTable}

/-- The headers that are not the office's own, in their order. -/
def forwardedHeaders (table : CaseTable) (req : HandshakeRequest) : List (JsString × JsString) :=
  req.headers.filter fun field => !isClientOwned table field

lemma headerLines_eq {headers : List (JsString × JsString)} {lines : List JsString}
    (h : headerLines table headers = some lines) :
    lines = (headers.filter fun field => !isClientOwned table field).map fieldLine ∧
      ∀ field ∈ headers.filter fun field => !isClientOwned table field,
        isToken field.1 = true ∧ isSafeHeaderValue field.2 = true := by
  induction headers generalizing lines with
  | nil =>
    obtain rfl := Option.some.inj h
    exact ⟨rfl, nofun⟩
  | cons field headers ih =>
    rw [headerLines] at h
    by_cases hown : isClientOwned table field = true
    · rw [if_pos hown] at h
      rw [List.filter_cons_of_neg (by simp [hown])]
      exact ih h
    · rw [if_neg hown] at h
      split_ifs at h with hunsafe
      obtain ⟨rest, hrest, rfl⟩ := Option.map_eq_some_iff.1 h
      obtain ⟨rfl, hsafe⟩ := ih hrest
      rw [List.filter_cons_of_pos (by simp [hown])]
      refine ⟨rfl, fun other hother => ?_⟩
      rcases List.mem_cons.1 hother with rfl | hother
      · simpa [isSafeHeaderName] using hunsafe
      · exact hsafe other hother

end

/-! ## Names -/

lemma lineName_fieldLine {name value : JsString} (h : ∀ c ∈ name, c < 128 ∧ c ≠ 58) :
    lineName (JsString.toUtf8 (fieldLine (name, value))) = name.toLowerCase := by
  have hbytes : JsString.toUtf8 (fieldLine (name, value)) =
      name.toBuffer ++ 58 :: JsString.toUtf8 (32 :: value) := by
    rw [← toUtf8_ascii fun c hc => (h c hc).1, fieldLine, List.append_assoc]
    exact toUtf8_append_cons name (by decide) (32 :: value)
  have hlatin : name.IsLatin1 := fun c hc =>
    UInt16.lt_trans (h c hc).1 (show (128 : CodeUnit) < 256 by decide)
  have hcolon : ∀ b ∈ name.toBuffer, decide (b ≠ 58) = true := by
    intro b hb
    rw [decide_eq_true_eq]
    rintro rfl
    have hback : (58 : CodeUnit) ∈ name.toBuffer.toLatin1 := List.mem_map.2 ⟨58, hb, rfl⟩
    rw [JsString.toLatin1_toBuffer hlatin] at hback
    exact (h 58 hback).2 rfl
  rw [lineName, hbytes, List.takeWhile_append_of_pos hcolon, List.takeWhile_cons_of_neg (by decide),
    List.append_nil, JsString.toLatin1_toBuffer hlatin]

lemma toLowerCase_eq (table : CaseTable) {name : JsString} (h : ∀ c ∈ name, c < 128) :
    name.toLowerCase = table.toLowerCase name := by
  rw [CaseTable.toLowerCase_ascii h, JsString.toLowerCase]
  refine List.map_congr_left fun c hc => ?_
  have hsmall := UInt16.lt_iff_toNat_lt.1 (h c hc)
  have hhigh : ¬(0xC0 ≤ c ∧ c ≤ 0xDE ∧ c ≠ 0xD7) := by
    rw [UInt16.le_iff_toNat_le, UInt16.le_iff_toNat_le]
    simp only [UInt16.reduceToNat] at hsmall ⊢
    omega
  have hupper : (65 ≤ c ∧ c ≤ 90) ↔ (65 ≤ c.toNat ∧ c.toNat ≤ 90) := by
    rw [UInt16.le_iff_toNat_le, UInt16.le_iff_toNat_le]
    rfl
  simp only [hhigh, or_false, hupper]
  split_ifs
  · rw [UInt16.ofNat_add, UInt16.ofNat_toNat]
    rfl
  · rw [UInt16.ofNat_toNat]

variable (req : HandshakeRequest)

/-- The fields that the office writes itself. -/
def ownFields : List (JsString × JsString) :=
  [(js "Host", req.host), (js "Upgrade", js "websocket"), (js "Connection", js "Upgrade"),
    (js "Sec-WebSocket-Version", js "13"), (js "Sec-WebSocket-Key", req.key)] ++
  if 0 < req.protocols.length then
    [(js "Sec-WebSocket-Protocol", (js ", ").intercalate req.protocols)]
  else []

lemma ownLines_eq : ownLines req =
      (js "GET " ++ req.target ++ js " HTTP/1.1") :: (ownFields req).map fieldLine := by
  unfold ownLines ownFields
  split_ifs <;> rfl

/-- Each name of the office's own fields is there once, the last one when there are subprotocols. -/
def ownCount (name : JsString) : ℕ :=
  if name ∈ [js "host", js "upgrade", js "connection", js "sec-websocket-version",
    js "sec-websocket-key"] then 1
  else if name = js "sec-websocket-protocol" ∧ 0 < req.protocols.length then 1
  else 0

lemma countP_ownFields {name : JsString} (hname : name ∈ CLIENT_OWNED_HEADERS) :
    ((ownFields req).map fun field => field.1.toLowerCase).count name = ownCount req name := by
  have hnames : (ownFields req).map (fun field => field.1.toLowerCase) =
      [js "host", js "upgrade", js "connection", js "sec-websocket-version",
        js "sec-websocket-key"] ++
          if 0 < req.protocols.length then [js "sec-websocket-protocol"] else [] := by
    unfold ownFields
    split_ifs <;> rfl
  rw [hnames]
  unfold ownCount
  simp only [CLIENT_OWNED_HEADERS, List.mem_cons, List.not_mem_nil, or_false] at hname
  by_cases hprotocols : 0 < req.protocols.length
  · simp only [hprotocols, and_true]
    rcases hname with rfl | rfl | rfl | rfl | rfl | rfl | rfl | rfl | rfl <;> decide
  · simp only [hprotocols, and_false, if_false]
    rcases hname with rfl | rfl | rfl | rfl | rfl | rfl | rfl | rfl | rfl <;> decide

/-! ## The lines of the request -/

section

variable {table : CaseTable} {req : HandshakeRequest} {request : Buffer}

def requestLines (table : CaseTable) (req : HandshakeRequest) : List JsString :=
  ownLines req ++ (forwardedHeaders table req).map fieldLine

lemma buildHandshakeRequest_some (h : buildHandshakeRequest table req = some request) :
    isSafeRequestTarget req.target = true ∧ isSafeHostValue req.host = true ∧
      (∀ token ∈ req.protocols, isToken token = true) ∧
      (∀ field ∈ forwardedHeaders table req,
        isToken field.1 = true ∧ isSafeHeaderValue field.2 = true) ∧
      request = JsString.toUtf8 ((js "\r\n").intercalate (requestLines table req) ++
        js "\r\n\r\n") := by
  unfold buildHandshakeRequest at h
  split_ifs at h with htarget hhost hprotocols
  obtain ⟨lines, hlines, rfl⟩ := Option.map_eq_some_iff.1 h
  obtain ⟨rfl, hsafe⟩ := headerLines_eq hlines
  refine ⟨by simpa using htarget, by simpa using hhost, ?_, hsafe, rfl⟩
  simpa [isSafeProtocolToken] using hprotocols

variable (hkey : ∀ c ∈ req.key, isBase64Letter c = true ∨ c = base64Pad)

include hkey in
/-- No line that is written has a line end. -/
lemma notMem_requestLines (h : buildHandshakeRequest table req = some request) :
    ∀ line ∈ requestLines table req, 13 ∉ line := by
  obtain ⟨htarget, hhost, hprotocols, hsafe, -⟩ := buildHandshakeRequest_some h
  have hfield : ∀ {name value : JsString}, 13 ∉ name → 13 ∉ value →
      13 ∉ fieldLine (name, value) := by
    intro name value hname hvalue hmem
    rcases List.mem_append.1 hmem with hmem | hmem
    · rcases List.mem_append.1 hmem with hmem | hmem
      · exact hname hmem
      · exact absurd hmem (by decide)
    · exact hvalue hmem
  have hkeyLine : 13 ∉ req.key := by
    intro hmem
    rcases hkey 13 hmem with hletter | hpad
    · exact absurd hletter (by decide)
    · exact absurd hpad (by decide)
  have hoffer : 13 ∉ (js ", ").intercalate req.protocols := by
    intro hmem
    rcases TextLines.mem_intercalate hmem with hmem | ⟨token, htoken, hmem⟩
    · exact absurd hmem (by decide)
    · exact (isToken_units (hprotocols token htoken) 13 hmem).2.2.1 rfl
  have hown : ∀ field ∈ ownFields req, 13 ∉ fieldLine field := by
    intro field hmem
    rcases List.mem_append.1 hmem with hmem | hmem
    · simp only [List.mem_cons, List.not_mem_nil, or_false] at hmem
      rcases hmem with rfl | rfl | rfl | rfl | rfl
      · exact hfield (by decide) (notMem_value (Bool.and_eq_true_iff.1 hhost).2)
      · exact hfield (by decide) (by decide)
      · exact hfield (by decide) (by decide)
      · exact hfield (by decide) (by decide)
      · exact hfield (by decide) hkeyLine
    · split_ifs at hmem
      · obtain rfl := List.mem_singleton.1 hmem
        exact hfield (by decide) hoffer
      · cases hmem
  intro line hline
  rw [requestLines, ownLines_eq] at hline
  rcases List.mem_append.1 hline with hline | hline
  · rcases List.mem_cons.1 hline with rfl | hline
    · intro hmem
      rcases List.mem_append.1 hmem with hmem | hmem
      · rcases List.mem_append.1 hmem with hmem | hmem
        · exact absurd hmem (by decide)
        · exact notMem_target htarget hmem
      · exact absurd hmem (by decide)
    · obtain ⟨field, hmem, rfl⟩ := List.mem_map.1 hline
      exact hown field hmem
  · obtain ⟨field, hmem, rfl⟩ := List.mem_map.1 hline
    obtain ⟨hname, hvalue⟩ := hsafe field hmem
    exact hfield (fun h => (isToken_units hname 13 h).2.2.1 rfl) (notMem_value hvalue)

lemma lineName_of_isToken {field : JsString × JsString} (h : isToken field.1 = true) :
    lineName (JsString.toUtf8 (fieldLine field)) = field.1.toLowerCase :=
  lineName_fieldLine fun c hc => ⟨(isToken_units h c hc).1, (isToken_units h c hc).2.2.2⟩

lemma isToken_ownFields : ∀ field ∈ ownFields req, isToken field.1 = true := by
  intro field hmem
  rcases List.mem_append.1 hmem with hmem | hmem
  · simp only [List.mem_cons, List.not_mem_nil, or_false] at hmem
    rcases hmem with rfl | rfl | rfl | rfl | rfl <;> dsimp only <;> decide
  · split_ifs at hmem
    · obtain rfl := List.mem_singleton.1 hmem
      dsimp only
      decide
    · cases hmem

lemma notMem_forwarded {field : JsString × JsString} (hfield : field ∈ forwardedHeaders table req)
    (htoken : isToken field.1 = true) : field.1.toLowerCase ∉ CLIENT_OWNED_HEADERS := by
  rw [toLowerCase_eq table fun c hc => (isToken_units htoken c hc).1]
  have hnot := (List.mem_filter.1 hfield).2
  simpa [isClientOwned] using hnot

lemma lineName_requestLine (target : JsString) :
    lineName (JsString.toUtf8 (js "GET " ++ target ++ js " HTTP/1.1")) ∉ CLIENT_OWNED_HEADERS := by
  have hbytes : ∃ rest, JsString.toUtf8 (js "GET " ++ target ++ js " HTTP/1.1") =
      71 :: 69 :: 84 :: 32 :: rest := by
    refine ⟨JsString.toUtf8 (target ++ js " HTTP/1.1"), ?_⟩
    rw [List.append_assoc]
    exact toUtf8_append_cons (js "GET") (c := 32) (by decide) _
  obtain ⟨rest, hrest⟩ := hbytes
  have hspace : 32 ∈ lineName (JsString.toUtf8 (js "GET " ++ target ++ js " HTTP/1.1")) := by
    rw [lineName, hrest]
    refine List.mem_map.2 ⟨32, List.mem_map.2 ⟨32, ?_, rfl⟩, by decide⟩
    simp
  intro hmem
  have hall : CLIENT_OWNED_HEADERS.all (fun name => !name.contains 32) = true := by decide
  have hnone := List.all_eq_true.1 hall _ hmem
  rw [List.contains_iff_mem.2 hspace] at hnone
  exact absurd hnone (by decide)

end

/-- **The lines of the request are the intended ones**: the request line, the fields that the office
writes itself, the headers that are left in their order, and an empty line, behind which nothing
comes. So nothing of the browser adds a line; and of each header that the office owns there is one
line at most, its own. -/
theorem buildHandshakeRequest_lines (table : CaseTable) {req : HandshakeRequest} {request : Buffer}
    (hkey : ∀ c ∈ req.key, isBase64Letter c = true ∨ c = base64Pad)
    (h : buildHandshakeRequest table req = some request) :
    TextLines.split 13 10 request =
        (((js "GET " ++ req.target ++ js " HTTP/1.1") :: (ownFields req).map fieldLine) ++
          (forwardedHeaders table req).map fieldLine).map JsString.toUtf8 ++ [[], []] ∧
      (∀ line ∈ requestLines table req, line ≠ []) ∧
      ∀ name ∈ CLIENT_OWNED_HEADERS,
        (TextLines.split 13 10 request).countP (lineName · = name) = ownCount req name := by
  obtain ⟨-, -, -, hsafe, hrequest⟩ := buildHandshakeRequest_some h
  have hlines : TextLines.split 13 10 request =
      (requestLines table req).map JsString.toUtf8 ++ [[], []] := by
    rw [hrequest]
    exact split_toUtf8 (by simp [requestLines, ownLines]) (notMem_requestLines hkey h)
  have hshape : requestLines table req =
      ((js "GET " ++ req.target ++ js " HTTP/1.1") :: (ownFields req).map fieldLine) ++
        (forwardedHeaders table req).map fieldLine := by
    rw [requestLines, ownLines_eq]
  refine ⟨by rw [hlines, hshape], ?_, fun name hname => ?_⟩
  · rw [hshape]
    have hfield : ∀ field, fieldLine field ≠ [] := by
      intro field hempty
      have hcolon : (58 : CodeUnit) ∈ fieldLine field :=
        List.mem_append_left _ (List.mem_append_right _ (by decide))
      rw [hempty] at hcolon
      cases hcolon
    intro line hline
    rcases List.mem_append.1 hline with hline | hline
    · rcases List.mem_cons.1 hline with rfl | hline
      · exact List.append_ne_nil_of_right_ne_nil _ (by decide)
      · obtain ⟨field, -, rfl⟩ := List.mem_map.1 hline
        exact hfield field
    · obtain ⟨field, -, rfl⟩ := List.mem_map.1 hline
      exact hfield field
  · have hnames : (TextLines.split 13 10 request).map lineName =
        lineName (JsString.toUtf8 (js "GET " ++ req.target ++ js " HTTP/1.1")) ::
          ((ownFields req).map (fun field => field.1.toLowerCase) ++
            ((forwardedHeaders table req).map fun field => field.1.toLowerCase) ++ [[], []]) := by
      have hmap : ∀ {fields : List (JsString × JsString)},
          (∀ field ∈ fields, isToken field.1 = true) →
            ((fields.map fieldLine).map JsString.toUtf8).map lineName =
              fields.map fun field => field.1.toLowerCase := by
        intro fields hfields
        rw [List.map_map, List.map_map]
        exact List.map_congr_left fun field hfield => lineName_of_isToken (hfields field hfield)
      rw [hlines, hshape, List.map_append, List.map_append, List.map_append, List.map_cons,
        List.map_cons, hmap isToken_ownFields, hmap fun field hfield => (hsafe field hfield).1]
      rfl
    have hcount : (TextLines.split 13 10 request).countP (lineName · = name) =
        ((TextLines.split 13 10 request).map lineName).count name := by
      rw [List.count_eq_countP, List.countP_map]
      exact List.countP_congr fun line _ => by simp
    have hleft :
        ((forwardedHeaders table req).map fun field => field.1.toLowerCase).count name = 0 := by
      refine List.count_eq_zero.2 fun hmem => ?_
      obtain ⟨field, hfield, rfl⟩ := List.mem_map.1 hmem
      exact notMem_forwarded hfield (hsafe field hfield).1 hname
    have hfirst : lineName (JsString.toUtf8 (js "GET " ++ req.target ++ js " HTTP/1.1")) ≠ name :=
      fun heq => lineName_requestLine req.target (heq ▸ hname)
    have hempty : ([[], []] : List JsString).count name = 0 := by
      refine List.count_eq_zero.2 fun hmem => ?_
      obtain rfl : name = [] := by simpa using hmem
      exact absurd hname (by decide)
    rw [hcount, hnames, List.count_cons_of_ne hfirst, List.count_append, List.count_append, hleft,
      hempty, countP_ownFields req hname, Nat.add_zero]

lemma ascii_surrogate : ∀ p, 0xD800 ≤ p → p ≤ 0xDFFF →
    [if 65 ≤ p ∧ p ≤ 90 then p + 32 else p] = [p] := fun p hp _ => by rw [if_neg (by omega)]

def asciiTable : CaseTable where
  lower p := [if 65 ≤ p ∧ p ≤ 90 then p + 32 else p]
  isFinalSigma _ _ := false
  lower_ascii _ _ := rfl
  lower_surrogate := ascii_surrogate

/-- A request of a browser that offers a subprotocol and sends a `Host` of its own. -/
def offeredRequest : HandshakeRequest where
  target := js "/socket?room=1"
  host := js "notes.apps.example"
  key := js "dGhlIHNhbXBsZSBub25jZQ=="
  protocols := [js "chat"]
  headers := [(js "HOST", js "evil.example"), (js "cookie", js "theme=dark")]

theorem buildHandshakeRequest_lines_offered :
    ∃ request, buildHandshakeRequest asciiTable offeredRequest = some request ∧
      (TextLines.split 13 10 request).countP (lineName · = js "host") = 1 := by
  have hkey : offeredRequest.key.all (fun c => isBase64Letter c || c == base64Pad) = true := by
    decide
  have hsome : (buildHandshakeRequest asciiTable offeredRequest).isSome = true := by decide
  obtain ⟨request, hrequest⟩ := Option.isSome_iff_exists.1 hsome
  refine ⟨request, hrequest, ?_⟩
  exact ((buildHandshakeRequest_lines asciiTable (fun c hc => by
    simpa using List.all_eq_true.1 hkey c hc) hrequest).2.2 (js "host") (by decide))

/-- **Not every header that the office owns is written**: the length of a body is owned, and there is
none. -/
theorem owned_header_left_out :
    ¬∀ (table : CaseTable) (req : HandshakeRequest) (request : Buffer),
      (∀ c ∈ req.key, isBase64Letter c = true ∨ c = base64Pad) →
        buildHandshakeRequest table req = some request →
          ∀ name ∈ CLIENT_OWNED_HEADERS,
            (TextLines.split 13 10 request).countP (lineName · = name) = 1 := by
  intro h
  have hkey : offeredRequest.key.all (fun c => isBase64Letter c || c == base64Pad) = true := by
    decide
  have hsome : (buildHandshakeRequest asciiTable offeredRequest).isSome = true := by decide
  obtain ⟨request, hrequest⟩ := Option.isSome_iff_exists.1 hsome
  have hone := h asciiTable offeredRequest request
    (fun c hc => by simpa using List.all_eq_true.1 hkey c hc) hrequest (js "content-length")
    (by decide)
  obtain ⟨-, -, -, -, hbytes⟩ := buildHandshakeRequest_some hrequest
  have hnone : (TextLines.split 13 10 (JsString.toUtf8 ((js "\r\n").intercalate
      (requestLines asciiTable offeredRequest) ++ js "\r\n\r\n"))).countP
        (lineName · = js "content-length") = 0 := by
    decide
  rw [hbytes, hnone] at hone
  cases hone

end Isomux
