import Isomux.Foundations.TextLines
import Isomux.SecretProxy.ChunkedBody
import Isomux.SecretProxy.Swap
import Mathlib.Data.List.DropRight

set_option autoImplicit false

/-!
# Reading a head (`src/server/secret-proxy/http1.ts`)

A head is read up to its empty line, with a limit on its length. The limit is checked twice: on the
bytes that have arrived while the delimiter is not among them, and on the place of the delimiter
once it is. A delimiter that starts at the limit or before it and ends more than one byte behind it
passes the second check and not the first one, and so what is read depends on how its bytes arrive.
Everywhere else a stream is read as if all of its bytes had arrived at once.

## Main results

* `Isomux.ByteReader.readUntil_reading` — off the limit, a stream is read as if it were all there.
* `Isomux.parseHead_ok_iff` — a head is accepted exactly when it is well formed.
* `Isomux.head_reading_boundaries` — when the reads do not depend on how the bytes arrive.
-/

namespace Isomux

open Rewriting

/-! ## Heads -/

structure MessageHead where
  startLine : JsString
  headers : HeaderList
  deriving DecidableEq

/-- The first line of a split text grows by a unit. -/
def consLine (c : CodeUnit) : List JsString → List JsString
  | [] => [[c]]
  | line :: lines => (c :: line) :: lines

/-- `text.split("\r\n")`. -/
def splitLines : JsString → List JsString
  | [] => [[]]
  | [c] => [[c]]
  | c :: d :: rest =>
    if c = 13 ∧ d = 10 then [] :: splitLines rest else consLine c (splitLines (d :: rest))

def isBlank (c : CodeUnit) : Bool := c == 32 || c == 9

/-- `value.replace(/^[ \t]+|[ \t]+$/g, "")`. -/
def trimBlanks (value : JsString) : JsString := (value.dropWhile isBlank).rdropWhile isBlank

/-- The test of `FIELD_VALUE`. -/
def isFieldValue (value : JsString) : Bool :=
  value.all fun c => c == 9 || (32 ≤ c && c ≤ 126) || (128 ≤ c && c ≤ 255)

/-- The body of the loop over the header lines: the field, or the reason of the `HttpError` with
status 400. -/
def parseHeader (line : JsString) : Except String (JsString × JsString) :=
  if 10 ∈ line ∨ 13 ∈ line then .error "bare line feed in a header"
  else if line.head?.any isBlank then .error "folded header line"
  else
    -- `colon` is the length of the line where `indexOf` gives -1.
    let colon := line.idxOf 58
    if colon = line.length ∨ colon = 0 then .error "header line without a name"
    else if !isToken (line.take colon) then .error "invalid header name"
    else if !isFieldValue (trimBlanks (line.drop (colon + 1))) then .error "invalid header value"
    else .ok (line.take colon, trimBlanks (line.drop (colon + 1)))

/-- The lines of a head, without its empty line. -/
def headLines (raw : Buffer) : List JsString :=
  splitLines (raw.toLatin1.take (raw.toLatin1.length - 4))

/-- What `readHead` makes of the bytes of a head, the empty line included. -/
def parseHead (raw : Buffer) : Except String MessageHead :=
  if (js "\r\n").isPrefixOf raw.toLatin1 then .error "empty line before the start line"
  else
    let startLine := (headLines raw).headD []
    if 10 ∈ startLine ∨ 13 ∈ startLine then .error "bare line feed in the start line"
    else
      match (headLines raw).tail.mapM parseHeader with
      | .ok headers => .ok ⟨startLine, headers⟩
      | .error reason => .error reason

def HEAD_END : Buffer := CRLF ++ CRLF

/-- `readHead(reader)`. -/
def readHead (r : ByteReader) : Outcome (Option MessageHead) :=
  match r.readUntil HEAD_END MAX_HEAD_BYTES with
  | .done none r => .done none r
  | .done (some raw) r =>
    match parseHead raw with
    | .ok head => .done (some head) r
    | .error reason => .throwHttp 400 reason
  | .thrown error => .thrown error
  | .waiting => .waiting

example : parseHead (js "GET / HTTP/1.1\r\nHost:\ta b \r\nX:\r\n\r\n").toBuffer =
    .ok ⟨js "GET / HTTP/1.1", [(js "Host", js "a b"), (js "X", [])]⟩ := by decide

/-! ## Streams -/

inductive StreamEnd where
  | ended
  | failed
  | silent
  deriving DecidableEq

def endOfEvents : List SocketEvent → StreamEnd
  | [] => .silent
  | .data _ :: events => endOfEvents events
  | .ended :: _ => .ended
  | .failed :: _ => .failed

namespace ByteReader

def ending (r : ByteReader) : StreamEnd := if r.ended then .ended else endOfEvents r.events

/-- The reader brings these bytes and this end, in whatever pieces. -/
structure Brings (r : ByteReader) (bytes : Buffer) (ending : StreamEnd) : Prop where
  bytes : r.unread = bytes
  ending : r.ending = ending

end ByteReader

/-- What a read comes to, apart from how the bytes behind it arrive. -/
inductive Reading (α : Type) where
  /-- It returns, and leaves these bytes unread. -/
  | done (value : α) (rest : Buffer)
  | thrown (error : ReadError)
  | waiting
  deriving DecidableEq

def Outcome.reading {α : Type} : Outcome α → Reading α
  | .done value r => .done value r.unread
  | .thrown error => .thrown error
  | .waiting => .waiting

/-- What is accepted, and the bytes behind it. -/
def Reading.accepted {α : Type} : Reading α → Option (α × Buffer)
  | .done value rest => some (value, rest)
  | _ => none

/-- The reading of a head that is too large. -/
def tooLarge : Reading (Option Buffer) :=
  .thrown (.http 431 (js "the message head is too large"))

/-- What `readUntil` comes to when the stream ends without the delimiter, within the limit. -/
def readEnd (bytes : Buffer) : StreamEnd → Reading (Option Buffer)
  | .ended =>
    if bytes = [] then .done none []
    else .thrown (.http 400 (js "the stream ended inside a message head"))
  | .failed => .thrown .socket
  | .silent => .waiting

/-- What `readUntil` comes to on a stream whose bytes are all there. -/
def readWhole (delimiter : Buffer) (limit : ℕ) (bytes : Buffer) (ending : StreamEnd) :
    Reading (Option Buffer) :=
  match bytes.indexOf delimiter 0 with
  | some found =>
    if limit < found then tooLarge
    else
      .done (some (bytes.take (found + delimiter.length))) (bytes.drop (found + delimiter.length))
  | none =>
    if limit < bytes.length then tooLarge
    else readEnd bytes ending

structure FirstAt (delimiter bytes : Buffer) (p : ℕ) : Prop where
  occurs : OccursAt delimiter bytes p
  first : ∀ j, OccursAt delimiter bytes j → p ≤ j

/-- The delimiter first occurs across the limit: it starts at the limit or before it, and ends more
than a byte behind it. -/
def Straddles (delimiter : Buffer) (limit : ℕ) (bytes : Buffer) : Prop :=
  ∃ p, FirstAt delimiter bytes p ∧ p ≤ limit ∧ limit + 1 < p + delimiter.length

/-! ## The place of the delimiter -/

variable {delimiter bytes : Buffer}

lemma firstAt_of_indexOf {p : ℕ}
    (h : bytes.indexOf delimiter 0 = some p) : FirstAt delimiter bytes p := by
  obtain ⟨-, hoccurs, hfirst⟩ := occursAt_of_find h
  exact ⟨hoccurs, fun j hj => hfirst j (Nat.zero_le j) hj⟩

lemma indexOf_of_firstAt {p : ℕ} (hdelimiter : delimiter ≠ [])
    (h : FirstAt delimiter bytes p) : bytes.indexOf delimiter 0 = some p := by
  cases hindex : bytes.indexOf delimiter 0 with
  | none => exact absurd h.occurs (not_occursAt_of_find hdelimiter hindex p (Nat.zero_le p))
  | some q =>
    have hq := firstAt_of_indexOf hindex
    rw [le_antisymm (hq.first p h.occurs) (h.first q hq.occurs)]

lemma indexOf_of_not_occursAt (h : ∀ j, ¬ OccursAt delimiter bytes j) :
    bytes.indexOf delimiter 0 = none := by
  cases hindex : bytes.indexOf delimiter 0 with
  | none => rfl
  | some q => exact absurd (firstAt_of_indexOf hindex).occurs (h q)

namespace ByteReader

lemma more_ending {r r' : ByteReader} {more : Bool} (h : r.more = .done more r') :
    r'.ending = r.ending := by
  unfold ByteReader.more at h
  split_ifs at h with hended
  · cases h
    rfl
  · split at h
    · cases h
    · rename_i bytes events hevents
      cases h
      simp [ending, hended, hevents, endOfEvents]
    · rename_i events hevents
      cases h
      simp [ending, hended, hevents, endOfEvents]
    · cases h

variable {r : ByteReader} {delimiter : Buffer}

lemma more_thrown {error : ReadError} (h : r.more = .thrown error) :
    error = .socket ∧ r.unread = r.buffer ∧ r.ending = .failed := by
  unfold ByteReader.more at h
  split_ifs at h with hended
  split at h
  · cases h
  · cases h
  · cases h
  · rename_i events hevents
    cases h
    exact ⟨rfl, by simp [unread, hended, hevents, unreadEvents],
      by simp [ending, hended, hevents, endOfEvents]⟩

lemma more_waiting (h : r.more = .waiting) :
    r.unread = r.buffer ∧ r.ending = .silent := by
  unfold ByteReader.more at h
  split_ifs at h with hended
  split at h
  · rename_i hevents
    exact ⟨by simp [unread, hended, hevents, unreadEvents],
      by simp [ending, hended, hevents, endOfEvents]⟩
  · cases h
  · cases h
  · cases h

lemma more_false {r r' : ByteReader} (h : r.more = .done false r') :
    r' = r ∧ r.unread = r.buffer ∧ r.ending = .ended := by
  have hended := (more_done h).2.2 rfl
  unfold ByteReader.more at h
  rw [if_pos hended] at h
  cases h
  exact ⟨rfl, by simp [unread, hended], by simp [ending, hended]⟩

/-- An occurrence in the buffer, none before the place the search starts from: it is the first one
in what is unread. -/
lemma firstAt_of_buffer {searchFrom found : ℕ}
    (hdelimiter : delimiter ≠ [])
    (hbefore : ∀ j < searchFrom, ¬ OccursAt delimiter r.unread j)
    (h : r.buffer.indexOf delimiter searchFrom = some found) :
    FirstAt delimiter r.unread found := by
  obtain ⟨-, hoccurs, hfirst⟩ := occursAt_of_find h
  have hend := hoccurs.add_length_le hdelimiter
  refine ⟨hoccurs.append _, fun j hj => ?_⟩
  by_contra hlt
  have hj' : OccursAt delimiter r.buffer j := OccursAt.of_append hj (by omega)
  rcases Nat.lt_or_ge j searchFrom with hsearch | hsearch
  · exact hbefore j hsearch hj
  · exact hlt (hfirst j hsearch hj')

lemma length_lt_of_occursAt {searchFrom j : ℕ}
    (hdelimiter : delimiter ≠ [])
    (hbefore : ∀ j < searchFrom, ¬ OccursAt delimiter r.unread j)
    (h : r.buffer.indexOf delimiter searchFrom = none)
    (hj : OccursAt delimiter r.unread j) : r.buffer.length < j + delimiter.length := by
  by_contra hle
  have hj' : OccursAt delimiter r.buffer j := OccursAt.of_append hj (by omega)
  rcases Nat.lt_or_ge j searchFrom with hsearch | hsearch
  · exact hbefore j hsearch hj
  · exact not_occursAt_of_find hdelimiter h j hsearch hj'

lemma buffer_length_le (r : ByteReader) : r.buffer.length ≤ r.unread.length := by
  rw [unread, List.length_append]
  exact Nat.le_add_right _ _

/-- A buffer without the delimiter that is over the limit: so is the whole stream, unless the
delimiter lies across the limit. -/
lemma readWhole_of_buffer {limit searchFrom : ℕ}
    (hdelimiter : delimiter ≠ []) (hbefore : ∀ j < searchFrom, ¬ OccursAt delimiter r.unread j)
    (hindex : r.buffer.indexOf delimiter searchFrom = none) (hlimit : limit < r.buffer.length) :
    readWhole delimiter limit r.unread r.ending = tooLarge ∨
      Straddles delimiter limit r.unread := by
  unfold readWhole
  cases hwhole : r.unread.indexOf delimiter 0 with
  | none => exact .inl (if_pos (lt_of_lt_of_le hlimit r.buffer_length_le))
  | some p =>
    have hp := firstAt_of_indexOf hwhole
    have hend := length_lt_of_occursAt hdelimiter hbefore hindex hp.occurs
    rcases Nat.lt_or_ge limit p with hlt | hle
    · exact .inl (if_pos hlt)
    · exact .inr ⟨p, hp, hle, by omega⟩

/-- A stream is read as if it were all there, but where the delimiter lies across the limit it may
be found too large.

**Proof sketch.** Induction on the rounds. The delimiter does not occur before the place the search
starts from; so what the search finds in the buffer is the first occurrence in the stream, and where
it finds nothing every occurrence ends behind the buffer. -/
theorem readUntil_cases (limit : ℕ)
    (hdelimiter : delimiter ≠ []) :
    (r.readUntil delimiter limit).reading = readWhole delimiter limit r.unread r.ending ∨
      Straddles delimiter limit r.unread ∧ (r.readUntil delimiter limit).reading = tooLarge := by
  unfold readUntil
  have hrounds : r.events.length < r.events.length + 1 := Nat.lt_succ_self _
  have hbefore : ∀ j < 0, ¬ OccursAt delimiter r.unread j := fun j hj => absurd hj j.not_lt_zero
  generalize r.events.length + 1 = rounds at hrounds
  generalize 0 = searchFrom at hbefore
  induction rounds generalizing r searchFrom with
  | zero => omega
  | succ rounds ih =>
    unfold readUntilLoop
    cases hindex : r.buffer.indexOf delimiter searchFrom with
    | some found =>
      have hfound := firstAt_of_buffer hdelimiter hbefore hindex
      have hend := (occursAt_of_find hindex).2.1.add_length_le hdelimiter
      simp only [readWhole, indexOf_of_firstAt hdelimiter hfound]
      left
      by_cases hlimit : limit < found
      · rw [if_pos hlimit, if_pos hlimit]
        rfl
      · rw [if_neg hlimit, if_neg hlimit, unread_take_drop r (found + delimiter.length)]
        have hlength : (r.buffer.take (found + delimiter.length)).length =
            found + delimiter.length := by
          rw [List.length_take]
          omega
        rw [List.take_left' hlength, List.drop_left' hlength]
        rfl
    | none =>
      dsimp only
      by_cases hlimit : limit < r.buffer.length
      · rw [if_pos hlimit]
        rcases readWhole_of_buffer hdelimiter hbefore hindex hlimit with hlarge | hacross
        · exact .inl hlarge.symm
        · exact .inr ⟨hacross, rfl⟩
      · rw [if_neg hlimit]
        -- Where nothing is to come, the stream ends without the delimiter.
        have hwhole (hunread : r.unread = r.buffer) :
            readWhole delimiter limit r.unread r.ending = readEnd r.buffer r.ending := by
          have hnone : r.unread.indexOf delimiter 0 = none := by
            refine indexOf_of_not_occursAt fun j hj => ?_
            have hlt := length_lt_of_occursAt hdelimiter hbefore hindex hj
            have hle := hj.add_length_le hdelimiter
            rw [hunread] at hle
            omega
          simp only [readWhole, hnone]
          rw [hunread, if_neg hlimit]
        cases hmore : r.more with
        | done more r' =>
          cases more with
          | true =>
            obtain ⟨hunread, hlt, -⟩ := more_done hmore
            rw [← hunread, ← more_ending hmore]
            refine ih (by have := hlt rfl; omega) _ fun j hj hoccurs => ?_
            rw [hunread] at hoccurs
            have := length_lt_of_occursAt hdelimiter hbefore hindex hoccurs
            omega
          | false =>
            obtain ⟨rfl, hunread, hending⟩ := more_false hmore
            left
            rw [hwhole hunread, hending]
            by_cases hempty : r'.buffer = []
            · simp [hempty, Outcome.reading, hunread, readEnd]
            · simp [hempty, Outcome.reading, Outcome.throwHttp, readEnd]
        | thrown error =>
          obtain ⟨rfl, hunread, hending⟩ := more_thrown hmore
          left
          rw [hwhole hunread, hending]
          rfl
        | waiting =>
          obtain ⟨hunread, hending⟩ := more_waiting hmore
          left
          rw [hwhole hunread, hending]
          rfl

/-- **Off the limit, a stream is read as if it were all there.** -/
theorem readUntil_reading {limit : ℕ}
    (hdelimiter : delimiter ≠ []) (hoff : ¬ Straddles delimiter limit r.unread) :
    (r.readUntil delimiter limit).reading = readWhole delimiter limit r.unread r.ending :=
  (readUntil_cases limit hdelimiter).resolve_right fun h => hoff h.1

lemma readUntil_nil (r : ByteReader) (limit : ℕ) :
    (r.readUntil [] limit).reading = .done (some []) r.unread := by
  have hindex : r.buffer.indexOf [] 0 = some 0 := by
    simp [Buffer.indexOf, List.range'_succ]
  simp [readUntil, readUntilLoop, hindex, Outcome.reading, unread]

end ByteReader

/-! ## Two ways to bring a stream -/

def StreamEnd.events : StreamEnd → List SocketEvent
  | .ended => [.ended]
  | .failed => [.failed]
  | .silent => []

namespace ByteReader

def whole (bytes : Buffer) (ending : StreamEnd) : ByteReader := ⟨bytes, false, ending.events⟩

/-- The first `n` bytes are there, and the others come in one piece. -/
def cut (n : ℕ) (bytes : Buffer) (ending : StreamEnd) : ByteReader :=
  ⟨bytes.take n, false, .data (bytes.drop n) :: ending.events⟩

lemma unreadEvents_events (ending : StreamEnd) : unreadEvents ending.events = [] := by
  cases ending <;> rfl

lemma endOfEvents_events (ending : StreamEnd) : endOfEvents ending.events = ending := by
  cases ending <;> rfl

lemma whole_brings (bytes : Buffer) (ending : StreamEnd) :
    (whole bytes ending).Brings bytes ending := by
  refine ⟨?_, endOfEvents_events ending⟩
  simp [whole, unread, unreadEvents_events]

lemma cut_brings (n : ℕ) (bytes : Buffer) (ending : StreamEnd) :
    (cut n bytes ending).Brings bytes ending := by
  refine ⟨?_, endOfEvents_events ending⟩
  simp [cut, unread, unreadEvents, unreadEvents_events]

lemma readUntil_whole {delimiter bytes : Buffer} {limit p : ℕ} (ending : StreamEnd)
    (hdelimiter : delimiter ≠ []) (hp : FirstAt delimiter bytes p) (hlimit : p ≤ limit) :
    ((whole bytes ending).readUntil delimiter limit).reading =
      .done (some (bytes.take (p + delimiter.length))) (bytes.drop (p + delimiter.length)) := by
  have hindex : (whole bytes ending).buffer.indexOf delimiter 0 = some p :=
    indexOf_of_firstAt hdelimiter hp
  simp only [readUntil, readUntilLoop, hindex]
  rw [if_neg (Nat.not_lt.mpr hlimit)]
  simp [Outcome.reading, whole, unread, unreadEvents_events]

/-- Where the delimiter lies across the limit, the front part up to behind the limit is found too
large. -/
lemma readUntil_cut {delimiter bytes : Buffer} {limit p : ℕ} (ending : StreamEnd)
    (hdelimiter : delimiter ≠ []) (hp : FirstAt delimiter bytes p)
    (hend : limit + 1 < p + delimiter.length) :
    ((cut (limit + 1) bytes ending).readUntil delimiter limit).reading = tooLarge := by
  have hlength : (cut (limit + 1) bytes ending).buffer.length = limit + 1 := by
    have := hp.occurs.add_length_le hdelimiter
    rw [cut, List.length_take]
    omega
  have hindex : (cut (limit + 1) bytes ending).buffer.indexOf delimiter 0 = none := by
    refine indexOf_of_not_occursAt fun j hj => ?_
    have hlast := hj.add_length_le hdelimiter
    have hfirst := hp.first j (by
      rw [← List.take_append_drop (limit + 1) bytes]
      exact hj.append _)
    omega
  simp only [readUntil, readUntilLoop, hindex]
  rw [if_pos (by omega)]
  rfl

end ByteReader

/-! ## Well-formed heads -/

/-- A header line: a name, a colon and a value. -/
structure WellFormedHeader (line : JsString) : Prop where
  unbroken : 10 ∉ line ∧ 13 ∉ line
  field : ∃ name value, line = name ++ 58 :: value ∧ isToken name = true ∧
    isFieldValue (trimBlanks value) = true

/-- The bytes of a head that is accepted, the empty line included. -/
structure WellFormedHead (raw : Buffer) : Prop where
  start : ¬ js "\r\n" <+: raw.toLatin1
  startLine : 10 ∉ (headLines raw).headD [] ∧ 13 ∉ (headLines raw).headD []
  headers : ∀ line ∈ (headLines raw).tail, WellFormedHeader line

lemma not_mem_of_isToken {c : CodeUnit} {name : JsString} (h : isToken name = true)
    (hc : isToken [c] = false) : c ∉ name := by
  intro hmem
  unfold isToken at h hc
  rw [Bool.and_eq_true, List.all_eq_true] at h
  simp only [List.all_cons, List.all_nil, Bool.and_true] at hc
  rw [h.2 c hmem] at hc
  exact absurd hc (by simp)

lemma ne_nil_of_isToken {name : JsString} (h : isToken name = true) : name ≠ [] := by
  rintro rfl
  exact absurd h (by decide)

lemma parseHeader_field {name value : JsString}
    (hbroken : 10 ∉ name ++ 58 :: value ∧ 13 ∉ name ++ 58 :: value) (htoken : isToken name = true)
    (hvalue : isFieldValue (trimBlanks value) = true) :
    parseHeader (name ++ 58 :: value) = .ok (name, trimBlanks value) := by
  have hcolon : (name ++ 58 :: value).idxOf 58 = name.length := by
    rw [List.idxOf_append_of_notMem (not_mem_of_isToken htoken (by decide)),
      List.idxOf_cons_self, Nat.add_zero]
  obtain ⟨c, cs, rfl⟩ := List.exists_cons_of_ne_nil (ne_nil_of_isToken htoken)
  have hblank : isBlank c = false := by
    by_contra hblank
    have hmem : c ∈ c :: cs := List.mem_cons_self
    simp only [isBlank, Bool.not_eq_false, Bool.or_eq_true, beq_iff_eq] at hblank
    rcases hblank with rfl | rfl
    · exact not_mem_of_isToken htoken (by decide) hmem
    · exact not_mem_of_isToken htoken (by decide) hmem
  unfold parseHeader
  rw [if_neg (not_or.mpr hbroken), if_neg (by simp [hblank])]
  dsimp only
  rw [hcolon, if_neg (by simp)]
  rw [List.take_left' rfl, if_neg (by simp [htoken])]
  have hdrop : (c :: cs ++ 58 :: value).drop ((c :: cs).length + 1) = value := by
    simp
  rw [hdrop, if_neg (by simp [hvalue])]

/-- A header line is accepted exactly when it is well formed. -/
lemma parseHeader_ok_iff (line : JsString) :
    (∃ field, parseHeader line = .ok field) ↔ WellFormedHeader line := by
  constructor
  · rintro ⟨field, h⟩
    unfold parseHeader at h
    by_cases hbroken : 10 ∈ line ∨ 13 ∈ line
    · rw [if_pos hbroken] at h
      cases h
    rw [if_neg hbroken] at h
    by_cases hfolded : line.head?.any isBlank = true
    · rw [if_pos hfolded] at h
      cases h
    rw [if_neg hfolded] at h
    dsimp only at h
    by_cases hcolon : line.idxOf 58 = line.length ∨ line.idxOf 58 = 0
    · rw [if_pos hcolon] at h
      cases h
    rw [if_neg hcolon] at h
    by_cases htoken : isToken (line.take (line.idxOf 58)) = true
    · by_cases hvalue : isFieldValue (trimBlanks (line.drop (line.idxOf 58 + 1))) = true
      · refine ⟨not_or.mp hbroken, _, _, ?_, htoken, hvalue⟩
        have hlt : line.idxOf 58 < line.length :=
          lt_of_le_of_ne List.idxOf_le_length fun h => hcolon (.inl h)
        conv_lhs => rw [← List.take_append_drop (line.idxOf 58) line]
        rw [List.drop_eq_getElem_cons hlt, List.getElem_idxOf hlt]
      · rw [if_neg (by simp [htoken]), if_pos (by simp [hvalue])] at h
        cases h
    · rw [if_pos (by simp [htoken])] at h
      cases h
  · rintro ⟨hbroken, name, value, rfl, htoken, hvalue⟩
    exact ⟨_, parseHeader_field hbroken htoken hvalue⟩

lemma mapM_ok_iff {α β : Type} {f : α → Except String β} {xs : List α} :
    (∃ ys, xs.mapM f = .ok ys) ↔ ∀ x ∈ xs, ∃ y, f x = .ok y := by
  induction xs with
  | nil => simp [pure, Except.pure]
  | cons x xs ih =>
    rw [List.forall_mem_cons, ← ih, List.mapM_cons]
    cases hx : f x with
    | error reason => simp [bind, Except.bind]
    | ok y =>
      cases hxs : xs.mapM f with
      | error reason => simp [bind, Except.bind]
      | ok ys => simp [bind, Except.bind, pure, Except.pure]

/-- **A head is accepted exactly when it is well formed.** -/
theorem parseHead_ok_iff (raw : Buffer) :
    (∃ head, parseHead raw = .ok head) ↔ WellFormedHead raw := by
  have hlines : ((headLines raw).tail.mapM parseHeader).isOk = true ↔
      ∀ line ∈ (headLines raw).tail, WellFormedHeader line := by
    simp only [← parseHeader_ok_iff, ← mapM_ok_iff]
    cases (headLines raw).tail.mapM parseHeader <;> simp [Except.isOk, Except.toBool]
  unfold parseHead
  dsimp only
  by_cases hstart : js "\r\n" <+: raw.toLatin1
  · rw [if_pos (List.isPrefixOf_iff_prefix.mpr hstart)]
    exact ⟨nofun, fun h => absurd hstart h.start⟩
  rw [if_neg (fun h => hstart (List.isPrefixOf_iff_prefix.mp h))]
  by_cases hbroken : 10 ∈ (headLines raw).headD [] ∨ 13 ∈ (headLines raw).headD []
  · rw [if_pos hbroken]
    exact ⟨nofun, fun h => absurd hbroken (not_or.mpr h.startLine)⟩
  rw [if_neg hbroken]
  cases hmap : (headLines raw).tail.mapM parseHeader with
  | ok headers =>
    rw [hmap] at hlines
    exact ⟨fun _ => ⟨hstart, not_or.mp hbroken, hlines.mp rfl⟩, fun _ => ⟨_, rfl⟩⟩
  | error reason =>
    rw [hmap] at hlines
    exact ⟨nofun, fun h => absurd (hlines.mpr h.headers) (by simp [Except.isOk, Except.toBool])⟩

lemma splitLines_eq (text : JsString) : splitLines text = TextLines.split 13 10 text := by
  induction text using splitLines.induct with
  | case1 => rfl
  | case2 c => rfl
  | case3 c d rest hend ih => rw [splitLines, if_pos hend, TextLines.split, if_pos hend, ih]
  | case4 c d rest hend ih =>
    rw [splitLines, if_neg hend, TextLines.split, if_neg hend, ih]
    cases TextLines.split 13 10 (d :: rest) <;> rfl

lemma notMem_toLatin1 {line : Buffer} {b : UInt8} (h : b ∉ line) : b.toUInt16 ∉ line.toLatin1 := by
  intro hmem
  obtain ⟨c, hc, heq⟩ := List.mem_map.mp hmem
  exact h (UInt8.toUInt16_inj.mp heq ▸ hc)

lemma parseHead_startLine {line : Buffer} (hline : line ≠ []) (hreturn : 13 ∉ line)
    (hfeed : 10 ∉ line) : parseHead (line ++ HEAD_END) = .ok ⟨line.toLatin1, []⟩ := by
  have htext : (line ++ HEAD_END).toLatin1 = line.toLatin1 ++ js "\r\n\r\n" := by
    rw [Buffer.toLatin1, List.map_append]
    rfl
  have hreturn' : 13 ∉ line.toLatin1 := notMem_toLatin1 hreturn
  have hfeed' : 10 ∉ line.toLatin1 := notMem_toLatin1 hfeed
  have hlines : headLines (line ++ HEAD_END) = [line.toLatin1] := by
    rw [headLines, htext, List.length_append, show (js "\r\n\r\n").length = 4 from by decide,
      Nat.add_sub_cancel, List.take_left' rfl, splitLines_eq,
      TextLines.split_of_notMem hreturn']
  have hstart : ¬ js "\r\n" <+: (line ++ HEAD_END).toLatin1 := by
    obtain ⟨b, bs, rfl⟩ := List.exists_cons_of_ne_nil hline
    rw [htext]
    intro hprefix
    have hhead : 13 = b.toUInt16 := (List.cons_prefix_cons.mp hprefix).1
    exact hreturn' (hhead ▸ List.mem_cons_self)
  unfold parseHead
  rw [if_neg fun h => hstart (List.isPrefixOf_iff_prefix.mp h), hlines]
  dsimp only [List.headD, List.tail]
  rw [if_neg (not_or.mpr ⟨hfeed', hreturn'⟩)]
  rfl

lemma firstAt_headEnd {line : Buffer} (hreturn : 13 ∉ line) :
    FirstAt HEAD_END (line ++ HEAD_END) line.length := by
  refine ⟨?_, fun j hj => ?_⟩
  · rw [OccursAt, List.drop_left' rfl]
  · have hcrlf : OccursAt CRLF (line ++ HEAD_END) j := (List.prefix_append CRLF CRLF).trans hj
    exact ByteReader.length_le_of_occursAt hreturn hcrlf

/-! ## Boundaries -/

/-- What `readHead` makes of what `readUntil` reads. -/
def headReading : Reading (Option Buffer) → Reading (Option MessageHead)
  | .done none rest => .done none rest
  | .done (some raw) rest =>
    match parseHead raw with
    | .ok head => .done (some head) rest
    | .error reason => .thrown (.http 400 (js reason))
  | .thrown error => .thrown error
  | .waiting => .waiting

lemma readHead_reading (r : ByteReader) :
    (readHead r).reading = headReading (r.readUntil HEAD_END MAX_HEAD_BYTES).reading := by
  unfold readHead
  cases r.readUntil HEAD_END MAX_HEAD_BYTES with
  | done value r =>
    cases value with
    | none => rfl
    | some raw =>
      cases hparse : parseHead raw <;>
        simp [Outcome.reading, headReading, hparse, Outcome.throwHttp]
  | thrown error => rfl
  | waiting => rfl

/-- **A read depends on how the bytes arrive exactly where the delimiter lies across the limit.** -/
theorem readUntil_boundaries (delimiter : Buffer) (limit : ℕ) (bytes : Buffer)
    (ending : StreamEnd) :
    (∀ r r' : ByteReader, r.Brings bytes ending → r'.Brings bytes ending →
        (r.readUntil delimiter limit).reading.accepted =
          (r'.readUntil delimiter limit).reading.accepted) ↔
      ¬ Straddles delimiter limit bytes := by
  rcases eq_or_ne delimiter [] with rfl | hdelimiter
  · refine iff_of_true (fun r r' h h' => ?_) ?_
    · rw [ByteReader.readUntil_nil, ByteReader.readUntil_nil, h.bytes, h'.bytes]
    · rintro ⟨p, -, hp, hend⟩
      rw [List.length_nil] at hend
      omega
  · constructor
    · rintro h ⟨p, hp, hlimit, hend⟩
      have haccepted := h _ _ (ByteReader.whole_brings bytes ending)
        (ByteReader.cut_brings (limit + 1) bytes ending)
      rw [ByteReader.readUntil_whole ending hdelimiter hp hlimit,
        ByteReader.readUntil_cut ending hdelimiter hp hend] at haccepted
      cases haccepted
    · intro hoff r r' h h'
      rw [ByteReader.readUntil_reading hdelimiter (by rwa [h.bytes]),
        ByteReader.readUntil_reading hdelimiter (by rwa [h'.bytes]), h.bytes, h.ending,
        h'.bytes, h'.ending]

/-- Where a head lies across the limit, it is accepted in one piece exactly when it is well formed,
and it is refused when its first bytes up to behind the limit come alone. -/
theorem readHead_boundaries (bytes : Buffer) (ending : StreamEnd) :
    (∀ r r' : ByteReader, r.Brings bytes ending → r'.Brings bytes ending →
        (readHead r).reading.accepted = (readHead r').reading.accepted) ↔
      ¬ ∃ p, FirstAt HEAD_END bytes p ∧ p ≤ MAX_HEAD_BYTES ∧
        MAX_HEAD_BYTES + 1 < p + HEAD_END.length ∧
        WellFormedHead (bytes.take (p + HEAD_END.length)) := by
  have hdelimiter : HEAD_END ≠ [] := by decide
  constructor
  · rintro h ⟨p, hp, hlimit, hend, hformed⟩
    obtain ⟨head, hhead⟩ := (parseHead_ok_iff _).mpr hformed
    have haccepted := h _ _ (ByteReader.whole_brings bytes ending)
      (ByteReader.cut_brings (MAX_HEAD_BYTES + 1) bytes ending)
    rw [readHead_reading, readHead_reading, ByteReader.readUntil_whole ending hdelimiter hp hlimit,
      ByteReader.readUntil_cut ending hdelimiter hp hend] at haccepted
    simp only [headReading, hhead] at haccepted
    cases haccepted
  · intro hoff r r' h h'
    rw [readHead_reading, readHead_reading]
    by_cases hacross : Straddles HEAD_END MAX_HEAD_BYTES bytes
    · -- A head across the limit is malformed, and no way to bring it makes it accepted.
      obtain ⟨p, hp, hlimit, hend⟩ := hacross
      have hnone : ∀ r : ByteReader, r.Brings bytes ending →
          (headReading (r.readUntil HEAD_END MAX_HEAD_BYTES).reading).accepted = none := by
        intro r h
        rcases ByteReader.readUntil_cases (r := r) MAX_HEAD_BYTES hdelimiter with
          hwhole | ⟨-, hlarge⟩
        · rw [hwhole, h.bytes]
          simp only [readWhole, indexOf_of_firstAt hdelimiter hp]
          rw [if_neg (Nat.not_lt.mpr hlimit)]
          cases hparse : parseHead (bytes.take (p + HEAD_END.length)) with
          | ok head =>
            exact absurd ⟨p, hp, hlimit, hend, (parseHead_ok_iff _).mp ⟨head, hparse⟩⟩ hoff
          | error reason => simp [headReading, hparse, Reading.accepted]
        · rw [hlarge]
          rfl
      rw [hnone r h, hnone r' h']
    · rw [ByteReader.readUntil_reading hdelimiter (by rwa [h.bytes]),
        ByteReader.readUntil_reading hdelimiter (by rwa [h'.bytes]), h.bytes, h.ending,
        h'.bytes, h'.ending]

/-- **Reads and the arrival of bytes.** What `readUntil` accepts of a stream is the same however its
bytes arrive exactly when the delimiter does not lie across the limit; what `readHead` accepts is,
exactly when no well-formed head lies so. -/
theorem head_reading_boundaries (delimiter : Buffer) (limit : ℕ) (bytes : Buffer)
    (ending : StreamEnd) :
    ((∀ r r' : ByteReader, r.Brings bytes ending → r'.Brings bytes ending →
        (r.readUntil delimiter limit).reading.accepted =
          (r'.readUntil delimiter limit).reading.accepted) ↔
      ¬ Straddles delimiter limit bytes) ∧
    ((∀ r r' : ByteReader, r.Brings bytes ending → r'.Brings bytes ending →
        (readHead r).reading.accepted = (readHead r').reading.accepted) ↔
      ¬ ∃ p, FirstAt HEAD_END bytes p ∧ p ≤ MAX_HEAD_BYTES ∧
        MAX_HEAD_BYTES + 1 < p + HEAD_END.length ∧
        WellFormedHead (bytes.take (p + HEAD_END.length))) :=
  ⟨readUntil_boundaries delimiter limit bytes ending, readHead_boundaries bytes ending⟩

/-- A head of one line of `n` letters. -/
def lineHead (n : ℕ) : Buffer := List.replicate n 97 ++ HEAD_END

lemma parseHead_lineHead {n : ℕ} (hn : n ≠ 0) :
    parseHead (lineHead n) = .ok ⟨List.replicate n 97, []⟩ := by
  have hother {b : UInt8} (hb : b ≠ 97) : b ∉ List.replicate n (97 : UInt8) := fun h =>
    hb (List.eq_of_mem_replicate h)
  have hline : List.replicate n (97 : UInt8) ≠ [] := fun h =>
    hn ((List.replicate_eq_nil_iff _).mp h)
  have hmap : Buffer.toLatin1 (List.replicate n 97) = List.replicate n 97 :=
    List.map_replicate
  rw [lineHead, parseHead_startLine hline (hother (by decide)) (hother (by decide)), hmap]

lemma firstAt_lineHead (n : ℕ) : FirstAt HEAD_END (lineHead n) n := by
  have hreturn : 13 ∉ List.replicate n (97 : UInt8) := fun h =>
    absurd (List.eq_of_mem_replicate h) (by decide)
  have hfirst := firstAt_headEnd hreturn
  rwa [List.length_replicate] at hfirst

lemma length_lineHead (n : ℕ) : (lineHead n).length = n + HEAD_END.length := by
  rw [lineHead, List.length_append, List.length_replicate]

/-- The head whose empty line starts at the limit is accepted in one piece, and refused when all of
it but its last three bytes comes first. -/
theorem headAtLimit_reading :
    (ByteReader.whole (lineHead MAX_HEAD_BYTES) .silent).Brings (lineHead MAX_HEAD_BYTES) .silent ∧
    (ByteReader.cut (MAX_HEAD_BYTES + 1) (lineHead MAX_HEAD_BYTES) .silent).Brings
      (lineHead MAX_HEAD_BYTES) .silent ∧
    (readHead (ByteReader.whole (lineHead MAX_HEAD_BYTES) .silent)).reading.accepted =
      some (some ⟨List.replicate MAX_HEAD_BYTES 97, []⟩, []) ∧
    (readHead (ByteReader.cut (MAX_HEAD_BYTES + 1) (lineHead MAX_HEAD_BYTES)
      .silent)).reading.accepted = none := by
  refine ⟨ByteReader.whole_brings _ _, ByteReader.cut_brings _ _ _, ?_, ?_⟩
  · rw [readHead_reading,
      ByteReader.readUntil_whole _ (by decide) (firstAt_lineHead MAX_HEAD_BYTES) (Nat.le_refl _),
      ← length_lineHead, List.take_length, List.drop_length, headReading,
      parseHead_lineHead (by decide)]
    rfl
  · rw [readHead_reading, ByteReader.readUntil_cut _ (by decide) (firstAt_lineHead MAX_HEAD_BYTES)
      (Nat.add_lt_add_left (by decide) _)]
    rfl

end Isomux
