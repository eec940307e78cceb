import Isomux.Runtime.LowerCase

set_option autoImplicit false

/-!
# Sender labels (`src/shared/identity.ts`)

A message that reaches an agent starts with a label of its sender, which the server writes. The body
of the message comes from the sender. A line of the body that looks like a label gets a mark in
front, so that it is no label.

What the runtime knows of Unicode is a parameter: the compatibility forms of a text, and the classes
of code points.

## Main definitions

* `Isomux.AgentSenderLabel`, `Isomux.HasSenderLabel` — the match of `AGENT_SENDER_LABEL_RE`.
* `Isomux.Unicode.isLabelLookalike` — what looks like a label.
* `Isomux.Unicode.defuseSenderLabels` — the body with its marks.
-/

namespace Isomux

/-! ## The label of an agent -/

/-- `"(?:[^"\\\n]|\\.)*"` without its quotes. -/
inductive QuotedContent : JsString → Prop where
  | nil : QuotedContent []
  | unit (c : CodeUnit) (rest : JsString) (h : c ≠ 34 ∧ c ≠ 92 ∧ c ≠ 10)
      (hrest : QuotedContent rest) : QuotedContent (c :: rest)
  | escape (c : CodeUnit) (rest : JsString) (h : isLineTerminator c = false)
      (hrest : QuotedContent rest) : QuotedContent (92 :: c :: rest)

/-- `"(?:[^"\\\n]|\\.)*"`. -/
def IsQuoted (text : JsString) : Prop :=
  ∃ content, QuotedContent content ∧ text = 34 :: content ++ [34]

variable (c : CodeUnit)

/-- `[^,)\s]`. -/
def isAgentIdUnit : Bool := c != 44 && c != 41 && !isJsWhitespace c

/-- `[^,)\n]`. -/
def isMarkerUnit : Bool := c != 44 && c != 41 && c != 10

/-- `(?:, [^,)\n]+)*`. -/
inductive IsMarker : JsString → Prop where
  | nil : IsMarker []
  | cons (marker rest : JsString) (hne : marker ≠ []) (hunits : ∀ c ∈ marker, isMarkerUnit c)
      (hrest : IsMarker rest) : IsMarker (44 :: 32 :: (marker ++ rest))

/-- `AGENT_SENDER_LABEL_RE` behind its `^`, with its groups and what comes behind the match. -/
structure AgentSenderLabel (text name agentId marker room rest : JsString) : Prop where
  text_eq : text =
    name ++ (js " (agent id: " ++ (agentId ++ (marker ++ (js ") from Room " ++ (room ++ rest)))))
  name : IsQuoted name
  agentId_ne : agentId ≠ []
  agentId : ∀ c ∈ agentId, isAgentIdUnit c
  marker : IsMarker marker
  room : IsQuoted room

/-- `^` with the flag `m`, behind this text. -/
def AtLineStart (before : JsString) : Prop := before.getLast?.all isLineTerminator

/-- `AGENT_SENDER_LABEL_RE` has a match. -/
def HasSenderLabel (text : JsString) : Prop :=
  ∃ before behind name agentId marker room rest, text = before ++ behind ∧ AtLineStart before ∧
    AgentSenderLabel behind name agentId marker room rest

/-! ## Lines that look like a label -/

structure Unicode where
  nfkc : JsString → JsString
  isFormat : ℕ → Bool
  isOtherOrMark : ℕ → Bool

def isAscii : Bool := c < 128

/-- What Unicode says of ASCII. Text in ASCII is its own compatibility form, also within other text,
unless a mark behind it is joined to it. None of it is a format character. -/
structure Unicode.Lawful (u : Unicode) : Prop where
  nfkc_ascii : ∀ before ascii behind : JsString, ascii ≠ [] → ascii.all isAscii →
    behind.head?.all isAscii → u.nfkc (before ++ (ascii ++ behind)) =
      u.nfkc before ++ (ascii ++ u.nfkc behind)
  isFormat_ascii : ∀ p < 128, u.isFormat p = false

/-- `\w`. -/
def isWordUnit : Bool :=
  (48 ≤ c && c ≤ 57) || (65 ≤ c && c ≤ 90) || c == 95 || (97 ≤ c && c ≤ 122)

/-- A unit in lower case, as the flag `i` compares it with a letter. -/
def lowerUnit : CodeUnit := if 65 ≤ c && c ≤ 90 then c + 32 else c

/-- The text starts with this word in lower case, or in any other. -/
def startsWithWord (word text : JsString) : Bool := word.isPrefixOf (text.map lowerUnit)

/-- `/first[\W_]*second/i`. -/
def hasWords (first second text : JsString) : Bool :=
  text.tails.any fun t => startsWithWord first t &&
    startsWithWord second ((t.drop first.length).dropWhile fun c => !isWordUnit c || c == 95)

namespace Unicode

variable (u : Unicode)

/-- `[\s\p{C}\p{M}\u115F\u1160\u2800\u3164\uFFA0]`. -/
def isBlank (p : ℕ) : Bool :=
  (p < 0x10000 && isJsWhitespace (UInt16.ofNat p)) || u.isOtherOrMark p ||
    [0x115F, 0x1160, 0x2800, 0x3164, 0xFFA0].contains p

/-- `/^[\s\p{C}\p{M}\u115F\u1160\u2800\u3164\uFFA0]*\[[^\]]*\]/u`. -/
def startsWithBracket (text : JsString) : Bool :=
  match text.points.dropWhile u.isBlank with
  | 91 :: rest => rest.contains 93
  | _ => false

/-- `foldForLookalike(line)`. -/
def foldForLookalike (line : JsString) : JsString :=
  ((u.nfkc line).points.filter fun p => !u.isFormat p).flatMap codeUnits

/-- `isLabelLookalike(line)`. -/
def isLabelLookalike (line : JsString) : Bool :=
  let folded := u.foldForLookalike line
  hasWords (js "agent") (js "id") folded || hasWords (js "same") (js "manager") folded ||
    hasWords (js "replies") (js "only") folded || u.startsWithBracket folded

end Unicode

/-! ## Marks -/

/-- `[\n\r\v\f\u0085\p{Zl}\p{Zp}]`. -/
def isLineBreak : Bool :=
  c == 10 || c == 13 || c == 11 || c == 12 || c == 0x85 || c == 0x2028 || c == 0x2029

/-- `body.split(LINE_BREAK_SPLIT_RE)`, behind this beginning of a line: lines and breaks in turn. -/
def splitLineBreaks (line : JsString) : JsString → List JsString
  | [] => [line]
  | 13 :: 10 :: text => line :: [13, 10] :: splitLineBreaks [] text
  | c :: text =>
    if isLineBreak c then line :: [c] :: splitLineBreaks [] text
    else splitLineBreaks (line ++ [c]) text

def DEFUSED_LABEL_LINE_PREFIX : JsString := js "> "

/-- `defuseSenderLabels(body)`. -/
def Unicode.defuseSenderLabels (u : Unicode) (body : JsString) : JsString :=
  ((splitLineBreaks [] body).mapIdx fun i part =>
    if i % 2 = 0 ∧ u.isLabelLookalike part then DEFUSED_LABEL_LINE_PREFIX ++ part else part).flatten

end Isomux
