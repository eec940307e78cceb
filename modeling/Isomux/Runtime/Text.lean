import Mathlib.Data.List.Basic

set_option autoImplicit false

/-!
# Strings and buffers of the runtime

A JavaScript string is a list of UTF-16 code units and a `Buffer` a list of bytes. The module
defines the conversions between them that the server uses: `latin1`, `base64`, UTF-8 and
`encodeURIComponent`.

## Main results

* `Isomux.JsString.toLatin1_toBuffer` — `latin1` loses nothing on bytes.
-/

namespace Isomux

abbrev CodeUnit := UInt16

abbrev JsString := List CodeUnit

/-- Whether a string is on a list can be decided. -/
instance JsString.decidableMem (s : JsString) (list : List JsString) : Decidable (s ∈ list) :=
  List.instDecidableMemOfLawfulBEq s list

/-- A `Buffer`: its bytes. -/
abbrev Buffer := List UInt8

/-- A string literal of the source. Literals of the source hold no character outside the basic
plane, so every character is one code unit. -/
def js (s : String) : JsString := s.toList.map fun c => UInt16.ofNat c.toNat

/-! ## latin1 -/

variable (b : Buffer)

/-- `buffer.toString("latin1")`: every byte is one code unit. -/
def Buffer.toLatin1 : JsString := b.map UInt8.toUInt16

variable (s : JsString)

/-- `Buffer.from(text, "latin1")`: the low byte of every code unit. -/
def JsString.toBuffer : Buffer := s.map UInt16.toUInt8

/-- The string is the `latin1` reading of some bytes. -/
def JsString.IsLatin1 : Prop := ∀ c ∈ s, c < 256

instance (s : JsString) : Decidable s.IsLatin1 := List.decidableBAll (fun c => c < 256) s

@[simp] theorem Buffer.toLatin1_nil : Buffer.toLatin1 [] = [] := rfl

@[simp] theorem Buffer.toLatin1_append (a b : Buffer) :
    Buffer.toLatin1 (a ++ b) = a.toLatin1 ++ b.toLatin1 := by simp [Buffer.toLatin1]

theorem Buffer.isLatin1_toLatin1 : b.toLatin1.IsLatin1 := by
  intro c hc
  obtain ⟨x, -, rfl⟩ := List.mem_map.mp hc
  have := x.toNat_lt
  rw [UInt16.lt_iff_toNat_lt]
  simpa using this

theorem JsString.toLatin1_toBuffer {s : JsString} (h : s.IsLatin1) : s.toBuffer.toLatin1 = s := by
  unfold JsString.toBuffer Buffer.toLatin1
  rw [List.map_map]
  conv_rhs => rw [← List.map_id s]
  refine List.map_congr_left fun c hc => ?_
  have hlt := UInt16.lt_iff_toNat_lt.mp (h c hc)
  apply UInt16.toNat_inj.mp
  simpa using Nat.mod_eq_of_lt hlt

theorem JsString.IsLatin1.append {s t : JsString} (hs : s.IsLatin1) (ht : t.IsLatin1) :
    JsString.IsLatin1 (s ++ t) := by
  intro c hc
  exact (List.mem_append.mp hc).elim (hs c) (ht c)

theorem JsString.IsLatin1.of_subset {s t : JsString} (ht : t.IsLatin1) (h : s ⊆ t) :
    s.IsLatin1 := fun c hc => ht c (h hc)

/-! ## base64 -/

variable (n : ℕ)

def base64Letter : CodeUnit :=
  (js "ABCDEFGHIJKLMNOPQRSTUVWXYZabcdefghijklmnopqrstuvwxyz0123456789+/").getD n 0

/-- The padding letter `=`. -/
def base64Pad : CodeUnit := 61

/-- `buffer.toString("base64")`: three bytes become four letters, the last group is padded. -/
def Buffer.toBase64 : Buffer → JsString
  | [] => []
  | [a] =>
    let n := a.toNat * 16
    [base64Letter (n / 64), base64Letter (n % 64), base64Pad, base64Pad]
  | [a, b] =>
    let n := (a.toNat * 256 + b.toNat) * 4
    [base64Letter (n / 4096), base64Letter (n / 64 % 64), base64Letter (n % 64), base64Pad]
  | a :: b :: c :: rest =>
    let n := (a.toNat * 256 + b.toNat) * 256 + c.toNat
    base64Letter (n / 262144) :: base64Letter (n / 4096 % 64) :: base64Letter (n / 64 % 64) ::
      base64Letter (n % 64) :: Buffer.toBase64 rest

example : Buffer.toBase64 [] = [] := by rw [Buffer.toBase64]

variable (c : CodeUnit)

def isBase64Letter : Bool :=
  (65 ≤ c && c ≤ 90) || (97 ≤ c && c ≤ 122) || (48 ≤ c && c ≤ 57) || c == 43 || c == 47

def base64Value : ℕ :=
  if 65 ≤ c ∧ c ≤ 90 then c.toNat - 65
  else if 97 ≤ c ∧ c ≤ 122 then c.toNat - 71
  else if 48 ≤ c ∧ c ≤ 57 then c.toNat + 4
  else if c = 43 then 62 else 63

/-- `Buffer.from(text, "base64")` on whole groups: the padding letters stand for no byte. -/
def Buffer.ofBase64 : JsString → Buffer
  | a :: b :: c :: d :: rest =>
    let n := base64Value a * 262144 + base64Value b * 4096
    if c = base64Pad then UInt8.ofNat (n / 65536) :: Buffer.ofBase64 rest
    else
      let n := n + base64Value c * 64
      if d = base64Pad then
        UInt8.ofNat (n / 65536) :: UInt8.ofNat (n / 256 % 256) :: Buffer.ofBase64 rest
      else
        let n := n + base64Value d
        UInt8.ofNat (n / 65536) :: UInt8.ofNat (n / 256 % 256) :: UInt8.ofNat (n % 256) ::
          Buffer.ofBase64 rest
  | _ => []

/-! ## Letter case -/

/-- `text.toLowerCase()` on `latin1` text, which is all that a message head holds: `A`-`Z` and the
capitals from `0xC0` to `0xDE` without the multiplication sign. -/
def JsString.toLowerCase : JsString :=
  s.map fun c =>
    if (65 ≤ c ∧ c ≤ 90) ∨ (0xC0 ≤ c ∧ c ≤ 0xDE ∧ c ≠ 0xD7) then c + 32 else c

/-! ## White space -/

/-- White space and line ends, as `trim` knows them. All of them are single code units. -/
def isJsWhitespace : Bool :=
  (0x09 ≤ c && c ≤ 0x0D) || c == 0x20 || c == 0xA0 || c == 0x1680 || (0x2000 ≤ c && c ≤ 0x200A) ||
    c == 0x2028 || c == 0x2029 || c == 0x202F || c == 0x205F || c == 0x3000 || c == 0xFEFF

/-- A line end of a regular expression: `^` looks for it with the flag `m`, and `.` is none of it. -/
def isLineTerminator : Bool := c == 10 || c == 13 || c == 0x2028 || c == 0x2029

/-- `text.trim()`. -/
def JsString.trim : JsString :=
  ((s.dropWhile isJsWhitespace).reverse.dropWhile isJsWhitespace).reverse

lemma trim_eq_self {s : JsString} (h : ∀ c ∈ s, isJsWhitespace c = false) : s.trim = s := by
  have hdrop : ∀ t : JsString, (∀ c ∈ t, isJsWhitespace c = false) →
      t.dropWhile isJsWhitespace = t := by
    intro t ht
    cases t with
    | nil => rfl
    | cons c t => rw [List.dropWhile_cons, ht c List.mem_cons_self]; rfl
  unfold JsString.trim
  rw [hdrop s h, hdrop s.reverse fun c hc => h c (List.mem_reverse.mp hc), List.reverse_reverse]

/-! ## UTF-8 -/

def isHighSurrogate : Bool := 0xD800 ≤ c && c ≤ 0xDBFF

def isLowSurrogate : Bool := 0xDC00 ≤ c && c ≤ 0xDFFF

def surrogatePair (c d : CodeUnit) : ℕ :=
  (c.toNat - 0xD800) * 0x400 + (d.toNat - 0xDC00) + 0x10000

/-- The code points of a string; `none` stands for a lone surrogate. -/
def JsString.codePoints : JsString → List (Option ℕ)
  | [] => []
  | [c] => [if isHighSurrogate c || isLowSurrogate c then none else some c.toNat]
  | c :: d :: rest =>
    if isHighSurrogate c && isLowSurrogate d then
      some (surrogatePair c d) :: JsString.codePoints rest
    else if isHighSurrogate c || isLowSurrogate c then none :: JsString.codePoints (d :: rest)
    else some c.toNat :: JsString.codePoints (d :: rest)

def utf8Bytes : List ℕ :=
  if n < 0x80 then [n]
  else if n < 0x800 then [0xC0 + n / 64, 0x80 + n % 64]
  else if n < 0x10000 then [0xE0 + n / 4096, 0x80 + n / 64 % 64, 0x80 + n % 64]
  else [0xF0 + n / 262144, 0x80 + n / 4096 % 64, 0x80 + n / 64 % 64, 0x80 + n % 64]

/-- `Buffer.from(text, "utf8")`: a lone surrogate becomes U+FFFD. -/
def JsString.toUtf8 : Buffer :=
  s.codePoints.flatMap fun p => (utf8Bytes (p.getD 0xFFFD)).map UInt8.ofNat

def codeUnits : JsString :=
  if n < 0x10000 then [UInt16.ofNat n]
  else [UInt16.ofNat (0xD800 + (n - 0x10000) / 0x400), UInt16.ofNat (0xDC00 + (n - 0x10000) % 0x400)]

/-- Whether the first byte of `rest` is there and lies in `[lo, hi]`. -/
def continues (rest : Buffer) (lo hi : UInt8) : Bool :=
  match rest with
  | [] => false
  | b :: _ => lo ≤ b && b ≤ hi

/-- One character of UTF-8 behind its first byte: the code point, or `none` for an ill-formed
sequence, and how many further bytes belong to it. An ill-formed sequence ends before the byte that
does not continue it. -/
def utf8Step (first : UInt8) (rest : Buffer) : Option ℕ × ℕ :=
  let f := first.toNat
  let next := fun i => (rest.getD i 0).toNat % 64
  if f < 0x80 then (some f, 0)
  else if 0xC2 ≤ f ∧ f ≤ 0xDF then
    if continues rest 0x80 0xBF then (some ((f - 0xC0) * 64 + next 0), 1) else (none, 0)
  else if 0xE0 ≤ f ∧ f ≤ 0xEF then
    if !continues rest (if f = 0xE0 then 0xA0 else 0x80) (if f = 0xED then 0x9F else 0xBF) then
      (none, 0)
    else if !continues (rest.drop 1) 0x80 0xBF then (none, 1)
    else (some (((f - 0xE0) * 64 + next 0) * 64 + next 1), 2)
  else if 0xF0 ≤ f ∧ f ≤ 0xF4 then
    if !continues rest (if f = 0xF0 then 0x90 else 0x80) (if f = 0xF4 then 0x8F else 0xBF) then
      (none, 0)
    else if !continues (rest.drop 1) 0x80 0xBF then (none, 1)
    else if !continues (rest.drop 2) 0x80 0xBF then (none, 2)
    else (some ((((f - 0xF0) * 64 + next 0) * 64 + next 1) * 64 + next 2), 3)
  else (none, 0)

/-- The code points of UTF-8 bytes; `none` stands for an ill-formed sequence. Every character takes
a byte, so `bytes.length` rounds read all of them. -/
def utf8CodePoints : ℕ → Buffer → List (Option ℕ)
  | 0, _ => []
  | _, [] => []
  | fuel + 1, first :: rest =>
    (utf8Step first rest).1 :: utf8CodePoints fuel (rest.drop (utf8Step first rest).2)

/-- `buffer.toString("utf8")`: an ill-formed sequence becomes U+FFFD. -/
def Buffer.toUtf8String : JsString :=
  (utf8CodePoints b.length b).flatMap fun p => codeUnits (p.getD 0xFFFD)

/-- `new TextDecoder("utf-8", { fatal: true }).decode(buffer)`: `none` for ill-formed bytes. The
decoder drops a byte order mark at the front. -/
def Buffer.decodeUtf8Fatal : Option JsString :=
  let body := if [0xEF, 0xBB, 0xBF].isPrefixOf b then b.drop 3 else b
  ((utf8CodePoints body.length body).mapM id).map fun ps => ps.flatMap codeUnits

/-! ## URL escapes -/

/-- The code units `encodeURIComponent` leaves alone: letters, digits and `-_.!~*'()`. -/
def isUnreserved : Bool :=
  (65 ≤ c && c ≤ 90) || (97 ≤ c && c ≤ 122) || (48 ≤ c && c ≤ 57) ||
    (js "-_.!~*'()").contains c

def hexDigit : CodeUnit := (js "0123456789ABCDEF").getD n 0

/-- `%` and the two digits of a byte. -/
def percentByte : JsString := [37, hexDigit (n / 16), hexDigit (n % 16)]

/-- One code point of a URL component: as it is, or its UTF-8 bytes escaped. -/
def escapeCodePoint : JsString :=
  if isUnreserved (UInt16.ofNat n) && n < 0x80 then [UInt16.ofNat n]
  else (utf8Bytes n).flatMap percentByte

/-- `encodeURIComponent(text)`; `none` is the `URIError` of a lone surrogate. -/
def encodeURIComponent : Option JsString :=
  (s.codePoints.mapM id).map fun ps => ps.flatMap escapeCodePoint

example : Buffer.toBase64 (js "foob").toBuffer = js "Zm9vYg==" := by decide

example : Buffer.ofBase64 (js "Zm9vYg==") = (js "foob").toBuffer := by decide

example : (js "€").toUtf8 = [0xE2, 0x82, 0xAC] := by decide

example : Buffer.toUtf8String [0x61, 0xE2, 0x82, 0x62] = [0x61, 0xFFFD, 0x62] := by decide

example : encodeURIComponent (js "a b%") = some (js "a%20b%25") := by decide

/-! ## ASCII -/

/-- Every unit is ASCII, as in what `new URL` makes of a path and a query. -/
def AllAscii (text : JsString) : Prop := ∀ c ∈ text, c < 0x80

instance (text : JsString) : Decidable (AllAscii text) :=
  List.decidableBAll (fun c => c < 0x80) text

variable {text : JsString}

lemma not_surrogate_of_lt {c : CodeUnit} (h : c < 0x80) :
    isHighSurrogate c = false ∧ isLowSurrogate c = false := by
  have hlt := UInt16.lt_iff_toNat_lt.1 h
  simp only [isHighSurrogate, isLowSurrogate, Bool.and_eq_false_iff, decide_eq_false_iff_not,
    UInt16.le_iff_toNat_le]
  simp only [UInt16.reduceToNat] at hlt ⊢
  omega

lemma codePoints_of_allAscii (h : AllAscii text) :
    text.codePoints = text.map fun c => some c.toNat := by
  induction text using JsString.codePoints.induct with
  | case1 => rfl
  | case2 c =>
    obtain ⟨hhigh, hlow⟩ := not_surrogate_of_lt (h c List.mem_cons_self)
    rw [JsString.codePoints, hhigh, hlow]
    rfl
  | case3 c d rest hpair =>
    have hhigh := (not_surrogate_of_lt (h c List.mem_cons_self)).1
    rw [hhigh, Bool.false_and] at hpair
    exact absurd hpair (by decide)
  | case4 c d rest _ hsurrogate =>
    obtain ⟨hhigh, hlow⟩ := not_surrogate_of_lt (h c List.mem_cons_self)
    rw [hhigh, hlow] at hsurrogate
    exact absurd hsurrogate (by decide)
  | case5 c d rest hpair hsurrogate ih =>
    rw [JsString.codePoints, if_neg hpair, if_neg hsurrogate,
      ih fun e he => h e (List.mem_cons_of_mem _ he)]
    rfl

lemma encodeURIComponent_of_allAscii (h : AllAscii text) :
    ∃ escaped, encodeURIComponent text = some escaped := by
  have hpoints : ∀ list : List CodeUnit, (list.map fun c => some c.toNat).mapM id =
      some (list.map UInt16.toNat) := by
    intro list
    induction list with
    | nil => rfl
    | cons c rest ih =>
      rw [List.map_cons, List.mapM_cons, ih]
      rfl
  rw [encodeURIComponent, codePoints_of_allAscii h, hpoints]
  exact ⟨_, rfl⟩

end Isomux
