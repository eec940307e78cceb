import Isomux.Runtime.JsonText
import Isomux.Runtime.Values
import Mathlib.Algebra.Order.Ring.Unbundled.Rat
import Mathlib.Data.List.Lex
import Mathlib.Data.List.Sort

set_option autoImplicit false

/-!
# The elevator panel

A browser keeps the offices it rode to or from, the offices its member removed, and the floors each
visited office had at the last visit. Every office merges the panel that arrives with a ride into
the panel it has. Nothing that arrives is trusted: it is read field by field, and brought to a normal
form.

The URL parser of the runtime is a parameter.

## Main definitions

* `Isomux.Panel` — visits, removals and snapshots.
* `Isomux.normaliseFloorUrl`, `Isomux.isOrigin` — the URLs a panel may hold.
* `Isomux.normalise` — the normal form.
* `Isomux.sanitisePanel`, `Isomux.mergePanels` — a panel from a value, and from two panels.
-/

namespace Isomux

/-- An office this browser rode to or from. -/
@[ext] structure PanelVisit where
  url : JsString
  addedAt : ℚ
  deriving DecidableEq

/-- An office the member removed from the panel. -/
@[ext] structure PanelRemoval where
  url : JsString
  «at» : ℚ
  deriving DecidableEq

/-- The floors an office had when this browser last loaded it. -/
structure PanelSnapshot where
  origin : JsString
  rev : ℚ
  floors : List JsString
  deriving DecidableEq

structure Panel where
  visited : List PanelVisit
  removed : List PanelRemoval
  snapshots : List PanelSnapshot
  deriving DecidableEq

def REMOVAL_TTL_MS : ℚ := 180 * 24 * 60 * 60 * 1000

def MAX_FLOORS : ℕ := 100

def MAX_FLOOR_URL_CHARS : ℕ := 2048

def MAX_SNAPSHOTS : ℕ := 20

def MAX_PANEL_BUTTONS : ℕ := 200

def MAX_PANEL_REMOVALS : ℕ := MAX_FLOORS

/-! ## Origins -/

/-- What `new URL(text)` makes of a text. -/
structure ParsedUrl where
  protocol : JsString
  username : JsString
  password : JsString
  hostname : JsString
  origin : JsString

def isLetter (c : CodeUnit) : Bool := (65 ≤ c && c ≤ 90) || (97 ≤ c && c ≤ 122)

def isDigit (c : CodeUnit) : Bool := 48 ≤ c && c ≤ 57

/-- A code unit behind the first one of a scheme: a letter, a digit or one of `+.-`. -/
def isSchemeUnit (c : CodeUnit) : Bool := isLetter c || isDigit c || c == 43 || c == 46 || c == 45

/-- `/^[a-z][a-z0-9+.-]*:(?!\d)/i`: a name and a colon that is not followed by a digit. -/
def hasScheme (text : JsString) : Bool :=
  let behind := (text.drop 1).dropWhile isSchemeUnit
  text.head?.any isLetter && behind.head? == some 58 && !(behind.drop 1).head?.any isDigit

section

variable (parseUrl : JsString → Option ParsedUrl)

/-- The origin of the address that a member typed, or nothing. -/
def normaliseFloorUrl (input : JsString) : Option JsString :=
  if MAX_FLOOR_URL_CHARS < input.length then none
  else
    let text := input.trim
    if text = [] then none
    else
      let withScheme := if hasScheme text then text else js "https://" ++ text
      match parseUrl withScheme with
      | none => none
      | some url =>
        if url.protocol ≠ js "http:" ∧ url.protocol ≠ js "https:" then none
        else if url.username ≠ [] ∨ url.password ≠ [] ∨ url.hostname = [] then none
        else some url.origin

/-- The string that a value is, when it is its own origin. -/
def isOrigin (url : JsValue) : Option JsString :=
  match url with
  | .string s => if normaliseFloorUrl parseUrl s = some s then some s else none
  | _ => none

end

/-- A time that is a finite number and not negative, clamped to now. -/
def timeOf (raw : JsValue) (now : ℕ) : Option ℚ :=
  match raw with
  | .number n => if n < 0 then none else some (min n now)
  | _ => none

/-! ## Orders -/

/-- The sign of `a - b`, or what `a < b` and `a > b` say of two strings. -/
def signOf {α : Type} [LinearOrder α] (a b : α) : Ordering :=
  if a < b then .lt else if b < a then .gt else .eq

def JsString.units (s : JsString) : List ℕ := s.map UInt16.toNat

def byUrl (a b : JsString) : Ordering := signOf a.units b.units

/-- Visits go by their time, then by their URL. -/
def visitOrder (a b : PanelVisit) : Ordering :=
  (signOf a.addedAt b.addedAt).then (byUrl a.url b.url)

/-- Removals go by their time, then by their URL. -/
def removalOrder (a b : PanelRemoval) : Ordering :=
  (signOf a.at b.at).then (byUrl a.url b.url)

/-- Snapshots go by their time, then by the JSON texts of their floors, then by their office. -/
def snapshotOrder (a b : PanelSnapshot) : Ordering :=
  (signOf a.rev b.rev).then
    ((byUrl (jsonStrings a.floors) (jsonStrings b.floors)).then (byUrl a.origin b.origin))

/-- `list.slice(-n)` for a positive `n`: the last `n` items. -/
def sliceLast {α : Type} (n : ℕ) (list : List α) : List α := list.drop (list.length - n)

/-! ## The normal form -/

/-- The latest removal of each URL that is not too old. -/
def latestRemovals (removals : List PanelRemoval) (now : ℕ) : JsMap JsString ℚ :=
  removals.foldl (fun removedAt r =>
    if r.at < now - REMOVAL_TTL_MS then removedAt
    else if (JsMap.get removedAt r.url).getD (-1) < r.at then JsMap.set removedAt r.url r.at
    else removedAt) []

/-- The first visit of each URL that is not older than the removal. -/
def firstVisits (visits : List PanelVisit) (removed : List PanelRemoval) : JsMap JsString ℚ :=
  let latest : JsMap JsString ℚ := removed.map fun r => (r.url, r.at)
  visits.foldl (fun first v =>
    if v.addedAt < (JsMap.get latest v.url).getD (-1) then first
    else
      match JsMap.get first v.url with
      | none => JsMap.set first v.url v.addedAt
      | some addedAt => if v.addedAt < addedAt then JsMap.set first v.url v.addedAt else first) []

/-- The newest snapshot of each office that is a visit. -/
def newestSnapshots (snapshots : List PanelSnapshot) (visited : List PanelVisit) :
    JsMap JsString PanelSnapshot :=
  snapshots.foldl (fun newest snap =>
    if visited.all (·.url ≠ snap.origin) then newest
    else
      match JsMap.get newest snap.origin with
      | none => JsMap.set newest snap.origin snap
      | some kept =>
        if snapshotOrder kept snap = .lt then JsMap.set newest snap.origin snap else newest) []

/-- The normal form of visits, removals and snapshots that may hold duplicates: per URL the latest
removal, and the first visit that is not older than it; per office the newest snapshot, kept only
while the office is a visit. Then the caps, the oldest dropped first. -/
def normalise (visits : List PanelVisit) (removals : List PanelRemoval)
    (snapshots : List PanelSnapshot) (now : ℕ) : Panel :=
  let removed := sliceLast MAX_PANEL_REMOVALS
    (((latestRemovals removals now).map fun e => (⟨e.1, e.2⟩ : PanelRemoval)).mergeSort
      fun a b => (removalOrder a b).isLE)
  let visited := sliceLast MAX_PANEL_BUTTONS
    (((firstVisits visits removed).map fun e => (⟨e.1, e.2⟩ : PanelVisit)).mergeSort
      fun a b => (visitOrder a b).isLE)
  let kept := sliceLast MAX_SNAPSHOTS
    (((newestSnapshots snapshots visited).map Prod.snd).mergeSort
      fun a b => (snapshotOrder a b).isLE)
  { visited := visited
    removed := removed
    snapshots := kept.map fun snap => { snap with floors := snap.floors.take MAX_FLOORS } }

/-! ## Reading and merging -/

section

variable (parseUrl : JsString → Option ParsedUrl)

/-- The visits of a value that are in order. -/
def readVisits (raw : JsValue) (now : ℕ) : List PanelVisit :=
  raw.items.filterMap fun f =>
    match isOrigin parseUrl (f.field "url"), timeOf (f.field "addedAt") now with
    | some url, some addedAt => some ⟨url, addedAt⟩
    | _, _ => none

/-- The removals of a value that are in order. -/
def readRemovals (raw : JsValue) (now : ℕ) : List PanelRemoval :=
  raw.items.filterMap fun f =>
    match isOrigin parseUrl (f.field "url"), timeOf (f.field "at") now with
    | some url, some at' => some ⟨url, at'⟩
    | _, _ => none

/-- The snapshots of a value that are in order, each floor once. -/
def readSnapshots (raw : JsValue) (now : ℕ) : List PanelSnapshot :=
  raw.items.filterMap fun f =>
    match isOrigin parseUrl (f.field "origin"), timeOf (f.field "rev") now, f.field "floors" with
    | some origin, some rev, .array floors =>
      some ⟨origin, rev, (floors.filterMap (isOrigin parseUrl)).eraseDups⟩
    | _, _, _ => none

/-- A panel from storage or a ride: what is not a panel reads as an empty one. -/
def sanitisePanel (raw : JsValue) (now : ℕ) : Panel :=
  normalise (readVisits parseUrl (raw.field "visited") now)
    (readRemovals parseUrl (raw.field "removed") now)
    (readSnapshots parseUrl (raw.field "snapshots") now) now

def PanelVisit.value (v : PanelVisit) : JsValue :=
  .object [("url", .string v.url), ("addedAt", .number v.addedAt)]

def PanelRemoval.value (r : PanelRemoval) : JsValue :=
  .object [("url", .string r.url), ("at", .number r.at)]

def PanelSnapshot.value (s : PanelSnapshot) : JsValue :=
  .object [("origin", .string s.origin), ("rev", .number s.rev),
    ("floors", .array (s.floors.map .string))]

/-- The merge of two panels: the normal form of what both hold. -/
def mergePanels (a b : Panel) (now : ℕ) : Panel :=
  sanitisePanel parseUrl
    (.object [
      ("visited", .array ((a.visited ++ b.visited).map PanelVisit.value)),
      ("removed", .array ((a.removed ++ b.removed).map PanelRemoval.value)),
      ("snapshots", .array ((a.snapshots ++ b.snapshots).map PanelSnapshot.value))]) now

end

end Isomux
