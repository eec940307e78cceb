import Mathlib.Algebra.Order.Ring.Unbundled.Rat
import Isomux.Foundations.Largest
import Isomux.Runtime.LowerCase
import Isomux.Runtime.Maps
import Isomux.SecretProxy.Scrub

set_option autoImplicit false

/-!
# Search in the conversation logs (`src/server/log-search.ts`)

A scan goes through the lines of all sessions, or through the entries of one, and keeps the newest hits.
Two shortcuts make it fast: a line whose lower-case text does not have the lower-case query is not parsed,
when the query is plain, and the buffer of the hits is cut from time to time.

## Main definitions

* `Isomux.LogSource` — what is on the disk.
* `Isomux.LogSearch.canPrefilter`, `Isomux.LogSearch.findMatch` — queries and texts.
* `Isomux.LogSearch.normalizeEntry` — the entries that count.
* `Isomux.LogSearch.reconstructTimeline` — the entries of a session and of those it was forked from.
* `Isomux.LogSearch.searchLogs` — the scan.
-/

namespace Isomux

/-! ## Entries and queries -/

inductive LogKind where
  | text
  | thinking
  | toolCall
  | toolResult
  | error
  | system
  | userMessage
  | apiTokenOutbound
  | agentOutbound
  | diff
  | editRequest
  | terminalCommand
  | secretRequest
  | fileView
  deriving DecidableEq

inductive LogTier where
  | prompts
  | conversation
  | full
  deriving DecidableEq

structure SessionMeta where
  topic : Option JsString
  lastModified : Option ℚ
  forkedFrom : Option JsString
  forkMessageId : Option JsString
  summary : Option JsString

structure ListedSession where
  sessionId : JsString
  mtime : ℚ

structure LogSource where
  listSessions : JsString → List ListedSession
  readSessionsMeta : JsString → JsMap JsString SessionMeta
  readEntries : JsString → JsString → List Json
  streamLines : JsString → JsString → List JsString

/-- `LogQuery`, as far as a search reads it. -/
structure LogQuery where
  q : Option JsString
  regex : Bool
  before : Option ℚ
  after : Option ℚ
  session : Option JsString
  kinds : Option (List LogKind)
  tier : Option LogTier
  limit : ℕ

/-- A compiled pattern: the index and the length of its first match in a text. -/
abbrev RegExp := JsString → Option (ℕ × ℕ)

/-- What the language does: lower case, the value of a number unless it is infinite, and patterns without
regard to case. -/
structure SearchLanguage where
  caseTable : CaseTable
  finiteNumber : NumberLiteral → Option ℚ
  regExp : JsString → Option RegExp

/-- `LogSearchHit`. -/
structure SearchHit where
  sessionId : JsString
  topic : Option JsString
  timestamp : ℚ
  kind : LogKind
  entryId : JsString
  snippet : JsString
  deriving DecidableEq

/-- `LogSummaryHit`. -/
structure SummaryHit where
  sessionId : JsString
  topic : Option JsString
  lastModified : ℚ
  snippet : JsString

/-- `LogSearchResp`. -/
structure SearchResult where
  agentId : JsString
  query : JsString
  regex : Bool
  kinds : Option (List LogKind)
  tier : Option LogTier
  totalMatches : Option ℕ
  matchesFoundBeforeTimeout : Option ℕ
  truncated : Bool
  timedOut : Bool
  results : List SearchHit
  summaryHits : List SummaryHit

namespace LogSearch

/-- `ALL_KINDS`, by their names. -/
def ALL_KINDS : JsMap JsString LogKind :=
  [(js "text", .text), (js "thinking", .thinking), (js "tool_call", .toolCall),
    (js "tool_result", .toolResult), (js "error", .error), (js "system", .system),
    (js "user_message", .userMessage), (js "api_token_outbound", .apiTokenOutbound),
    (js "agent_outbound", .agentOutbound), (js "diff", .diff), (js "edit-request", .editRequest),
    (js "terminal-command", .terminalCommand), (js "secret-request", .secretRequest),
    (js "file-view", .fileView)]

def SNIPPET_RADIUS : ℕ := 120

def MAX_SNIPPET : ℕ := 300

structure NormalizedEntry where
  id : JsString
  timestamp : ℚ
  kind : LogKind
  content : JsString

section

variable (language : SearchLanguage)

def safeTimestamp : Option Json → ℚ
  | some (.number literal) => (language.finiteNumber literal).getD 0
  | _ => 0

def normalizeEntry (raw : Json) : Option NormalizedEntry :=
  match raw.str "id" with
  | none => none
  | some id =>
    if id = [] then none
    else
      match (raw.str "kind").bind (JsMap.get ALL_KINDS) with
      | none => none
      | some kind =>
        some
          { id := id
            timestamp := safeTimestamp language (raw.field "timestamp")
            kind := kind
            content := (raw.str "content").getD [] }

def kindAllowed (kind : LogKind) : Option (List LogKind) → Bool
  | none => true
  | some kinds => kind ∈ kinds

def summaryOf (m : Option SessionMeta) : Option JsString :=
  (m.bind SessionMeta.summary).filter (· ≠ [])

/-! ## Matches -/

def canPrefilter (q : JsString) : Bool :=
  if ((jsonQuote q).drop 1).dropLast ≠ q then false
  else q ≠ [] && q.all fun c => 0x20 ≤ c && c ≤ 0x7E

def findMatch (content q : JsString) (re : Option RegExp) : Option (ℕ × ℕ) :=
  match re with
  | some re => re content
  | none =>
    (indexOf (language.caseTable.toLowerCase content) (language.caseTable.toLowerCase q) 0).map
      fun idx => (idx, q.length)

/-- `text.replace(/\s+/g, " ")`. -/
def collapseSpaces : JsString → JsString
  | [] => []
  | c :: s =>
    if isJsWhitespace c then
      if s.head?.any isJsWhitespace then collapseSpaces s else 32 :: collapseSpaces s
    else c :: collapseSpaces s

/-- `text.trimEnd()`. -/
def trimEnd (s : JsString) : JsString := (s.reverse.dropWhile isJsWhitespace).reverse

def buildSnippet (content : JsString) (matchIndex matchLength : ℕ) : JsString :=
  let start := matchIndex - SNIPPET_RADIUS
  let stop := min content.length (matchIndex + matchLength + SNIPPET_RADIUS)
  let collapsed := (collapseSpaces ((content.take stop).drop start)).trim
  let snippet :=
    if MAX_SNIPPET < collapsed.length then trimEnd (collapsed.take MAX_SNIPPET) else collapsed
  (if 0 < start then js "..." else []) ++ snippet ++ if stop < content.length then js "..." else []

/-! ## Sessions -/

lemma length_unvisited_lt {sessionsMeta : JsMap JsString SessionMeta} {visited : List JsString}
    {current : JsString} {m : SessionMeta} (hget : JsMap.get sessionsMeta current = some m)
    (hnew : current ∉ visited) :
    (sessionsMeta.filter fun e => e.1 ∉ current :: visited).length <
      (sessionsMeta.filter fun e => e.1 ∉ visited).length := by
  have hsplit : (sessionsMeta.filter fun e => e.1 ∉ current :: visited) =
      (sessionsMeta.filter fun e => e.1 ∉ visited).filter fun e => e.1 ≠ current := by
    rw [List.filter_filter]
    refine List.filter_congr fun e _ => ?_
    simp [not_or]
  rw [hsplit]
  refine lt_of_le_of_ne (List.length_filter_le _ _) fun heq => ?_
  have hall := List.length_filter_eq_length_iff.1 heq (current, m)
    (List.mem_filter.2 ⟨JsMap.mem_of_get hget, decide_eq_true hnew⟩)
  exact absurd rfl (of_decide_eq_true hall)

/-- The walk from a session to the one it was forked from, until there is none or it was visited. -/
def forkWalk (sessionsMeta : JsMap JsString SessionMeta) (visited : List JsString) (current : JsString)
    (chain : List (JsString × Option JsString)) : List (JsString × Option JsString) :=
  if _ : current = [] ∨ current ∈ visited then chain
  else
    match _ : JsMap.get sessionsMeta current with
    | none => (current, none) :: chain
    | some m =>
      match m.forkedFrom with
      | none => (current, m.forkMessageId) :: chain
      | some parent =>
        forkWalk sessionsMeta (current :: visited) parent ((current, m.forkMessageId) :: chain)
termination_by (sessionsMeta.filter fun e => e.1 ∉ visited).length
decreasing_by
  rename_i hnew hget
  exact length_unvisited_lt hget fun hmem => hnew (.inr hmem)

def forkChain (sessionId : JsString) (sessionsMeta : JsMap JsString SessionMeta) :
    List (JsString × Option JsString) :=
  forkWalk sessionsMeta [] sessionId []

def isCutoff (cutoffId : Option JsString) (entry : Json) : Bool :=
  match cutoffId with
  | none => (entry.field "id").isNone
  | some cutoff => entry.str "id" = some cutoff

/-- The entries of a chain: those of a session up to the fork of the next one. -/
def chainEntries (entries : JsString → List Json) : List (JsString × Option JsString) → List Json
  | [] => []
  | [(sessionId, _)] => entries sessionId
  | (sessionId, _) :: next :: chain =>
    (entries sessionId).takeWhile (fun entry => !isCutoff next.2 entry) ++
      chainEntries entries (next :: chain)

def reconstructTimeline (source : LogSource) (agentId sessionId : JsString) : List Json :=
  chainEntries (source.readEntries agentId) (forkChain sessionId (source.readSessionsMeta agentId))

def recency (sessionsMeta : JsMap JsString SessionMeta) (s : ListedSession) : ℚ :=
  ((JsMap.get sessionsMeta s.sessionId).bind SessionMeta.lastModified).getD s.mtime

/-- The summary or the topic of a session, when it matches. -/
def summaryHit (sessionsMeta : JsMap JsString SessionMeta) (q : JsString) (re : Option RegExp)
    (query : LogQuery) (s : ListedSession) : Option SummaryHit :=
  let m := JsMap.get sessionsMeta s.sessionId
  let lastModified := recency sessionsMeta s
  if query.after.any (lastModified < ·) then none
  else if query.before.any (· < lastModified) then none
  else
    let topic := m.bind SessionMeta.topic
    match (summaryOf m).bind fun summary =>
        (findMatch language summary q re).map fun found => buildSnippet summary found.1 found.2 with
    | some snippet => some ⟨s.sessionId, topic, lastModified, snippet⟩
    | none =>
      match topic with
      | none => none
      | some text =>
        if (findMatch language text q re).isSome then some ⟨s.sessionId, topic, lastModified, text⟩
        else none

def matchSummaries (sessions : List ListedSession) (sessionsMeta : JsMap JsString SessionMeta)
    (q : JsString) (re : Option RegExp) (query : LogQuery) : List SummaryHit :=
  Largest.cut SummaryHit.lastModified query.limit
    (sessions.filterMap (summaryHit language sessionsMeta q re query))

/-! ## The scan -/

/-- The state of the scan, with the number of looks at the clock. -/
structure Scan where
  hits : List SearchHit
  totalMatches : ℕ
  looks : ℕ
  timedOut : Bool

def Scan.start : Scan := ⟨[], 0, 0, false⟩

/-- A hit is counted and pushed, and a large buffer is cut. -/
def Scan.push (limit : ℕ) (scan : Scan) (hit : SearchHit) : Scan :=
  let hits := scan.hits ++ [hit]
  { scan with
    totalMatches := scan.totalMatches + 1
    hits := if max (limit * 8) 200 ≤ hits.length then Largest.cut SearchHit.timestamp limit hits else hits }

variable (sessionsMeta : JsMap JsString SessionMeta) (q : JsString) (re : Option RegExp)
  (query : LogQuery)

/-- The hit that `consider` makes of an entry. -/
def findHit (raw : Json) (sessionId : JsString) : Option SearchHit :=
  match normalizeEntry language raw with
  | none => none
  | some entry =>
    if !kindAllowed entry.kind query.kinds then none
    else if query.after.any (entry.timestamp < ·) then none
    else if query.before.any (· < entry.timestamp) then none
    else
      (findMatch language entry.content q re).map fun found =>
        { sessionId := sessionId
          topic := (JsMap.get sessionsMeta sessionId).bind SessionMeta.topic
          timestamp := entry.timestamp
          kind := entry.kind
          entryId := entry.id
          snippet := buildSnippet entry.content found.1 found.2 }

def consider (scan : Scan) (raw : Json) (sessionId : JsString) : Scan :=
  match findHit language sessionsMeta q re query raw sessionId with
  | none => scan
  | some hit => scan.push query.limit hit

def scanLine (prefiltered : Option JsString) (scan : Scan) (line sessionId : JsString) : Scan :=
  if line = [] then scan
  else if prefiltered.any fun p => (indexOf (language.caseTable.toLowerCase line) p 0).isNone then scan
  else
    match Json.parse line with
    | none => scan
    | some entry =>
      if (entry.str "id").isNone then scan
      else consider language sessionsMeta q re query scan entry sessionId

/-- What is done with each item, until the time is over. -/
def untilLate {ι : Type} (late : ℕ → Bool) (visit : Scan → ι → Scan) (scan : Scan) (i : ι) : Scan :=
  if scan.timedOut then scan
  else if late scan.looks then { scan with timedOut := true }
  else visit { scan with looks := scan.looks + 1 } i

/-- The scan of one session, with its ancestors. -/
def scanTimeline (source : LogSource) (agentId : JsString) (late : ℕ → Bool) (session : JsString) : Scan :=
  (reconstructTimeline source agentId session).foldl
    (untilLate late fun scan entry => consider language sessionsMeta q re query scan entry session)
    Scan.start

/-- The scan of all sessions, the newest first. -/
def scanSessions (source : LogSource) (agentId : JsString) (late : ℕ → Bool) : Scan :=
  let prefiltered :=
    if re.isNone && canPrefilter q then some (language.caseTable.toLowerCase q) else none
  let ordered := Largest.sorted (recency sessionsMeta) (source.listSessions agentId)
  (ordered.flatMap fun s => (source.streamLines agentId s.sessionId).map fun line => (line, s.sessionId)).foldl
    (untilLate late fun scan line =>
      scanLine language sessionsMeta q re query prefiltered scan line.1 line.2)
    Scan.start

end

/-- `searchLogs`. The clock says at each look whether the time is over. -/
def searchLogs (language : SearchLanguage) (source : LogSource) (agentId : JsString) (query : LogQuery)
    (late : ℕ → Bool) : SearchResult :=
  let q := query.q.getD []
  let re := if query.regex then language.regExp q else none
  let sessionsMeta := source.readSessionsMeta agentId
  let sessions := source.listSessions agentId
  let summaryHits := matchSummaries language
    (match query.session with
      | none => sessions
      | some session => sessions.filter fun s => s.sessionId = session)
    sessionsMeta q re query
  let scan := match query.session with
    | some session => scanTimeline language sessionsMeta q re query source agentId late session
    | none => scanSessions language sessionsMeta q re query source agentId late
  let results := Largest.cut SearchHit.timestamp query.limit scan.hits
  { agentId := agentId
    query := q
    regex := query.regex
    kinds := query.kinds
    tier := query.tier
    totalMatches := if scan.timedOut then none else some scan.totalMatches
    matchesFoundBeforeTimeout := if scan.timedOut then some scan.totalMatches else none
    truncated := results.length < scan.totalMatches
    timedOut := scan.timedOut
    results := results
    summaryHits := summaryHits }

end LogSearch

end Isomux
