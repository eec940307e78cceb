import Mathlib.Data.Rat.Floor
import Isomux.Foundations.FileTree
import Isomux.Runtime.Json
import Isomux.Runtime.Maps

set_option autoImplicit false

/-!
# Pruning of the history on disk

A plan says which files a policy would delete, and counts what it spares under the first reason that
spares it. A plan is applied by planning again with the policy it names, and by deleting what both plans
have. Nothing else happens to the files while a plan is made or applied, but anything may happen to them
between the two. Times and sizes are exact numbers.

## Main definitions

* `Isomux.OfficeFiles` — the files of the machine.
* `Isomux.sessionIdOfTranscript`, `Isomux.resolveCandidatePath` — names and paths.
* `Isomux.Prune.planTranscripts`, `Isomux.Prune.planAttachments`, `Isomux.Prune.planTokenLogs`,
  `Isomux.Prune.planTerminalRecordings`, `Isomux.Prune.planPruneDetailed` — plans.
* `Isomux.Prune.applyPrune` — the deletion.
-/

namespace Isomux

/-! ## Files and paths -/

/-- A file: its bytes, its time of modification, and whether it can be read. -/
structure LogFile where
  bytes : Buffer
  mtimeMs : ℚ
  readable : Bool

variable (name : JsString)

def IsFileName : Prop := name ≠ [] ∧ name ≠ js "." ∧ name ≠ js ".." ∧ 47 ∉ name

/-- The files of a machine, by their real paths. -/
structure OfficeFiles where
  tree : List (List JsString × FileTree.Node JsString LogFile)
  nodup : (tree.map Prod.fst).Nodup
  names : ∀ e ∈ tree, e.1 ≠ [] ∧ ∀ name ∈ e.1, IsFileName name

/-- What the system does: how many links it follows on a path, what it unzips, and with which message it
refuses to delete a file. -/
structure FileSystem where
  links : ℕ
  gunzip : Buffer → Option Buffer
  refusal : List JsString → Option JsString

def OfficeFiles.unlink (files : OfficeFiles) (place : List JsString) : OfficeFiles where
  tree := FileTree.unlink files.tree place
  nodup := (List.filter_sublist.map Prod.fst).nodup files.nodup
  names := fun e he => files.names e (List.mem_filter.1 he).1

def COMPRESSED_TRANSCRIPT_SUFFIX : JsString := js ".jsonl.gz"

def TRANSCRIPT_SUFFIX : JsString := js ".jsonl"

def isSafeIdUnit (c : CodeUnit) : Bool :=
  (65 ≤ c && c ≤ 90) || (97 ≤ c && c ≤ 122) || (48 ≤ c && c ≤ 57) || c = 46 || c = 95 || c = 45

def isSafeId (id : JsString) : Bool :=
  !(id.length = 0 || 128 < id.length) && id ≠ js "." && id ≠ js ".." && id.all isSafeIdUnit

/-- `sessionIdOfTranscript`: the id, and whether the file is compressed. -/
def sessionIdOfTranscript : Option (JsString × Bool) :=
  if COMPRESSED_TRANSCRIPT_SUFFIX.isSuffixOf name then
    let sessionId := name.take (name.length - COMPRESSED_TRANSCRIPT_SUFFIX.length)
    if isSafeId sessionId then some (sessionId, true) else none
  else if TRANSCRIPT_SUFFIX.isSuffixOf name then
    let sessionId := name.take (name.length - TRANSCRIPT_SUFFIX.length)
    if isSafeId sessionId then some (sessionId, false) else none
  else none

variable (path : List JsString)

/-- One more segment of a path, as `join` and `resolve` take it. -/
def pathStep (segment : JsString) : List JsString :=
  if segment = [] ∨ segment = js "." then path
  else if segment = js ".." then path.dropLast
  else path ++ [segment]

/-- `resolve`, from an absolute path on. -/
def resolvePath (base : List JsString) (relative : JsString) : List JsString :=
  (relative.splitOn 47).foldl pathStep base

def pathText : JsString :=
  if path = [] then js "/" else path.flatMap fun segment => 47 :: segment

def resolveCandidatePath (logsDir : List JsString) (relative : JsString) : Option (List JsString) :=
  if relative = [] || relative.head? = some 47 || relative.head? = some 92 then none
  else
    let target := resolvePath logsDir relative
    if logsDir ≠ [] && logsDir.isPrefixOf target && target ≠ logsDir then some target else none

namespace Prune

/-! ## Plans -/

inductive PruneTarget where
  | transcripts
  | attachments
  | tokenLogs
  | terminalRecordings
  deriving DecidableEq

structure PrunePolicy where
  olderThanDays : ℚ
  keepPerAgent : ℚ

structure PruneCandidate where
  path : JsString
  bytes : ℕ
  agentId : JsString
  sessionId : Option JsString
  ageDays : ℚ
  mtimeMs : ℚ

inductive PruneSkipReason where
  | tooRecent
  | keepNewest
  | activeSession
  | forkAncestor
  | referenced
  | queueStateUnknown
  | liveRecording
  deriving DecidableEq

def PruneSkipReason.text : PruneSkipReason → JsString
  | tooRecent => js "too-recent"
  | keepNewest => js "keep-newest"
  | activeSession => js "active-session"
  | forkAncestor => js "fork-ancestor"
  | referenced => js "referenced"
  | queueStateUnknown => js "queue-state-unknown"
  | liveRecording => js "live-recording"

structure PruneSkip where
  reason : PruneSkipReason
  count : ℕ
  bytes : ℕ

structure PrunePlan where
  target : PruneTarget
  policy : PrunePolicy
  candidates : List PruneCandidate
  bytes : ℕ
  skipped : List PruneSkip

/-- What pruning needs of a session's entry. -/
structure SessionMeta where
  forkedFrom : Option JsString

/-- What pruning is given. The three directories lie in the state root. -/
structure PruneDeps where
  stateRoot : List JsString
  liveTerminalRecordingIds : List JsString
  now : ℚ
  activeSessionIds : List JsString
  killedAgentIds : List JsString
  loadSessionsMap : JsString → JsMap JsString SessionMeta
  queuedAttachments : JsString → Option (List JsString)

def PruneDeps.logsDir (deps : PruneDeps) : List JsString := deps.stateRoot ++ [js "logs"]

def PruneDeps.tokenLogsDir (deps : PruneDeps) : List JsString := deps.stateRoot ++ [js "token-logs"]

/-- The directory of the terminal recordings. -/
def PruneDeps.terminalRecordingsDir (deps : PruneDeps) : List JsString :=
  deps.stateRoot ++ [js "terminal-recordings"]

def DAY_MS : ℚ := 24 * 60 * 60 * 1000

variable (target : PruneTarget)

def targetRoot (deps : PruneDeps) : List JsString :=
  match target with
  | .tokenLogs => deps.tokenLogsDir
  | .terminalRecordings => deps.terminalRecordingsDir
  | _ => deps.logsDir

/-- The counts of what is spared, and the reason of every path. -/
structure SkipLedger where
  totals : JsMap PruneSkipReason PruneSkip
  byPath : JsMap JsString PruneSkipReason

def newLedger : SkipLedger := ⟨[], []⟩

variable (ledger : SkipLedger)

def addSkip (relPath : JsString) (reason : PruneSkipReason) (bytes : ℕ) : SkipLedger :=
  let entry := (ledger.totals.get reason).getD ⟨reason, 0, 0⟩
  ⟨ledger.totals.set reason ⟨reason, entry.count + 1, entry.bytes + bytes⟩,
    ledger.byPath.set relPath reason⟩

def SKIP_ORDER : List PruneSkipReason :=
  [.queueStateUnknown, .activeSession, .liveRecording, .keepNewest, .forkAncestor, .referenced,
    .tooRecent]

def finishPlan (policy : PrunePolicy) (candidates : List PruneCandidate)
    (ledger : SkipLedger) : PrunePlan where
  target := target
  policy := policy
  candidates := candidates.mergeSort fun a b => b.bytes ≤ a.bytes
  bytes := (candidates.map (·.bytes)).sum
  skipped := SKIP_ORDER.filterMap ledger.totals.get

/-- The candidates and the ledger of a plan that is being made. -/
abbrev Draft := List PruneCandidate × SkipLedger

/-- A file is spared for a reason, or is a candidate. -/
def draftFile (draft : Draft) (reason : Option PruneSkipReason) (candidate : PruneCandidate) : Draft :=
  match reason with
  | some reason => (draft.1, addSkip draft.2 candidate.path reason candidate.bytes)
  | none => (draft.1 ++ [candidate], draft.2)

section Plans

variable (sys : FileSystem) (files : OfficeFiles) (deps : PruneDeps) (policy : PrunePolicy)

variable (path : List JsString)

/-- `lstatSync`, of a file. -/
def lstatFile : Option LogFile :=
  match FileTree.lstat files.tree sys.links path with
  | some (_, .file file) => some file
  | _ => none

/-- Whether `lstatSync` finds a directory. -/
def isRealDir : Bool :=
  match FileTree.lstat files.tree sys.links path with
  | some (_, .directory _) => true
  | _ => false

/-- `readdirSync` with the types of the entries. -/
def readdirSync : Option (List (JsString × FileTree.Node JsString LogFile)) :=
  FileTree.readdir files.tree sys.links path

def isFile (entry : JsString × FileTree.Node JsString LogFile) : Bool :=
  match entry.2 with
  | .file _ => true
  | _ => false

def isDirectory (entry : JsString × FileTree.Node JsString LogFile) : Bool :=
  match entry.2 with
  | .directory _ => true
  | _ => false

def listAgentDirs : List JsString :=
  (((readdirSync sys files deps.logsDir).getD []).filter fun d =>
    isDirectory d && (js "agent-").isPrefixOf d.1).map Prod.fst

/-- The files of a session: the name of the one that a plan names, and what they are together. -/
structure SessionFile where
  sessionId : JsString
  name : JsString
  size : ℕ
  mtime : ℚ

def addForm (bySession : JsMap JsString SessionFile) (name sessionId : JsString) (compressed : Bool)
    (stat : LogFile) : JsMap JsString SessionFile :=
  let seen := bySession.get sessionId
  bySession.set sessionId
    { sessionId := sessionId
      name := match seen with
        | some file => if compressed then file.name else name
        | none => name
      size := ((seen.map (·.size)).getD 0) + stat.bytes.length
      mtime := max ((seen.map (·.mtime)).getD 0) stat.mtimeMs }

/-- The sessions of the names in an agent's directory. -/
def groupSessions (agentDir : List JsString) (names : List JsString) : JsMap JsString SessionFile :=
  names.foldl (fun bySession name =>
    match sessionIdOfTranscript name, lstatFile sys files (agentDir ++ [name]) with
    | some (sessionId, compressed), some stat => addForm bySession name sessionId compressed stat
    | _, _ => bySession) []

variable (agentId : JsString)

/-- The sessions of an agent, newest first. -/
def sessionFiles : List SessionFile :=
  let agentDir := deps.logsDir ++ [agentId]
  let names := (((readdirSync sys files agentDir).getD []).filter fun d =>
    isFile d && (sessionIdOfTranscript d.1).isSome).map Prod.fst
  ((groupSessions sys files agentDir names).map Prod.snd).mergeSort fun a b => b.mtime ≤ a.mtime

/-- The sessions that others were forked from. -/
def forkAncestors : List JsString :=
  (deps.loadSessionsMap agentId).filterMap fun e => e.2.forkedFrom.filter (· ≠ [])

/-- The first reason to spare a session of an agent, at its place among the sessions. -/
def spareTranscript (file : SessionFile) (index : ℕ) : Option PruneSkipReason :=
  let keepNewest := if deps.killedAgentIds.contains agentId then 0 else policy.keepPerAgent
  if deps.activeSessionIds.contains file.sessionId then some .activeSession
  else if (index : ℚ) < keepNewest then some .keepNewest
  else if (forkAncestors deps agentId).contains file.sessionId then some .forkAncestor
  else if deps.now - policy.olderThanDays * DAY_MS < file.mtime then some .tooRecent
  else none

/-- `join`, of names in a directory. -/
def joinNames (agentId name : JsString) : JsString := agentId ++ 47 :: name

def transcriptCandidate (file : SessionFile) : PruneCandidate :=
  ⟨joinNames agentId file.name, file.size, agentId, some file.sessionId,
    ⌊(deps.now - file.mtime) / DAY_MS⌋, file.mtime⟩

variable (ledger : SkipLedger)

def planTranscripts : PrunePlan × SkipLedger :=
  let draft := (listAgentDirs sys files deps).foldl (fun draft agentId =>
    (sessionFiles sys files deps agentId).zipIdx.foldl (fun draft e =>
      draftFile draft (spareTranscript deps policy agentId e.1 e.2)
        (transcriptCandidate deps agentId e.1)) draft) ([], ledger)
  (finishPlan .transcripts policy draft.1 draft.2, draft.2)

/-! ### Attachments -/

/-- The rest of a string of JSON, up to its quotation mark. A backslash goes with any unit that is no
line terminator. -/
def takeQuoted : JsString → JsString → Option (JsString × JsString)
  | _, [] => none
  | taken, c :: rest =>
    if c = 34 then some (taken, rest)
    else if c = 92 then
      match rest with
      | [] => none
      | d :: rest =>
        if d = 10 || d = 13 || d = 0x2028 || d = 0x2029 then none
        else takeQuoted (taken ++ [92, d]) rest
    else takeQuoted (taken ++ [c]) rest

/-- `FILENAME_REF`, at the start of a text: what it captures, and the text behind the match. -/
def matchFilenameRef (text : JsString) : Option (JsString × JsString) :=
  let key := js "\"filename\""
  if key.isPrefixOf text then
    match (text.drop key.length).dropWhile isJsWhitespace with
    | 58 :: rest =>
      match rest.dropWhile isJsWhitespace with
      | 34 :: rest => takeQuoted [] rest
      | _ => none
    | _ => none
  else none

/-- `matchAll` of `FILENAME_REF`, in a text of so many units. -/
def filenameRefs : ℕ → JsString → List JsString
  | 0, _ => []
  | _, [] => []
  | n + 1, c :: rest =>
    match matchFilenameRef (c :: rest) with
    | some (name, behind) => name :: filenameRefs n behind
    | none => filenameRefs n rest

variable (name : JsString)

/-- A name as the log has it, and as its JSON is read. -/
def refNames : List JsString :=
  name :: match Json.parse (34 :: name ++ [34]) with
    | some (.string decoded) => [decoded]
    | _ => []

/-- `readTranscriptSync`. -/
def readTranscript (file : LogFile) (compressed : Bool) : Option JsString :=
  if !file.readable then none
  else if compressed then (sys.gunzip file.bytes).map Buffer.toUtf8String
  else some file.bytes.toUtf8String

/-- `referencedAttachments`. There is none when a transcript cannot be read. -/
def referencedAttachments (agentDir : List JsString) : Option (List JsString) :=
  ((readdirSync sys files agentDir).getD []).foldl (fun referenced entry =>
    match referenced, entry.2, sessionIdOfTranscript entry.1 with
    | some names, .file file, some (_, compressed) =>
      (readTranscript sys file compressed).map fun raw =>
        names ++ (filenameRefs raw.length raw).flatMap refNames
    | _, _, _ => referenced) (some [])

def spareAttachment (agentId name : JsString) (mtimeMs : ℚ) : Option PruneSkipReason :=
  match deps.queuedAttachments agentId with
  | none => some .queueStateUnknown
  | some queued =>
    match referencedAttachments sys files (deps.logsDir ++ [agentId]) with
    | none => some .referenced
    | some referenced =>
      if (referenced ++ queued).contains name then some .referenced
      else if deps.now - policy.olderThanDays * DAY_MS < mtimeMs then some .tooRecent
      else none

def planAttachments : PrunePlan × SkipLedger :=
  let draft := (listAgentDirs sys files deps).foldl (fun draft agentId =>
    let filesDir := deps.logsDir ++ [agentId, js "files"]
    if !isRealDir sys files filesDir then draft
    else ((readdirSync sys files filesDir).getD []).foldl (fun draft entry =>
      match entry.2, lstatFile sys files (filesDir ++ [entry.1]) with
      | .file _, some stat =>
        draftFile draft (spareAttachment sys files deps policy agentId entry.1 stat.mtimeMs)
          ⟨joinNames agentId (joinNames (js "files") entry.1), stat.bytes.length, agentId, none,
            ⌊(deps.now - stat.mtimeMs) / DAY_MS⌋, stat.mtimeMs⟩
      | _, _ => draft) draft) ([], ledger)
  (finishPlan .attachments policy draft.1 draft.2, draft.2)

/-! ### Token logs and terminal recordings -/

def isLowerHex (c : CodeUnit) : Bool := (48 ≤ c && c ≤ 57) || (97 ≤ c && c ≤ 102)

/-- The name of a token log, also of a quarantined one. -/
def isTokenLogName : Bool :=
  let rest := name.drop 16
  let quarantined := rest.drop (js ".jsonl").length
  let digits := quarantined.drop (js ".corrupt-").length
  16 ≤ name.length && (name.take 16).all isLowerHex && (js ".jsonl").isPrefixOf rest &&
    (quarantined = [] || ((js ".corrupt-").isPrefixOf quarantined && digits ≠ [] &&
      digits.all fun c => 48 ≤ c && c ≤ 57))

/-- The id of a terminal recording, from its name. -/
def recordingId : Option JsString :=
  if (js "tr-").isPrefixOf name && name.length = 24 && ((name.drop 3).take 16).all isLowerHex &&
      name.drop 19 = js ".cast" then
    some (name.take 19)
  else none

variable (target : PruneTarget)

/-- The files of a directory that is pruned by age. -/
def planByAge (isLog : JsString → Bool) (isLive : JsString → Bool)
    (ledger : SkipLedger) : PrunePlan × SkipLedger :=
  let root := targetRoot target deps
  let names := if isRealDir sys files root then
    ((readdirSync sys files root).getD []).map Prod.fst else []
  let draft := names.foldl (fun draft name =>
    if !isLog name then draft
    else match lstatFile sys files (root ++ [name]) with
      | none => draft
      | some stat =>
        let ageDays := (deps.now - stat.mtimeMs) / DAY_MS
        draftFile draft
          (if isLive name then some .liveRecording
          else if ageDays < policy.olderThanDays then some .tooRecent else none)
          ⟨name, stat.bytes.length, [], none, ageDays, stat.mtimeMs⟩) ([], ledger)
  (finishPlan target policy draft.1 draft.2, draft.2)

def planTokenLogs : PrunePlan × SkipLedger :=
  planByAge sys files deps policy .tokenLogs isTokenLogName (fun _ => false) ledger

/-- `planTerminalRecordings`. A recording that is still written is spared whatever its age. -/
def planTerminalRecordings : PrunePlan × SkipLedger :=
  planByAge sys files deps policy .terminalRecordings (fun name => (recordingId name).isSome)
    (fun name => (recordingId name).any fun id => deps.liveTerminalRecordingIds.contains id) ledger

def planPruneDetailed : PrunePlan × SkipLedger :=
  match target with
  | .tokenLogs => planTokenLogs sys files deps policy newLedger
  | .terminalRecordings => planTerminalRecordings sys files deps policy newLedger
  | .transcripts => planTranscripts sys files deps policy newLedger
  | .attachments => planAttachments sys files deps policy newLedger

def planPrune : PrunePlan := (planPruneDetailed sys files deps policy target).1

end Plans

/-! ## The deletion -/

structure PruneResult where
  deleted : ℕ
  bytes : ℕ
  refused : List (JsString × JsString)
  aborted : Option JsString

section Apply

variable (sys : FileSystem) (files : OfficeFiles)

/-- `unlinkSync`, of a file. -/
def unlinkSync (path : List JsString) : Except JsString OfficeFiles :=
  match FileTree.lstat files.tree sys.links path with
  | some (place, .file _) =>
    match sys.refusal place with
    | some message => .error message
    | none => .ok (files.unlink place)
  | _ => .error (js "ENOENT")

/-- The name of the other form of a session's file. -/
def twinName : JsString :=
  if COMPRESSED_TRANSCRIPT_SUFFIX.isSuffixOf name then name.take (name.length - (js ".gz").length)
  else name ++ js ".gz"

def unlinkTranscriptTwin (abs : List JsString) : OfficeFiles :=
  let twin := abs.dropLast ++ [twinName (abs.getLastD [])]
  match lstatFile sys files twin with
  | none => files
  | some _ =>
    match unlinkSync sys files twin with
    | .ok files => files
    | .error _ => files

def parentInsideLogsRoot (realLogsRoot absCandidate : List JsString) : Bool :=
  match FileTree.realpath files.tree sys.links absCandidate.dropLast with
  | some realParent => realLogsRoot.isPrefixOf realParent
  | none => false

/-- The parents of a path are directories, one behind the other. -/
def noSymlinks (files : OfficeFiles) : List JsString → List JsString → Bool
  | _, [] => true
  | reached, part :: parts =>
    let reached := pathStep reached part
    isRealDir sys files reached && noSymlinks files reached parts

def noSymlinkParents (logsRoot : List JsString) (relPath : JsString) : Bool :=
  let parts := (relPath.splitOnP fun c => c == 47 || c == 92).filter (· ≠ [])
  !parts.isEmpty && noSymlinks sys files logsRoot parts.dropLast

/-- The files and the result while a plan is applied. -/
abbrev Applied := OfficeFiles × PruneResult

def refuse (applied : Applied) (path reason : JsString) : Applied :=
  (applied.1, { applied.2 with refused := applied.2.refused ++ [(path, reason)] })

/-- A candidate of a plan that is applied: `fresh` is the plan that was made again, and `sparedBy` its
reasons. -/
def applyCandidate (target : PruneTarget) (root realLogsRoot : List JsString)
    (approved : JsMap JsString PruneCandidate) (sparedBy : JsMap JsString PruneSkipReason)
    (applied : Applied) (candidate : PruneCandidate) : Applied :=
  let abs := resolvePath root candidate.path
  match approved.get candidate.path with
  | none =>
    refuse applied candidate.path (match sparedBy.get candidate.path with
      | some reason => js "became-" ++ reason.text
      | none => js "missing")
  | some live =>
    if live.mtimeMs ≠ candidate.mtimeMs then refuse applied candidate.path (js "modified-since-plan")
    else if !parentInsideLogsRoot sys applied.1 realLogsRoot abs ||
        !noSymlinkParents sys applied.1 realLogsRoot candidate.path then
      refuse applied candidate.path (js "parent-escapes-logs-dir")
    else
      match FileTree.lstat applied.1.tree sys.links abs with
      | none => refuse applied candidate.path (js "vanished")
      | some (_, .file _) =>
        match unlinkSync sys applied.1 abs with
        | .error message => refuse applied candidate.path message
        | .ok files =>
          -- the other form of the same session
          let files := if target = .transcripts then unlinkTranscriptTwin sys files abs else files
          (files, { applied.2 with
            deleted := applied.2.deleted + 1
            bytes := applied.2.bytes + live.bytes })
      | some _ => refuse applied candidate.path (js "not-a-regular-file")

/-- `applyPrune`, on the files as they are now. -/
def applyPrune (plan : PrunePlan) (deps : PruneDeps) : Applied :=
  let root := targetRoot plan.target deps
  match plan.candidates.find? fun c => (resolveCandidatePath root c.path).isNone with
  | some candidate =>
    (files, ⟨0, 0, [(candidate.path, js "outside-logs-dir")],
      some (js "candidate escapes the logs root: " ++ candidate.path)⟩)
  | none =>
    match isRealDir sys files root, FileTree.realpath files.tree sys.links root with
    | true, some realLogsRoot =>
      let fresh := planPruneDetailed sys files deps plan.policy plan.target
      let approved : JsMap JsString PruneCandidate :=
        fresh.1.candidates.foldl (fun approved c => approved.set c.path c) []
      plan.candidates.foldl
        (applyCandidate sys plan.target root realLogsRoot approved fresh.2.byPath)
        (files, ⟨0, 0, [], none⟩)
    | _, _ =>
      (files, ⟨0, 0, [], some (js "logs root is not resolvable: " ++ pathText root)⟩)

end Apply

end Prune

end Isomux
