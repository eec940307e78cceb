import Isomux.AppHosts.Hosts
import Isomux.Foundations.Lineages
import Isomux.Runtime.Json
import Isomux.Runtime.JsonShapes
import Mathlib.Algebra.Order.Ring.Unbundled.Rat

set_option autoImplicit false

/-!
# The app registry

The registry keeps the registered apps and the ledger of all host labels that were ever issued in one
file. Every operation reads and checks the whole file, and writes it whole. Next to it every app has a
directory for its data, which a delete sets aside.

A record or a row of the ledger is the object that `JSON.parse` returns. A write of the file and a
move of a directory either happen or fail and leave everything as it was. Who wrote what into a
directory is kept with it.

## Main definitions

* `Isomux.AppRegistry.snapshot` — the file is read and checked.
* `Isomux.AppRegistry.persisted` — what is written.
* `Isomux.AppRegistry.register`, `Isomux.AppRegistry.update`, `Isomux.AppRegistry.remove` — the
  operations.
* `Isomux.AppRegistry.step` — one operation, or an app writes into its directory.
-/

namespace Isomux

namespace JsDouble

/-- `Math.max` of two numbers. -/
def max : JsDouble → JsDouble → JsDouble
  | nan, _ => nan
  | _, nan => nan
  | infinite true, d => d
  | d, infinite true => d
  | infinite false, _ => infinite false
  | _, infinite false => infinite false
  | finite a, finite b => finite (Max.max a b)

/-- `Math.max`. -/
def maxOf (list : List JsDouble) : JsDouble := list.foldl max (infinite true)

end JsDouble

namespace AppRegistry

open AppHosts (isLowerAlnum)
open JsValue (isString isStringWith isOptional)

def MAX_REGISTERED_APPS : ℕ := 100

def MAX_APP_NAME_LENGTH : ℕ := 63

def MAX_APP_COMMAND_LENGTH : ℕ := 4096

def MAX_APP_DESCRIPTION_LENGTH : ℕ := 200

/-- The longest id of an agent that is read back. -/
def MAX_AGENT_ID_LENGTH : ℕ := 200

def MAX_SAFE_INTEGER : ℕ := 9007199254740991

/-- `APP_NAME_PATTERN`: letters, digits and inner hyphens. -/
def APP_NAME_PATTERN (name : JsString) : Bool :=
  name.head?.any isLowerAlnum && name.all (fun c => isLowerAlnum c || c = 45) &&
    name.getLast?.any isLowerAlnum

def RESERVED_APP_NAMES : List JsString :=
  ["www", "api", "apps", "office", "isomux", "admin", "mail", "smtp", "ns1", "ns2", "localhost",
    "auth", "login", "static", "assets", "files", "health", "status", "ws", "docs", "cdn", "tasks",
    "asks", "automations", "cronjobs", "skills", "settings", "integrations", "pager", "inbox",
    "users", "agents", "setup", "i", "hooks", "browser-extension", "backup", "readyz", "icons",
    "katex", "mcp"].map js

/-! ## Errors -/

/-- `AppErrorCode`, as far as the registry raises it. -/
inductive AppErrorCode where
  | invalidName
  | reservedName
  | invalidCommand
  | invalidCwd
  | invalidDescription
  | nameTaken
  | originRetired
  | appLimitReached
  | noPortAvailable
  | registryCorrupt
  | persistFailed
  deriving DecidableEq

/-- A refusal or a failure of the registry. -/
structure AppRegistryError where
  code : AppErrorCode
  message : JsString
  deriving DecidableEq

inductive Thrown where
  | registry (error : AppRegistryError)
  | error (message : JsString)
  | probe
  deriving DecidableEq

/-- What the registry is created with, and how the runtime turns values into each other where this
depends on more than is modelled. -/
structure AppRegistryOptions where
  appsFile : JsString
  portMin : ℕ
  portMax : ℕ
  valid : 1 ≤ portMin ∧ portMax ≤ 65535 ∧ portMin ≤ portMax
  otherToNumber : JsValue → JsDouble
  otherToText : JsDouble → JsString

variable (options : AppRegistryOptions)

def corrupt (why : JsString) : AppRegistryError where
  code := .registryCorrupt
  message := options.appsFile ++ js " is unreadable (" ++ why ++ js "). The app registry refuses to " ++
    js "operate on a partial view of itself: a name or port it cannot see is one it could hand " ++
    js "out twice. Restore or repair the file from a known-good copy, then retry. Do not delete " ++
    js "it or move it aside - missing state is treated as a fresh registry."

/-! ## What a caller sends -/

def checkAppName (name : JsString) : Option AppRegistryError :=
  if name.length = 0 then some ⟨.invalidName, js "name is required"⟩
  else if MAX_APP_NAME_LENGTH < name.length then
    some ⟨.invalidName, js "name must be at most " ++ decimalDigits MAX_APP_NAME_LENGTH ++
      js " characters because it becomes a hostname label"⟩
  else if !APP_NAME_PATTERN name then
    some ⟨.invalidName, js "name must be lowercase letters, digits and inner hyphens only, " ++
      js "starting and ending with a letter or digit (it becomes a hostname)"⟩
  else if name ∈ RESERVED_APP_NAMES then
    some ⟨.reservedName, js "\"" ++ name ++
      js "\" is reserved by Isomux and cannot be used as an app name"⟩
  else none

def assertCommand (command : JsString) : Option AppRegistryError :=
  if command.trim.length = 0 then some ⟨.invalidCommand, js "command is required"⟩
  else if MAX_APP_COMMAND_LENGTH < command.length then
    some ⟨.invalidCommand, js "command must be at most " ++ decimalDigits MAX_APP_COMMAND_LENGTH ++
      js " characters"⟩
  else none

def isAbsolute (path : JsString) : Bool := path.head? = some 47

def assertCwd (cwd : JsString) : Option AppRegistryError :=
  if isAbsolute cwd then none else some ⟨.invalidCwd, js "cwd must be an absolute path"⟩

def assertDescription (description : JsString) : Option AppRegistryError :=
  if MAX_APP_DESCRIPTION_LENGTH < description.length then
    some ⟨.invalidDescription, js "description must be at most " ++
      decimalDigits MAX_APP_DESCRIPTION_LENGTH ++ js " characters"⟩
  else none

/-- `allocatePort`: the lowest port that no app holds and that can be bound. A probe without an answer
throws. -/
def allocatePort (used : List JsDouble) (probe : ℕ → Option Bool) : Except Thrown ℕ :=
  go (List.range' options.portMin (options.portMax + 1 - options.portMin))
where
  /-- The ports that are still to be tried. -/
  go : List ℕ → Except Thrown ℕ
    | [] => .error (.registry ⟨.noPortAvailable, js "no free port in " ++
        decimalDigits options.portMin ++ js "-" ++ decimalDigits options.portMax⟩)
    | port :: ports =>
      if JsDouble.finite port ∈ used then go ports
      else
        match probe port with
        | none => .error .probe
        | some false => go ports
        | some true => .ok port

/-! ## Records and rows -/

def textOf : JsValue → JsString
  | .string s => s
  | _ => []

def numberOf : JsValue → JsDouble
  | .number n => .finite n
  | _ => .nan

/-- `a ?? b`. -/
def coalesce (a b : JsValue) : JsValue := if a.isUndefined || a.isNull then b else a

def toNumber : JsValue → JsDouble
  | .number n => .finite n
  | .bool b => .finite (if b then 1 else 0)
  | .null => .finite 0
  | .undefined => .nan
  | v => options.otherToNumber v

def numberText : JsDouble → JsString
  | .finite n => if n.isInt && |n| < 10 ^ 21 then intText n.num else options.otherToText (.finite n)
  | d => options.otherToText d

/-- `labelFor`: the label of a generation of a name. -/
def labelFor (name : JsString) (gen : JsDouble) : JsString :=
  if gen = .finite 1 then name else name ++ js "-g" ++ numberText options gen

/-- A live app: its record without the derived directory, and its registration generation, which is
kept beside the record. -/
structure AppRecord where
  fields : JsMap String JsValue
  registrationGen : JsDouble

namespace AppRecord

variable (app : AppRecord)

def field (name : String) : JsValue := (JsValue.object app.fields).field name

def name : JsString := textOf (app.field "name")

def port : JsDouble := numberOf (app.field "port")

def hostLabel : JsString := textOf (app.field "hostLabel")

def hostGen : JsDouble := numberOf (app.field "hostGen")

end AppRecord

/-- A row of the ledger, as the file has it. -/
abbrev IssuedLabel := JsValue

namespace IssuedLabel

variable (row : IssuedLabel)

def label : JsString := textOf (JsValue.field row "label")

def name : JsString := textOf (JsValue.field row "name")

def gen : JsDouble := numberOf (JsValue.field row "gen")

/-- `row.registrationGen ?? row.gen`. -/
def generation : JsDouble :=
  toNumber options (coalesce (JsValue.field row "registrationGen") (JsValue.field row "gen"))

end IssuedLabel

structure RegistryState where
  apps : List AppRecord
  issuedLabels : List IssuedLabel

variable (issued : List IssuedLabel)

/-- The registration generations that the lineage of a name shows. -/
def lineageGenerations (name : JsString) : List JsDouble :=
  (issued.filter fun row => IssuedLabel.name row = name).map (IssuedLabel.generation options)

/-! ## The checks of one record and of one row -/

def isPlainObject : JsValue → Bool
  | .object _ => true
  | _ => false

def isNameText (s : JsString) : Bool :=
  0 < s.length && s.length ≤ MAX_APP_NAME_LENGTH && APP_NAME_PATTERN s

def isShortText (max : ℕ) : JsValue → Bool := isStringWith fun s => s.length ≤ max

def isOptionalString (max : ℕ) : JsValue → Bool := isOptional (isShortText max)

variable (v : JsValue)

def isNullableString : Bool := v.isNull || isString v

def isFiniteNumber : JsValue → Bool
  | .number _ => true
  | _ => false

/-- `Number.isSafeInteger`, and at least some number. -/
def isWholeFrom (least : ℚ) : JsValue → Bool
  | .number n => n.isInt && |n| ≤ MAX_SAFE_INTEGER && least ≤ n
  | _ => false

def isGeneration : JsValue → Bool := isWholeFrom 1

/-- `v >= w` of two numbers. -/
def isAtLeast : JsValue → JsValue → Bool
  | .number v, .number w => w ≤ v
  | _, _ => false

def isBoolean : JsValue → Bool
  | .bool _ => true
  | _ => false

def isPortWithin : JsValue → Bool
  | .number n => n.isInt && (options.portMin : ℚ) ≤ n && n ≤ (options.portMax : ℚ)
  | _ => false

/-- The fields of a record and their checks. -/
def legacyChecks : List (String × (JsValue → Bool)) :=
  [("name", isStringWith isNameText),
    ("port", isPortWithin options),
    ("command", isStringWith fun s => 0 < s.trim.length && s.length ≤ MAX_APP_COMMAND_LENGTH),
    ("cwd", isStringWith isAbsolute),
    ("description", isOptionalString MAX_APP_DESCRIPTION_LENGTH),
    ("userId", isNullableString),
    ("username", isNullableString),
    ("createdBy", isString),
    ("createdByAgentId", isOptionalString MAX_AGENT_ID_LENGTH),
    ("messageTargetAgentId", isOptionalString MAX_AGENT_ID_LENGTH),
    ("createdAt", isFiniteNumber),
    ("thumbnailUpdatedAt", isOptional (isWholeFrom 0)),
    ("archived", isOptional isBoolean)]

/-- The fields of a value pass their checks. -/
def passes (checks : List (String × (JsValue → Bool))) (v : JsValue) : Bool :=
  checks.all fun c => c.2 (v.field c.1)

def isLegacyPersistedApp : Bool := isPlainObject v && passes (legacyChecks options) v

/-- The host fields of a record and their checks. -/
def hostChecks : List (String × (JsValue → Bool)) :=
  [("hostLabel", isStringWith isNameText), ("hostGen", isGeneration)]

/-- A later generation of something: it is left out, or a generation that is not smaller. -/
def isLaterGeneration (gen v : JsValue) : Bool :=
  isOptional (fun v => isGeneration v && isAtLeast v gen) v

def isPersistedApp : Bool :=
  isLegacyPersistedApp options v && passes hostChecks v &&
    isLaterGeneration (v.field "hostGen") (v.field "registrationGen")

def rowChecks : List (String × (JsValue → Bool)) :=
  [("name", isStringWith isNameText), ("gen", isGeneration),
    ("label", isShortText MAX_APP_NAME_LENGTH), ("issuedAt", isFiniteNumber),
    ("certAdmittedAt", isOptional (isWholeFrom 0))]

def isIssuedLabel : Bool :=
  isPlainObject v && passes rowChecks v &&
    decide (IssuedLabel.label v = labelFor options (IssuedLabel.name v) (IssuedLabel.gen v)) &&
      isLaterGeneration (v.field "gen") (v.field "registrationGen")

/-! ## The file is read -/

inductive StateFile where
  | missing
  | unreadable (why : JsString)
  | notJson
  | json (value : JsValue) (parsed : value.Parsed)

/-- `readStateFile`: nothing of a file that is missing. -/
def readStateFile : StateFile → Except AppRegistryError (Option JsValue)
  | .missing => .ok none
  | .unreadable why => .error (corrupt options (js "cannot be read: " ++ why))
  | .notJson => .error (corrupt options (js "not valid JSON"))
  | .json value _ => .ok (some value)

def setField (name : String) (value : JsValue) : JsValue :=
  .object (JsMap.set v.fields name value)

/-- The fields that a record is kept without: its generation is kept beside it, a switch that was
retired, and the directory that is derived from the name. -/
def heldBack : List String := ["registrationGen", "inboxAccess", "dataDir"]

/-- The record of an app that was read, of all registered rows. -/
def hydrate (app : JsValue) : AppRecord where
  fields := heldBack.foldl JsMap.delete app.fields
  registrationGen := JsDouble.maxOf
    (toNumber options (coalesce (app.field "registrationGen") (app.field "hostGen")) ::
      lineageGenerations options issued (textOf (app.field "name")))

/-- A record of the old file gets the label of its name. -/
def withFirstLabel (app : JsValue) : JsValue :=
  setField (setField app "hostLabel" (app.field "name")) "hostGen" (.number 1)

def firstIssue (app : JsValue) : IssuedLabel :=
  .object [("label", app.field "hostLabel"), ("name", app.field "name"), ("gen", app.field "hostGen"),
    ("issuedAt", app.field "createdAt")]

variable (file : StateFile)

def loadState : Except AppRegistryError RegistryState :=
  match readStateFile options file with
  | .error e => .error e
  | .ok none => .ok ⟨[], []⟩
  | .ok (some (.array records)) =>
    if records.all (isLegacyPersistedApp options) then
      let apps := records.map withFirstLabel
      .ok ⟨apps.map (hydrate options (apps.map firstIssue)), apps.map firstIssue⟩
    else .error (corrupt options (js "contains an entry that is not a valid app record"))
  | .ok (some (.object fields)) =>
    match (JsValue.object fields).field "apps", (JsValue.object fields).field "issuedLabels" with
    | .array apps, .array issued =>
      if !apps.all (isPersistedApp options) then
        .error (corrupt options (js "contains an entry that is not a valid app record"))
      else if !issued.all (isIssuedLabel options) then
        .error (corrupt options (js "contains an entry that is not a valid issued label"))
      else .ok ⟨apps.map (hydrate options issued), issued⟩
    | .array _, _ => .error (corrupt options (js "\"issuedLabels\" is not an array"))
    | _, _ => .error (corrupt options (js "\"apps\" is not an array"))
  | .ok (some _) => .error (corrupt options (js "neither a JSON array nor an object"))

/-! ## The whole of it is checked -/

def quoted (s : JsString) : JsString := js "\"" ++ s ++ js "\""

/-- The rows of the ledger: the label that is there twice, if there is one. -/
def ledgerFault : List JsString → List IssuedLabel → Option JsString
  | _, [] => none
  | seen, entry :: rows =>
    if IssuedLabel.label entry ∈ seen then
      some (js "the label " ++ quoted (IssuedLabel.label entry) ++ js " is recorded as issued twice")
    else ledgerFault (IssuedLabel.label entry :: seen) rows

variable (app : AppRecord)

def isIssuance (row : IssuedLabel) : Bool :=
  IssuedLabel.label row = app.hostLabel ∧ IssuedLabel.name row = app.name ∧
    IssuedLabel.gen row = app.hostGen

/-- What is wrong with an app and the ledger. -/
def lineageFault (app : AppRecord) : Option JsString :=
  if app.hostLabel ≠ labelFor options app.name app.hostGen then
    some (quoted app.name ++ js " generation " ++ numberText options app.hostGen ++
      js " cannot be called " ++ quoted app.hostLabel)
  else if !issued.any (isIssuance app) then
    some (quoted app.hostLabel ++ js " is in use by " ++ quoted app.name ++ js " but never issued")
  else
    match issued.reverse.find? fun row => IssuedLabel.name row = app.name with
    | none => some (quoted app.name ++ js " has no issued label lineage")
    | some latest =>
      if IssuedLabel.label latest ≠ app.hostLabel ∨ IssuedLabel.gen latest ≠ app.hostGen then
        some (quoted app.name ++ js " is not using its most recently issued label")
      else if app.registrationGen.strictEq
          (JsDouble.maxOf (lineageGenerations options issued app.name)) then none
      else some (quoted app.name ++ js " does not match its registration generation")

/-- The live apps, behind the names, the ports and the labels of those before. -/
def appsFault (issued : List IssuedLabel) : List JsString → JsMap JsDouble JsString →
    JsMap JsString JsString → List AppRecord → Option JsString
  | _, _, _, [] => none
  | liveNames, liveByPort, liveByLabel, app :: apps =>
    if app.name ∈ liveNames then some (js "two live apps named " ++ quoted app.name)
    else
      match JsMap.get liveByPort app.port with
      | some clash =>
        some (quoted clash ++ js " and " ++ quoted app.name ++ js " both claim port " ++
          numberText options app.port)
      | none =>
        match JsMap.get liveByLabel app.hostLabel with
        | some sameLabel =>
          some (quoted sameLabel ++ js " and " ++ quoted app.name ++ js " both answer to " ++
            quoted app.hostLabel)
        | none =>
          match lineageFault options issued app with
          | some why => some why
          | none =>
            appsFault issued (app.name :: liveNames) (JsMap.set liveByPort app.port app.name)
              (JsMap.set liveByLabel app.hostLabel app.name) apps

/-- `assertConsistent`: why the state is impossible. -/
def assertConsistent (s : RegistryState) : Option JsString :=
  (ledgerFault [] s.issuedLabels).or (appsFault options s.issuedLabels [] [] [] s.apps)

/-- `snapshot`: the file, validated. -/
def snapshot : Except AppRegistryError RegistryState :=
  match loadState options file with
  | .error e => .error e
  | .ok s =>
    match assertConsistent options s with
    | some why => .error (corrupt options why)
    | none => .ok s

def isLiveHostLabel (label : JsString) : Except AppRegistryError Bool :=
  match snapshot options file with
  | .error e => .error e
  | .ok s =>
    match s.apps.find? (·.hostLabel = label) with
    | none => .ok false
    | some app => .ok (s.issuedLabels.any fun row => IssuedLabel.label row = label ∧
        IssuedLabel.name row = app.name ∧ IssuedLabel.gen row = app.hostGen)

/-! ## The file is written -/

/-- `strip`: what a record is written as. -/
def strip : JsValue :=
  .object (JsMap.set app.fields "registrationGen" app.registrationGen.toJs)

/-- What `persist` writes, as it is read again. -/
def persisted (s : RegistryState) : StateFile :=
  .json (JsValue.object [("apps", .array (s.apps.map strip)),
    ("issuedLabels", .array s.issuedLabels)]).roundTrip (JsValue.parsed_roundTrip _ nofun)

/-! ## The disk -/

/-- What an app wrote into a directory: the name and the registration generation of the app, if the
app is one of the registry. -/
structure DataFile where
  owner : Option (JsString × JsDouble)
  bytes : Buffer

/-- A directory below `data`: one of an app, or one that was set aside. -/
inductive Place where
  | data (name : JsString)
  | retired (entry : JsString)
  deriving DecidableEq

structure RegistryDisk where
  file : StateFile
  dirs : JsMap Place (List DataFile)

/-- What an operation meets: the clock, the ports that can be bound, and what fails. -/
structure Surroundings where
  now : JsDouble
  probePort : ℕ → Option Bool
  mkdirFails : Bool
  archiveFails : Bool
  writeFails : Bool

/-- The disk behind a call of an operation that throws or comes back. -/
abbrev Answer (α : Type) := Except Thrown α × RegistryDisk

def persistFailed (message : JsString) : Thrown := .registry ⟨.persistFailed, message⟩

/-- `writeStateFile` of a state, and then an answer. -/
def persist {α : Type} (env : Surroundings) (disk : RegistryDisk) (s : RegistryState) (answer : α) :
    Answer α :=
  if env.writeFails then
    (.error (persistFailed (js "the app registry could not complete the write; " ++
      js "inspect server logs and retry")), disk)
  else (.ok answer, { disk with file := persisted s })

/-! ## The directories -/

variable (dirs : JsMap Place (List DataFile))

/-- `mkdirSync` with `recursive`. -/
def mkdir (place : Place) : JsMap Place (List DataFile) :=
  if JsMap.has dirs place then dirs else dirs ++ [(place, [])]

/-- The names that are tried for a directory that is set aside. -/
def retiredEntry (base : JsString) : ℕ → JsString
  | 0 => base
  | n + 1 => base ++ js "-" ++ decimalDigits (n + 2)

def freeEntry (base : JsString) : Option JsString :=
  ((List.range (dirs.length + 1)).map (retiredEntry base)).find? fun entry =>
    !JsMap.has dirs (.retired entry)

/-- `archiveDataDir`: the directory of an app is renamed. -/
def archiveDataDir (name : JsString) (at_ : JsDouble) : JsMap Place (List DataFile) :=
  match JsMap.get dirs (.data name), freeEntry dirs (name ++ js "-" ++ numberText options at_) with
  | some content, some entry => JsMap.delete dirs (.data name) ++ [(.retired entry, content)]
  | _, _ => dirs

/-! ## Registration -/

structure RegisterAppInput where
  name : JsString
  command : JsString
  cwd : JsString
  description : Option JsString
  userId : Option JsString
  username : Option JsString
  createdBy : JsString
  createdByAgentId : Option JsString

def firstOf (refusals : List (Option AppRegistryError)) : Option AppRegistryError :=
  refusals.findSome? id

/-- What is wrong with a registration, before anything is read. -/
def RegisterAppInput.refusal (input : RegisterAppInput) : Option AppRegistryError :=
  firstOf [checkAppName input.name, assertCommand input.command, assertCwd input.cwd,
    input.description.bind assertDescription]

/-- `register` up to its first effect: the state, and the port of the new app. -/
def admission (probePort : ℕ → Option Bool) (input : RegisterAppInput) (file : StateFile) :
    Except Thrown (RegistryState × ℕ) :=
  match input.refusal with
  | some e => .error (.registry e)
  | none =>
    match snapshot options file with
    | .error e => .error (.registry e)
    | .ok s =>
      if MAX_REGISTERED_APPS ≤ s.apps.length then
        .error (.registry ⟨.appLimitReached, js "this office already has " ++
          decimalDigits MAX_REGISTERED_APPS ++
          js " registered apps; delete one to register another"⟩)
      else if s.apps.any (·.name = input.name) then
        .error (.registry ⟨.nameTaken, js "an app named " ++ quoted input.name ++
          js " is already registered"⟩)
      else
        -- the name is a label that was issued for another name
        match s.issuedLabels.find? fun row =>
          IssuedLabel.label row = input.name ∧ IssuedLabel.name row ≠ input.name with
        | some foreignOrigin =>
          .error (.registry ⟨.originRetired, quoted input.name ++ js " was the address of the app " ++
            quoted (IssuedLabel.name foreignOrigin) ++
            js ", so it stays retired and cannot be taken as a name; choose another"⟩)
        | none => (allocatePort options (s.apps.map AppRecord.port) probePort).map fun port => (s, port)

def ofNullable : Option JsString → JsValue
  | some s => .string s
  | none => .null

def optionalField (name : String) : Option JsValue → JsMap String JsValue
  | some value => [(name, value)]
  | none => []

def newRecord (input : RegisterAppInput) (port : ℕ) (hostLabel hostGen : JsValue) (at_ : JsDouble)
    (registrationGen : JsDouble) : AppRecord where
  -- an empty id of an agent is left out
  fields :=
    let createdByAgentId := (input.createdByAgentId.filter (· ≠ [])).map JsValue.string
    [("name", .string input.name), ("hostLabel", hostLabel), ("hostGen", hostGen),
      ("port", .number port), ("command", .string input.command), ("cwd", .string input.cwd)] ++
      optionalField "description" (input.description.map JsValue.string) ++
      [("userId", ofNullable input.userId), ("username", ofNullable input.username),
        ("createdBy", .string input.createdBy)] ++
      optionalField "createdByAgentId" createdByAgentId ++
      optionalField "messageTargetAgentId" createdByAgentId ++
      [("createdAt", at_.toJs)]
  registrationGen := registrationGen

def firstRow (name : JsString) (at_ : JsDouble) : IssuedLabel :=
  .object [("label", .string name), ("name", .string name), ("gen", .number 1),
    ("issuedAt", at_.toJs), ("certAdmittedAt", at_.toJs), ("registrationGen", .number 1)]

/-- The state with the new app, and its record: a name without a row gets one, and the last row of any
other name gets the new registration generation. -/
def issue (s : RegistryState) (input : RegisterAppInput) (port : ℕ) (at_ : JsDouble) :
    RegistryState × AppRecord :=
  match Lineage.latest IssuedLabel.name s.issuedLabels input.name with
  | none =>
    let live := newRecord input port (.string input.name) (.number 1) at_ (.finite 1)
    (⟨s.apps ++ [live], s.issuedLabels ++ [firstRow input.name at_]⟩, live)
  | some (latest, index) =>
    let registrationGen :=
      (JsDouble.maxOf (lineageGenerations options s.issuedLabels input.name)).succ
    let live := newRecord input port (latest.field "label") (latest.field "gen") at_ registrationGen
    (⟨s.apps ++ [live], Lineage.patch s.issuedLabels index fun row =>
      setField row "registrationGen" registrationGen.toJs⟩, live)

def register (env : Surroundings) (input : RegisterAppInput) (disk : RegistryDisk) :
    Answer AppRecord :=
  match admission options env.probePort input disk.file with
  | .error e => (.error e, disk)
  | .ok (s, port) =>
    if env.mkdirFails then
      (.error (persistFailed (js "the app's data directory could not be created; " ++
        js "nothing was registered")), disk)
    else
      let (next, live) := issue options s input port env.now
      persist env { disk with dirs := mkdir disk.dirs (.data input.name) } next live

/-! ## Changes and deletes -/

structure AppCreator where
  id : JsString
  name : JsString

structure AppOwner where
  userId : JsString
  username : JsString

structure UpdateAppInput where
  command : Option JsString
  cwd : Option JsString
  description : Option (Option JsString)
  messageTargetAgentId : Option JsString
  creator : Option AppCreator
  owner : Option AppOwner
  thumbnailUpdatedAt : Option JsDouble
  archived : Option Bool

variable (patch : UpdateAppInput)

/-- What is wrong with a change, before anything is read. -/
def UpdateAppInput.refusal : Option Thrown :=
  match firstOf [patch.command.bind assertCommand, patch.cwd.bind assertCwd,
    (patch.description.bind id).bind assertDescription] with
  | some e => some (.registry e)
  | none =>
    if patch.thumbnailUpdatedAt.any fun at_ => !isWholeFrom 0 at_.toJs then
      some (.error (js "thumbnailUpdatedAt must be a whole number of ms"))
    else none

/-- A field is set when there is a value for it. -/
def setWhen (name : String) (value : Option JsValue) (fields : JsMap String JsValue) :
    JsMap String JsValue :=
  match value with
  | some value => JsMap.set fields name value
  | none => fields

/-- `true` sets the flag of an archived app, `false` removes it. -/
def setArchived (archived : Option Bool) (fields : JsMap String JsValue) : JsMap String JsValue :=
  match archived with
  | some true => JsMap.set fields "archived" (.bool true)
  | some false => JsMap.delete fields "archived"
  | none => fields

/-- A text sets the description, `null` removes it. -/
def setDescription (description : Option (Option JsString)) (fields : JsMap String JsValue) :
    JsMap String JsValue :=
  match description with
  | some none => JsMap.delete fields "description"
  | some (some text) => JsMap.set fields "description" (.string text)
  | none => fields

/-- `v === w` for texts. -/
def sameText : JsValue → JsValue → Bool
  | .string s, .string t => s = t
  | _, _ => false

/-- The messages of an app follow its new creator: no other target is given, and they went to the
creator before. -/
def targetFollows : Bool :=
  patch.messageTargetAgentId.isNone &&
    sameText (app.field "messageTargetAgentId") (app.field "createdByAgentId")

def updated : AppRecord where
  fields :=
    let fields := setWhen "createdByAgentId" (patch.creator.map fun c => .string c.id) app.fields
    let fields := setWhen "createdBy" (patch.creator.map fun c => .string c.name) fields
    let fields := setWhen "userId" (patch.owner.map fun o => .string o.userId) fields
    let fields := setWhen "username" (patch.owner.map fun o => .string o.username) fields
    let fields := setWhen "command" (patch.command.map .string) fields
    let fields := setWhen "cwd" (patch.cwd.map .string) fields
    let fields := setWhen "messageTargetAgentId" (patch.messageTargetAgentId.map .string) fields
    let fields := setWhen "thumbnailUpdatedAt" (patch.thumbnailUpdatedAt.map JsDouble.toJs) fields
    let fields := setWhen "messageTargetAgentId"
      (if targetFollows app patch then patch.creator.map fun c => .string c.id else none) fields
    setDescription patch.description (setArchived patch.archived fields)
  registrationGen := app.registrationGen

/-- `update`: no record when no live app has the name. -/
def update (env : Surroundings) (name : JsString) (patch : UpdateAppInput) (disk : RegistryDisk) :
    Answer (Option AppRecord) :=
  match patch.refusal with
  | some e => (.error e, disk)
  | none =>
    match snapshot options disk.file with
    | .error e => (.error (.registry e), disk)
    | .ok s =>
      match s.apps.zipIdx.find? (·.1.name = name) with
      | none => (.ok none, disk)
      | some (app, index) =>
        persist env disk { s with apps := s.apps.set index (updated app patch) }
          (some (updated app patch))

/-- `remove`: no record when no live app has the name. -/
def remove (env : Surroundings) (name : JsString) (disk : RegistryDisk) : Answer (Option AppRecord) :=
  match snapshot options disk.file with
  | .error e => (.error (.registry e), disk)
  | .ok s =>
    match s.apps.find? (·.name = name) with
    | none => (.ok none, disk)
    | some app =>
      if env.archiveFails then
        (.error (persistFailed (js "the app's data directory could not be set aside, so " ++
          quoted app.name ++ js " was not deleted; inspect server logs and retry")), disk)
      else
        persist env { disk with dirs := archiveDataDir options disk.dirs app.name env.now }
          { s with apps := s.apps.filter (·.name ≠ app.name) } (some app)

/-! ## Runs -/

def live : List AppRecord :=
  match snapshot options file with
  | .ok s => s.apps
  | .error _ => []

def ledger : List IssuedLabel :=
  match snapshot options file with
  | .ok s => s.issuedLabels
  | .error _ => []

inductive Event where
  | register (env : Surroundings) (input : RegisterAppInput)
  | update (env : Surroundings) (name : JsString) (patch : UpdateAppInput)
  | remove (env : Surroundings) (name : JsString)
  /-- The app of a name changes what is in its directory. -/
  | store (name : JsString) (files : List Buffer)

def writtenBy (name : JsString) (files : List Buffer) : List DataFile :=
  files.map fun bytes => ⟨some (name, app.registrationGen), bytes⟩

/-- A live app changes what is in its directory. -/
def store (name : JsString) (files : List Buffer) (disk : RegistryDisk) : RegistryDisk :=
  match (live options disk.file).find? (·.name = name) with
  | none => disk
  | some app =>
    { disk with dirs := JsMap.set disk.dirs (.data name) (writtenBy app name files) }

/-- What happens, and the answer of an operation. -/
def perform (disk : RegistryDisk) : Event → Answer (Option AppRecord)
  | .register env input =>
    ((register options env input disk).1.map some, (register options env input disk).2)
  | .update env name patch => update options env name patch disk
  | .remove env name => remove options env name disk
  | .store name files => (.ok none, store options name files disk)

def step (disk : RegistryDisk) (event : Event) : RegistryDisk := (perform options disk event).2

end AppRegistry

end Isomux
