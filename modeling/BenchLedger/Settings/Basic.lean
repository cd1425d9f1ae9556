import BenchLedger.History.Failure
import BenchLedger.History.FlushPolicy
import BenchLedger.History.Format
import BenchLedger.Ingest.Normalization
import BenchLedger.Settings.Layer

/-!
The settings of the service: built-in defaults, under a configuration file, under variables of the
environment. Values are taken liberally: a number may be given as text, a switch as a number or a
word.
-/

namespace BenchLedger

structure ServerSettings where
  host : String
  port : Nat
  deriving DecidableEq, Repr

structure StorageSettings where
  path : String
  -- Goes by the extension of the path if it is not given.
  format : Option StorageFormat
  repoUrl : Option String
  deriving DecidableEq, Repr

structure FlushSettings where
  policy : FlushPolicy
  -- In milliseconds, as are all times.
  interval : Nat
  timeout : Nat
  deriving DecidableEq, Repr

structure LoggingSettings where
  level : String
  json : Bool
  deriving DecidableEq, Repr

structure Settings where
  server : ServerSettings
  storage : StorageSettings
  flush : FlushSettings
  ingest : IngestConfig
  logging : LoggingSettings
  deriving DecidableEq, Repr

namespace Setting

/-! ### Values -/

def asText? : Setting → Option String
  | .text s => some s
  | .boolean b => some (if b then "true" else "false")
  | .integer i => some (String.ofList (Text.wholeDigits i))
  | .float x => some (Decimal.plainText x)
  | _ => none

def asSwitch? : Setting → Option Bool
  | .boolean b => some b
  | .integer i => some (i != 0)
  | .float x => some (!(x == 0.0))
  | .text s =>
    let s := Text.lowerCase s
    if s == "1" || s == "true" || s == "on" || s == "yes" then some true
    else if s == "0" || s == "false" || s == "off" || s == "no" then some false
    else none
  | _ => none

/-- The natural number nearest to a float, within 64 bits; a half goes up, and what is not a number
gives zero. -/
def nearestNatural (x : Float) : Nat :=
  match Decimal.parts x with
  | .nan | .infinite true => 0
  | .infinite false => Nat.pow 2 64 - 1
  | .finite negative m e =>
    if negative then 0
    else
      let x := Decimal.Expansion.ofBinary m e
      let scale := Nat.pow 10 x.places
      Nat.min ((2 * x.coefficient + scale) / (2 * scale)) (Nat.pow 2 64 - 1)

def asNatural? : Setting → Option Nat
  | .integer i => if i < 0 then none else some i.toNat
  | .boolean b => some (if b then 1 else 0)
  | .float x => some (nearestNatural x)
  | .text s =>
    let low := Text.lowerCase s
    if low == "true" || low == "on" || low == "yes" then some 1
    else if low == "false" || low == "off" || low == "no" then some 0
    else Text.unsigned? 64 s.toList
  | _ => none

/-- One of several named values: its name, or a table whose only member has that name. -/
def asNamed? {α : Type} (name : α → String) (values : List α) (s : Setting) : Option α :=
  let find (given : String) : Option α :=
    values.find? fun v => name v == Text.lowerCase given
  match s with
  | .text given => find given
  | .table [(given, _)] => find given
  | _ => none

/-! ### Records -/

/-- The fields of a record, in order: the members of a table with their names, or the items of an
array, of which there must be enough. -/
def fields? (names : List String) : Setting → Option (List (Option Setting))
  | .table ms => some (names.map fun n => (Setting.table ms).member? n)
  | .array items =>
    if items.length < names.length then none else some ((items.take names.length).map some)
  | _ => none

/-- A field that may be left out. -/
def optional? {α : Type} (read : Setting → Option α) (field : Option Setting) :
    Option (Option α) :=
  match field with
  | none | some .absent => some none
  | some v => (read v).map some

end Setting

namespace Settings

open Setting

def readServer (s : Setting) : Option ServerSettings := do
  match ← s.fields? ["host", "port"] with
  | [some host, some port] => do
    let port ← port.asNatural?
    if port < Nat.pow 2 16 then return ⟨← host.asText?, port⟩ else none
  | _ => none

def readStorage (s : Setting) : Option StorageSettings := do
  match ← s.fields? ["path", "format", "repo_url"] with
  | [some path, format, repoUrl] =>
    return {
      path := ← path.asText?
      format := ← optional? (asNamed? StorageFormat.name [.json, .dataJs]) format
      repoUrl := ← optional? asText? repoUrl }
  | _ => none

def readFlush (s : Setting) : Option FlushSettings := do
  match ← s.fields? ["policy", "interval_ms", "timeout_ms"] with
  | [some policy, some interval, some timeout] =>
    return {
      policy := ← policy.asNamed? FlushPolicy.name [.onAppend, .interval, .manual]
      interval := ← interval.asNatural?
      timeout := ← timeout.asNatural? }
  | _ => none

def readIngest (s : Setting) : Option IngestConfig := do
  match s with
  | .table _ => match s.member? "keep_composite" with
    | some keep => return ⟨← keep.asSwitch?⟩
    | none => return {}
  | .array [] => return {}
  | .array (keep :: _) => return ⟨← keep.asSwitch?⟩
  | _ => none

def readLogging (s : Setting) : Option LoggingSettings := do
  match ← s.fields? ["level", "json"] with
  | [some level, some json] => return ⟨← level.asText?, ← json.asSwitch?⟩
  | _ => none

def read (s : Setting) : Option Settings := do
  return {
    server := ← readServer (← s.member? "server")
    storage := ← readStorage (← s.member? "storage")
    flush := ← readFlush (← s.member? "flush")
    ingest := ← readIngest (← s.member? "ingest")
    logging := ← readLogging (← s.member? "logging") }

/-! ### Layers -/

def defaults : List (String × Setting) := [
  ("server.host", .text "0.0.0.0"),
  ("server.port", .integer 8080),
  ("storage.path", .text "dev/bench/data.js"),
  ("flush.policy", .text "interval"),
  ("flush.interval_ms", .integer 30000),
  ("flush.timeout_ms", .integer 10000),
  ("ingest.keep_composite", .boolean true),
  ("logging.level", .text "info"),
  ("logging.json", .boolean false)]

/-- What the names of the variables begin with. -/
def variableStart : List Char :=
  "bench_history__".toList

/-- Puts a dot in the place of each pair of underscores. -/
def dottedPath : List Char → List Char
  | '_' :: '_' :: rest => '.' :: dottedPath rest
  | c :: rest => c :: dottedPath rest
  | [] => []

/-- The value that the text of a variable stands for. -/
def variableValue (text : String) : Setting :=
  let low := Text.lowerCase text
  if low == "true" then .boolean true
  else if low == "false" then .boolean false
  else match Text.signed? 64 text.toList with
    | some i => .integer i
    | none => match Decimal.float? text.toList with
      | some x => .float x
      | none => .text text

/-- The setting that a variable makes, if it is one of the service's. -/
def ofVariable (v : String × String) : Option (String × Setting) :=
  let name := (Text.lowerCase v.1).toList
  if variableStart.isPrefixOf name then
    some (String.ofList (dottedPath (name.drop variableStart.length)), variableValue v.2)
  else none

/-- Settings from the text of a configuration file, if there is one, and from variables of the
environment. -/
def load (file : Option String) (environment : List (String × String)) : Option Settings := do
  let base := Setting.addLayer defaults (.table [])
  let withFile ← match file with
    | none => some base
    | some content =>
      (Toml.read? content).map fun members => base.addLayer (ofTomlMembers members)
  read (withFile.addLayer (environment.filterMap ofVariable))

/-- Settings from the text of a configuration file alone. -/
def ofToml (content : String) : Option Settings :=
  load (some content) []

/-! ### What follows from them -/

def bindAddress (s : Settings) : String :=
  s.server.host ++ ":" ++ String.ofList (Text.digitsOf s.server.port)

def storageFormat (s : Settings) : StorageFormat :=
  s.storage.format.getD (.ofPath s.storage.path)

/-- Where the history is stored, and how. -/
def storageText (s : Settings) : String :=
  s.storage.path ++ " (" ++ s.storageFormat.name ++ ")"

def storeConfig (s : Settings) : StoreConfig where
  policy := s.flush.policy
  interval := s.flush.interval
  timeout := s.flush.timeout
  repoUrl := s.storage.repoUrl

end Settings

end BenchLedger
