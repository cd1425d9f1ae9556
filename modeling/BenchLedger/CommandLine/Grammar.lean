import BenchLedger.CommandLine.Argument
import BenchLedger.CommandLine.Command

/-!
The arguments that each command takes. Three options are common to all commands and may stand
before or behind the name of the command; behind it they count more. An environment variable gives
the history where no option does.
-/

namespace BenchLedger.CommandLine

/-! ### Options of all commands -/

structure CommonFields where
  history : Option String := none
  format : Option StorageFormat := none
  verbose : Bool := false

namespace CommonFields

def arguments : List (Argument CommonFields) := [
  .single "history" none path CommonFields.history fun v s => { s with history := some v },
  .single "format" none (readBy StorageFormat.ofText?) CommonFields.format
    fun v s => { s with format := some v },
  .flag "verbose" (some 'v') CommonFields.verbose fun s => { s with verbose := true }]

def anyGiven (c : CommonFields) : Bool :=
  c.history.isSome || c.format.isSome || c.verbose

/-- Joins what was given behind the command's name with what was given before it. -/
def join (behind before : CommonFields) : CommonFields where
  history := behind.history.or before.history
  format := behind.format.or before.format
  verbose := behind.verbose || before.verbose

end CommonFields

/-- Fields of a command and those of all commands. -/
structure Fields (σ : Type) where
  common : CommonFields := {}
  own : σ

/-! ### Options of single commands -/

/-- The value of an argument that has to be given. -/
def required {α : Type} (name : String) : Option α → Except UsageFault α
  | some v => .ok v
  | none => .error (.argumentMissing name)

/-- What a command takes, and how it follows from the fields. -/
structure Shape (σ : Type) where
  options : List (Argument σ) := []
  positionals : List (Argument σ) := []
  empty : σ
  command : σ → Except UsageFault Command

structure TakeInFields where
  source : Option String := none
  dropComposite : Bool := false

def takeIn : Shape TakeInFields where
  options := [
    .flag "drop-composite" none TakeInFields.dropComposite
      fun s => { s with dropComposite := true }]
  positionals := [
    .single "source" none path TakeInFields.source fun v s => { s with source := some v }]
  empty := {}
  command s := do return .takeIn (← required "source" s.source) s.dropComposite

structure IngestFields where
  series : Option String := none
  file : Option String := none
  dropComposite : Bool := false

def ingest : Shape IngestFields where
  options := [
    .single "file" (some 'f') path IngestFields.file fun v s => { s with file := some v },
    .flag "drop-composite" none IngestFields.dropComposite
      fun s => { s with dropComposite := true }]
  positionals := [
    .single "series" none anyText IngestFields.series fun v s => { s with series := some v }]
  empty := {}
  command s := do
    return .ingest (← required "series" s.series) (s.file.getD "-") s.dropComposite

structure SeriesFields where
  name : Option String := none
  markdown : Bool := false

/-- Without a name the question is which series there are. -/
def series : Shape SeriesFields where
  options := [.flag "markdown" none SeriesFields.markdown fun s => { s with markdown := true }]
  positionals := [
    .single "name" none anyText SeriesFields.name fun v s => { s with name := some v }]
  empty := {}
  command s := return .ask <| match s.name with
    | none => .names
    | some name => .summary name s.markdown

structure LatestFields where
  series : Option String := none
  count : Option Int := none

def latest : Shape LatestFields where
  options := [
    .allowNegative <| .single "n" (some 'n') wholeNumber LatestFields.count
      fun v s => { s with count := some v }]
  positionals := [
    .single "series" none anyText LatestFields.series fun v s => { s with series := some v }]
  empty := {}
  command s := do return .ask (.latest (← required "series" s.series) (s.count.getD 1))

structure RangeFields where
  series : Option String := none
  first : Option Int := none
  last : Option Int := none

def range : Shape RangeFields where
  options := [
    .allowNegative <| .single "from" none wholeNumber RangeFields.first
      fun v s => { s with first := some v },
    .allowNegative <| .single "to" none wholeNumber RangeFields.last
      fun v s => { s with last := some v }]
  positionals := [
    .single "series" none anyText RangeFields.series fun v s => { s with series := some v }]
  empty := {}
  command s := do
    let series ← required "series" s.series
    return .ask (.range series (← required "from" s.first) (← required "to" s.last))

structure RegressionFields where
  series : Option String := none
  benchmark : Option String := none
  baseline : Option String := none
  threshold : Option Float := none
  polarity : Option Polarity := none
  strict : Bool := false

def regression : Shape RegressionFields where
  options := [
    .single "baseline" (some 'b') anyText RegressionFields.baseline
      fun v s => { s with baseline := some v },
    .single "threshold" (some 't') ratio RegressionFields.threshold
      fun v s => { s with threshold := some v },
    .single "polarity" (some 'p') (readBy Polarity.ofText?) RegressionFields.polarity
      fun v s => { s with polarity := some v },
    .flag "fail-on-regression" none RegressionFields.strict fun s => { s with strict := true }]
  positionals := [
    .single "series" none anyText RegressionFields.series fun v s => { s with series := some v },
    .single "benchmark" none anyText RegressionFields.benchmark
      fun v s => { s with benchmark := some v }]
  empty := {}
  command s := do
    return .ask (.regression
      (← required "series" s.series)
      (← required "benchmark" s.benchmark)
      (← required "baseline" s.baseline)
      (s.threshold.getD defaultThreshold) s.polarity s.strict)

structure DiffFields where
  series : Option String := none
  baseline : Option String := none
  candidate : Option String := none
  threshold : Option Float := none
  polarity : Option Polarity := none
  higherIsBetter : List String := []
  higherIsWorse : List String := []
  markdown : Bool := false
  strict : Bool := false

def diff : Shape DiffFields where
  options := [
    .single "baseline" (some 'b') anyText DiffFields.baseline
      fun v s => { s with baseline := some v },
    .single "candidate" (some 'c') anyText DiffFields.candidate
      fun v s => { s with candidate := some v },
    .single "threshold" (some 't') ratio DiffFields.threshold
      fun v s => { s with threshold := some v },
    .single "polarity" (some 'p') (readBy Polarity.ofText?) DiffFields.polarity
      fun v s => { s with polarity := some v },
    .repeatable "higher-is-better"
      fun v s => { s with higherIsBetter := s.higherIsBetter ++ [v] },
    .repeatable "higher-is-worse"
      fun v s => { s with higherIsWorse := s.higherIsWorse ++ [v] },
    .flag "markdown" none DiffFields.markdown fun s => { s with markdown := true },
    .flag "fail-on-regression" none DiffFields.strict fun s => { s with strict := true }]
  positionals := [
    .single "series" none anyText DiffFields.series fun v s => { s with series := some v }]
  empty := {}
  command s := do
    return .ask (.diff
      (← required "series" s.series)
      (← required "baseline" s.baseline)
      (← required "candidate" s.candidate)
      (s.threshold.getD defaultThreshold)
      (.ofLists s.polarity s.higherIsBetter s.higherIsWorse)
      s.markdown s.strict)

structure CopyToFields where
  output : Option String := none
  format : Option StorageFormat := none

def copyTo : Shape CopyToFields where
  options := [
    .single "to" none (readBy StorageFormat.ofText?) CopyToFields.format
      fun v s => { s with format := some v }]
  positionals := [
    .single "output" none path CopyToFields.output fun v s => { s with output := some v }]
  empty := {}
  command s := do return .copyTo (← required "output" s.output) s.format

/-! ### Whole command lines -/

/-- Refuses an environment that gives no history although no option does. -/
def checkEnvironment (environment : Option String) (c : CommonFields) :
    Except UsageFault Unit :=
  match c.history, environment with
  | none, some value => do
    let _ ← path "history" value
    return ()
  | _, _ => .ok ()

/-- The common options, and the ones that only inform. -/
def withCommon {σ : Type} (options : List (Argument σ)) (stops : List (Argument (Fields σ))) :
    List (Argument (Fields σ)) :=
  CommonFields.arguments.map (.within Fields.common fun c f => { f with common := c })
    ++ options.map (.within Fields.own fun o f => { f with own := o })
    ++ stops

/-- Reads what stands behind the name of a command. -/
def Shape.read {σ : Type} (shape : Shape σ) (environment : Option String)
    (arguments : List String) : Except UsageFault (CommonFields × Command) := do
  let grammar : Grammar (Fields σ) := {
    options := withCommon shape.options [.stop "help" 'h' .helpWanted]
    positionals := shape.positionals.map (.within Fields.own fun o f => { f with own := o })
    commands := [] }
  let (reading, _) ← (grammar.start { own := shape.empty }).readAll grammar arguments
  let fields := (← reading.settle).state
  checkEnvironment environment fields.common
  return (fields.common, ← shape.command fields.own)

/-- The commands and how they read their arguments. -/
def commands :
    List (String × (Option String → List String → Except UsageFault (CommonFields × Command))) := [
  ("import", takeIn.read),
  ("ingest", ingest.read),
  ("series", series.read),
  ("latest", latest.read),
  ("range", range.read),
  ("regression", regression.read),
  ("diff", diff.read),
  ("export", copyTo.read)]

def commandNames : List String :=
  commands.map (·.1) ++ ["help"]

/-- What a wish for help comes to: at most one command may be named. -/
def helpFault : List String → UsageFault
  | [] => .helpWanted
  | name :: rest =>
    if commandNames.contains name then
      match rest with
      | [] => .helpWanted
      | other :: _ => .unknownCommand other
    else .unknownCommand name

/-- The history that is used when none is named. -/
def defaultHistory : String :=
  "bench-history.json"

/-- The arguments in front of a command. -/
def outerGrammar : Grammar (Fields Unit) where
  options := withCommon [] [.stop "help" 'h' .helpWanted, .stop "version" 'V' .versionWanted]
  positionals := []
  commands := commandNames

/-- Reads a whole command line. `environment` is the value of the environment variable that names
the history. -/
def Invocation.ofArguments (environment : Option String) (arguments : List String) :
    Except UsageFault Invocation := do
  let (reading, found) ← (outerGrammar.start { own := () }).readAll outerGrammar arguments
  match found with
  | some (name, rest) =>
    match commands.lookup name with
    | none => .error (helpFault rest)
    | some read => do
      let (behind, command) ← read environment rest
      let before := (← reading.settle).state.common
      checkEnvironment environment before
      let common := behind.join before
      return {
        history := (common.history.or environment).getD defaultHistory
        format := common.format
        verbose := common.verbose
        command }
  | none => do
    let common := (← reading.settle).state.common
    checkEnvironment environment common
    .error (if common.anyGiven || environment.isSome then .commandMissing else .nothingGiven)

end BenchLedger.CommandLine
