import BenchLedger.Json.Tree
import BenchLedger.Run.Rejection
import BenchLedger.Text.Quoted

/-!
What can go wrong: a request is rejected, something it names is missing, or the history cannot be
stored or loaded.
-/

namespace BenchLedger

/-! ### Durations -/

/-- A number of milliseconds in the largest unit that leaves a whole part: seconds, with decimals
if needed, or milliseconds. -/
def durationText (millis : Nat) : String :=
  String.ofList <|
    if millis = 0 then "0ns".toList
    else if millis < 1000 then Text.digitsOf millis ++ "ms".toList
    else
      let decimals := ((Text.paddedDigits 3 (millis % 1000)).reverse.dropWhile (· == '0')).reverse
      let fraction := if decimals.isEmpty then [] else '.' :: decimals
      Text.digitsOf (millis / 1000) ++ fraction ++ ['s']

/-! ### Kinds of failure -/

/-- The history could not be stored or loaded. -/
inductive PersistenceError where
  -- The system refused to read or write a file.
  | io (path cause : String)
  -- The stored text is no history document.
  | undecodable (fault : Json.Fault)
  -- A save took longer than the given number of milliseconds.
  | timeout (millis : Nat)
  -- The place of storage has a reason of its own.
  | backend (reason : String)
  deriving DecidableEq, Repr

def PersistenceError.message : PersistenceError → String
  | .io path cause => "storage I/O error at " ++ Text.quoted path ++ ": " ++ cause
  | .undecodable fault => "history document serialization error: " ++ fault.label
  | .timeout millis => "flush timed out after " ++ durationText millis
  | .backend reason => "storage backend error: " ++ reason

/-- The message and those of its causes, outermost first. -/
def PersistenceError.chain (e : PersistenceError) : List String :=
  match e with
  | .io _ cause => [e.message, cause]
  | .undecodable fault => [e.message, fault.label]
  | .timeout _ | .backend _ => [e.message]

/-- Something that a request names is not in the store. -/
inductive Missing where
  | series (name : String)
  | commit (series commit : String)
  -- `scope` is the series or the commit that was searched.
  | benchmark (scope benchmark : String)
  deriving DecidableEq, Repr

def Missing.message : Missing → String
  | .series name => "series not found: " ++ name
  | .commit inSeries id => "commit " ++ id ++ " not found in series " ++ inSeries
  | .benchmark scope name => "benchmark " ++ name ++ " not found in " ++ scope

/-- Why an operation on a history did not succeed. -/
inductive Failure where
  | rejected (rejection : Rejection)
  | missing (what : Missing)
  | persistence (error : PersistenceError)

def Failure.message : Failure → String
  | .rejected r => r.message
  | .missing m => m.message
  | .persistence e => e.message

/-- The message and those of its causes, outermost first. -/
def Failure.chain : Failure → List String
  | .rejected r => [r.message]
  | .missing m => [m.message]
  | .persistence e => e.chain

end BenchLedger
