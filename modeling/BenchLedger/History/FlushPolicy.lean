import BenchLedger.Text.LowerCase

/-!
When appended entries reach durable storage, and how a store is set up.
-/

namespace BenchLedger

inductive FlushPolicy where
  -- Every ingestion flushes before it returns.
  | onAppend
  -- A background task flushes some time after an append.
  | interval
  -- Only explicit flushes write.
  | manual
  deriving DecidableEq, Repr

namespace FlushPolicy

def name : FlushPolicy → String
  | .onAppend => "on_append"
  | .interval => "interval"
  | .manual => "manual"

def title : FlushPolicy → String
  | .onAppend => "OnAppend"
  | .interval => "Interval"
  | .manual => "Manual"

/-- The spelling under which names are compared: lower case, with underscores. -/
def normalize (text : String) : String :=
  Text.hyphensToUnderscores (Text.lowerCase text)

def ofText? (text : String) : Option FlushPolicy :=
  let n := normalize text
  if n == "on_append" then some .onAppend
  else if n == "interval" then some .interval
  else if n == "manual" then some .manual
  else none

/-- What is said of a text that names no policy. -/
def unknownMessage (text : String) : String :=
  "Unknown flush policy `" ++ normalize text ++ "`. Supported: on_append, interval, manual"

end FlushPolicy

structure StoreConfig where
  policy : FlushPolicy := .interval
  -- Milliseconds for which the background task waits after an append.
  interval : Nat := 30000
  -- Milliseconds that one save may take.
  timeout : Nat := 10000
  -- Written into the history in place of the one it had.
  repoUrl : Option String := none
  deriving DecidableEq, Repr

end BenchLedger
