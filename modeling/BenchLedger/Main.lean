import BenchLedger.CommandLine.Grammar
import BenchLedger.CommandLine.Help
import BenchLedger.CommandLine.Run
import Std.Time.DateTime.Timestamp

/-!
The program: real files and the real clock for the command line.
-/

namespace BenchLedger.Program

/-- An error number of the system, some of which come as negative words. -/
def magnitude (number : UInt32) : Nat :=
  if number.toNat < Nat.pow 2 31 then number.toNat else Nat.pow 2 32 - number.toNat

/-- What an error number of the system stands for. -/
def faultOfNumber (number : UInt32) (details : String) : FileFault :=
  match magnitude number with
  | 2 => .missing
  | 16 => .busy
  | 17 => .alreadyExists
  | 20 => .notDirectory
  | 21 => .isDirectory
  | 36 => .nameTooLong
  | n => .other (details ++ " (os error " ++ toString n ++ ")")

def faultOf : IO.Error → FileFault
  | .alreadyExists _ n details | .interrupted _ n details | .noFileOrDirectory _ n details
  | .invalidArgument _ n details | .permissionDenied _ n details
  | .resourceExhausted _ n details | .inappropriateType _ n details | .noSuchThing _ n details
  | .otherError n details | .resourceBusy n details | .resourceVanished n details
  | .unsupportedOperation n details | .hardwareFault n details
  | .unsatisfiedConstraints n details | .illegalOperation n details | .protocolError n details
  | .timeExpired n details => faultOfNumber n details
  | .unexpectedEof => .other "unexpected end of file"
  | .userError text => .other text

/-- Turns a refusal of the system into a value. -/
def attempt {α : Type} (action : IO α) : IO (Except FileFault α) := do
  try return .ok (← action)
  catch e => return .error (faultOf e)

def bytesOf (content : ByteArray) : List Nat :=
  content.toList.map UInt8.toNat

def contentOf (bytes : List Nat) : ByteArray :=
  ⟨(bytes.map UInt8.ofNat).toArray⟩

/-- Writes a sibling of the file first and renames it, so that no reader meets half a file. -/
def saveFile (path : String) (bytes : List Nat) : IO (Except FileError Unit) := do
  let above := (Path.parent? path).getD ""
  let directory := if above.isEmpty then "." else above
  let name := String.ofList ((Path.fileName? path).getD [])
  let sibling := directory ++ "/." ++ name ++ "." ++ toString (← IO.rand 0 999999) ++ ".tmp"
  match ← attempt (do unless above.isEmpty do IO.FS.createDirAll above) with
  | .error fault => return .error ⟨above, fault⟩
  | .ok () => match ← attempt (IO.FS.writeBinFile sibling (contentOf bytes)) with
    | .error fault => return .error ⟨directory, fault⟩
    | .ok () => match ← attempt (IO.FS.rename sibling path) with
      | .error fault => do
        IO.FS.removeFile sibling
        return .error ⟨path, fault⟩
      | .ok () => return .ok ()

/-- All that is left of a stream. -/
partial def readToEnd (stream : IO.FS.Stream) (start : ByteArray) : IO ByteArray := do
  let more ← stream.read 65536
  if more.isEmpty then return start else readToEnd stream (start ++ more)

def host : Host IO where
  readFile path := attempt (bytesOf <$> IO.FS.readBinFile path)
  saveFile := saveFile
  readInput := attempt (do return bytesOf (← readToEnd (← IO.getStdin) .empty))
  now := do return (← Std.Time.Timestamp.now).toMillisecondsSinceUnixEpoch.val

/-- Reports a command line that gives no command to run. -/
def reportUsage (fault : CommandLine.UsageFault) : IO UInt32 := do
  if fault.isWish then
    IO.println fault.message
    return 0
  else
    IO.eprintln fault.message
    return 2

/-- Prints what a run printed, and gives the exit status. -/
def finish (report : CommandLine.Report) : IO UInt32 := do
  IO.print report.text
  match report.ending with
  | .ok .success => return 0
  | .ok .regression => return 2
  | .error e =>
    IO.eprintln ("Error: " ++ ": ".intercalate e.chain)
    return 1

end BenchLedger.Program

def main (arguments : List String) : IO UInt32 := do
  let environment ← IO.getEnv "BENCH_HISTORY_PATH"
  match BenchLedger.CommandLine.Invocation.ofArguments environment arguments with
  | .error fault => BenchLedger.Program.reportUsage fault
  | .ok invocation =>
    BenchLedger.Program.finish (← invocation.run BenchLedger.Program.host)
