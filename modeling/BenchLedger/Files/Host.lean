import BenchLedger.Files.Disk

/-!
What a command can do to its surroundings, apart from printing: read and save files, read the
standard input, and look at the clock. The disk in memory is one host; a real system is another.
-/

namespace BenchLedger

structure Host (m : Type → Type) where
  -- The bytes of the file that a path names.
  readFile : String → m (Except FileFault (List Nat))
  -- Replaces a file as a whole, after the directories above it have been made.
  saveFile : String → List Nat → m (Except FileError Unit)
  readInput : m (Except FileFault (List Nat))
  -- Milliseconds since 1970.
  now : m Int

/-- A disk in memory, with a fixed input and a clock that stands still. -/
def Disk.host (input : List Nat) (now : Int) : Host (StateM Disk) where
  readFile path := do return (← get).read path
  saveFile path bytes := modifyGet fun d => ((d.save path bytes).2, (d.save path bytes).1)
  readInput := return .ok input
  now := return now

def textOf (bytes : Except FileFault (List Nat)) : Except FileFault String := do
  match Text.ofUtf8? (← bytes) with
  | some text => .ok text
  | none => .error .notText

end BenchLedger
