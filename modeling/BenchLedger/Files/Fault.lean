/-!
Why the system refuses to read or write a file, in the system's words and with its error numbers.
-/

namespace BenchLedger

inductive FileFault where
  | missing
  -- What is to be replaced is one of the names that every directory has.
  | busy
  | alreadyExists
  | notDirectory
  | isDirectory
  | nameTooLong
  -- The path has a zero character in it.
  | zeroCharacter
  -- What was read is not UTF-8.
  | notText
  -- Anything else, in words.
  | other (text : String)
  deriving DecidableEq, Repr

namespace FileFault

def message : FileFault → String
  | .missing => "No such file or directory (os error 2)"
  | .busy => "Device or resource busy (os error 16)"
  | .alreadyExists => "File exists (os error 17)"
  | .notDirectory => "Not a directory (os error 20)"
  | .isDirectory => "Is a directory (os error 21)"
  | .nameTooLong => "File name too long (os error 36)"
  | .zeroCharacter => "file name contained an unexpected NUL byte"
  | .notText => "stream did not contain valid UTF-8"
  | .other text => text

end FileFault

/-- A refusal and the path that it is about. -/
structure FileError where
  path : String
  fault : FileFault
  deriving DecidableEq, Repr

end BenchLedger
