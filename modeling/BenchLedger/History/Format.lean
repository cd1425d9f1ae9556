import BenchLedger.Path
import BenchLedger.Text.LowerCase

/-!
The two encodings of a history file: the bare JSON object, and the same object assigned to a global
variable so that a page can load it as a script.
-/

namespace BenchLedger

inductive StorageFormat where
  | json
  | dataJs
  deriving DecidableEq, Repr

namespace StorageFormat

def name : StorageFormat → String
  | .json => "json"
  | .dataJs => "data_js"

/-- The spelling under which names are compared: lower case, with underscores. -/
def normalize (text : String) : String :=
  Text.hyphensToUnderscores (Text.lowerCase text)

def ofText? (text : String) : Option StorageFormat :=
  let n := normalize text
  if n == "json" then some .json
  else if n == "data_js" || n == "js" then some .dataJs
  else none

/-- What is said of a text that names no encoding. -/
def unknownMessage (text : String) : String :=
  "Unknown storage format `" ++ normalize text ++ "`. Supported formats: json, data_js"

/-- The encoding that a file's extension asks for. -/
def ofPath (path : String) : StorageFormat :=
  if Path.extension? path == some ['j', 's'] then .dataJs else .json

end StorageFormat

end BenchLedger
