import BenchLedger.Text.Blank

/-!
Paths of files: components between slashes, of which empty ones never count and a single dot counts
only in front.
-/

namespace BenchLedger.Path

def pieces (path : String) : List (List Char) :=
  Text.pieces (· == '/') path.toList

def isAbsolute (path : String) : Bool :=
  path.toList.head? == some '/'

/-- Whether the piece at a position is a component. -/
def counts (position : Nat) (piece : List Char) : Bool :=
  !piece.isEmpty && (piece != ['.'] || position == 0)

/-- The components with the positions of their pieces. -/
def placed (path : String) : List (List Char × Nat) :=
  (pieces path).zipIdx.filter fun p => counts p.2 p.1

def components (path : String) : List (List Char) :=
  (placed path).map (·.1)

def join (ps : List (List Char)) : String :=
  String.ofList (List.intercalate ['/'] ps)

/-- The last component, unless it is one or two dots. -/
def fileName? (path : String) : Option (List Char) :=
  match (components path).getLast? with
  | some name => if name == ['.'] || name == ['.', '.'] then none else some name
  | none => none

/-- What follows the last dot of the file name, if something stands in front of that dot. -/
def extension? (path : String) : Option (List Char) := do
  let name ← fileName? path
  let ending := (name.reverse.takeWhile (· != '.')).reverse
  if ending.length + 1 < name.length then some ending else none

/-- The path up to the component before the last; empty if there is none, and nothing for a path
without components. -/
def parent? (path : String) : Option String :=
  match (placed path).reverse with
  | [] => none
  | [_] => some (if isAbsolute path then "/" else "")
  | _ :: (_, position) :: _ => some (join ((pieces path).take (position + 1)))

end BenchLedger.Path
