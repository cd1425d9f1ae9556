import BenchLedger.Files.Fault
import BenchLedger.Path
import BenchLedger.Text.Utf8

/-!
A disk in memory: what is at each place, and how paths lead to places. Every name of a path but the
last has to be that of a directory. A file is replaced as a whole, after the directories above it
have been made.
-/

namespace BenchLedger

/-- The names that lead from the root to a place. -/
abbrev Place := List String

inductive FileNode where
  | file (bytes : List Nat)
  | directory
  deriving DecidableEq, Repr

structure Disk where
  -- What is below the root.
  nodes : List (Place × FileNode)
  -- Where paths begin that do not begin at the root.
  home : Place

namespace Disk

/-! ### Places -/

/-- What is at a place. The root is a directory. -/
def node? (d : Disk) (p : Place) : Option FileNode :=
  if p = [] then some .directory else (d.nodes.find? (·.1 = p)).map (·.2)

/-- Puts something at a place, in place of what is there. -/
def put (d : Disk) (p : Place) (n : FileNode) : Disk :=
  { d with nodes := (p, n) :: d.nodes.filter (·.1 ≠ p) }

def isDirectory (d : Disk) (p : Place) : Bool :=
  d.node? p == some .directory

/-- The bytes of the file at a place. -/
def fileAt? (d : Disk) (p : Place) : Option (List Nat) :=
  match d.node? p with
  | some (.file bytes) => some bytes
  | _ => none

/-- Below the root, a place holds what was put there last. -/
theorem node?_put (d : Disk) {p : Place} (n : FileNode) (hp : p ≠ []) (q : Place) :
    (d.put p n).node? q = if q = p then some n else d.node? q := by
  by_cases h : q = p
  · subst h
    simp [put, node?, hp]
  · have hp' : p ≠ q := fun e => h e.symm
    have : (fun a : Place × FileNode => !decide (a.1 = p) && decide (a.1 = q)) =
        fun a => decide (a.1 = q) := by
      funext a
      by_cases ha : a.1 = q <;> simp [ha, h]
    simp [put, node?, h, hp', this]

/-! ### Paths -/

def longestName : Nat := 255

def longestPath : Nat := 4095

/-- The names in a path, dots included. -/
def names (path : String) : List String :=
  ((Path.pieces path).filter (!·.isEmpty)).map String.ofList

def endsInSlash (path : String) : Bool :=
  path.toList.getLast? == some '/'

def start (d : Disk) (path : String) : Place :=
  if Path.isAbsolute path then [] else d.home

/-- Refuses what is no path at all. -/
def checkPath (path : String) : Except FileFault Unit :=
  if path.toList.contains (Char.ofNat 0) then .error .zeroCharacter
  else if path.isEmpty then .error .missing
  else if longestPath < path.utf8ByteSize then .error .nameTooLong
  else .ok ()

def checkDirectory (d : Disk) (p : Place) : Except FileFault Unit :=
  match d.node? p with
  | some .directory => .ok ()
  | some (.file _) => .error .notDirectory
  | none => .error .missing

/-- The place of a name in a directory. One dot stands for the directory, two for the one above. -/
def child (p : Place) (name : String) : Except FileFault Place :=
  if name = "." then .ok p
  else if name = ".." then .ok p.dropLast
  else if longestName < name.utf8ByteSize then .error .nameTooLong
  else .ok (p ++ [name])

def enter (d : Disk) : Place → List String → Except FileFault Place
  | p, [] => do
    d.checkDirectory p
    return p
  | p, name :: rest => do
    d.checkDirectory p
    d.enter (← child p name) rest

/-- What the last name of a path stands for. -/
inductive Target where
  -- A directory that was met on the way.
  | onTheWay
  -- The entry of a directory, which need not exist.
  | entry (p : Place)
  deriving DecidableEq, Repr

def target (d : Disk) (p : Place) (names : List String) : Except FileFault Target :=
  match names.getLast? with
  | none => .ok .onTheWay
  | some name => do
    let above ← d.enter p names.dropLast
    if name = "." ∨ name = ".." then return .onTheWay
    return .entry (← child above name)

/-! ### Reading -/

/-- The bytes of a file. A slash at the end asks for a directory. -/
def read (d : Disk) (path : String) : Except FileFault (List Nat) := do
  checkPath path
  let slash := if endsInSlash path then ["."] else []
  match ← d.target (d.start path) (names path ++ slash) with
  | .onTheWay => .error .isDirectory
  | .entry p => match d.node? p with
    | some (.file bytes) => .ok bytes
    | some .directory => .error .isDirectory
    | none => .error .missing

/-! ### Writing -/

def makeDirectory (d : Disk) (p : Place) (names : List String) : Except FileFault Disk := do
  match ← d.target p names with
  | .onTheWay => .error .alreadyExists
  | .entry q =>
    if (d.node? q).isSome then .error .alreadyExists else .ok (d.put q .directory)

def leadsToDirectory (d : Disk) (p : Place) (names : List String) : Bool :=
  match d.enter p names with
  | .ok _ => true
  | .error _ => false

/-- Makes a directory, unless it exists, and those above it that are missing. The names are in
reverse. -/
def makeTree (d : Disk) (p : Place) : List String → Disk × Except FileFault Unit
  | [] => (d, .ok ())
  | name :: above =>
    let names := (name :: above).reverse
    let settle (d : Disk) (fault : FileFault) : Disk × Except FileFault Unit :=
      (d, if d.leadsToDirectory p names then .ok () else .error fault)
    match d.makeDirectory p names with
    | .ok d => (d, .ok ())
    | .error .missing =>
      match d.makeTree p above with
      | (d, .error fault) => (d, .error fault)
      | (d, .ok ()) => match d.makeDirectory p names with
        | .ok d => (d, .ok ())
        | .error fault => settle d fault
    | .error fault => settle d fault

/-- Makes the directories of a path that are missing. -/
def makeDirectories (d : Disk) (path : String) : Disk × Except FileFault Unit :=
  if path.isEmpty then (d, .ok ())
  else match checkPath path with
    | .error fault => (d, .error fault)
    | .ok () => d.makeTree (d.start path) (names path).reverse

/-- Puts a whole file in the place of what a path names. -/
def replace (d : Disk) (path : String) (bytes : List Nat) : Except FileFault Disk := do
  checkPath path
  match ← d.target (d.start path) (names path) with
  | .onTheWay => .error .busy
  | .entry p =>
    if endsInSlash path then .error .notDirectory
    else if d.isDirectory p then .error .isDirectory
    else .ok (d.put p (.file bytes))

/-- Makes the directories above a file, then replaces the file.

What stands in between is left out: the bytes are first written to a sibling, named
`.{name}.XXXXXX.tmp` with six random letters or digits, which then takes the place of the file.
Names from 244 bytes on leave that name no room, and a path near `longestPath` may leave it none, so
that such a file cannot be saved although it may be here. Permissions and the room on the disk are
left out as well. -/
def save (d : Disk) (path : String) (bytes : List Nat) : Disk × Except FileError Unit :=
  let above := (Path.parent? path).getD ""
  match d.makeDirectories above with
  | (d, .error fault) => (d, .error ⟨above, fault⟩)
  | (d, .ok ()) => match d.replace path bytes with
    | .ok d => (d, .ok ())
    | .error fault => (d, .error ⟨path, fault⟩)

/-! ### Listing -/

/-- Whether one place comes before another or is the same: name by name in increasing order. -/
def notAfter : Place → Place → Bool
  | [], _ => true
  | _ :: _, [] => false
  | a :: as, b :: bs => a < b || (a == b && notAfter as bs)

/-- The paths from home of all files below it, in increasing order. -/
def files (d : Disk) : List String :=
  let below := d.nodes.filterMap fun (p, n) =>
    match n with
    | .file _ => if d.home.isPrefixOf p then some (p.drop d.home.length) else none
    | .directory => none
  (below.mergeSort notAfter).map (String.intercalate "/")

end Disk

end BenchLedger
