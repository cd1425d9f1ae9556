import BenchLedger.Toml.Scalar

/-!
Documents of the configuration language TOML, version 1.0: tables under headers, dotted keys, arrays
and inline tables. A table is defined once; a header may add to a table that was only implied by
longer headers, and dotted keys may add to tables that dotted keys made.
-/

namespace BenchLedger.Toml

inductive Value where
  | scalar (value : Scalar)
  | array (items : List Value)
  | table (members : List (String × Value))

/-- How a table came to be, as far as it decides what may still be added to it. -/
inductive Origin where
  -- By a header of its own, or as the whole document.
  | defined
  -- As a part of a longer header.
  | implied
  -- As a part of a dotted key.
  | dotted
  deriving DecidableEq, Repr

inductive Node where
  -- A value that nothing can be added to.
  | value (v : Value)
  | table (origin : Origin) (members : List (String × Node))
  -- The tables of an array, the last one first.
  | tables (items : List Node)

/-- The members of a table under construction. -/
structure Members where
  origin : Origin
  members : List (String × Node)

def Members.empty (origin : Origin) : Members :=
  ⟨origin, []⟩

def find? (name : String) (members : List (String × Node)) : Option Node :=
  (members.find? (·.1 == name)).map (·.2)

/-- Puts a node under a name, in place of an earlier one. -/
def replace (name : String) (node : Node) (members : List (String × Node)) :
    List (String × Node) :=
  if members.any (·.1 == name) then
    members.map fun m => if m.1 == name then (m.1, node) else m
  else members ++ [(name, node)]

/-- Puts a node under a name behind all others. -/
def replaceLast (name : String) (node : Node) (members : List (String × Node)) :
    List (String × Node) :=
  members.filter (·.1 != name) ++ [(name, node)]

/-- Changes the table at the end of a path, making the tables on the way that are missing. `byDots`
says whether a dotted key or a header leads there; a dotted key may not pass a defined table. -/
def update (byDots : Bool) (change : Members → Option Members) :
    List String → Members → Option Members
  | [], t => change t
  | name :: path, t => do
    let node ← match find? name t.members with
      | none => do
        let t ← update byDots change path (.empty (if byDots then .dotted else .implied))
        pure (.table t.origin t.members)
      | some (.table origin members) =>
        if byDots && origin == .defined then none
        else do
          let t ← update byDots change path ⟨origin, members⟩
          pure (.table t.origin t.members)
      | some (.tables (.table origin members :: earlier)) => do
        let t ← update byDots change path ⟨origin, members⟩
        pure (.tables (.table t.origin t.members :: earlier))
      | some _ => none
    return { t with members := replace name node t.members }

/-- Adds a member to the table that a key leads to. -/
def addPair (key : List String) (v : Value) (t : Members) : Option Members :=
  match key.reverse with
  | [] => none
  | name :: path =>
    update true
      (fun t =>
        if (t.origin == .dotted) == path.isEmpty then none
        else match find? name t.members with
          | some _ => none
          | none => some { t with members := t.members ++ [(name, .value v)] })
      path.reverse t

mutual

def Node.finish : Node → Value
  | .value v => v
  | .table _ members => .table (finishMembers members)
  | .tables items => .array (finishAll items).reverse

def finishMembers : List (String × Node) → List (String × Value)
  | [] => []
  | (name, node) :: rest => (name, node.finish) :: finishMembers rest

def finishAll : List Node → List Value
  | [] => []
  | node :: rest => node.finish :: finishAll rest

end

/-! ### Moments as tables -/

/-- A table whose first member has this name stands for the moment that the member spells. -/
def momentName : String := "$__toml_private_datetime"

def momentOf? : Value → Option Value
  | .scalar (.string s) => (moment? .spelled s.toList).map fun text => .scalar (.moment text)
  | _ => none

mutual

/-- Puts moments in the place of the tables that stand for them. -/
def Value.settle? : Value → Option Value
  | .scalar v => some (.scalar v)
  | .array items => do return .array (← settleItems? items)
  | .table members => settleTable? members

def settleItems? : List Value → Option (List Value)
  | [] => some []
  | v :: vs => do return (← v.settle?) :: (← settleItems? vs)

def settleTable? : List (String × Value) → Option Value
  | [] => some (.table [])
  | (name, v) :: rest =>
    if name == momentName then momentOf? v
    else do return .table ((name, ← v.settle?) :: (← settleMembers? rest))

def settleMembers? : List (String × Value) → Option (List (String × Value))
  | [] => some []
  | (name, v) :: rest => do return (name, ← v.settle?) :: (← settleMembers? rest)

end

/-! ### Reading keys and values -/

def isKeyChar (c : Char) : Bool :=
  c.isAlphanum || c == '_' || c == '-'

def takeKeyPart (cs : List Char) : Option (String × List Char) :=
  match cs with
  | [] => none
  | c :: _ =>
    if c == '"' || c == '\'' then takeLine? cs
    else
      let name := cs.takeWhile isKeyChar
      if name.isEmpty then none else some (String.ofList name, cs.dropWhile isKeyChar)

/-- Keys have fewer parts, and fewer values nest. -/
def depthLimit : Nat := 80

/-- Reads a key and the blanks after it. -/
def takeKey : Nat → List Char → Option (List String × List Char)
  | 0, _ => none
  | fuel + 1, cs => do
    let (name, rest) ← takeKeyPart cs
    match skipBlanks rest with
    | '.' :: rest => do
      let (path, rest) ← takeKey fuel (skipBlanks rest)
      return (name :: path, rest)
    | rest => return ([name], rest)

/-- The text after a comment, if one begins here. -/
def skipComment (cs : List Char) : List Char :=
  match cs with
  | '#' :: rest => rest.dropWhile isPlain
  | _ => cs

/-- Skips blanks, line ends and comments between the items of an array. -/
def skipLines : Nat → List Char → List Char
  | 0, cs => cs
  | fuel + 1, cs =>
    let cs := skipBlanks cs
    let after := skipComment cs
    match afterNewline? after with
    | some rest => skipLines fuel rest
    | none => cs

/-- Reads the items of an array up to its end, with `takeItem` for one item. -/
def takeItems (takeItem : List Char → Option (Value × List Char)) :
    Nat → List Char → Option (List Value × List Char)
  | 0, _ => none
  | fuel + 1, cs =>
    match skipLines cs.length cs with
    | ']' :: rest => some ([], rest)
    | cs => do
      let (v, rest) ← takeItem cs
      match skipLines rest.length rest with
      | ']' :: rest => return ([v], rest)
      | ',' :: rest => do
        let (vs, rest) ← takeItems takeItem fuel rest
        return (v :: vs, rest)
      | _ => none

/-- Reads the members of an inline table up to its end, with `takeItem` for one value. -/
def takeMembers (takeItem : List Char → Option (Value × List Char)) :
    Nat → Members → List Char → Option (Members × List Char)
  | 0, _, _ => none
  | fuel + 1, t, cs => do
    let (key, rest) ← takeKey (depthLimit - 1) (skipBlanks cs)
    let rest ← expect? '=' rest
    let (v, rest) ← takeItem (skipBlanks rest)
    let t ← addPair key v t
    match skipBlanks rest with
    | ',' :: rest => takeMembers takeItem fuel t rest
    | c :: rest => if c.toNat == 0x7D then return (t, rest) else none
    | [] => none

/-- Reads a value in which less than the given number of arrays and tables nest. -/
def takeValue : Nat → List Char → Option (Value × List Char)
  | 0, _ => none
  | depth + 1, cs =>
    match cs with
    | [] => none
    | c :: rest =>
      if c == '"' || c == '\'' then
        (takeText? cs).map fun p => (.scalar (.string p.1), p.2)
      else if (c == '[' || c.toNat == 0x7B) && depth = 0 then none
      else if c == '[' then
        (takeItems (takeValue depth) (rest.length + 1) rest).map fun p => (.array p.1, p.2)
      else if c.toNat == 0x7B then
        match skipBlanks rest with
        | [] => none
        | e :: after =>
          if e.toNat == 0x7D then some (.table [], after)
          else
            (takeMembers (takeValue depth) (rest.length + 1) (.empty .defined) rest).map fun p =>
              (.table (finishMembers p.1.members), p.2)
      else
        let (word, rest) := spanWord cs
        (word? word).map fun v => (.scalar v, rest)

/-! ### Reading documents -/

/-- One line of a document, as far as it says something. -/
inductive Statement where
  | pair (key : List String) (value : Value)
  | header (path : List String)
  | arrayHeader (path : List String)

/-- The text after the end of a line: blanks and a comment may precede it. -/
def takeLineEnd (cs : List Char) : Option (List Char) :=
  match skipComment (skipBlanks cs) with
  | [] => some []
  | rest => afterNewline? rest

/-- Reads one statement, without the end of its line. -/
def takeStatement (cs : List Char) : Option (Statement × List Char) :=
  match cs with
  | '[' :: '[' :: rest => do
    let (path, rest) ← takeKey (depthLimit - 1) (skipBlanks rest)
    match rest with
    | ']' :: ']' :: rest => return (.arrayHeader path, rest)
    | _ => none
  | '[' :: rest => do
    let (path, rest) ← takeKey (depthLimit - 1) (skipBlanks rest)
    let rest ← expect? ']' rest
    return (.header path, rest)
  | _ => do
    let (key, rest) ← takeKey (depthLimit - 1) cs
    let rest ← expect? '=' rest
    let (v, rest) ← takeValue depthLimit (skipBlanks rest)
    return (.pair key v, rest)

/-- Reads all statements. The fuel bounds the lines. -/
def takeStatements : Nat → List Char → Option (List Statement)
  | 0, _ => none
  | fuel + 1, cs =>
    match skipBlanks cs with
    | [] => some []
    | cs =>
      match takeLineEnd cs with
      | some rest => takeStatements fuel rest
      | none => do
        let (s, rest) ← takeStatement cs
        let rest ← takeLineEnd rest
        return s :: (← takeStatements fuel rest)

/-- A document under construction: all of it but the table of the last header, and that table. -/
structure Draft where
  root : Members
  -- The path of the last header, none before the first.
  path : List String
  inArray : Bool
  current : Members

/-- Puts the table of the last header into its place. A table comes where its header is, also one
that longer headers implied before. -/
def Draft.close (d : Draft) : Option Members :=
  match d.path.reverse with
  | [] => some d.current
  | name :: path =>
    let node : Node := .table d.current.origin d.current.members
    update false
      (fun t =>
        if d.inArray then
          match find? name t.members with
          | none => some { t with members := replace name (.tables [node]) t.members }
          | some (.tables items) =>
            some { t with members := replace name (.tables (node :: items)) t.members }
          | some _ => none
        else some { t with members := replaceLast name node t.members })
      path.reverse d.root

/-- What is at the end of a path, if anything; the tables on the way have to be tables. -/
def lookUp (path : List String) (t : Members) : Option (Option Node) :=
  match path with
  | [] => none
  | [name] => some (find? name t.members)
  | name :: rest =>
    match find? name t.members with
    | none => some none
    | some (.table origin members) => lookUp rest ⟨origin, members⟩
    | some (.tables (.table origin members :: _)) => lookUp rest ⟨origin, members⟩
    | some _ => none

def Draft.add (d : Draft) : Statement → Option Draft
  | .pair key v => do return { d with current := ← addPair key v d.current }
  | .header path => do
    let root ← d.close
    let current ← match ← lookUp path root with
      | none => some (.empty .defined)
      | some (.table .implied members) => some ⟨.defined, members⟩
      | some _ => none
    return ⟨root, path, false, current⟩
  | .arrayHeader path => do
    let root ← d.close
    match ← lookUp path root with
    | none | some (.tables _) => return ⟨root, path, true, .empty .defined⟩
    | some _ => none

def dropMark (cs : List Char) : List Char :=
  match cs with
  | c :: rest => if c.toNat == 0xFEFF then rest else cs
  | [] => []

/-- The members of a document. One that stands for a moment has none, and is refused. -/
def read? (text : String) : Option (List (String × Value)) := do
  let cs := dropMark text.toList
  let statements ← takeStatements (cs.length + 1) cs
  let start : Draft := ⟨.empty .defined, [], false, .empty .defined⟩
  let d ← statements.foldlM Draft.add start
  match ← settleTable? (finishMembers (← d.close).members) with
  | .table members => return members
  | _ => none

end BenchLedger.Toml
