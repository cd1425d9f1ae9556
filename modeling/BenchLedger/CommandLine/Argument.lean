import BenchLedger.Decimal.Literal

/-!
Reading the arguments of a command from left to right. Options may stand anywhere, with their
values behind them or attached; what is no option is a positional argument or names a command that
the rest belongs to. A value is examined when the next argument is understood, so of two faults the
one that is met first in this sense wins. After two dashes nothing is an option.
-/

namespace BenchLedger.CommandLine

/-- Why arguments give no command to run. -/
inductive UsageFault where
  | helpWanted
  | versionWanted
  | nothingGiven
  | commandMissing
  | unknownCommand (name : String)
  | unknownArgument (text : String)
  | argumentMissing (name : String)
  | valueMissing (name : String)
  | valueUnreadable (name value : String)
  | valueUnwanted (name value : String)
  | givenTwice (name : String)
  deriving DecidableEq, Repr

/-- An option or a positional argument, and how it changes what has been read. -/
structure Argument (σ : Type) where
  -- Two dashes and the name are an option.
  name : String
  -- One dash and the letter are the same option.
  letter : Option Char
  takesValue : Bool
  -- Whether the value may look like a negative number without being attached.
  takesNegative : Bool
  -- Whether it must not be given again.
  isGiven : σ → Bool
  -- Takes the value, which is empty for a flag.
  take : String → σ → Except UsageFault σ

namespace Argument

/-- An argument whose value has a meaning of some type. -/
def single {σ α : Type} (name : String) (letter : Option Char)
    (meaning : String → String → Except UsageFault α) (get : σ → Option α)
    (set : α → σ → σ) : Argument σ where
  name
  letter
  takesValue := true
  takesNegative := false
  isGiven s := (get s).isSome
  take value s := do return set (← meaning name value) s

/-- An option that may be given again and again. -/
def repeatable {σ : Type} (name : String) (add : String → σ → σ) : Argument σ where
  name
  letter := none
  takesValue := true
  takesNegative := false
  isGiven _ := false
  take value s := .ok (add value s)

def flag {σ : Type} (name : String) (letter : Option Char) (get : σ → Bool) (set : σ → σ) :
    Argument σ where
  name
  letter
  takesValue := false
  takesNegative := false
  isGiven := get
  take _ s := .ok (set s)

def stop {σ : Type} (name : String) (letter : Char) (fault : UsageFault) : Argument σ where
  name
  letter := some letter
  takesValue := false
  takesNegative := false
  isGiven _ := false
  take _ _ := .error fault

def allowNegative {σ : Type} (a : Argument σ) : Argument σ :=
  { a with takesNegative := true }

/-- The same argument where its state is a part of a larger one. -/
def within {σ τ : Type} (get : τ → σ) (set : σ → τ → τ) (a : Argument σ) : Argument τ :=
  { a with
    isGiven := fun t => a.isGiven (get t)
    take := fun value t => do return set (← a.take value (get t)) t }

end Argument

/-! ### Meanings of values -/

def anyText (_name value : String) : Except UsageFault String :=
  .ok value

def path (name value : String) : Except UsageFault String :=
  if value.isEmpty then .error (.valueMissing name) else .ok value

def readBy {α : Type} (meaning : String → Option α) (name value : String) : Except UsageFault α :=
  match meaning value with
  | some v => .ok v
  | none => .error (.valueUnreadable name value)

def wholeNumber : String → String → Except UsageFault Int :=
  readBy fun value => Text.signed? 64 value.toList

def ratio : String → String → Except UsageFault Float :=
  readBy fun value => Decimal.float? value.toList

/-! ### Tokens -/

inductive Token where
  -- Two dashes.
  | separator
  -- Two dashes, a name, and perhaps an equals sign and a value.
  | long (name : String) (value : Option String)
  -- One dash and at least one letter.
  | short (letters : List Char)
  | plain
  deriving DecidableEq, Repr

def Token.ofText (text : String) : Token :=
  match text.toList with
  | ['-', '-'] => .separator
  | '-' :: '-' :: rest =>
    let name := rest.takeWhile (· != '=')
    let value := match rest.dropWhile (· != '=') with
      | _ :: value => some (String.ofList value)
      | [] => none
    .long (String.ofList name) value
  | '-' :: c :: rest => .short (c :: rest)
  | _ => .plain

/-- Digits with at most one dot, which is not in front, and at most one exponent, which is neither
in front nor at the end and comes after the dot. -/
def looksNumeric (cs : List Char) : Bool :=
  let number := cs.takeWhile (· != 'e')
  let whole := number.takeWhile (· != '.')
  let digits (cs : List Char) : Bool := cs.all Char.isDigit
  !whole.isEmpty && digits whole && digits (number.drop (whole.length + 1)) &&
    match cs.drop number.length with
    | [] => true
    | _ :: exponent => !exponent.isEmpty && digits exponent

/-! ### Reading -/

structure Grammar (σ : Type) where
  options : List (Argument σ)
  positionals : List (Argument σ)
  -- The names of the commands below this one.
  commands : List String

/-- An argument that has been met but not taken yet. -/
inductive Pending (σ : Type) where
  | nothing
  -- An option whose value comes next.
  | awaiting (a : Argument σ)
  -- An argument whose value has not been examined.
  | holding (a : Argument σ) (value : String)

structure Reading (σ : Type) where
  state : σ
  pending : Pending σ
  -- The positional arguments to come.
  positionals : List (Argument σ)
  -- Whether two dashes have been met.
  separated : Bool

variable {σ : Type}

namespace Grammar

def option? (g : Grammar σ) (name : String) : Option (Argument σ) :=
  g.options.find? (·.name == name)

def letter? (g : Grammar σ) (c : Char) : Option (Argument σ) :=
  g.options.find? (·.letter == some c)

def start (g : Grammar σ) (state : σ) : Reading σ where
  state
  pending := .nothing
  positionals := g.positionals
  separated := false

end Grammar

namespace Reading

def take (r : Reading σ) (a : Argument σ) (value : String) : Except UsageFault (Reading σ) :=
  if a.isGiven r.state then .error (.givenTwice a.name)
  else do return { r with state := ← a.take value r.state, pending := .nothing }

/-- Takes the argument that is pending, if any. -/
def settle (r : Reading σ) : Except UsageFault (Reading σ) :=
  match r.pending with
  | .nothing => .ok r
  | .awaiting a => .error (.valueMissing a.name)
  | .holding a value => r.take a value

/-- Takes an argument whose value is at hand. -/
def takeNow (r : Reading σ) (a : Argument σ) (value : String) : Except UsageFault (Reading σ) := do
  (← r.settle).take a value

/-- Waits for the value of an option. -/
def await (r : Reading σ) (a : Argument σ) : Except UsageFault (Reading σ) := do
  return { ← r.settle with pending := .awaiting a }

def hold (r : Reading σ) (a : Argument σ) (value : String) : Reading σ :=
  { r with pending := .holding a value }

/-- Whether the next argument may name a command. -/
def mayNameCommand (r : Reading σ) : Bool :=
  match r.pending with
  | .awaiting _ => false
  | _ => !r.separated

/-- Reads an option given by its name. -/
def readLong (g : Grammar σ) (r : Reading σ) (name : String) (value : Option String) :
    Except UsageFault (Reading σ) :=
  match g.option? name with
  | none => .error (.unknownArgument ("--" ++ name))
  | some a =>
    match a.takesValue, value with
    | true, some value => r.takeNow a value
    | true, none => r.await a
    | false, some value => .error (.valueUnwanted name value)
    | false, none => r.takeNow a ""

/-- Reads options given by their letters; the first that takes a value takes all letters after
it, or what follows an equals sign. -/
def readShort (g : Grammar σ) (r : Reading σ) : List Char → Except UsageFault (Reading σ)
  | [] => .ok r
  | c :: rest =>
    match g.letter? c with
    | none => .error (.unknownArgument (String.ofList ['-', c]))
    | some a =>
      if a.takesValue then
        match rest with
        | [] => r.await a
        | '=' :: value => r.takeNow a (String.ofList value)
        | value => r.takeNow a (String.ofList value)
      else do readShort g (← r.takeNow a "") rest

def readPositional (g : Grammar σ) (r : Reading σ) (text : String) :
    Except UsageFault (Reading σ) :=
  match r.positionals with
  | a :: rest => do return { (← r.settle).hold a text with positionals := rest }
  | [] =>
    .error <|
      if g.commands.isEmpty || (r.separated && g.commands.contains text) then
        .unknownArgument text
      else .unknownCommand text

def read (g : Grammar σ) (r : Reading σ) (text : String) : Except UsageFault (Reading σ) :=
  if r.separated then r.readPositional g text
  else match Token.ofText text, r.pending with
    | .separator, _ => .ok { r with separated := true }
    | .long name value, _ => r.readLong g name value
    | .short letters, .awaiting a =>
      if a.takesNegative && looksNumeric letters then .ok (r.hold a text)
      else r.readShort g letters
    | .short letters, _ => r.readShort g letters
    | .plain, .awaiting a => .ok (r.hold a text)
    | .plain, _ => r.readPositional g text

/-- Reads arguments up to the name of a command, which is given with the arguments after it. -/
def readAll (g : Grammar σ) (r : Reading σ) :
    List String → Except UsageFault (Reading σ × Option (String × List String))
  | [] => .ok (r, none)
  | text :: rest =>
    if r.mayNameCommand && g.commands.contains text then .ok (r, some (text, rest))
    else do readAll g (← r.read g text) rest

end Reading

end BenchLedger.CommandLine
