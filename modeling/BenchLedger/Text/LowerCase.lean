import BenchLedger.Text.CaseTables

/-!
Lower case of a whole text, by Unicode's default rule: character by character, except that a
capital sigma at the end of a word becomes the final sigma.
-/

namespace BenchLedger.Text

/-- Whether a code point lies in a property given by the points where it is entered and left. -/
def inBounds (bounds : List Nat) (n : Nat) : Bool :=
  (bounds.takeWhile (· ≤ n)).length % 2 == 1

def isCaseIgnorable (c : Char) : Bool :=
  inBounds caseIgnorableBounds c.toNat

def isCased (c : Char) : Bool :=
  inBounds casedBounds c.toNat

def CaseRun.holds (r : CaseRun) (n : Nat) : Bool :=
  r.first ≤ n && n ≤ r.last && (n - r.first) % r.stride == 0

/-- The lower-case form of one character; only the dotted capital I has two characters. -/
def lowerChar (c : Char) : List Char :=
  let n := c.toNat
  if n == 0x130 then ['i', Char.ofNat 0x307]
  else match raisingRuns.find? (·.holds n) with
    | some r => [Char.ofNat (n + r.distance)]
    | none => match sinkingRuns.find? (·.holds n) with
      | some r => [Char.ofNat (n - r.distance)]
      | none => [c]

/-- Whether the first character that counts for case, looking along `cs`, has case. -/
def meetsCased (cs : List Char) : Bool :=
  match cs.dropWhile isCaseIgnorable with
  | c :: _ => isCased c
  | [] => false

/-- Lower case of `rest`, where `before` holds what precedes it, nearest first. -/
def lowerFrom (before : List Char) : List Char → List Char
  | [] => []
  | c :: rest =>
    let low :=
      if c == 'Σ' then
        if meetsCased before && !meetsCased rest then ['ς'] else ['σ']
      else lowerChar c
    low ++ lowerFrom (c :: before) rest

def lowerCase (s : String) : String :=
  String.ofList (lowerFrom [] s.toList)

/-- Lower case of the letters A to Z alone. -/
def asciiLowerCase (s : String) : String :=
  String.ofList (s.toList.map Char.toLower)

/-- The form in which option names are compared: each hyphen is read as an underscore. -/
def hyphensToUnderscores (s : String) : String :=
  String.ofList (s.toList.map fun c => if c == '-' then '_' else c)

end BenchLedger.Text
