import BenchLedger.Text.Blank

/-!
Media types, as far as it takes to tell JSON from others: a type, a subtype that may have a suffix
behind its last plus sign, and parameters.
-/

namespace BenchLedger.Http

/-- The characters of names in a media type. -/
def isTokenChar (c : Char) : Bool :=
  c.isAlphanum || "!#$%&'*+-.^_`|~".toList.contains c

def isQuotedChar (c : Char) : Bool :=
  31 < c.toNat && c.toNat != 127

/-- What may follow a quoted parameter: blanks, up to the end or the next semicolon. -/
def afterQuoted : List Char → Option (List Char)
  | [] => some []
  | c :: rest =>
    if c == ';' then some rest else if c == ' ' then afterQuoted rest else none

/-- The text after the value of a parameter, up to the next one. -/
def afterValue (cs : List Char) : Option (List Char) :=
  match cs with
  | '"' :: first :: rest =>
    if !isQuotedChar first then none
    else
      let after := rest.dropWhile fun c => isQuotedChar c && c != '"'
      match after with
      | '"' :: more => afterQuoted more
      | _ => none
  | _ =>
    match cs.dropWhile isTokenChar with
    | [] => some []
    | ';' :: rest => if (cs.takeWhile isTokenChar).isEmpty then none else some rest
    | _ => none

/-- Whether the parameters behind a media type are well formed: names with values, blanks in front
of names. The fuel bounds their number. -/
def parametersOk : Nat → List Char → Bool
  | _, [] => true
  | 0, _ => false
  | fuel + 1, cs =>
    match cs.dropWhile (· == ' ') with
    | [] => true
    | rest =>
      let name := rest.takeWhile isTokenChar
      match rest.dropWhile isTokenChar with
      | '=' :: value =>
        if name.isEmpty then false
        else match afterValue value with
          | some more => parametersOk fuel more
          | none => false
      | _ => false

/-- Whether a subtype says JSON, before or behind its last plus sign. A plus sign in front of
everything separates nothing. -/
def isJsonSubtype (subtype : List Char) : Bool :=
  let suffix := (subtype.reverse.takeWhile (· != '+')).reverse
  if suffix.length + 1 < subtype.length then
    suffix == "json".toList || subtype.take (subtype.length - suffix.length - 1) == "json".toList
  else subtype == "json".toList

/-- Whether a media type says that a body is JSON. Letter case does not count. -/
def isJsonMediaType (text : String) : Bool :=
  let cs := text.toList.map Char.toLower
  let kind := cs.takeWhile (· != '/')
  let rest := (cs.dropWhile (· != '/')).drop 1
  let subtype := rest.takeWhile isTokenChar
  let parameters := rest.dropWhile isTokenChar
  kind == "application".toList && isJsonSubtype subtype &&
    cs.all (fun c => c == '\t' || (32 ≤ c.toNat && c.toNat < 127)) &&
    match parameters with
    | [] => true
    | ';' :: more => parametersOk more.length more
    | _ => false

end BenchLedger.Http
