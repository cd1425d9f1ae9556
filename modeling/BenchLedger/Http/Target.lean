import BenchLedger.Text.Blank
import BenchLedger.Text.Utf8
import BenchLedger.Json.Tree

/-!
Request targets: the path and the query of a URI, percent encoding, and the parameters of a query.
-/

namespace BenchLedger.Http

/-- The part of a URI that chooses a resource. -/
structure Target where
  path : List Char
  query : List Char

/-- Drops the scheme and the authority in front of a path. -/
def dropAuthority (uri : List Char) : List Char :=
  let rest := uri.dropWhile (· != ':')
  if uri.head? != some '/' && rest.take 3 == [':', '/', '/'] then
    let path := (rest.drop 3).dropWhile fun c => c != '/' && c != '?'
    if path.head? == some '/' then path else '/' :: path
  else uri

/-- Splits a URI; what follows a number sign is no part of a request. -/
def Target.ofUri (uri : String) : Target :=
  let cs := dropAuthority (uri.toList.takeWhile (· != '#'))
  ⟨cs.takeWhile (· != '?'), (cs.dropWhile (· != '?')).drop 1⟩

/-- The bytes that a percent-encoded text stands for. A percent sign without two hexadecimal digits
stands for itself. -/
def percentDecode : List Char → List Nat
  | [] => []
  | '%' :: a :: b :: rest =>
    match Json.hexValue? a, Json.hexValue? b with
    | some high, some low => (high * 16 + low) :: percentDecode rest
    | _, _ => '%'.toNat :: percentDecode (a :: b :: rest)
  | c :: rest => Text.utf8Bytes [c] ++ percentDecode rest

/-- A name or value of a form, in which a plus sign is a blank. -/
def formText (cs : List Char) : String :=
  Text.ofUtf8Lossy (percentDecode (cs.map fun c => if c == '+' then ' ' else c))

/-- One pair of a form: what stands before and after its first equals sign. -/
def formPair (cs : List Char) : String × String :=
  (formText (cs.takeWhile (· != '=')), formText ((cs.dropWhile (· != '=')).drop 1))

/-- The pairs of a query between its ampersands; empty ones do not count. -/
def formPairs (query : List Char) : List (String × String) :=
  ((Text.pieces (· == '&') query).filter (!·.isEmpty)).map formPair

end BenchLedger.Http
