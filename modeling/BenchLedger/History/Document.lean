import BenchLedger.History.Failure
import BenchLedger.History.Format
import BenchLedger.Run.Commit

/-!
The history document: what is stored of a history, and its two encodings.
-/

namespace BenchLedger

structure HistoryDocument where
  -- When the history was last written, in milliseconds since 1970.
  lastUpdate : Option Int
  -- The repository that the history belongs to.
  repoUrl : Option String
  entries : NameMap (List CommitEntry)

namespace HistoryDocument

def empty : HistoryDocument :=
  ⟨none, none, .empty⟩

/-- How many entries all series hold together. -/
def entryCount (d : HistoryDocument) : Nat :=
  d.entries.total List.length

/-- An object with one member for each name. -/
def seriesJson (entries : NameMap (List CommitEntry)) : Json :=
  .object (entries.pairs.map fun p => (p.1, .array (p.2.map CommitEntry.toJson)))

def toJson (d : HistoryDocument) : Json :=
  .objectOf [
    ("lastUpdate", d.lastUpdate.map .whole),
    ("repoUrl", d.repoUrl.map .string),
    ("entries", some (seriesJson d.entries))]

/-- A document whose fields are being read. -/
structure Fields where
  lastUpdate : Option (Option Int) := none
  repoUrl : Option (Option String) := none
  entries : Option (NameMap (List CommitEntry)) := none

open Json.Decoder in
def decoder : Json.Decoder HistoryDocument :=
  record [
    .of "lastUpdate" (optional whole) Fields.lastUpdate
      fun v p => { p with lastUpdate := some v },
    .of "repoUrl" (optional string) Fields.repoUrl fun v p => { p with repoUrl := some v },
    .of "entries" (nameMap (list CommitEntry.decoder)) Fields.entries
      fun v p => { p with entries := some v }]
    {}
    fun p => some {
      lastUpdate := p.lastUpdate.join
      repoUrl := p.repoUrl.join
      entries := p.entries.getD .empty }

/-- The global variable that the script form assigns. -/
def globalName : String :=
  "window.BENCHMARK_DATA"

/-- Removes `start` from the front of a text, if it stands there. -/
def afterStart? (start cs : List Char) : Option (List Char) :=
  if start.isPrefixOf cs then some (cs.drop start.length) else none

/-- The JSON text inside a stored text, which may be the script form with any blanks and any number
of semicolons around it. -/
def unwrap (text : List Char) : Except PersistenceError (List Char) :=
  let text := Text.trim text
  match afterStart? globalName.toList text with
  | none => .ok text
  | some rest =>
    match Text.trimStart rest with
    | '=' :: value => .ok ((Text.trim value).reverse.dropWhile (· == ';')).reverse
    | _ => .error (.backend ("`" ++ globalName ++ "` is not followed by an assignment"))

def decode (text : String) : Except PersistenceError HistoryDocument := do
  let json ← unwrap text.toList
  (Json.decode decoder (String.ofList json)).mapError .undecodable

/-- The text of a document, with a line for each item. -/
def encode (format : StorageFormat) (d : HistoryDocument) : String :=
  match format with
  | .json => d.toJson.pretty
  | .dataJs => globalName ++ " = " ++ d.toJson.pretty ++ "\n"

end HistoryDocument

end BenchLedger
