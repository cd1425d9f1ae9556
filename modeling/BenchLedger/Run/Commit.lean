import BenchLedger.Calendar.Timestamp
import BenchLedger.Run.Record
import BenchLedger.Run.Rejection

/-!
Commit entries: the results of one run, attributed to the commit that was measured.
-/

namespace BenchLedger

open Calendar (Timestamp)

/-- Lengths of commit hashes, abbreviated ones included. -/
def shortestCommitHash : Nat := 4

def longestCommitHash : Nat := 64

def isHexDigit (c : Char) : Bool :=
  ('0' ≤ c && c ≤ '9') || ('a' ≤ c && c ≤ 'f') || ('A' ≤ c && c ≤ 'F')

/-- Whether a text looks like a commit hash. -/
def isCommitHash (id : String) : Bool :=
  let cs := id.toList
  shortestCommitHash ≤ cs.length && cs.length ≤ longestCommitHash && cs.all isHexDigit

structure Identity where
  name : String
  email : String
  -- The name on the code host, if known.
  username : Option String
  deriving DecidableEq, Repr

structure Commit where
  id : String
  timestamp : Timestamp
  author : Identity
  committer : Identity
  -- Whether the commit was the head of its branch at the time of the run.
  distinct : Bool
  message : Option String
  treeId : Option String
  url : Option String
  deriving DecidableEq, Repr

structure CommitEntry where
  commit : Commit
  -- The run time in milliseconds since 1970; orders the entries of a series.
  date : Int
  -- The harness that produced the results.
  tool : String
  -- The records in the order of the harness.
  benches : List BenchmarkRecord
  deriving DecidableEq

namespace CommitEntry

def id (e : CommitEntry) : String :=
  e.commit.id

def bench? (e : CommitEntry) (name : String) : Option BenchmarkRecord :=
  e.benches.find? (·.name == name)

/-- The run time, if it can be represented. -/
def runTime? (e : CommitEntry) : Option Timestamp :=
  Timestamp.ofMillis? e.date

end CommitEntry

/-! ### Documents -/

namespace Identity

def unknown : Identity :=
  ⟨"unknown", "unknown@localhost", none⟩

def toJson (i : Identity) : Json :=
  .objectOf [
    ("name", some (.string i.name)),
    ("email", some (.string i.email)),
    ("username", i.username.map .string)]

/-- An identity whose fields are being read. -/
structure Fields where
  name : Option String := none
  email : Option String := none
  username : Option (Option String) := none

open Json.Decoder in
def decoder : Json.Decoder Identity :=
  record [
    .of "name" string Fields.name fun v p => { p with name := some v },
    .of "email" string Fields.email fun v p => { p with email := some v },
    .of "username" (optional string) Fields.username fun v p => { p with username := some v }]
    {}
    fun p => do
      return {
        name := ← p.name
        email := ← p.email
        username := p.username.join }

end Identity

namespace Commit

def toJson (c : Commit) : Json :=
  .objectOf [
    ("id", some (.string c.id)),
    ("timestamp", some (.string c.timestamp.text)),
    ("author", some c.author.toJson),
    ("committer", some c.committer.toJson),
    ("distinct", some (.bool c.distinct)),
    ("message", c.message.map .string),
    ("tree_id", c.treeId.map .string),
    ("url", c.url.map .string)]

/-- A commit whose fields are being read. -/
structure Fields where
  id : Option String := none
  timestamp : Option Timestamp := none
  author : Option Identity := none
  committer : Option Identity := none
  distinct : Option Bool := none
  message : Option (Option String) := none
  treeId : Option (Option String) := none
  url : Option (Option String) := none

open Json.Decoder in
def decoder : Json.Decoder Commit :=
  record [
    .of "id" string Fields.id fun v p => { p with id := some v },
    .of "timestamp" (stringOf Timestamp.ofText?) Fields.timestamp
      fun v p => { p with timestamp := some v },
    .of "author" Identity.decoder Fields.author fun v p => { p with author := some v },
    .of "committer" Identity.decoder Fields.committer fun v p => { p with committer := some v },
    .of "distinct" truth Fields.distinct fun v p => { p with distinct := some v },
    .of "message" (optional string) Fields.message fun v p => { p with message := some v },
    .of "tree_id" (optional string) Fields.treeId fun v p => { p with treeId := some v },
    .of "url" (optional string) Fields.url fun v p => { p with url := some v }]
    {}
    fun p => do
      return {
        id := ← p.id
        timestamp := ← p.timestamp
        author := ← p.author
        committer := ← p.committer
        distinct := p.distinct.getD false
        message := p.message.join
        treeId := p.treeId.join
        url := p.url.join }

end Commit

namespace CommitEntry

def toJson (e : CommitEntry) : Json :=
  .objectOf [
    ("commit", some e.commit.toJson),
    ("date", some (.whole e.date)),
    ("tool", some (.string e.tool)),
    ("benches", some (.array (e.benches.map BenchmarkRecord.toJson)))]

/-- An entry whose fields are being read. -/
structure Fields where
  commit : Option Commit := none
  date : Option Int := none
  tool : Option String := none
  benches : Option (List BenchmarkRecord) := none

open Json.Decoder in
def decoder : Json.Decoder CommitEntry :=
  record [
    .of "commit" Commit.decoder Fields.commit fun v p => { p with commit := some v },
    .of "date" whole Fields.date fun v p => { p with date := some v },
    .of "tool" string Fields.tool fun v p => { p with tool := some v },
    .of "benches" (list BenchmarkRecord.decoder) Fields.benches
      fun v p => { p with benches := some v }]
    {}
    fun p => do
      return {
        commit := ← p.commit
        date := ← p.date
        tool := ← p.tool
        benches := ← p.benches }

def ofText (text : String) : Except Json.Fault CommitEntry :=
  Json.decode decoder text

end CommitEntry

end BenchLedger
