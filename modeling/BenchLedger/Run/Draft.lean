import BenchLedger.Run.Commit

/-!
Drafts of commit entries: what a producer has said so far, with everything else left to be filled
in. The commit id has to be said; the commit time defaults to the run time, the committer to the
author, and the author to an unknown one.
-/

namespace BenchLedger

open Calendar (Timestamp)

/-- One thing that a producer says of an entry. -/
inductive EntryDetail where
  | id (id : String)
  | timestamp (timestamp : Timestamp)
  | author (author : Identity)
  | committer (committer : Identity)
  | distinct (distinct : Bool)
  | message (message : String)
  | url (url : String)
  -- The run time, in milliseconds since 1970.
  | date (millis : Int)
  | tool (tool : String)
  | bench (record : BenchmarkRecord)

structure EntryDraft where
  id : Option String := none
  timestamp : Option Timestamp := none
  author : Option Identity := none
  committer : Option Identity := none
  distinct : Bool := false
  message : Option String := none
  url : Option String := none
  -- The run time, or the present.
  date : Option Int := none
  tool : Option String := none
  benches : List BenchmarkRecord := []

namespace EntryDraft

def addBench (d : EntryDraft) (r : BenchmarkRecord) : EntryDraft :=
  { d with benches := d.benches ++ [r] }

/-- Takes one detail into account. A record is added to those before it; anything else takes the
place of what was said before. -/
def tell (d : EntryDraft) : EntryDetail → EntryDraft
  | .id id => { d with id := some id }
  | .timestamp timestamp => { d with timestamp := some timestamp }
  | .author author => { d with author := some author }
  | .committer committer => { d with committer := some committer }
  | .distinct distinct => { d with distinct }
  | .message message => { d with message := some message }
  | .url url => { d with url := some url }
  | .date millis => { d with date := some millis }
  | .tool tool => { d with tool := some tool }
  | .bench r => d.addBench r

def ofDetails (details : List EntryDetail) : EntryDraft :=
  details.foldl tell {}

/-- Completes a draft. `now` is the present, in milliseconds since 1970. -/
def build (d : EntryDraft) (now : Int) : Except Rejection CommitEntry := do
  let id ← d.id.elim (.error .noCommit) .ok
  let date := d.date.getD now
  let timestamp ← match d.timestamp with
    | some t => .ok t
    | none => (Timestamp.ofMillis? date).elim (.error .unrepresentableRunTime) .ok
  let author := d.author.getD .unknown
  return {
    commit := {
      id, timestamp, author
      committer := d.committer.getD author
      distinct := d.distinct
      message := d.message
      treeId := none
      url := d.url }
    date
    tool := d.tool.getD "custom"
    benches := d.benches }

end EntryDraft

end BenchLedger
