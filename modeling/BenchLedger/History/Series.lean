import BenchLedger.NameMap
import BenchLedger.Run.Commit

/-!
One series of a history. Entries are kept in the order in which their commits first came, one for
each commit, with an index from commit id to slot and a view in the order of the run times. A run
repeated for a commit takes the slot of the earlier one.
-/

namespace BenchLedger

/-- The slot of an entry in the order of first arrival. -/
abbrev Position := Nat

def positionText (p : Position) : String :=
  String.ofList ('#' :: Text.digitsOf p)

structure Series where
  -- One entry for each commit, in the order of first arrival.
  entries : List CommitEntry
  -- The slot of each commit id.
  index : NameMap Position
  -- The entries in the order of their run times, equal ones in the order of arrival.
  view : List CommitEntry

namespace Series

def empty : Series :=
  ⟨[], .empty, []⟩

/-- Whether run times never decrease along a list. -/
def inOrder : List CommitEntry → Bool
  | a :: b :: rest => a.date ≤ b.date && inOrder (b :: rest)
  | _ => true

/-- A list in the order of run times; nothing moves if it is in order already. -/
def ordered (es : List CommitEntry) : List CommitEntry :=
  if inOrder es then es else es.mergeSort fun a b => a.date ≤ b.date

/-- What an insertion did: where the entry is, and whether it took another's place. -/
structure Placement where
  position : Position
  replaced : Bool
  deriving DecidableEq, Repr

/-- Puts an entry into the slot of its commit, or into a new one; the view is left behind. -/
def insert (s : Series) (e : CommitEntry) : Series × Placement :=
  match s.index.get? e.id with
  | some slot => ({ s with entries := s.entries.set slot e }, ⟨slot, true⟩)
  | none =>
    let slot := s.entries.length
    ({ s with entries := s.entries ++ [e], index := s.index.insert e.id slot }, ⟨slot, false⟩)

def rebuildView (s : Series) : Series :=
  { s with view := ordered s.entries }

def upsert (s : Series) (e : CommitEntry) : Series × Placement :=
  let (s, placement) := s.insert e
  (s.rebuildView, placement)

/-- A series of loaded entries; of two with one commit id the later counts. -/
def ofEntries (es : List CommitEntry) : Series :=
  (es.foldl (fun s e => (s.insert e).1) empty).rebuildView

def size (s : Series) : Nat :=
  s.entries.length

end Series

/-- A series as a reader sees it at one moment. -/
structure SeriesSnapshot where
  name : String
  -- In the order of run times.
  entries : List CommitEntry

def Series.snapshot (s : Series) (name : String) : SeriesSnapshot :=
  ⟨name, s.view⟩

def SeriesSnapshot.find? (s : SeriesSnapshot) (commit : String) : Option CommitEntry :=
  s.entries.find? (·.id == commit)

end BenchLedger
