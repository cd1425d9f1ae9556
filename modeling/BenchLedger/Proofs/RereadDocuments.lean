import BenchLedger.Proofs.DecodedValues
import BenchLedger.Proofs.DocumentText
import BenchLedger.Proofs.RereadDoubles

/-!
Documents that are written and read again. Main statement: `HistoryDocument.decode_encode_reread`: a
document whose values are finite is always read again, as it was but for its values, each of which
becomes the double that its literal is read as.
-/

namespace BenchLedger

/-- An entry as it is after it has been written and read. -/
def CommitEntry.reread (e : CommitEntry) : CommitEntry :=
  e.mapValues Json.reread

theorem CommitEntry.values_mapValues (f : Float → Float) (e : CommitEntry) :
    (e.mapValues f).values = e.values.map f := by
  simp [values, mapValues]

namespace HistoryDocument

/-- A document as it is after it has been written and read. -/
def reread (d : HistoryDocument) : HistoryDocument :=
  d.mapValues Json.reread

variable {d : HistoryDocument}

/-- What is found in a document is found again, with its values reread. -/
theorem get?_reread (d : HistoryDocument) (name : String) :
    d.reread.entries.get? name = (d.entries.get? name).map fun es => es.map CommitEntry.reread :=
  NameMap.get?_map _ _ _

/-- A document with finite values is read from either encoding. -/
theorem decode_encode_reread (typed : d.WellTyped) (finite : ∀ x ∈ d.values, x.isFinite = true)
    (format : StorageFormat) : decode (d.encode format) = .ok d.reread :=
  decode_encode_mapValues typed (fun x value => (Json.readNumber_real (finite x value)).2) format

end HistoryDocument

end BenchLedger
