import BenchLedger.History.Document

/-!
Storage in memory whose slowness and failures are planned ahead.
-/

namespace BenchLedger

/-- How long an access takes, in milliseconds, and how it fails, if it does. -/
structure AccessPlan where
  delay : Nat := 0
  fault : Option PersistenceError := none

/-- When an access that may take `timeout` milliseconds is over, and how it ends. One that would
take longer is given up. -/
def AccessPlan.ending (plan : AccessPlan) (timeout : Nat) : Nat × Except PersistenceError Unit :=
  if plan.delay ≤ timeout then
    (plan.delay, match plan.fault with
      | some fault => .error fault
      | none => .ok ())
  else (timeout, .error (.timeout timeout))

structure Storage where
  -- The document saved last, or the first one.
  document : Option HistoryDocument
  -- How many saves succeeded.
  saves : Nat
  -- The plan of every load.
  loading : AccessPlan
  -- The plans of the saves to come; after them every save succeeds at once.
  saving : List AccessPlan

namespace Storage

/-- Takes the plan of the next save. -/
def nextPlan (b : Storage) : AccessPlan × Storage :=
  match b.saving with
  | [] => ({}, b)
  | plan :: rest => (plan, { b with saving := rest })

def save (b : Storage) (d : HistoryDocument) : Storage :=
  { b with document := some d, saves := b.saves + 1 }

end Storage

end BenchLedger
