import Rekey.Failure
/-! # Window slots

The slot of a window counts the records of the window that are not resolved, and is given back when
there are none left: at once for an empty window. -/
namespace Rekey.Dispatch

/-- The slot of one window: its unresolved records, and how often it was given back. -/
structure Slot where
  pending : Int
  released : Nat
  deriving DecidableEq, Repr

def Slot.opened (size : Int) : Slot := ⟨size, if size = 0 then 1 else 0⟩

def Slot.surplus : Failure :=
  .plain .runtime "record_done() called more times than the window has records"

/-- One record is resolved. The slot is given back with the last one. -/
def Slot.recordDone (s : Slot) : Except Failure Slot :=
  if s.pending ≤ 0 then .error surplus
  else if s.pending = 1 then .ok ⟨0, s.released + 1⟩
  else .ok { s with pending := s.pending - 1 }

end Rekey.Dispatch
