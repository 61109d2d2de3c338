/-
  ButtonPanel.Sink.Recorder — a sink that keeps the first `capacity` events it takes and
  counts every offer. It can be told to reject whatever comes.
-/

import ButtonPanel.Sink

namespace ButtonPanel

structure Recorder where
  capacity : Nat
  events : List Event := []
  rejecting : Bool := false
  attempts : Nat := 0
  deriving DecidableEq, Repr

namespace Recorder

/-- The counter of offers stops here. -/
def maxAttempts : Nat := UInt64.size - 1

def send (r : Recorder) (e : Event) : Reply × Recorder :=
  let r := { r with attempts := min (r.attempts + 1) maxAttempts }
  if r.rejecting then (.refused .rejected, r)
  else if r.events.length < r.capacity then (.accepted, { r with events := r.events ++ [e] })
  else (.refused .queueFull, r)

instance : Sink Recorder := ⟨send⟩

/-- From now on every offer is rejected, or none is. -/
def setRejecting (r : Recorder) (on : Bool) : Recorder := { r with rejecting := on }

/-- Forgets events and offers. Whether offers are rejected stays as it is. -/
def clear (r : Recorder) : Recorder := { r with events := [], attempts := 0 }

end Recorder

end ButtonPanel
