/-
  ButtonPanel.Sink.Queue — a bounded first-in-first-out queue of events. Any number of
  producers send into it; one consumer takes the oldest event, takes all of them, or
  waits for one. A send is refused while `capacity` events are unread.
-/

import ButtonPanel.Sink

namespace ButtonPanel

structure Queue where
  capacity : Nat
  unread : List Event := []
  deriving DecidableEq, Repr

namespace Queue

/-- The bytes that one event takes where addresses have 64 bits. -/
def eventBytes : Nat := 24

/-- No buffer of this many bytes, or of more, can be asked for. -/
def bufferLimit : Nat := UInt64.size / 2

/-- Whether room for this many events can be asked for. Whether there is so much memory is another
    question, which is not asked here: what can be asked for is granted. -/
def Allocatable (capacity : Nat) : Prop := capacity * eventBytes < bufferLimit

instance (capacity : Nat) : Decidable (Allocatable capacity) := Nat.decLt _ _

def ofCapacity? (capacity : Nat) : Option Queue :=
  if Allocatable capacity then some { capacity } else none

def send (q : Queue) (e : Event) : Reply × Queue :=
  if q.capacity ≤ q.unread.length then (.refused .queueFull, q)
  else (.accepted, { q with unread := q.unread ++ [e] })

instance : Sink Queue := ⟨send⟩

/-- Offers several events in order; those that are refused are gone. -/
def sendAll (q : Queue) (es : List Event) : Queue := es.foldl (fun q e => (q.send e).2) q

def size (q : Queue) : Nat := q.unread.length

def isEmpty (q : Queue) : Bool := q.unread.isEmpty

def poll (q : Queue) : Option Event × Queue := (q.unread.head?, { q with unread := q.unread.tail })

def drain (q : Queue) : List Event × Queue := (q.unread, { q with unread := [] })

/-- Polls until there is an event. `arrivals` lists what the producers offer between one
    poll and the next; when it is used up the wait is given up after a last poll. -/
def await (q : Queue) : List (List Event) → Option Event × Queue
  | [] => q.poll
  | batch :: later => if q.isEmpty then (q.sendAll batch).await later else q.poll

end Queue

end ButtonPanel
