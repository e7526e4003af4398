import Rekey.Notice
import Rekey.Stream
/-! # Merging segment scans

The source is read in segments, each by a reader of its own. Readers put what they read into one
queue of limited capacity, from which a single consumer takes. A reader that comes to the end of its
segment puts an end marker, one whose segment fails puts a failure marker; markers need room too.
A reader that is broken off by a cancellation puts nothing.

A state holds the whole history of what was read and taken, so that provenance can be stated. No
fairness is built in: an event may occur whenever its guard holds. -/
namespace Rekey.Scan

variable {α : Type}

inductive Entry (α : Type) where
  | item (segment : Nat) (item : α)
  | done (segment : Nat)
  | failed (segment : Nat) (failure : Failure)
  deriving Repr

/-- A reader that offers an entry needs room for it. One that was stopped has put no marker. -/
inductive Phase (α : Type) where
  | reading
  | offering (entry : Entry α)
  | finished
  | stopped
  deriving Repr

/-- A reader and the items it has read, newest first. -/
structure Reader (α : Type) where
  phase : Phase α
  produced : List α
  deriving Repr

inductive Status where
  | running
  | ended
  | failed (failure : Failure)
  | closed
  deriving Repr

/-- The state of a scan. `yielded` and `notices` are newest first. -/
structure State (α : Type) where
  capacity : Nat
  readers : List (Reader α)
  queue : List (Entry α)
  remaining : Nat
  yielded : List (Nat × α)
  status : Status
  notices : List Notice
  deriving Repr

def start (segments capacity : Nat) : State α :=
  ⟨capacity, List.replicate segments ⟨.reading, []⟩, [], segments, [], .running, []⟩

inductive Event (α : Type) where
  | read (segment : Nat) (answer : Answer α)
  | put (segment : Nat)
  | take
  | close
  deriving Repr

def Reader.stop (r : Reader α) : Reader α :=
  match r.phase with
  | .finished => r
  | _ => { r with phase := .stopped }

def Reader.isLive (r : Reader α) : Bool :=
  match r.phase with
  | .reading | .offering _ => true
  | .finished | .stopped => false

/-- The entry with which the reader of `segment` follows an answer; none when it breaks off. -/
def Entry.ofAnswer? (segment : Nat) : Answer α → Option (Entry α)
  | .item a => some (.item segment a)
  | .exhausted => some (.done segment)
  | .failed failure => if failure.isOrdinary then some (.failed segment failure) else none

def Entry.isMarker : Entry α → Bool
  | .item .. => false
  | .done _ | .failed .. => true

namespace State

def total (s : State α) : Nat := s.readers.length

def isRunning (s : State α) : Bool :=
  match s.status with
  | .running => true
  | _ => false

def isReading (s : State α) (segment : Nat) : Bool :=
  match s.readers[segment]? with
  | some ⟨.reading, _⟩ => true
  | _ => false

def offered? (s : State α) (segment : Nat) : Option (Entry α) :=
  match s.readers[segment]? with
  | some ⟨.offering entry, _⟩ => some entry
  | _ => none

def hasRoom (s : State α) : Bool := s.queue.length < s.capacity

def shut (s : State α) (status : Status) : State α :=
  { s with readers := s.readers.map Reader.stop, status }

def read (s : State α) (segment : Nat) (answer : Answer α) : State α :=
  match s.readers[segment]? with
  | none => s
  | some r =>
    let produced := match answer with
      | .item item => item :: r.produced
      | _ => r.produced
    let phase := match Entry.ofAnswer? segment answer with
      | some entry => Phase.offering entry
      | none => .stopped
    let notices := match answer with
      | .exhausted => .segmentExhausted segment s.total r.produced.length :: s.notices
      | _ => s.notices
    { s with readers := s.readers.set segment ⟨phase, produced⟩, notices }

def put (s : State α) (segment : Nat) : State α :=
  match s.readers[segment]?, s.offered? segment with
  | some r, some entry =>
    { s with
      queue := s.queue ++ [entry]
      readers := s.readers.set segment
        { r with phase := if entry.isMarker then .finished else .reading } }
  | _, _ => s

/-- The consumer takes the first entry. The last end marker ends the stream; a failure marker ends
it with a failure that names the segment. -/
def take (s : State α) : State α :=
  match s.queue with
  | [] => s
  | .item segment item :: queue => { s with queue, yielded := (segment, item) :: s.yielded }
  | .done _ :: queue =>
    let s := { s with queue, remaining := s.remaining - 1 }
    if s.remaining = 0 then s.shut .ended else s
  | .failed segment failure :: queue =>
    shut { s with queue, notices := .segmentFailed segment s.total :: s.notices }
      (.failed (.because (.scan segment s.total failure) failure))

def Enabled (s : State α) : Event α → Prop
  | .read segment _ => s.isRunning = true ∧ s.isReading segment = true
  | .put segment => s.isRunning = true ∧ (s.offered? segment).isSome = true ∧ s.hasRoom = true
  | .take => s.isRunning = true ∧ s.queue.isEmpty = false
  | .close => s.isRunning = true

instance (s : State α) (e : Event α) : Decidable (s.Enabled e) := by
  cases e <;> unfold Enabled <;> infer_instance

def next (s : State α) : Event α → State α
  | .read segment answer => s.read segment answer
  | .put segment => s.put segment
  | .take => s.take
  | .close => s.shut .closed

def advance (s : State α) (e : Event α) : State α := if s.Enabled e then s.next e else s

end State

def Event.Follows (source : Nat → Stream α) (s : State α) : Event α → Prop
  | .read segment answer =>
    ∀ r, s.readers[segment]? = some r → answer = (source segment).answer r.produced.length
  | _ => True

inductive Step (source : Nat → Stream α) : State α → Event α → State α → Prop where
  | intro {s : State α} {e : Event α} (enabled : s.Enabled e) (follows : e.Follows source s) :
    Step source s e (s.next e)

def checkSettings (segments capacity : Int) : Except Failure (Nat × Nat) :=
  if segments < 1 then .error (.invalid "segments" (.int segments) "must be >= 1")
  else if capacity < 1 then .error (.invalid "queue_size" (.int capacity) "must be >= 1")
  else .ok (segments.toNat, capacity.toNat)

def standardCapacity : Nat := 1024

end Rekey.Scan
