import Rekey.Scan.Basic
import Mathlib.Data.List.Basic

/-! # Scans do not look into their items

A function of the items may be applied before a step of the scan or after it. So what a scan does,
and what it reports, does not depend on what its items are. -/
namespace Rekey

variable {α β : Type} (f : α → β)

def Answer.map : Answer α → Answer β
  | .item a => .item (f a)
  | .exhausted => .exhausted
  | .failed failure => .failed failure

def Stream.map (s : Stream α) : Stream β := ⟨s.items.map f, s.failure⟩

theorem Stream.map_answer (s : Stream α) (n : Nat) : (s.map f).answer n = (s.answer n).map f := by
  unfold Stream.answer Stream.map
  rw [List.getElem?_map]
  cases s.items[n]? <;> cases s.failure <;> rfl

namespace Scan

def Entry.map : Entry α → Entry β
  | .item segment a => .item segment (f a)
  | .done segment => .done segment
  | .failed segment failure => .failed segment failure

def Phase.map : Phase α → Phase β
  | .reading => .reading
  | .offering entry => .offering (entry.map f)
  | .finished => .finished
  | .stopped => .stopped

def Reader.map (r : Reader α) : Reader β := ⟨r.phase.map f, r.produced.map f⟩

def State.map (s : State α) : State β where
  capacity := s.capacity
  readers := s.readers.map (Reader.map f)
  queue := s.queue.map (Entry.map f)
  remaining := s.remaining
  yielded := s.yielded.map fun y => (y.1, f y.2)
  status := s.status
  notices := s.notices

def Event.map : Event α → Event β
  | .read segment answer => .read segment (answer.map f)
  | .put segment => .put segment
  | .take => .take
  | .close => .close

section Steps
variable (s : State α)

theorem ofAnswer?_map (segment : Nat) (answer : Answer α) :
    Entry.ofAnswer? segment (answer.map f) = (Entry.ofAnswer? segment answer).map (Entry.map f) := by
  cases answer with
  | item | exhausted => rfl
  | failed failure =>
    simp only [Answer.map, Entry.ofAnswer?]
    split <;> rfl

theorem stop_map (r : Reader α) : (r.map f).stop = r.stop.map f := by
  obtain ⟨phase, produced⟩ := r
  cases phase <;> rfl

theorem isReading_map (segment : Nat) : (s.map f).isReading segment = s.isReading segment := by
  unfold State.isReading State.map
  rw [List.getElem?_map]
  cases s.readers[segment]? with
  | none => rfl
  | some r =>
    obtain ⟨phase, produced⟩ := r
    cases phase <;> rfl

theorem offered?_map (segment : Nat) :
    (s.map f).offered? segment = (s.offered? segment).map (Entry.map f) := by
  unfold State.offered? State.map
  rw [List.getElem?_map]
  cases s.readers[segment]? with
  | none => rfl
  | some r =>
    obtain ⟨phase, produced⟩ := r
    cases phase <;> rfl

theorem shut_map (status : Status) : (s.map f).shut status = (s.shut status).map f := by
  simp only [State.shut, State.map, List.map_map, Function.comp_def, stop_map]

theorem read_map (segment : Nat) (answer : Answer α) :
    (s.map f).read segment (answer.map f) = (s.read segment answer).map f := by
  have total : (s.map f).total = s.total := List.length_map _
  have reader : (s.map f).readers[segment]? = (s.readers[segment]?).map (Reader.map f) :=
    List.getElem?_map
  unfold State.read
  rw [reader]
  cases s.readers[segment]? with
  | none => rfl
  | some r =>
    simp only [Option.map_some, ofAnswer?_map, total]
    cases answer with
    | item | exhausted =>
      simp [State.map, Reader.map, Phase.map, List.map_set, Entry.ofAnswer?, Answer.map]
    | failed failure =>
      cases hf : failure.isOrdinary <;>
        simp [State.map, Reader.map, Phase.map, List.map_set, Entry.ofAnswer?, Answer.map, hf]

theorem put_map (segment : Nat) : (s.map f).put segment = (s.put segment).map f := by
  have reader : (s.map f).readers[segment]? = (s.readers[segment]?).map (Reader.map f) :=
    List.getElem?_map
  unfold State.put
  rw [reader, offered?_map]
  cases s.readers[segment]? with
  | none => rfl
  | some r =>
    cases s.offered? segment with
    | none => rfl
    | some entry =>
      cases entry <;> simp [State.map, Reader.map, Phase.map, List.map_set, Entry.isMarker,
        Entry.map]

theorem take_map : (s.map f).take = s.take.map f := by
  have total : (s.map f).total = s.total := List.length_map _
  have queue : (s.map f).queue = s.queue.map (Entry.map f) := rfl
  unfold State.take
  rw [queue]
  cases s.queue with
  | nil => rfl
  | cons entry later =>
    cases entry with
    | item => rfl
    | done segment =>
      have remaining : (s.map f).remaining = s.remaining := rfl
      simp only [List.map_cons, Entry.map, remaining]
      split
      · exact shut_map f { s with queue := later, remaining := s.remaining - 1 } .ended
      · rfl
    | failed segment failure =>
      simp only [List.map_cons, Entry.map, total]
      exact shut_map f { s with queue := later, notices := _ } _

theorem next_map (e : Event α) : (s.map f).next (e.map f) = (s.next e).map f := by
  cases e with
  | read segment answer => exact read_map f s segment answer
  | put segment => exact put_map f s segment
  | take => exact take_map f s
  | close => exact shut_map f s .closed

theorem enabled_map (e : Event α) : (s.map f).Enabled (e.map f) ↔ s.Enabled e := by
  cases e with
  | read segment answer =>
    show _ ∧ (s.map f).isReading segment = true ↔ _
    rw [isReading_map]
    rfl
  | put segment =>
    have room : (s.map f).hasRoom = s.hasRoom := by simp [State.hasRoom, State.map]
    show _ ∧ ((s.map f).offered? segment).isSome = true ∧ (s.map f).hasRoom = true ↔ _
    rw [offered?_map, Option.isSome_map, room]
    rfl
  | take =>
    have queue : (s.map f).queue.isEmpty = s.queue.isEmpty := List.isEmpty_map
    show _ ∧ (s.map f).queue.isEmpty = false ↔ _
    rw [queue]
    rfl
  | close => rfl

end Steps

end Scan

end Rekey
