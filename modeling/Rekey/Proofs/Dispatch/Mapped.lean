import Rekey.Dispatch.Basic
import Mathlib.Data.List.Basic

/-! # Dispatching does not look into the records

A function of the records may be applied before a step of the dispatcher or after it. -/
namespace Rekey.Dispatch

variable {α β : Type} (f : α → β)

def Delivery.map (d : Delivery α) : Delivery β := ⟨f d.record, d.window⟩

def State.map (s : State α) : State β where
  cap := s.cap
  free := s.free
  inFlight := s.inFlight
  peak := s.peak
  puller := s.puller
  pulled := s.pulled.map (List.map f)
  ready := s.ready.map (List.map f)
  current := s.current.map f
  slots := s.slots
  delivered := s.delivered.map (Delivery.map f)
  consumer := s.consumer
  status := s.status

def Event.map : Event α → Event β
  | .request => .request
  | .begin => .begin
  | .surrender => .surrender
  | .conclude => .conclude
  | .acquire => .acquire
  | .arrive window => .arrive (window.map f)
  | .sourceEnd => .sourceEnd
  | .sourceFail failure => .sourceFail failure
  | .done index => .done index
  | .close => .close

section Steps
variable (s : State α)

theorem await_map : (s.map f).await = s.await.map f := by
  have puller : (s.map f).puller = s.puller := rfl
  unfold State.await
  rw [puller]
  cases s.puller <;> rfl

theorem deliver_map : (s.map f).deliver = s.deliver.map f := by
  have current : (s.map f).current = s.current.map f := rfl
  unfold State.deliver
  rw [current]
  cases s.current <;> rfl

theorem begin_map : (s.map f).begin = s.begin.map f := by
  have ready : (s.map f).ready = s.ready.map (List.map f) := rfl
  unfold State.begin
  rw [ready]
  cases s.ready with
  | nil => rfl
  | cons window later =>
    cases window with
    | nil => exact await_map f (State.release { s with
        ready := later, current := [], slots := s.slots ++ [Slot.opened 0] })
    | cons record current =>
      simp only [List.map_cons, List.length_cons, List.length_map]
      rfl

theorem arrive_map (window : List α) : (s.map f).arrive (window.map f) = (s.arrive window).map f := by
  simp [State.arrive, State.map]

theorem delivery?_map (index : Nat) :
    (s.map f).delivery? index = (s.delivery? index).map (Delivery.map f) := by
  have delivered : (s.map f).delivered = s.delivered.map (Delivery.map f) := rfl
  unfold State.delivery?
  rw [delivered, List.length_map, List.getElem?_map]
  split <;> rfl

theorem resolve_map (window : Nat) :
    (s.map f).resolve window = (s.resolve window).map (State.map f) := by
  have slots : (s.map f).slots = s.slots := rfl
  unfold State.resolve
  rw [slots]
  cases s.slots[window]? with
  | none => rfl
  | some slot =>
    dsimp only
    cases slot.recordDone with
    | error failure => rfl
    | ok slot' =>
      simp only [Except.map]
      split <;> rfl

theorem done_map (index : Nat) : (s.map f).next (.done index) = (s.next (.done index)).map f := by
  unfold State.next State.done
  dsimp only
  rw [delivery?_map]
  cases s.delivery? index with
  | none => rfl
  | some d =>
    have window : (Delivery.map f d).window = d.window := rfl
    rw [Option.map_some]
    dsimp only
    rw [window, resolve_map]
    cases s.resolve d.window <;> rfl

theorem next_map (e : Event α) : (s.map f).next (e.map f) = (s.next e).map f := by
  cases e with
  | request =>
    have current : (s.map f).current.isEmpty = s.current.isEmpty := List.isEmpty_map
    simp only [State.next, Event.map, current]
    split
    · exact await_map f s
    · exact deliver_map f s
  | begin => exact begin_map f s
  | surrender => exact await_map f s
  | arrive window => exact arrive_map f s window
  | done index => exact done_map f s index
  | conclude | acquire | sourceEnd | sourceFail | close => rfl

theorem enabled_map (e : Event α) : (s.map f).Enabled (e.map f) ↔ s.Enabled e := by
  have ready : (s.map f).ready.isEmpty = s.ready.isEmpty := List.isEmpty_map
  have delivered : (s.map f).delivered.length = s.delivered.length := List.length_map _
  cases e with
  | begin =>
    show _ ∧ _ ∧ (s.map f).ready.isEmpty = false ↔ _
    rw [ready]
    rfl
  | surrender | conclude =>
    show _ ∧ _ ∧ (s.map f).ready.isEmpty = true ∧ _ ↔ _
    rw [ready]
    rfl
  | done index =>
    show index < (s.map f).delivered.length ↔ _
    rw [delivered]
    rfl
  | request | acquire | arrive | sourceEnd | sourceFail | close => rfl

end Steps

end Rekey.Dispatch
