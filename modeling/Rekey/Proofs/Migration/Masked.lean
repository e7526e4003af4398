import Rekey.Migration.Basic
import Mathlib.Data.List.Basic

/-! # Migrations do not look into the secrets

Secrets may be struck out before a step of the migrations or after it. What the migrations log, ask
to sleep and count is not touched by that. -/
namespace Rekey.Migration

def Task.masked (t : Task) : Task := { t with record := t.record.masked }

def Settled.masked (x : Settled) : Settled := { x with record := x.record.masked }

def State.masked (s : State) : State :=
  { s with
    waiting := s.waiting.map Task.masked
    tasks := s.tasks.map Task.masked
    calls := s.calls.map Record.masked
    settled := s.settled.map Settled.masked }

def Event.masked : Event → Event
  | .inspect record => .inspect record.masked
  | e => e

section Steps
variable (s : State)

theorem others_masked (number : Nat) : (s.tasks.map Task.masked).filter (·.number != number) =
    (s.tasks.filter (·.number != number)).map Task.masked := List.filter_map

theorem task?_masked (number : Nat) :
    s.masked.task? number = (s.task? number).map Task.masked := List.find?_map

theorem put_masked (t : Task) : s.masked.put t.masked = (s.put t).masked := by
  have others := others_masked s t.number
  simp only [State.put, State.masked, Task.masked, List.map_append, List.map_cons, List.map_nil,
    others]

theorem settle_masked (t : Task) (ending : Ending) :
    s.masked.settle t.masked ending = (s.settle t ending).masked := by
  have others := others_masked s t.number
  simp only [State.settle, State.masked, Task.masked, Settled.masked, List.map_cons, others]

theorem abort_masked (status : Status) : s.masked.abort status = (s.abort status).masked := by
  have underWay : (s.tasks.map Task.masked).filter (·.stage != .created) =
      (s.tasks.filter (·.stage != .created)).map Task.masked := List.filter_map
  simp only [State.abort, State.masked, underWay, List.map_append, List.map_reverse, List.map_map,
    List.length_map, List.map_nil, Option.map_none]
  rfl

theorem call_masked (t : Task) : s.masked.call t.masked = (s.call t).masked := by
  have put := put_masked s { t with stage := .calling }
  simp only [State.call]
  rw [show ({ t.masked with stage := .calling } : Task) =
    Task.masked { t with stage := .calling } from rfl, put]
  rfl

theorem fail_masked (t : Task) (failure : Failure) (fraction : Float) :
    s.masked.fail t.masked failure fraction = (s.fail t failure fraction).masked := by
  have verdict : s.masked.verdict t.masked failure fraction = s.verdict t failure fraction := rfl
  unfold State.fail
  rw [verdict, settle_masked]
  split
  · cases s.verdict t failure fraction with
    | pause delay drew =>
      have put := put_masked s { t with retries := t.retries + 1, stage := .sleeping delay }
      dsimp only
      rw [show ({ t.masked with retries := t.masked.retries + 1, stage := .sleeping delay } : Task) =
        Task.masked { t with retries := t.retries + 1, stage := .sleeping delay } from rfl, put]
      rfl
    | surface failure =>
      dsimp only
      rw [settle_masked]
      rfl
  · dsimp only
    have supply : (s.settle t .cutOff).masked.supply = (s.settle t .cutOff).supply := rfl
    rw [supply]
    split
    · exact abort_masked _ _
    · rfl

theorem answer_masked (t : Task) (outcome : Except Failure Bool) (fraction : Float) :
    s.masked.answer t.masked outcome fraction = (s.answer t outcome fraction).masked := by
  match outcome with
  | .ok true =>
    simp only [State.answer, settle_masked]
    rfl
  | .ok false => exact settle_masked s t .unchanged
  | .error failure => exact fail_masked s t failure fraction

theorem next_masked (e : Event) : s.masked.next e.masked = (s.next e).masked := by
  cases e with
  | inspect | streamEnd | finish => rfl
  | streamFail failure => exact abort_masked s (.failed failure)
  | cancel => exact abort_masked s .cancelled
  | assign =>
    have waiting : s.masked.waiting = s.waiting.map Task.masked := rfl
    simp only [State.next, Event.masked, waiting]
    cases s.waiting with
    | none => rfl
    | some t => simp [State.masked]
  | start number =>
    have dryRun : s.masked.dryRun = s.dryRun := rfl
    simp only [State.next, Event.masked, task?_masked, dryRun]
    cases s.task? number with
    | none => rfl
    | some t =>
      simp only [Option.map_some]
      split
      · exact settle_masked s t .skipped
      · exact call_masked s t
  | answer number outcome fraction =>
    simp only [State.next, Event.masked, task?_masked]
    cases s.task? number with
    | none => rfl
    | some t => exact answer_masked s t outcome fraction
  | wake number =>
    simp only [State.next, Event.masked, task?_masked]
    cases s.task? number with
    | none => rfl
    | some t => exact call_masked s t

theorem stageIs_masked (number : Nat) (p : Stage → Bool) :
    s.masked.stageIs number p = s.stageIs number p := by
  unfold State.stageIs
  rw [task?_masked]
  cases s.task? number <;> rfl

theorem isReady_masked : s.masked.isReady = s.isReady := by
  have waiting : s.masked.waiting.isNone = s.waiting.isNone := Option.isNone_map
  unfold State.isReady
  rw [waiting]
  rfl

theorem enabled_masked (e : Event) : s.masked.Enabled e.masked ↔ s.Enabled e := by
  cases e with
  | inspect | streamEnd | streamFail =>
    show s.masked.isReady = true ↔ _
    rw [isReady_masked]
    rfl
  | assign =>
    have waiting : s.masked.waiting.isSome = s.waiting.isSome := Option.isSome_map
    show _ ∧ s.masked.waiting.isSome = true ∧ _ ↔ _
    rw [waiting]
    rfl
  | start number | answer number | wake number =>
    show _ ∧ s.masked.stageIs number _ = true ↔ _
    rw [stageIs_masked]
    rfl
  | finish =>
    have tasks : s.masked.tasks.isEmpty = s.tasks.isEmpty := List.isEmpty_map
    show _ ∧ _ ∧ s.masked.tasks.isEmpty = true ↔ _
    rw [tasks]
    rfl
  | cancel => rfl

theorem draws_masked (number : Nat) (outcome : Except Failure Bool) :
    s.masked.draws number outcome = s.draws number outcome := by
  unfold State.draws
  rw [task?_masked]
  cases s.task? number <;> cases outcome <;> rfl

theorem settledSince_masked (u : State) :
    u.masked.settledSince s.masked = (u.settledSince s).map Settled.masked := by
  simp [State.settledSince, State.masked]

end Steps

end Rekey.Migration
