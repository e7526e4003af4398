import Rekey.Migration.Basic
import Rekey.Proofs.Retry.Series
import Mathlib.Data.List.Nodup

/-! # What the steps of a task do

A task is called for, waits for the store, and either pauses before its next attempt or ends. Its
steps replace it among the tasks or take it away, and leave all other tasks and the stream of records
alone. -/
namespace Rekey.Migration

open Counter (Tally)

/-- An event that is no cancellation, neither from outside nor out of the store. -/
def Event.Ordinary : Event → Prop
  | .answer _ (.error failure) _ => failure.isOrdinary = true
  | .cancel => False
  | _ => True

def Event.number? : Event → Option Nat
  | .start number | .answer number .. | .wake number => some number
  | .inspect _ | .assign | .streamEnd | .streamFail _ | .finish | .cancel => none

/-- How a migration ends by what its series of attempts came to. -/
def Ending.ofOutcome : Except Failure Bool → Ending
  | .ok true => .written
  | .ok false => .unchanged
  | .error failure => .abandoned failure

def Ending.isWritten : Ending → Bool
  | .written => true
  | .unchanged | .skipped | .abandoned _ | .cutOff => false

def Ending.isAbandoned : Ending → Bool
  | .abandoned _ => true
  | .written | .unchanged | .skipped | .cutOff => false

def Ending.credit : Ending → Tally
  | .written => ⟨0, 1, 0⟩
  | .abandoned _ => ⟨0, 0, 1⟩
  | .unchanged | .skipped | .cutOff => .zero

def Settled.warning? (x : Settled) : Option Notice :=
  match x.ending with
  | .abandoned failure => some (.recordAbandoned x.record.key failure)
  | .written | .unchanged | .skipped | .cutOff => none

def State.warnings (s : State) : List Notice := s.notices.filter (·.level == .warning)

def State.others (s : State) (number : Nat) : List Task := s.tasks.filter (·.number != number)

structure Frame (s u : State) : Prop where
  dryRun : u.dryRun = s.dryRun
  limit : u.limit = s.limit
  policy : u.policy = s.policy
  waiting : u.waiting = s.waiting
  supply : u.supply = s.supply
  status : u.status = s.status

structure Moved (s : State) (t t' : Task) (u : State) : Prop extends Frame s u where
  number : t'.number = t.number
  record : t'.record = t.record
  tasks : u.tasks = s.others t.number ++ [t']
  free : u.free = s.free
  settled : u.settled = s.settled
  tally : u.tally = s.tally
  warnings : u.warnings = s.warnings

structure Ended (s : State) (t : Task) (ending : Ending) (u : State) : Prop extends Frame s u where
  tasks : u.tasks = s.others t.number
  free : u.free = s.free + 1
  settled : u.settled = ⟨t.number, t.record, ending⟩ :: s.settled
  tally : u.tally = s.tally.plus ending.credit
  warnings : u.warnings = (Settled.warning? ⟨t.number, t.record, ending⟩).toList ++ s.warnings

inductive TaskStep (s : State) (t : Task) : Event → State → Prop where
  | skip {u : State} : s.dryRun = true → t.stage = .created → Ended s t .skipped u →
    u.calls = s.calls → TaskStep s t (.start t.number) u
  | begin {u : State} : s.dryRun = false → t.stage = .created →
    Moved s t { t with stage := .calling } u → u.calls = t.record :: s.calls →
    TaskStep s t (.start t.number) u
  | resume {u : State} {delay : Float} : t.stage = .sleeping delay →
    Moved s t { t with stage := .calling } u → u.calls = t.record :: s.calls →
    TaskStep s t (.wake t.number) u
  | pause {u : State} {failure : Failure} {fraction delay : Float} : t.stage = .calling →
    s.policy.GoesOn Failure.isTransient t.retries (.error failure : Except Failure Bool) →
    Moved s t { t with retries := t.retries + 1, stage := .sleeping delay } u →
    u.calls = s.calls → TaskStep s t (.answer t.number (.error failure) fraction) u
  | conclude {u : State} {outcome : Except Failure Bool} {fraction : Float} : t.stage = .calling →
    ¬ s.policy.GoesOn Failure.isTransient t.retries outcome →
    Ended s t (.ofOutcome (s.policy.conclusion Failure.isTransient t.retries outcome)) u →
    u.calls = s.calls → TaskStep s t (.answer t.number outcome fraction) u

namespace State

theorem isRunning_iff {s : State} : s.isRunning = true ↔ s.status = .running := by
  unfold isRunning; cases s.status <;> simp

theorem isReady_iff {s : State} :
    s.isReady = true ↔ s.status = .running ∧ s.waiting = none ∧ s.supply = .flowing := by
  simp [isReady, isRunning_iff, and_assoc]

theorem task?_eq_some {s : State} {number : Nat} {t : Task} (h : s.task? number = some t) :
    t ∈ s.tasks ∧ t.number = number := by
  unfold task? at h
  exact ⟨List.mem_of_find?_eq_some h, by simpa using List.find?_some h⟩

theorem task?_of_mem {s : State} (nodup : (s.tasks.map Task.number).Nodup) {t : Task}
    (mem : t ∈ s.tasks) : s.task? t.number = some t := by
  cases found : s.task? t.number with
  | none => simpa using List.find?_eq_none.mp found t mem
  | some x =>
    obtain ⟨hx, same⟩ := task?_eq_some found
    rw [List.inj_on_of_nodup_map nodup hx mem same]

theorem stageIs_iff {s : State} {number : Nat} {p : Stage → Bool} :
    s.stageIs number p = true ↔ ∃ t, s.task? number = some t ∧ p t.stage = true := by
  unfold stageIs
  cases s.task? number <;> simp

end State

section Steps
variable {s : State} {t : Task}

theorem call_moved (s : State) (t : Task) : Moved s t { t with stage := .calling } (s.call t) ∧
    (s.call t).calls = t.record :: s.calls :=
  ⟨⟨⟨rfl, rfl, rfl, rfl, rfl, rfl⟩, rfl, rfl, rfl, rfl, rfl, rfl, rfl⟩, rfl⟩

theorem settle_ended (s : State) (t : Task) (ending : Ending) (credit : ending.credit = .zero)
    (quiet : Settled.warning? ⟨t.number, t.record, ending⟩ = none) :
    Ended s t ending (s.settle t ending) ∧ (s.settle t ending).calls = s.calls := by
  refine ⟨⟨⟨rfl, rfl, rfl, rfl, rfl, rfl⟩, rfl, rfl, rfl, ?_, ?_⟩, rfl⟩
  · rw [credit]; rfl
  · rw [quiet]; rfl

theorem fail_step (calling : t.stage = .calling) {failure : Failure}
    (ordinary : failure.isOrdinary = true) (fraction : Float) :
    TaskStep s t (.answer t.number (.error failure) fraction) (s.fail t failure fraction) := by
  unfold State.fail State.verdict
  rw [if_pos ordinary]
  cases hv : s.policy.verdict Failure.isTransient t.retries failure fraction with
  | pause delay drew =>
    exact .pause calling (Retry.Policy.verdict_pause hv)
      ⟨⟨rfl, rfl, rfl, rfl, rfl, rfl⟩, rfl, rfl, rfl, rfl, rfl, rfl, rfl⟩ rfl
  | surface failure' =>
    have hs := Retry.Policy.verdict_surface_iff.mp hv
    have hconclusion : s.policy.conclusion Failure.isTransient t.retries
        (.error failure : Except Failure Bool) = .error failure' := by
      simp [Retry.Policy.conclusion, hs]
    refine .conclude calling (by simp [Retry.Policy.GoesOn, hs]) ?_ rfl
    rw [hconclusion]
    exact ⟨⟨rfl, rfl, rfl, rfl, rfl, rfl⟩, rfl, rfl, rfl, rfl, rfl⟩

theorem answer_step (calling : t.stage = .calling) {outcome : Except Failure Bool}
    {fraction : Float} (ordinary : (Event.answer t.number outcome fraction).Ordinary) :
    TaskStep s t (.answer t.number outcome fraction) (s.answer t outcome fraction) := by
  match outcome with
  | .error failure => exact fail_step calling ordinary fraction
  | .ok false =>
    obtain ⟨ended, calls⟩ := settle_ended s t .unchanged rfl rfl
    exact .conclude calling (fun h => h) ended calls
  | .ok true =>
    exact .conclude calling (fun h => h)
      ⟨⟨rfl, rfl, rfl, rfl, rfl, rfl⟩, rfl, rfl, rfl, rfl, rfl⟩ rfl

/-- An event of a task that can happen is a step of that task. -/
theorem taskStep_of_enabled {e : Event} {number : Nat} (enabled : s.Enabled e)
    (ordinary : e.Ordinary) (own : e.number? = some number) :
    ∃ t ∈ s.tasks, s.status = .running ∧ s.task? t.number = some t ∧ t.number = number ∧
      TaskStep s t e (s.next e) := by
  have known : ∀ {p : Stage → Bool}, s.stageIs number p = true → ∃ t ∈ s.tasks,
      s.task? t.number = some t ∧ t.number = number ∧ p t.stage = true := by
    intro p hp
    obtain ⟨t, ht, hstage⟩ := State.stageIs_iff.mp hp
    obtain ⟨mem, rfl⟩ := State.task?_eq_some ht
    exact ⟨t, mem, ht, rfl, hstage⟩
  cases e with
  | inspect | assign | streamEnd | streamFail | finish | cancel => cases own
  | start =>
    cases own
    obtain ⟨t, mem, ht, rfl, hstage⟩ := known enabled.2
    have hcreated : t.stage = .created := by revert hstage; cases t.stage <;> simp
    refine ⟨t, mem, State.isRunning_iff.mp enabled.1, ht, rfl, ?_⟩
    simp only [State.next, ht]
    cases hdry : s.dryRun with
    | true =>
      obtain ⟨ended, calls⟩ := settle_ended s t .skipped rfl rfl
      exact .skip hdry hcreated ended calls
    | false =>
      obtain ⟨moved, calls⟩ := call_moved s t
      exact .begin hdry hcreated moved calls
  | wake =>
    cases own
    obtain ⟨t, mem, ht, rfl, hstage⟩ := known enabled.2
    obtain ⟨delay, hsleeping⟩ : ∃ delay, t.stage = .sleeping delay := by
      revert hstage; cases t.stage <;> simp
    obtain ⟨moved, calls⟩ := call_moved s t
    refine ⟨t, mem, State.isRunning_iff.mp enabled.1, ht, rfl, ?_⟩
    simp only [State.next, ht]
    exact .resume hsleeping moved calls
  | answer =>
    cases own
    obtain ⟨t, mem, ht, rfl, hstage⟩ := known enabled.2
    have hcalling : t.stage = .calling := by revert hstage; cases t.stage <;> simp
    refine ⟨t, mem, State.isRunning_iff.mp enabled.1, ht, rfl, ?_⟩
    simp only [State.next, ht]
    exact answer_step hcalling ordinary

theorem TaskStep.frame {e : Event} {u : State} (step : TaskStep s t e u) : Frame s u := by
  cases step with
  | skip _ _ ended => exact ended.toFrame
  | begin _ _ moved => exact moved.toFrame
  | resume _ moved => exact moved.toFrame
  | pause _ _ moved => exact moved.toFrame
  | conclude _ _ ended => exact ended.toFrame

theorem State.running_of_step {e : Event} {u : State} (step : Step s e u) :
    s.isRunning = true := by
  obtain ⟨enabled⟩ := step
  cases e with
  | inspect | streamEnd | streamFail =>
    exact State.isRunning_iff.mpr (State.isReady_iff.mp enabled).1
  | cancel => exact enabled
  | assign | start | answer | wake | finish => exact enabled.1

structure Settings (s u : State) : Prop where
  dryRun : u.dryRun = s.dryRun
  limit : u.limit = s.limit
  policy : u.policy = s.policy

theorem step_settings {e : Event} {u : State} (step : Step s e u) (ordinary : e.Ordinary) :
    Settings s u := by
  obtain ⟨enabled⟩ := step
  cases e with
  | start | answer | wake =>
    obtain ⟨t, -, -, -, -, step⟩ := taskStep_of_enabled enabled ordinary rfl
    exact ⟨step.frame.dryRun, step.frame.limit, step.frame.policy⟩
  | assign =>
    simp only [State.next]
    split <;> exact ⟨rfl, rfl, rfl⟩
  | inspect | streamEnd | streamFail | finish => exact ⟨rfl, rfl, rfl⟩
  | cancel => exact ordinary.elim

end Steps

end Rekey.Migration
