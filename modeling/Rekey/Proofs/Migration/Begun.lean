import Rekey.Proofs.Migration.Attempts

/-! # Which migrations were begun

Each record that was given a task has it still or is settled. Those whose task was started are the
ones settled and the ones whose task has made a step. This is so in a dry run too, in which a task
ends as it starts. -/
namespace Rekey.Migration

open Retry (Policy)

/-- The record that an event gives a task. -/
def State.assigned? (s : State) : Event → Option (Record × Nat)
  | .assign => s.waiting.map Task.key
  | _ => none

def assignedIn (moves : List (State × Event)) : List (Record × Nat) :=
  moves.filterMap fun m => m.1.assigned? m.2

theorem assignedIn_cons (m : State × Event) (moves : List (State × Event)) :
    assignedIn (m :: moves) = (m.1.assigned? m.2).toList ++ assignedIn moves := by
  unfold assignedIn
  cases h : m.1.assigned? m.2 <;> simp [h]

namespace State

def awake (s : State) : List Task := s.tasks.filter (·.stage != .created)

def assigned (s : State) : List (Record × Nat) :=
  s.tasks.map Task.key ++ s.settled.map Settled.key

def begun (s : State) : List (Record × Nat) :=
  s.awake.map Task.key ++ s.settled.map Settled.key

end State

section Begun
variable {limit : Nat} {given : List Record} {moves : List (State × Event)} {s u : State}
  {t t' : Task} {e : Event} {dryRun : Bool} {policy : Policy Float}

theorem Moved.key (moved : Moved s t t' u) : t'.key = t.key := by
  rw [Task.key, Task.key, moved.record, moved.number]

theorem Moved.assigned (moved : Moved s t t' u) (nodup : (s.tasks.map Task.number).Nodup)
    (mem : t ∈ s.tasks) : u.assigned.Perm s.assigned := by
  unfold State.assigned
  rw [moved.settled, moved.tasks, List.map_append, List.map_singleton, moved.key]
  refine List.Perm.append_right _ ?_
  exact (List.perm_append_singleton _ _).trans ((others_perm nodup mem).map Task.key).symm

theorem Ended.assigned {ending : Ending} (ended : Ended s t ending u)
    (nodup : (s.tasks.map Task.number).Nodup) (mem : t ∈ s.tasks) :
    u.assigned.Perm s.assigned := by
  unfold State.assigned
  rw [ended.settled, ended.tasks, List.map_cons]
  exact List.perm_middle.trans (((others_perm nodup mem).map Task.key).symm.append_right _)

theorem awake_perm (nodup : (s.tasks.map Task.number).Nodup) (mem : t ∈ s.tasks) :
    (s.awake.map Task.key).Perm ((if t.stage = .created then [] else [t.key]) ++
      ((s.others t.number).filter (·.stage != .created)).map Task.key) := by
  unfold State.awake
  have split := ((others_perm nodup mem).filter (·.stage != .created)).map Task.key
  by_cases created : t.stage = .created
  · rw [List.filter_cons_of_neg (by simp [created])] at split
    simpa [created] using split
  · rw [List.filter_cons_of_pos (by simp [created]), List.map_cons] at split
    simpa [created] using split

/-- A task that goes on is begun with this if it was not yet. -/
theorem Moved.begun (moved : Moved s t t' u) (nodup : (s.tasks.map Task.number).Nodup)
    (mem : t ∈ s.tasks) (awake : t'.stage ≠ .created) :
    u.begun.Perm ((if t.stage = .created then [t.key] else []) ++ s.begun) := by
  have tasks : u.awake = (s.others t.number).filter (·.stage != .created) ++ [t'] := by
    rw [State.awake, moved.tasks, List.filter_append]
    simp [awake]
  unfold State.begun
  rw [moved.settled, tasks, List.map_append, List.map_singleton, moved.key, ← List.append_assoc]
  refine List.Perm.append_right _ ((List.perm_append_singleton _ _).trans ?_)
  refine List.Perm.trans ?_ ((awake_perm nodup mem).append_left _).symm
  split <;> exact List.Perm.refl _

theorem Ended.begun {ending : Ending} (ended : Ended s t ending u)
    (nodup : (s.tasks.map Task.number).Nodup) (mem : t ∈ s.tasks) :
    u.begun.Perm ((if t.stage = .created then [t.key] else []) ++ s.begun) := by
  have tasks : u.awake = (s.others t.number).filter (·.stage != .created) := by
    rw [State.awake, ended.tasks]
  unfold State.begun
  rw [ended.settled, tasks, List.map_cons, ← List.append_assoc]
  refine List.perm_middle.trans ?_
  rw [← List.cons_append]
  refine List.Perm.append_right _ ?_
  refine List.Perm.trans ?_ ((awake_perm nodup mem).append_left _).symm
  split <;> exact List.Perm.refl _

theorem ofOutcome_ne_cutOff (outcome : Except Failure Bool) :
    Ending.ofOutcome outcome ≠ .cutOff := by
  match outcome with
  | .ok true | .ok false | .error _ => exact Ending.noConfusion

/-- A task that makes a step goes on or comes to an end of its own. -/
theorem TaskStep.goes_or_ends (step : TaskStep s t e u) :
    (∃ t', Moved s t t' u) ∨ ∃ ending, ending ≠ .cutOff ∧ Ended s t ending u := by
  cases step with
  | skip _ _ ended => exact .inr ⟨_, Ending.noConfusion, ended⟩
  | begin _ _ moved => exact .inl ⟨_, moved⟩
  | resume _ moved => exact .inl ⟨_, moved⟩
  | pause _ _ moved => exact .inl ⟨_, moved⟩
  | conclude _ _ ended => exact .inr ⟨_, ofOutcome_ne_cutOff _, ended⟩

theorem TaskStep.assigned (step : TaskStep s t e u) (nodup : (s.tasks.map Task.number).Nodup)
    (mem : t ∈ s.tasks) : u.assigned.Perm s.assigned := by
  rcases step.goes_or_ends with ⟨t', moved⟩ | ⟨ending, -, ended⟩
  · exact moved.assigned nodup mem
  · exact ended.assigned nodup mem

theorem TaskStep.begun (step : TaskStep s t e u) (nodup : (s.tasks.map Task.number).Nodup)
    (task : s.task? t.number = some t) : u.begun.Perm ((s.started? e).toList ++ s.begun) := by
  have mem := (State.task?_eq_some task).1
  cases step with
  | skip _ created ended =>
    simpa [State.started?, task, created] using ended.begun nodup mem
  | begin _ created moved =>
    simpa [State.started?, task, created] using moved.begun nodup mem (by simp)
  | resume sleeping moved =>
    simpa [State.started?, sleeping] using moved.begun nodup mem (by simp)
  | pause calling _ moved =>
    simpa [State.started?, calling] using moved.begun nodup mem (by simp)
  | conclude calling _ ended =>
    simpa [State.started?, calling] using ended.begun nodup mem

theorem step_assigned (h : Ledger limit given s) (step : OrdinaryStep s e u) (whole : u.IsWhole) :
    u.assigned.Perm ((s.assigned? e).toList ++ s.assigned) := by
  obtain ⟨⟨enabled⟩, ordinary⟩ := step
  cases e with
  | assign =>
    obtain ⟨t, ht⟩ := Option.isSome_iff_exists.mp enabled.2.1
    simp only [State.next, ht, State.assigned, State.assigned?, Option.map_some,
      Option.toList_some, List.map_append, List.map_singleton, ← List.append_assoc]
    exact List.Perm.append_right _ (List.perm_append_singleton _ _)
  | start | answer | wake =>
    obtain ⟨t, mem, running, -, -, step⟩ := taskStep_of_enabled enabled ordinary rfl
    exact step.assigned (h.tasks_nodup (.inl running)) mem
  | inspect | streamEnd | finish => exact List.Perm.refl _
  | streamFail => rcases whole with hw | hw <;> cases hw
  | cancel => exact ordinary.elim

theorem step_begun (h : Ledger limit given s) (step : OrdinaryStep s e u) (whole : u.IsWhole) :
    u.begun.Perm ((s.started? e).toList ++ s.begun) := by
  obtain ⟨⟨enabled⟩, ordinary⟩ := step
  cases e with
  | assign =>
    obtain ⟨t, ht⟩ := Option.isSome_iff_exists.mp enabled.2.1
    have created := (h.fresh t ht).1
    simp [State.next, ht, State.begun, State.awake, State.started?, List.filter_append, created]
  | start | answer | wake =>
    obtain ⟨t, -, running, task, -, step⟩ := taskStep_of_enabled enabled ordinary rfl
    exact step.begun (h.tasks_nodup (.inl running)) task
  | inspect | streamEnd | finish => exact List.Perm.refl _
  | streamFail => rcases whole with hw | hw <;> cases hw
  | cancel => exact ordinary.elim

theorem trace_assigned (trace : Trace OrdinaryStep (start dryRun limit policy) moves s)
    (whole : s.IsWhole) : (assignedIn moves).Perm s.assigned := by
  refine trace.preserves (P := fun moves s => s.IsWhole → (assignedIn moves).Perm s.assigned)
    (fun _ => List.Perm.refl _) ?_ whole
  intro moves t e u earlier assigned step whole
  have running := State.isRunning_iff.mp (State.running_of_step step.1)
  rw [assignedIn_cons]
  exact ((assigned (.inl running)).append_left _).trans
    (step_assigned (trace_ledger earlier) step whole).symm

theorem trace_begun (trace : Trace OrdinaryStep (start dryRun limit policy) moves s)
    (whole : s.IsWhole) : (startedIn moves).Perm s.begun := by
  refine trace.preserves (P := fun moves s => s.IsWhole → (startedIn moves).Perm s.begun)
    (fun _ => List.Perm.refl _) ?_ whole
  intro moves t e u earlier begun step whole
  have running := State.isRunning_iff.mp (State.running_of_step step.1)
  rw [startedIn_cons]
  exact ((begun (.inl running)).append_left _).trans
    (step_begun (trace_ledger earlier) step whole).symm

end Begun

end Rekey.Migration
