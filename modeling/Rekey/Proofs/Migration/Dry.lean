import Rekey.Proofs.Migration.Tasks

/-! # Dry migrations

In a dry run a task ends as soon as it is started. None ever waits for the store or for its next
attempt, so that nothing is counted but what was inspected. -/
namespace Rekey.Migration

open Retry (Policy)

/-- What holds of the migrations of a dry run at any time. -/
structure Dry (s : State) : Prop where
  dryRun : s.dryRun = true
  waiting : ∀ t, s.waiting = some t → t.stage = .created
  tasks : ∀ t ∈ s.tasks, t.stage = .created
  calls : s.calls = []
  delays : s.delays = []
  migrated : s.tally.migrated = 0
  abandoned : s.tally.abandoned = 0
  skipped : ∀ x ∈ s.settled, x.ending = .skipped

variable {s u : State} {e : Event}

theorem start_dry (limit : Nat) (policy : Policy Float) : Dry (start true limit policy) := by
  constructor <;> simp [start, Counter.Tally.zero]

theorem Dry.settle (h : Dry s) (t : Task) : Dry (s.settle t .skipped) := by
  refine { h with tasks := ?_, skipped := ?_ }
  · exact fun x mem => h.tasks x (List.mem_filter.mp mem).1
  · intro x mem
    rcases List.mem_cons.mp mem with rfl | mem
    · rfl
    · exact h.skipped x mem

/-- No task is under way that could be cut off. -/
theorem Dry.abort (h : Dry s) (status : Status) : Dry (s.abort status) := by
  have none : s.tasks.filter (·.stage != .created) = [] := by
    apply List.filter_eq_nil_iff.mpr
    intro t mem
    simp [h.tasks t mem]
  refine { h with waiting := by simp [State.abort], tasks := by simp [State.abort], skipped := ?_ }
  intro x mem
  rw [State.abort, none] at mem
  exact h.skipped x mem

theorem Dry.created (h : Dry s) {number : Nat} {p : Stage → Bool}
    (stage : s.stageIs number p = true) : p .created = true := by
  obtain ⟨t, ht, hp⟩ := State.stageIs_iff.mp stage
  rwa [h.tasks t (State.task?_eq_some ht).1] at hp

/-- No task is told of a call or wakes up. -/
theorem Dry.unanswered (h : Dry s) {number : Nat} {outcome : Except Failure Bool}
    {fraction : Float} : ¬ s.Enabled (.answer number outcome fraction) := by
  rintro ⟨-, calling⟩
  cases h.created calling

theorem Dry.asleep (h : Dry s) {number : Nat} : ¬ s.Enabled (.wake number) := by
  rintro ⟨-, sleeping⟩
  cases h.created sleeping

theorem step_preserves_dry (h : Dry s) (step : Step s e u) : Dry u := by
  obtain ⟨enabled⟩ := step
  cases e with
  | inspect record =>
    refine { h with waiting := ?_ }
    rintro _ ⟨⟩
    rfl
  | assign =>
    simp only [State.next]
    split
    · next t ht =>
      refine { h with waiting := by simp, tasks := ?_ }
      intro x mem
      rcases List.mem_append.mp mem with mem | mem
      · exact h.tasks x mem
      · rw [List.mem_singleton.mp mem]
        exact h.waiting t ht
    · exact h
  | start number =>
    simp only [State.next, h.dryRun, if_true]
    split
    · exact h.settle _
    · exact h
  | answer => exact absurd enabled h.unanswered
  | wake => exact absurd enabled h.asleep
  | streamEnd | finish => exact { h with }
  | streamFail failure => exact h.abort (.failed failure)
  | cancel => exact h.abort .cancelled

end Rekey.Migration
