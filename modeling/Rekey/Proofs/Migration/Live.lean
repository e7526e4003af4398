import Rekey.Proofs.Migration.Slots

/-! # Live migrations

In a live run a record is settled only after a call for it, whatever the store answers and wherever
the run is broken off. So a run that has come to its end has called for every record inspected. -/
namespace Rekey.Migration

open Retry (Policy)

/-- What holds of the migrations of a live run at any time. -/
structure Live (s : State) : Prop where
  dryRun : s.dryRun = false
  waiting : ∀ t, s.waiting = some t → t.stage = .created
  tasks : ∀ t ∈ s.tasks, t.stage ≠ .created → t.record ∈ s.calls
  settled : ∀ x ∈ s.settled, x.record ∈ s.calls
  last : s.supply = .ended → s.waiting = none
  finished : s.status = .finished → s.supply = .ended
  uncalled : s.tally.inspected = 0 → s.calls = []

variable {s u : State} {t : Task} {e : Event}

theorem start_live (limit : Nat) (policy : Policy Float) : Live (start false limit policy) := by
  constructor <;> simp [start]

namespace Live

theorem settle (h : Live s) (called : t.record ∈ s.calls) (ending : Ending) :
    Live (s.settle t ending) := by
  refine { h with tasks := ?_, settled := ?_ }
  · exact fun x mem => h.tasks x (List.mem_filter.mp mem).1
  · intro x mem
    rcases List.mem_cons.mp mem with rfl | mem
    · exact called
    · exact h.settled x mem

theorem put (h : Live s) (called : t.record ∈ s.calls) : Live (s.put t) := by
  refine { h with tasks := fun x mem stage => ?_ }
  rcases List.mem_append.mp mem with mem | mem
  · exact h.tasks x (List.mem_filter.mp mem).1 stage
  · rwa [List.mem_singleton.mp mem]

theorem call (h : Live s) (inspected : 0 < s.tally.inspected) (t : Task) : Live (s.call t) := by
  have more : Live { s with calls := t.record :: s.calls } :=
    { h with
      tasks := fun x mem stage => List.mem_cons_of_mem _ (h.tasks x mem stage)
      settled := fun x mem => List.mem_cons_of_mem _ (h.settled x mem)
      uncalled := fun none => absurd none (Nat.ne_of_gt inspected) }
  exact more.put (t := { t with stage := .calling }) List.mem_cons_self

theorem abort (h : Live s) {status : Status} (unfinished : status ≠ .finished) :
    Live (s.abort status) := by
  refine { h with
    waiting := by simp [State.abort]
    tasks := by simp [State.abort]
    settled := fun x mem => ?_
    last := fun _ => rfl
    finished := fun finished => absurd finished unfinished }
  rcases List.mem_append.mp mem with mem | mem
  · obtain ⟨t, ht, rfl⟩ := List.mem_map.mp (List.mem_reverse.mp mem)
    obtain ⟨mem, begun⟩ := List.mem_filter.mp ht
    exact h.tasks t mem (by simpa using begun)
  · exact h.settled x mem

theorem fail (h : Live s) (called : t.record ∈ s.calls) (failure : Failure) (fraction : Float) :
    Live (s.fail t failure fraction) := by
  unfold State.fail
  split
  · split
    · exact { h.put (t := { t with retries := t.retries + 1, stage := .sleeping _ }) called with }
    · exact { h.settle called _ with }
  · dsimp only
    split
    · exact (h.settle called .cutOff).abort (by simp)
    · exact h.settle called .cutOff

theorem answer (h : Live s) (called : t.record ∈ s.calls) (outcome : Except Failure Bool)
    (fraction : Float) : Live (s.answer t outcome fraction) := by
  match outcome with
  | .ok true => exact { h.settle called .written with }
  | .ok false => exact h.settle called .unchanged
  | .error failure => exact h.fail called failure fraction

theorem step {limit : Nat} (h : Live s) (slots : Slots limit s) (step : Step s e u) : Live u := by
  obtain ⟨enabled⟩ := step
  have inspected : ∀ t ∈ s.tasks, 0 < s.tally.inspected := fun t mem =>
    Nat.zero_lt_of_lt (slots.number_lt t (mem_pending mem))
  cases e with
  | inspect record =>
    obtain ⟨running, -, flowing⟩ := State.isReady_iff.mp enabled
    refine { h with waiting := ?_, last := ?_, uncalled := ?_ }
    · rintro _ ⟨⟩
      rfl
    · intro ended
      exact absurd (flowing.symm.trans ended) (by simp)
    · intro none
      cases none
  | assign =>
    simp only [State.next]
    split
    · next t ht =>
      refine { h with waiting := by simp, tasks := ?_, last := fun _ => rfl }
      intro x mem stage
      rcases List.mem_append.mp mem with mem | mem
      · exact h.tasks x mem stage
      · rw [List.mem_singleton.mp mem] at stage
        exact absurd (h.waiting t ht) stage
    · exact h
  | start number =>
    simp only [State.next, h.dryRun, Bool.false_eq_true, if_false]
    split
    · next t ht => exact h.call (inspected t (State.task?_eq_some ht).1) t
    · exact h
  | answer number outcome fraction =>
    obtain ⟨t, ht, calling⟩ := State.stageIs_iff.mp enabled.2
    simp only [State.next, ht]
    refine h.answer (h.tasks t (State.task?_eq_some ht).1 fun created => ?_) outcome fraction
    rw [created] at calling
    cases calling
  | wake number =>
    simp only [State.next]
    split
    · next t ht => exact h.call (inspected t (State.task?_eq_some ht).1) t
    · exact h
  | streamEnd =>
    obtain ⟨-, waiting, -⟩ := State.isReady_iff.mp enabled
    exact { h with last := fun _ => waiting, finished := fun _ => rfl }
  | finish => exact { h with finished := fun _ => enabled.2.1 }
  | streamFail failure => exact h.abort (by simp)
  | cancel => exact h.abort (by simp)

/-- Migrations that have come to their end have called for every record inspected. -/
theorem calls_eq_nil_iff {limit : Nat} (h : Live s) (slots : Slots limit s)
    (finished : s.status = .finished) (tasks : s.tasks = []) :
    s.calls = [] ↔ s.tally.inspected = 0 := by
  have account := slots.account (.inr finished)
  rw [State.pending, h.last (h.finished finished), tasks] at account
  refine ⟨fun none => ?_, h.uncalled⟩
  have empty : s.settled = [] := List.eq_nil_iff_forall_not_mem.mpr fun x mem => by
    have := h.settled x mem
    rw [none] at this
    cases this
  rw [account, empty]
  rfl

end Live

end Rekey.Migration
