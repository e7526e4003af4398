import Rekey.Proofs.Migration.Attempts
import Rekey.Proofs.Migration.Slots

/-! # What an event changes

Whatever happens, tasks that wait for the store go on waiting until they are told or everything is
broken off, and only a task that is told of a write counts one. -/
namespace Rekey.Migration

def Event.writes : Event → Bool
  | .answer _ (.ok true) _ => true
  | _ => false

/-- Whether a record with this ending was found to be, or was put, at its destination. -/
def Ending.isPresent : Ending → Bool
  | .written | .unchanged => true
  | .skipped | .abandoned _ | .cutOff => false

structure Effect (s : State) (e : Event) (u : State) : Prop where
  migrated : u.tally.migrated = s.tally.migrated + if e.writes then 1 else 0
  calling : u.IsWhole → ∀ t ∈ s.tasks, t.stage = .calling → e.answer? t.number = none → t ∈ u.tasks
  pending : ∀ t ∈ u.pending, e.record? = some t.record ∨ ∃ t' ∈ s.pending, t'.record = t.record
  settled : ∀ x ∈ u.settled, x.ending.isPresent = true → x ∈ s.settled ∨
    ∃ t ∈ s.tasks, t.stage = .calling ∧ t.key = x.key ∧ ∃ b, e.answer? t.number = some (.ok b)

section Effects
variable {limit : Nat} {s u : State} {t x : Task} {e : Event}

theorem Slots.eq_of_number (h : Slots limit s) (mem : t ∈ s.tasks) (hx : x ∈ s.tasks)
    (same : x.number = t.number) : x = t :=
  List.inj_on_of_nodup_map h.tasks_nodup hx mem same

theorem mem_others (hx : x ∈ s.tasks) (apart : x.number ≠ t.number) : x ∈ s.others t.number :=
  List.mem_filter.mpr ⟨hx, by simpa using apart⟩

theorem others_pending (hx : x ∈ s.waiting.toList ++ s.others t.number) : x ∈ s.pending := by
  rcases List.mem_append.mp hx with hx | hx
  · exact List.mem_append_left _ hx
  · exact List.mem_append_right _ (List.mem_of_mem_filter hx)

/-- Nothing has changed so far. -/
theorem effect_refl (s : State) (quiet : e.writes = false) : Effect s e s := by
  constructor
  · rw [quiet]
    rfl
  · exact fun _ t mem _ _ => mem
  · exact fun t ht => .inr ⟨t, ht, rfl⟩
  · exact fun x hx _ => .inl hx

theorem Effect.abort {v : State} (h : Effect s e v) {status : Status} (stopped : status ≠ .running)
    (unfinished : status ≠ .finished) : Effect s e (v.abort status) := by
  constructor
  · exact h.migrated
  · rintro (whole | whole)
    · exact absurd whole stopped
    · exact absurd whole unfinished
  · intro t ht
    cases ht
  · intro x hx present
    rcases List.mem_append.mp hx with hx | hx
    · obtain ⟨t, -, rfl⟩ := List.mem_map.mp (List.mem_reverse.mp hx)
      cases present
    · exact h.settled x hx present

theorem Moved.effect {t' : Task} (moved : Moved s t t' u) (mem : t ∈ s.tasks)
    (quiet : e.writes = false)
    (apart : ∀ x ∈ s.tasks, x.stage = .calling → e.answer? x.number = none →
      x.number ≠ t.number) : Effect s e u := by
  constructor
  · rw [moved.tally, quiet]
    rfl
  · intro _ x hx calling untold
    rw [moved.tasks]
    exact List.mem_append_left _ (mem_others hx (apart x hx calling untold))
  · intro x hx
    rw [State.pending, moved.waiting, moved.tasks, ← List.append_assoc] at hx
    rcases List.mem_append.mp hx with hx | hx
    · exact .inr ⟨x, others_pending hx, rfl⟩
    · obtain rfl := List.mem_singleton.mp hx
      exact .inr ⟨t, List.mem_append_right _ mem, moved.record.symm⟩
  · intro x hx _
    rw [moved.settled] at hx
    exact .inl hx

theorem Ended.effect {ending : Ending} (ended : Ended s t ending u) (mem : t ∈ s.tasks)
    (writes : ending.isWritten = e.writes)
    (apart : ∀ x ∈ s.tasks, x.stage = .calling → e.answer? x.number = none →
      x.number ≠ t.number)
    (told : ending.isPresent = true →
      t.stage = .calling ∧ ∃ b, e.answer? t.number = some (.ok b)) : Effect s e u := by
  constructor
  · rw [ended.tally, ← writes]
    cases ending <;> rfl
  · intro _ x hx calling untold
    rw [ended.tasks]
    exact mem_others hx (apart x hx calling untold)
  · intro x hx
    rw [State.pending, ended.waiting, ended.tasks] at hx
    exact .inr ⟨x, others_pending hx, rfl⟩
  · intro x hx present
    rw [ended.settled] at hx
    rcases List.mem_cons.mp hx with rfl | hx
    · obtain ⟨calling, answered⟩ := told present
      exact .inr ⟨t, mem, calling, rfl, answered⟩
    · exact .inl hx

theorem CutShort.effect (cut : CutShort s t u) (mem : t ∈ s.tasks) (quiet : e.writes = false)
    (apart : ∀ x ∈ s.tasks, x.stage = .calling → e.answer? x.number = none →
      x.number ≠ t.number) : Effect s e u := by
  obtain ⟨v, ended, rfl | rfl⟩ := cut
  · exact ended.effect mem quiet.symm apart fun present => by cases present
  · exact (ended.effect mem quiet.symm apart fun present => by cases present).abort (by simp)
      (by simp)

/-- A task that was not calling is none of those that wait for the store. -/
theorem Slots.apart_of_idle (h : Slots limit s) (mem : t ∈ s.tasks) (idle : t.stage ≠ .calling) :
    ∀ x ∈ s.tasks, x.stage = .calling → e.answer? x.number = none → x.number ≠ t.number := by
  intro x hx calling _ same
  rw [h.eq_of_number mem hx same] at calling
  exact idle calling

theorem apart_of_told {outcome : Except Failure Bool} {fraction : Float} :
    ∀ x ∈ s.tasks, x.stage = .calling →
      (Event.answer t.number outcome fraction).answer? x.number = none → x.number ≠ t.number := by
  intro x _ _ untold same
  simp [Event.answer?, same] at untold

theorem TaskAct.effect (h : Slots limit s) (mem : t ∈ s.tasks) (act : TaskAct s t (.event e) u) :
    Effect s e u := by
  cases act with
  | step step =>
    cases step with
    | skip _ created ended =>
      exact ended.effect mem rfl (h.apart_of_idle mem (by simp [created])) fun present => by
        cases present
    | begin _ created moved => exact moved.effect mem rfl (h.apart_of_idle mem (by simp [created]))
    | resume sleeping moved => exact moved.effect mem rfl (h.apart_of_idle mem (by simp [sleeping]))
    | pause _ _ moved => exact moved.effect mem rfl apart_of_told
    | @conclude _ outcome _ calling _ ended =>
      refine ended.effect mem ?_ apart_of_told ?_
      · match outcome with
        | .ok true | .ok false | .error _ => rfl
      · intro present
        refine ⟨calling, ?_⟩
        match outcome with
        | .ok b => exact ⟨b, by simp [Event.answer?]⟩
        | .error _ => cases present
  | cut _ cut => exact cut.effect mem rfl apart_of_told

theorem step_effect (h : Slots limit s) (step : Step s e u) : Effect s e u := by
  cases e with
  | start | answer | wake =>
    obtain ⟨t, mem, -, act⟩ := taskAct_of_step (.event step) rfl
    exact act.effect h mem
  | inspect record =>
    obtain ⟨ready⟩ := step
    have waiting := (State.isReady_iff.mp ready).2.1
    refine { effect_refl s rfl with pending := fun t ht => ?_ }
    rcases List.mem_append.mp ht with ht | ht
    · left
      obtain rfl : t = ⟨s.tally.inspected, record, 0, .created⟩ := by simpa [State.next] using ht
      rfl
    · exact .inr ⟨t, List.mem_append_right _ ht, rfl⟩
  | assign =>
    obtain ⟨-, waiting, -⟩ := step
    obtain ⟨t, ht⟩ := Option.isSome_iff_exists.mp waiting
    simp only [State.next, ht]
    refine { effect_refl s rfl with
      calling := fun _ x hx _ _ => List.mem_append_left _ hx
      pending := fun x hx => .inr ⟨x, ?_, rfl⟩ }
    simp only [State.pending, Option.toList_none, List.nil_append] at hx
    simp only [State.pending, ht, Option.toList_some]
    exact List.mem_append.mpr (List.mem_append.mp hx).symm
  | streamEnd | finish =>
    obtain ⟨-⟩ := step
    exact { effect_refl s rfl with calling := fun _ t mem _ _ => mem }
  | streamFail | cancel =>
    obtain ⟨-⟩ := step
    exact (effect_refl s rfl).abort (by simp) (by simp)

/-- The task that an event makes call. -/
def State.caller? (s : State) : Event → Option Task
  | .start number => if s.dryRun then none else s.task? number
  | .wake number => s.task? number
  | _ => none

theorem caller_calls (step : Step s e u) (caller : s.caller? e = some t) :
    t ∈ s.tasks ∧ t.stage ≠ .calling ∧ { t with stage := .calling } ∈ u.tasks := by
  obtain ⟨enabled⟩ := step
  cases e with
  | start number =>
    obtain ⟨t', mem, -, known, rfl, act⟩ := taskStep_of_enabled enabled trivial rfl
    simp only [State.caller?, known] at caller
    by_cases dry : s.dryRun = true
    · rw [if_pos dry] at caller
      cases caller
    rw [if_neg dry] at caller
    cases caller
    generalize s.next (.start t.number) = v at act
    cases act with
    | skip dry' => exact absurd dry' dry
    | begin _ created moved =>
      exact ⟨mem, by simp [created], by rw [moved.tasks]; exact List.mem_append_right _ (by simp)⟩
  | wake number =>
    obtain ⟨t', mem, -, known, rfl, act⟩ := taskStep_of_enabled enabled trivial rfl
    simp only [State.caller?, known] at caller
    cases caller
    generalize s.next (.wake t.number) = v at act
    cases act with
    | resume sleeping moved =>
      exact ⟨mem, by simp [sleeping], by rw [moved.tasks]; exact List.mem_append_right _ (by simp)⟩
  | inspect | assign | answer | streamEnd | streamFail | finish | cancel => cases caller

end Effects

end Rekey.Migration
