import Rekey.Run.Work
import Rekey.Proofs.Migration.Calls

/-! # Outcomes on their way

When the outcome of every call is settled beforehand by its record, each record has been settled, or
its outcome is on its way to its task, or its call has not been carried out, and never two of these.
-/
namespace Rekey.Migration

open Run (Reply)

/-- The outcomes on their way belong to tasks that wait for them, and they and the endings are those
due to their records. -/
structure Answered (due : Record → Bool) (s : State) (replies : List Reply) : Prop where
  numbers : (replies.map (·.number)).Nodup
  calling : ∀ y ∈ replies, ∃ t ∈ s.tasks,
    t.number = y.number ∧ t.record = y.record ∧ t.stage = .calling
  outcome : ∀ y ∈ replies, y.outcome = .ok (due y.record)
  settled : ∀ x ∈ s.settled, x.ending = .ofOutcome (.ok (due x.record))

def resolved (s : State) (replies : List Reply) : List Record :=
  s.settled.map (·.record) ++ replies.map (·.record)

section Preservation
variable {due : Record → Bool} {limit : Nat} {given : List Record} {s u : State} {t : Task}
  {replies : List Reply}

/-- A step by which no task is told anything leaves calling tasks and settled records alone. -/
theorem calling_of_step (h : Ledger limit given s) (live : s.dryRun = false) {e : Event}
    (step : OrdinaryStep s e u) (silent : ∀ n, e.answer? n = none) (whole : u.IsWhole) :
    u.settled = s.settled ∧ ∀ t ∈ s.tasks, t.stage = .calling → t ∈ u.tasks := by
  -- A task that starts or wakes was not calling, and the others stay.
  have hmoved : ∀ {t t' : Task}, s.status = .running → t ∈ s.tasks → t.stage ≠ .calling →
      Moved s t t' u → u.settled = s.settled ∧ ∀ x ∈ s.tasks, x.stage = .calling → x ∈ u.tasks := by
    intro t t' running mem idle moved
    refine ⟨moved.settled, fun x hx calling => ?_⟩
    have hperm := others_perm (h.tasks_nodup (.inl running)) mem
    rcases List.mem_cons.mp (hperm.mem_iff.mp hx) with rfl | hx
    · exact absurd calling idle
    · rw [moved.tasks]
      exact List.mem_append_left _ hx
  obtain ⟨⟨enabled⟩, ordinary⟩ := step
  cases e with
  | inspect | streamEnd | finish => exact ⟨rfl, fun _ hx _ => hx⟩
  | assign =>
    simp only [State.next]
    split
    · exact ⟨rfl, fun _ hx _ => List.mem_append_left _ hx⟩
    · exact ⟨rfl, fun _ hx _ => hx⟩
  | start number =>
    obtain ⟨t, mem, running, -, -, step⟩ := taskStep_of_enabled enabled ordinary rfl
    generalize s.next (.start number) = u at step hmoved
    cases step with
    | skip dry => rw [live] at dry; cases dry
    | begin _ created moved => exact hmoved running mem (by simp [created]) moved
  | wake number =>
    obtain ⟨t, mem, running, -, -, step⟩ := taskStep_of_enabled enabled ordinary rfl
    generalize s.next (.wake number) = u at step hmoved
    cases step with
    | resume sleeping moved => exact hmoved running mem (by simp [sleeping]) moved
  | answer number outcome fraction =>
    have := silent number
    simp [Event.answer?] at this
  | streamFail failure => rcases whole with hw | hw <;> cases hw
  | cancel => exact ordinary.elim

theorem Answered.silent (a : Answered due s replies) (h : Ledger limit given s)
    (live : s.dryRun = false) {e : Event} (step : OrdinaryStep s e u)
    (silent : ∀ n, e.answer? n = none) (whole : u.IsWhole) :
    Answered due u replies ∧ resolved u replies = resolved s replies := by
  obtain ⟨hsettled, hcalling⟩ := calling_of_step h live step silent whole
  refine ⟨{ a with calling := fun y hy => ?_, settled := fun x hx => ?_ }, ?_⟩
  · obtain ⟨t, ht, hnumber, hrecord, calling⟩ := a.calling y hy
    exact ⟨t, hcalling t ht calling, hnumber, hrecord, calling⟩
  · rw [hsettled] at hx
    exact a.settled x hx
  · unfold resolved
    rw [hsettled]

/-- A task that is told of its outcome ends with it. -/
theorem Answered.told (a : Answered due s replies) (h : Ledger limit given s) {y : Reply}
    (hy : y ∈ replies) {fraction : Float}
    (step : OrdinaryStep s (.answer y.number y.outcome fraction) u) :
    Answered due u (replies.filter (·.number != y.number)) ∧
      (resolved u (replies.filter (·.number != y.number))).Perm (resolved s replies) := by
  obtain ⟨⟨enabled⟩, ordinary⟩ := step
  obtain ⟨t, mem, running, -, hnumber, step⟩ := taskStep_of_enabled enabled ordinary rfl
  have nodup := h.tasks_nodup (.inl running)
  -- Numbers are distinct, so the task told is the one whose outcome was on its way.
  have hrecord : t.record = y.record := by
    obtain ⟨t', ht', hn, hr, -⟩ := a.calling y hy
    rw [← hr, List.inj_on_of_nodup_map nodup mem ht' (hnumber.trans hn.symm)]
  generalize s.next (.answer y.number y.outcome fraction) = u at step
  rw [a.outcome y hy, ← hnumber] at step
  obtain ⟨tasks, settled⟩ : u.tasks = s.others y.number ∧
      u.settled = ⟨y.number, y.record, .ofOutcome (.ok (due y.record))⟩ :: s.settled := by
    cases step with
    | conclude _ _ ended =>
      have hsettled := ended.settled
      rw [hnumber, hrecord] at hsettled
      exact ⟨hnumber ▸ ended.tasks, hsettled⟩
  have hperm := (perm_cons_filter a.numbers hy).map (·.record)
  refine ⟨⟨?_, ?_, ?_, ?_⟩, ?_⟩
  · exact a.numbers.sublist (List.filter_sublist.map _)
  · intro z hz
    obtain ⟨hz, hne⟩ := List.mem_filter.mp hz
    obtain ⟨t', ht', hn, hr, calling⟩ := a.calling z hz
    rw [tasks]
    exact ⟨t', List.mem_filter.mpr ⟨ht', by simpa [hn] using hne⟩, hn, hr, calling⟩
  · exact fun z hz => a.outcome z (List.mem_of_mem_filter hz)
  · intro x hx
    rw [settled] at hx
    rcases List.mem_cons.mp hx with rfl | hx
    · rfl
    · exact a.settled x hx
  · unfold resolved
    rw [settled]
    exact List.perm_middle.symm.trans (hperm.symm.append_left _)

theorem Answered.carriedOut (a : Answered due s replies) (mem : t ∈ s.tasks)
    (calling : t.stage = .calling) (fresh : ∀ y ∈ replies, y.number ≠ t.number) :
    Answered due s (⟨t.number, t.record, .ok (due t.record)⟩ :: replies) := by
  refine ⟨?_, ?_, ?_, a.settled⟩
  · refine List.nodup_cons.mpr ⟨fun hmem => ?_, a.numbers⟩
    obtain ⟨y, hy, hnumber⟩ := List.mem_map.mp hmem
    exact fresh y hy hnumber
  · intro y hy
    rcases List.mem_cons.mp hy with rfl | hy
    · exact ⟨t, mem, rfl, rfl, calling⟩
    · exact a.calling y hy
  · intro y hy
    rcases List.mem_cons.mp hy with rfl | hy
    · rfl
    · exact a.outcome y hy

/-- No call carried out was for the key of a task whose call has not been. -/
theorem Answered.key_ne (a : Answered due s replies) (h : Ledger limit given s)
    (whole : s.IsWhole) (distinct : (given.map (·.key)).Nodup) (mem : t ∈ s.tasks)
    (fresh : ∀ y ∈ replies, y.number ≠ t.number) :
    ∀ r ∈ resolved s replies, r.key ≠ t.record.key := by
  intro r hr
  rcases List.mem_append.mp hr with hr | hr
  · obtain ⟨x, hx, rfl⟩ := List.mem_map.mp hr
    exact (settled_key_ne h whole distinct mem hx).symm
  · obtain ⟨y, hy, rfl⟩ := List.mem_map.mp hr
    obtain ⟨t', ht', hnumber, hrecord, -⟩ := a.calling y hy
    intro same
    apply fresh y hy
    rw [← hnumber]
    refine h.number_of_key whole distinct (pending_known (mem_pending ht'))
      (pending_known (mem_pending mem)) ?_
    simpa only [Task.key, hrecord] using same

end Preservation

end Rekey.Migration
