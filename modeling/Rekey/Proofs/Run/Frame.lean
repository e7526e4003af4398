import Rekey.Proofs.Run.Flow
import Rekey.Proofs.Scan.Answers

/-! # What steps leave alone

Only an answer of the store adds to what the readers have read, no step touches the counters' values
before the run, and only the end of a run reports it as complete. -/
namespace Rekey.Run

open Counter (Tally)

section Quiet

/-- None of the notices reports a run as complete. -/
def Quiet (notices : List Notice) : Prop := ∀ summary, .runCompleted summary ∉ notices

theorem Quiet.cons {notices : List Notice} (h : Quiet notices) {notice : Notice}
    (other : ∀ summary, notice ≠ .runCompleted summary) : Quiet (notice :: notices) := by
  intro summary mem
  rcases List.mem_cons.mp mem with heq | mem
  · exact other summary heq.symm
  · exact h summary mem

theorem scan_quiet {s : Scan.State Record} (h : Quiet s.notices) (e : Scan.Event Record) :
    Quiet (s.next e).notices := by
  cases e with
  | read segment answer =>
    simp only [Scan.State.next, Scan.State.read]
    split
    · exact h
    · cases answer with
      | item | failed => exact h
      | exhausted => exact h.cons (by simp)
  | put segment =>
    simp only [Scan.State.next]
    rwa [put_notices]
  | take =>
    simp only [Scan.State.next, Scan.State.take]
    split
    · exact h
    · exact h
    · split <;> exact h
    · exact h.cons (by simp)
  | close => exact h

theorem migration_quiet {s : Migration.State} (h : Quiet s.notices) (e : Migration.Event) :
    Quiet (s.next e).notices := by
  cases e with
  | inspect | streamEnd | streamFail | finish | cancel => exact h
  | assign | start | wake =>
    simp only [Migration.State.next]
    repeat' split
    all_goals exact h
  | answer number outcome fraction =>
    simp only [Migration.State.next]
    split
    · unfold Migration.State.answer
      split
      · exact h
      · exact h
      · unfold Migration.State.fail
        split
        · split
          · exact h.cons (by simp)
          · exact h.cons (by simp)
        · dsimp only
          split <;> exact h
    · exact h

end Quiet

/-- Between `s` and `t` nothing was read and no run has come to its end. -/
structure Unread (s t : State) : Prop where
  baseline : t.baseline = s.baseline
  produced : t.scan.readers.map (·.produced) = s.scan.readers.map (·.produced)
  notices : t.notices = s.notices
  scan : Quiet s.scan.notices → Quiet t.scan.notices
  migration : Quiet s.migration.notices → Quiet t.migration.notices

section Unread
variable {s t : State}

theorem Unread.refl (s : State) : Unread s s := ⟨rfl, rfl, rfl, id, id⟩

theorem close_unread (s : State) : Unread s s.close := by
  have hscan : (if s.scan.isRunning then s.scan.shut .closed else s.scan).readers.map
      (·.produced) = s.scan.readers.map (·.produced) := by
    split
    · exact Scan.State.shut_produced s.scan _
    · rfl
  have hnotices : (if s.scan.isRunning then s.scan.shut .closed else s.scan).notices =
      s.scan.notices := by
    split <;> rfl
  have hquiet : Quiet s.scan.notices →
      Quiet (if s.scan.isRunning then s.scan.shut .closed else s.scan).notices := by
    rw [hnotices]
    exact id
  unfold State.close
  cases s.migration.status with
  | running | finished => exact .refl s
  | failed | cancelled => exact ⟨rfl, hscan, rfl, hquiet, id⟩

theorem migrate_unread (s : State) (e : Migration.Event) : Unread s (s.migrate e) := by
  obtain ⟨baseline, produced, notices, scan, migration⟩ := close_unread { s with
    migration := s.migration.next e
    dispatch := ((s.migration.next e).settledSince s.migration).foldl
      (fun d t => d.next (.done t.number)) s.dispatch }
  exact ⟨baseline, produced, notices, scan, fun quiet => migration (migration_quiet quiet e)⟩

theorem deliver_unread (s : State) (record : Option Record) (e : Dispatch.Event Record) :
    Unread s (s.deliver record e) := by
  cases record with
  | some record => exact ⟨rfl, rfl, rfl, id, fun quiet => migration_quiet quiet (.inspect record)⟩
  | none =>
    cases hs : (s.dispatch.next e).status with
    | failed failure =>
      rw [deliver_failed hs]
      obtain ⟨baseline, produced, notices, scan, migration⟩ :=
        migrate_unread { s with dispatch := s.dispatch.next e } (.streamFail failure)
      exact ⟨baseline, produced, notices, scan, migration⟩
    | running | ended | closed =>
      unfold State.deliver
      simp only [hs]
      exact ⟨rfl, rfl, rfl, id, id⟩

theorem collect_unread (s : State) (order : List Record) : Unread s (s.collect order) := by
  have htake := Scan.State.take_produced s.scan
  have hquiet : Quiet s.scan.notices → Quiet s.scan.take.notices := fun h => scan_quiet h .take
  unfold State.collect
  dsimp only
  split
  · split <;> exact ⟨rfl, htake, rfl, hquiet, id⟩
  · split <;> exact ⟨rfl, htake, rfl, hquiet, id⟩

/-- An answer of the store, the end of the run, or neither. -/
theorem unread_of_step {e : Event} (step : FreeStep s e t) :
    (∃ segment answer, e = .read segment answer) ∨ (∃ now, e = .finish now) ∨ Unread s t := by
  obtain ⟨-⟩ := step
  cases e with
  | read segment answer => exact .inl ⟨segment, answer, rfl⟩
  | finish now => exact .inr (.inl ⟨now, rfl⟩)
  | put segment =>
    refine .inr (.inr ⟨rfl, Scan.State.put_produced _ _, rfl, fun quiet => ?_, id⟩)
    exact scan_quiet quiet (.put segment)
  | acquire | flush | exhaust => exact .inr (.inr ⟨rfl, rfl, rfl, id, id⟩)
  | conclude =>
    exact .inr (.inr ⟨rfl, rfl, rfl, id, fun quiet => migration_quiet quiet .streamEnd⟩)
  | assign =>
    exact .inr (.inr ⟨rfl, rfl, rfl, id, fun quiet => migration_quiet quiet .assign⟩)
  | collect order => exact .inr (.inr (collect_unread s order))
  | request => exact .inr (.inr (deliver_unread s _ _))
  | begin => exact .inr (.inr (deliver_unread s _ _))
  | surrender => exact .inr (.inr (deliver_unread s _ _))
  | start number => exact .inr (.inr (migrate_unread s (.start number)))
  | answer number outcome fraction =>
    exact .inr (.inr (migrate_unread s (.answer number outcome fraction)))
  | wake number => exact .inr (.inr (migrate_unread s (.wake number)))
  | cancel => exact .inr (.inr (migrate_unread s .cancel))

theorem step_baseline {e : Event} (step : FreeStep s e t) : t.baseline = s.baseline := by
  rcases unread_of_step step with ⟨segment, answer, rfl⟩ | ⟨now, rfl⟩ | unread
  · obtain ⟨-⟩ := step
    rfl
  · obtain ⟨-⟩ := step
    rfl
  · exact unread.baseline

end Unread

/-- The readers are told what the store answers. -/
def Event.Told (answers : Nat → Nat → Answer Record) (s : State) : Event → Prop
  | .read segment reply =>
    ∀ r, s.scan.readers[segment]? = some r → reply = answers segment r.produced.length
  | _ => True

/-- Only a run that has come to its end reports so. -/
theorem step_quiet {s t : State} {e : Event} (step : FreeStep s e t)
    (unreturned : ∀ summary, t.status ≠ .completed summary)
    (quiet : Quiet s.notices ∧ Quiet s.scan.notices ∧ Quiet s.migration.notices) :
    Quiet t.notices ∧ Quiet t.scan.notices ∧ Quiet t.migration.notices := by
  obtain ⟨own, scan, migration⟩ := quiet
  rcases unread_of_step step with ⟨segment, answer, rfl⟩ | ⟨now, rfl⟩ | unread
  · obtain ⟨-⟩ := step
    exact ⟨own, scan_quiet scan (.read segment answer), migration⟩
  · obtain ⟨-⟩ := step
    exact absurd rfl (unreturned (s.summary now))
  · refine ⟨?_, unread.scan scan, unread.migration migration⟩
    rw [unread.notices]
    exact own

end Rekey.Run
