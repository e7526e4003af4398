import Rekey.Proofs.Run.Frame
import Rekey.Proofs.Scan.Markers

/-! # What a store answers in a run

A store may answer without end, and one scan of it may fail or break off while another goes on.
How the scans come out is how the run goes on: it returns when each has come to its end, and fails
by what one of them raised. In a given run a store is asked finitely often, so that the run is one
over streams. -/
namespace Rekey.Run

open Counter (Tally)

/-- A step in which the readers are told what the store answers, and nothing is cancelled. -/
structure AnsweredStep (answers : Nat → Nat → Answer Record) (s : State) (e : Event) (t : State) :
    Prop where
  free : FreeStep s e t
  told : e.Told answers s
  ordinary : e.Ordinary

def sourceOf (answers : Nat → Nat → Answer Record) (n segment : Nat) : Stream Record :=
  Scan.streamOf (answers segment) n

section Scans
variable {s t : State} {e : Event}

/-- Between `s` and `t` the scan has at most been closed. -/
def LeavesScan (s t : State) : Prop :=
  t.scan = s.scan ∨ (s.scan.Enabled .close ∧ t.scan = s.scan.next .close)

theorem close_scan (s : State) : LeavesScan s s.close := by
  unfold State.close
  cases s.migration.status with
  | running | finished => exact .inl rfl
  | failed | cancelled =>
    by_cases running : s.scan.isRunning = true
    · exact .inr ⟨running, if_pos running⟩
    · exact .inl (if_neg running)

theorem migrate_scan (s : State) (e : Migration.Event) : LeavesScan s (s.migrate e) :=
  close_scan { s with
    migration := s.migration.next e
    dispatch := ((s.migration.next e).settledSince s.migration).foldl
      (fun d t => d.next (.done t.number)) s.dispatch }

theorem deliver_scan (s : State) (record : Option Record) (e : Dispatch.Event Record) :
    LeavesScan s (s.deliver record e) := by
  cases record with
  | some record => exact .inl rfl
  | none =>
    cases hs : (s.dispatch.next e).status with
    | failed failure =>
      rw [deliver_failed hs]
      exact migrate_scan { s with dispatch := s.dispatch.next e } (.streamFail failure)
    | running | ended | closed =>
      refine .inl ?_
      unfold State.deliver
      simp only [hs]

theorem collect_scan (s : State) (order : List Record) : (s.collect order).scan = s.scan.take := by
  unfold State.collect
  dsimp only
  split
  · split <;> rfl
  · split <;> rfl

/-- Within a run the scan takes its own steps, and only the store is asked. -/
theorem scan_step (step : FreeStep s e t) : t.scan = s.scan ∨
    ∃ e', s.scan.Enabled e' ∧ t.scan = s.scan.next e' ∧
      ∀ segment answer, e' = .read segment answer → e = .read segment answer := by
  have closing : LeavesScan s t → t.scan = s.scan ∨ ∃ e', s.scan.Enabled e' ∧
      t.scan = s.scan.next e' ∧
      ∀ segment answer, e' = .read segment answer → e = .read segment answer := by
    rintro (same | ⟨running, closed⟩)
    · exact .inl same
    · exact .inr ⟨.close, running, closed, fun _ _ other => by cases other⟩
  obtain ⟨-, enabled⟩ := step
  cases e with
  | read segment answer =>
    exact .inr ⟨.read segment answer, enabled.2, rfl, fun _ _ same => by cases same; rfl⟩
  | put segment => exact .inr ⟨.put segment, enabled.2, rfl, fun _ _ other => by cases other⟩
  | collect order =>
    exact .inr ⟨.take, enabled.2.1, collect_scan s order, fun _ _ other => by cases other⟩
  | acquire | flush | exhaust | conclude | assign | finish => exact .inl rfl
  | request => exact closing (deliver_scan s _ _)
  | begin => exact closing (deliver_scan s _ _)
  | surrender => exact closing (deliver_scan s _ _)
  | start number => exact closing (migrate_scan s (.start number))
  | answer number outcome fraction =>
    exact closing (migrate_scan s (.answer number outcome fraction))
  | wake number => exact closing (migrate_scan s (.wake number))
  | cancel => exact closing (migrate_scan s .cancel)

/-- A scan that has come out stays as it is. -/
theorem scan_settled (step : FreeStep s e t) (settled : s.scan.status ≠ .running) :
    t.scan.status = s.scan.status := by
  rcases scan_step step with same | ⟨e', enabled, -, -⟩
  · rw [same]
  · refine absurd (Scan.State.isRunning_iff.mp ?_) settled
    cases e' with
    | read | put | take => exact enabled.1
    | close => exact enabled

theorem step_marked {answers : Nat → Nat → Answer Record} {segments : Nat}
    (h : Scan.Marked answers segments s.scan) (told : e.Told answers s) (step : FreeStep s e t) :
    Scan.Marked answers segments t.scan := by
  rcases scan_step step with same | ⟨e', enabled, next, asks⟩
  · rw [same]
    exact h
  · rw [next]
    refine Scan.enabled_preserves_marked h enabled ?_
    cases e' with
    | read segment answer =>
      obtain rfl := asks segment answer rfl
      exact told
    | put | take | close => trivial

end Scans

/-- How a run goes on is how its scan has come out. -/
inductive Reported (s : State) : Prop where
  | running : s.status = .running →
    (s.dispatch.puller = .ended → s.scan.status = .ended) →
    (∀ failure, s.dispatch.puller = .failed failure → s.scan.status = .failed failure) →
    (s.migration.supply = .ended → s.scan.status = .ended) → Reported s
  | completed {summary : Summary} : s.status = .completed summary → s.scan.status = .ended →
    Reported s
  | failed {failure : Failure} : s.status = .failed failure → s.scan.status = .failed failure →
    Reported s

section Reports
variable {config : Config} {s t : State} {e : Event}

theorem Flow.change (h : Flow config s) (step : FreeStep s e t) (ordinary : e.Ordinary) :
    Change s e t := by
  obtain ⟨enabled⟩ := step
  refine change_of_enabled enabled ordinary (.inl (h.running enabled.1).2) ?_
  intro window mem
  exact List.ne_nil_of_length_pos (h.load.sized window mem).1

theorem await_puller {d : Dispatch.State Record} (sound : ∀ failure, d.puller ≠ .failed failure) :
    d.await.puller = d.puller ∨ d.await.puller = .seeking := by
  unfold Dispatch.State.await
  split
  · next failure failed => exact absurd failed (sound failure)
  · exact .inr rfl
  · exact .inl rfl

theorem Reported.of_live (going : t.status = .running) (live : t.dispatch.puller.isLive = true)
    (supplied : t.migration.supply = .ended → t.scan.status = .ended) : Reported t := by
  refine .running going ?_ ?_ supplied
  · intro puller
    rw [puller] at live
    cases live
  · intro failure puller
    rw [puller] at live
    cases live

theorem step_reported (h : Flow config s) (reported : Reported s) (step : FreeStep s e t)
    (ordinary : e.Ordinary) : Reported t := by
  have going := step.running
  have settled := scan_settled step
  have change := h.change step ordinary
  cases reported with
  | completed completed => rw [going] at completed; cases completed
  | failed failed => rw [going] at failed; cases failed
  | running _ ended failed supplied =>
    have flowing : s.scan.isRunning = true → s.migration.supply ≠ .ended := by
      intro running drained
      rw [Scan.State.isRunning_iff.mp running] at supplied
      cases supplied drained
    cases change with
    | read | put =>
      exact .running going (by simpa using ended) (by simpa using failed) (by simpa using supplied)
    | acquire => exact .of_live going rfl supplied
    | gather pulling running | mark pulling running =>
      exact .of_live going (by rw [pulling]; rfl) fun drained => absurd drained (flowing running)
    | fill _ running => exact .of_live going rfl fun drained => absurd drained (flowing running)
    | fault _ running _ fails =>
      refine .running going (fun puller => by cases puller) ?_ fun drained =>
        absurd drained (flowing running)
      rintro _ ⟨⟩
      exact fails
    | flush => exact .of_live going rfl supplied
    | exhaust _ drained =>
      exact .running going (fun _ => drained) (fun _ puller => by cases puller) supplied
    | next _ _ hc =>
      refine .running going ?_ ?_ supplied <;> simpa [Dispatch.State.deliver, hc]
    | await _ _ _ sound =>
      rcases await_puller sound with same | seeking
      · rw [← same] at ended failed
        exact .running going ended failed supplied
      · exact .of_live going (by rw [seeking]; rfl) supplied
    | begin _ hr =>
      rw [Dispatch.begin_eq hr]
      exact .running going ended failed supplied
    | lose _ puller status =>
      have hscan := failed _ puller
      exact .failed status ((settled (by rw [hscan]; simp)).trans hscan)
    | conclude enabled =>
      have drained : s.dispatch.puller = .ended := by
        obtain ⟨-, -, -, drained⟩ := enabled
        split at drained
        · assumption
        · exact drained.elim
      refine .running going ?_ ?_ fun _ => ended drained
      · exact fun _ => ended drained
      · intro failure puller
        simp [Dispatch.State.next, Dispatch.State.shut, drained, Dispatch.Puller.isLive] at puller
    | assign enabled =>
      obtain ⟨x, hx⟩ := Option.isSome_iff_exists.mp enabled.2.1
      refine .running going ended failed ?_
      simpa [Migration.State.next, hx] using supplied
    | move _ _ _ _ moved =>
      refine .running going ended failed ?_
      rw [moved.supply]
      exact supplied
    | settle _ _ _ _ done =>
      obtain ⟨free, inFlight, slots, hframe, -⟩ := Dispatch.done_frame s.dispatch _
      rw [hframe]
      refine .running going ended failed ?_
      rw [done.supply]
      exact supplied
    | finish finishing => exact .completed rfl (supplied finishing.2.1)

end Reports

section Traces
variable {config : Config} {answers : Nat → Nat → Answer Record} {baseline : Tally}
  {labelledDry : Value} {startedAt : Float} {moves : List (State × Event)} {t : State} {n : Nat}

theorem trace_marked
    (trace : Trace (AnsweredStep answers) (start config labelledDry baseline startedAt) moves t) :
    Scan.Marked answers config.segments t.scan :=
  (trace.strengthen (P := fun t => Scan.Marked answers config.segments t.scan)
    (Scan.start_marked answers config.segments config.queueCapacity)
    fun _ _ _ marked step => ⟨step_marked marked step.told step.free, step⟩).2

theorem trace_reported (positive : config.Positive)
    (trace : Trace (AnsweredStep answers) (start config labelledDry baseline startedAt) moves t) :
    Reported t := by
  refine trace.preserves (P := fun _ t => Reported t) (.of_live rfl rfl nofun) ?_
  intro moves s e u earlier reported step
  have flow := trace_flow positive (earlier.mono fun _ _ _ step => step.free)
  exact step_reported flow reported step.free step.ordinary

/-- When a run has returned, each scan has come to its end. -/
theorem exhausts_of_completed (positive : config.Positive)
    (trace : Trace (AnsweredStep answers) (start config labelledDry baseline startedAt) moves t)
    {summary : Summary} (completed : t.status = .completed summary) :
    ∀ i < config.segments, Scan.Exhausts (answers i) := by
  cases trace_reported positive trace with
  | running running => rw [running] at completed; cases completed
  | failed failed => rw [failed] at completed; cases completed
  | completed _ ended => exact (trace_marked trace).ended ended

/-- A run takes a step for each answer. -/
theorem trace_asked
    (trace : Trace (AnsweredStep answers) (start config labelledDry baseline startedAt) moves t) :
    ∀ (i : Nat) (r : Scan.Reader Record), t.scan.readers[i]? = some r →
      r.produced.length ≤ moves.length := by
  induction trace with
  | nil =>
    intro i r hr
    obtain ⟨-, rfl⟩ : i < config.segments ∧ (⟨.reading, []⟩ : Scan.Reader Record) = r := by
      simpa [start, Scan.start, List.getElem?_replicate] using hr
    exact Nat.le_refl _
  | @snoc moves t u e earlier step ih =>
    intro i r hr
    rw [List.length_cons]
    rcases unread_of_step step.free with ⟨segment, answer, rfl⟩ | ⟨now, rfl⟩ | unread
    · obtain ⟨⟨-⟩, -, -⟩ := step
      obtain ⟨r', hr', hle⟩ := Scan.reader_of_read hr
      have := ih i r' hr'
      omega
    · obtain ⟨⟨-⟩, -, -⟩ := step
      exact Nat.le_succ_of_le (ih i r hr)
    · obtain ⟨r', hr', same⟩ := Scan.reader_of_produced unread.produced hr
      rw [← same]
      exact Nat.le_succ_of_le (ih i r' hr')

/-- The run is one over the streams of the store's first answers. -/
theorem trace_streams
    (trace : Trace (AnsweredStep answers) (start config labelledDry baseline startedAt) moves t)
    (within : moves.length < n) : Trace (OrdinaryStep (sourceOf answers n))
      (start config labelledDry baseline startedAt) moves t := by
  induction trace with
  | nil => exact .nil
  | @snoc moves t u e earlier step ih =>
    rw [List.length_cons] at within
    have told := (trace_marked earlier).told
    have asked := trace_asked earlier
    refine (ih (by omega)).snoc ?_
    obtain ⟨⟨enabled⟩, answered, ordinary⟩ := step
    refine ⟨.intro enabled ?_, ordinary⟩
    cases e with
    | read segment answer =>
      intro r hr
      have hshort := asked segment r hr
      rw [answered r hr, sourceOf, Scan.streamOf_answer (by omega) (told.items hr)]
    | put | acquire | collect | flush | exhaust | request | begin | surrender | conclude | assign
    | start | answer | wake | finish | cancel => trivial

end Traces

end Rekey.Run
