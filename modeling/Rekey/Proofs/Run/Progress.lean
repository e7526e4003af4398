import Rekey.Proofs.Run.Termination

/-! # No run gets stuck

A run under way in which nothing is outstanding can always go on: a task that has not started can
start, a record that waits finds a free slot when no task is left, and a window that is needed finds
a slot free when no record of the earlier ones is left. So a run comes to a stop only by returning or
by raising, and it raises only when the scan of a segment fails. -/
namespace Rekey.Run

open Counter (Tally)

/-- Whether an event is a step that a task of the run takes of itself. The others wait for the store,
for the end of a pause, or for someone outside. -/
def Event.isInternal : Event → Bool
  | .read .. | .answer .. | .wake _ | .cancel => false
  | .put _ | .acquire | .collect _ | .flush _ | .exhaust | .request | .begin | .surrender
  | .conclude | .assign | .start _ | .finish _ => true

/-- No task can take a step, and no scan step, store call or pause is outstanding. -/
structure Quiescent (s : State) : Prop where
  stuck : ∀ e, e.isInternal = true → ¬ s.Enabled e
  no_scan : s.scanning = true → s.scan.isRunning = true → ∀ i, s.scan.isReading i = false
  no_call : ∀ t ∈ s.migration.tasks, t.stage ≠ .calling
  no_pause : ∀ t ∈ s.migration.tasks, ∀ delay, t.stage ≠ .sleeping delay

/-- When no record of any window is left, no slot is held. -/
theorem held_eq_zero {cap : Nat} {d : Dispatch.State Record} (h : Dispatch.Invariant cap d)
    (resolved : ∀ w, d.unresolved w = 0) : d.held = 0 := by
  unfold Dispatch.State.held
  apply List.countP_eq_zero.mpr
  intro slot hslot
  obtain ⟨w, hw⟩ := List.mem_iff_getElem?.mp hslot
  have hpending : slot.pending = 0 := by
    simpa [Dispatch.State.unresolved, hw] using resolved w
  simp [(h.slots slot hslot).released_eq, hpending]

section Progress
variable {config : Config} {baseline : Tally} {source : Nat → Stream Record} {s : State}

theorem Quiescent.no_tasks (quiescent : Quiescent s) (h : Invariant config baseline source s)
    (running : s.isRunning = true) : s.migration.tasks = [] := by
  apply List.eq_nil_iff_forall_not_mem.mpr
  intro t ht
  have hmigration := Migration.State.isRunning_iff.mpr (h.running running).2
  have htask := Migration.State.task?_of_mem (h.ledger.tasks_nodup h.whole) ht
  cases hstage : t.stage with
  | created =>
    refine quiescent.stuck (.start t.number) rfl ⟨running, hmigration, ?_⟩
    exact Migration.State.stageIs_iff.mpr ⟨t, htask, by simp [hstage]⟩
  | calling => exact quiescent.no_call t ht hstage
  | sleeping delay => exact quiescent.no_pause t ht delay hstage

theorem Quiescent.no_waiting (quiescent : Quiescent s) (h : Invariant config baseline source s)
    (positive : config.Positive) (running : s.isRunning = true) : s.migration.waiting = none := by
  cases hw : s.migration.waiting with
  | none => rfl
  | some t =>
    have hslots := h.ledger.slots h.whole
    rw [quiescent.no_tasks h running, List.length_nil] at hslots
    have := positive.maxConcurrency
    exact absurd ⟨running, Migration.State.isRunning_iff.mpr (h.running running).2, by simp [hw],
      by omega⟩ (quiescent.stuck .assign rfl)

theorem Quiescent.waiting (quiescent : Quiescent s) (h : Invariant config baseline source s)
    (positive : config.Positive) (running : s.isRunning = true) :
    s.dispatch.status = .running ∧ s.dispatch.consumer = .waiting ∧ s.dispatch.ready = [] := by
  have hmigration := (h.running running).2
  rcases h.handing.supply with ⟨hdispatch, hflowing⟩ | ⟨-, hended⟩
  · have hready : s.migration.isReady = true :=
      Migration.State.isReady_iff.mpr
        ⟨hmigration, quiescent.no_waiting h positive running, hflowing⟩
    have hopen := Dispatch.State.isRunning_iff.mpr hdispatch
    have hwaiting : s.dispatch.consumer = .waiting := by
      cases hc : s.dispatch.consumer with
      | waiting => rfl
      | idle => exact absurd ⟨running, hready, hopen, hc⟩ (quiescent.stuck .request rfl)
    refine ⟨hdispatch, hwaiting, ?_⟩
    cases hr : s.dispatch.ready with
    | nil => rfl
    | cons window ready =>
      exact absurd ⟨running, hopen, hwaiting, by simp [hr]⟩ (quiescent.stuck .begin rfl)
  · refine absurd ⟨running, ?_, hended, ?_⟩ (quiescent.stuck (.finish 0) rfl)
    · exact Migration.State.isRunning_iff.mpr hmigration
    · rw [quiescent.no_tasks h running]; rfl

theorem Quiescent.free_slot (quiescent : Quiescent s) (h : Invariant config baseline source s)
    (positive : config.Positive) (running : s.isRunning = true)
    (seeking : s.dispatch.puller = .seeking) : 0 < s.dispatch.free := by
  obtain ⟨hopen, hwaiting, hready⟩ := quiescent.waiting h positive running
  have hcurrent := (h.dispatch.waiting hwaiting).2.1
  have hpending : s.migration.pending = [] := by
    simp [Migration.State.pending, quiescent.no_waiting h positive running,
      quiescent.no_tasks h running]
  -- With no task left, all records delivered are settled and every slot is back.
  have hheld := held_eq_zero h.dispatch fun w => by
    rw [h.handing.unresolved w, hcurrent, hpending]
    simp
  have hfree := h.dispatch.free_eq hopen
  rw [h.dispatch.inFlight_eq, hready, hheld] at hfree
  simp only [Dispatch.State.isPulling, seeking, List.length_nil, Bool.false_eq_true,
    if_false] at hfree
  have := positive.maxWindows
  omega

theorem Quiescent.not_pulling (quiescent : Quiescent s) (h : Invariant config baseline source s)
    (positive : config.Positive) (running : s.isRunning = true) :
    s.dispatch.puller ≠ .pulling := by
  intro pulling
  have hpulling := Dispatch.State.isPulling_iff.mpr pulling
  have hscanning := h.gathering.scanning pulling
  cases hs : s.scan.status with
  | closed => exact h.gathering.still_open hs
  | failed failure =>
    have := (h.gathering.failed failure).mpr hs
    rw [pulling] at this
    cases this
  | ended =>
    have hended := State.scanEnded_iff.mpr hs
    cases hh : s.held with
    | nil => exact quiescent.stuck .exhaust rfl ⟨running, hpulling, hended, by simp [hh]⟩
    | cons record held =>
      refine quiescent.stuck (.flush s.held.reverse) rfl
        ⟨running, hpulling, hended, by simp [hh], ?_⟩
      exact List.isPerm_iff.mpr (.refl _)
  | running =>
    have hrunning := Scan.State.isRunning_iff.mpr hs
    cases hq : s.scan.queue with
    | cons entry queue =>
      have horder : ∃ order, State.allows s.completes? order = true := by
        cases s.completes? with
        | none => exact ⟨[], rfl⟩
        | some window => exact ⟨window, List.isPerm_iff.mpr (.refl _)⟩
      obtain ⟨order, horder⟩ := horder
      exact quiescent.stuck (.collect order) rfl
        ⟨running, hpulling, ⟨hrunning, by simp [hq]⟩, horder⟩
    | nil =>
      -- Nothing to take, so a reader waits for the store or for room, and there is room.
      obtain ⟨i, hreading | hoffered⟩ := h.scan.reader_at_work hs (by simp [hq])
      · rw [quiescent.no_scan hscanning hrunning i] at hreading
        cases hreading
      · refine quiescent.stuck (.put i) rfl ⟨running, hscanning, hrunning, hoffered, ?_⟩
        have := positive.buffer
        simp [Scan.State.hasRoom, hq, h.scan.capacity_eq, Config.queueCapacity]
        omega

/-- A run in which nothing can happen is not under way any more. -/
theorem Quiescent.not_running (quiescent : Quiescent s) (h : Invariant config baseline source s)
    (positive : config.Positive) : s.isRunning = false := by
  by_contra hr
  have running : s.isRunning = true := by simpa using hr
  obtain ⟨hopen, hwaiting, hready⟩ := quiescent.waiting h positive running
  have hrunning := Dispatch.State.isRunning_iff.mpr hopen
  cases hp : s.dispatch.puller with
  | resting => exact (h.dispatch.waiting hwaiting).2.2 hp
  | seeking =>
    exact quiescent.stuck .acquire rfl ⟨running, Dispatch.State.isSeeking_iff.mpr hp,
      quiescent.free_slot h positive running hp⟩
  | pulling => exact quiescent.not_pulling h positive running hp
  | ended =>
    refine quiescent.stuck .conclude rfl ⟨running, hrunning, hwaiting, by simp [hready], ?_⟩
    simp [hp]
  | failed failure =>
    refine quiescent.stuck .surrender rfl ⟨running, hrunning, hwaiting, by simp [hready], ?_⟩
    simp [hp]
  | stopped => exact h.dispatch.stopped hopen hp

end Progress

section Runs
variable {config : Config} {baseline : Tally} {source : Nat → Stream Record} {t : State}
  {moves : List (State × Event)} {labelledDry : Value} {startedAt : Float}

/-- A run takes no more steps than its source allows. It stops only by returning or raising, and if
no segment's scan fails, by returning. -/
theorem run_comes_to_an_end (positive : config.Positive)
    (ordinary : Scan.Ordinary source config.segments)
    (trace : Trace (OrdinaryStep source) (start config labelledDry baseline startedAt) moves t) :
    moves.length ≤ stepBound config source ∧
    (Quiescent t → (∃ summary, t.status = .completed summary) ∨
      ∃ failure, t.status = .failed failure) ∧
    ((∀ i < config.segments, (source i).failure = none) →
      (t.status = .running ∨ ∃ summary, t.status = .completed summary) ∧
      (Quiescent t → ∃ summary, t.status = .completed summary)) := by
  have hcompleted : ∀ h : Invariant config baseline source t, Quiescent t →
      ∃ summary, t.status = .completed summary := by
    intro h quiescent
    have hnot := quiescent.not_running h positive
    rcases h.status with ⟨hs, -⟩ | ⟨now, hs, -⟩
    · rw [State.isRunning_iff.mpr hs] at hnot; cases hnot
    · exact ⟨_, hs⟩
  refine ⟨trace_length_le positive ordinary trace, fun quiescent => ?_, fun sound => ?_⟩
  · rcases trace_invariant positive ordinary trace with h | ⟨i, -, cause, -, hs⟩
    · exact .inl (hcompleted h quiescent)
    · exact .inr ⟨_, hs⟩
  · have h := invariant_of_sound positive sound trace
    refine ⟨?_, hcompleted h⟩
    rcases h.status with ⟨hs, -⟩ | ⟨now, hs, -⟩
    · exact .inl hs
    · exact .inr ⟨_, hs⟩

end Runs

/-- The run with every outcome takes 39 of at most 55 steps, and returns. -/
theorem wide_run_comes_to_an_end : wideMoves.length = 39 ∧
    stepBound wideConfig wideSource = 55 ∧ wideMoves.length ≤ stepBound wideConfig wideSource ∧
    (wideEnd.status = .running ∨ ∃ summary, wideEnd.status = .completed summary) ∧
    wideEnd.isRunning = false := by
  have run := run_comes_to_an_end wide_positive (ordinary_of_sound fun i _ => wide_sound i)
    wide_trace
  exact ⟨rfl, by decide, run.1, (run.2.2 fun i _ => wide_sound i).1, by decide +kernel⟩

end Rekey.Run
