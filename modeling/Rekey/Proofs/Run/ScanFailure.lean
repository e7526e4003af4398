import Rekey.Proofs.Run.Answers

/-! # A failed scan is never reported as success

When the scan of a segment raises, the run ends by raising its failure, or that of another
segment, if it ends, and nothing is left at work then. -/
namespace Rekey.Run

open Counter (Tally)

/-- A run over a store of which some scan raises, in the state `t`. -/
structure NotReported (config : Config) (baseline : Tally) (answers : Nat → Nat → Answer Record)
    (t : State) : Prop where
  unreturned : ∀ summary, t.status ≠ .completed summary
  unlogged : ∀ summary, .runCompleted summary ∉ t.log
  raised : t.status ≠ .running → ∃ i < config.segments, ∃ cause,
    Scan.Raises (answers i) cause ∧
      t.status = .failed (.because (.scan i config.segments cause) cause)
  at_rest : t.status ≠ .running → (∀ r ∈ t.scan.readers, r.isLive = false) ∧
    t.dispatch.puller.isLive = false ∧ t.migration.pending = [] ∧ ∀ e, ¬ t.Enabled e
  counted : ∃ gain, t.tally = baseline.plus gain ∧
    gain.migrated + gain.abandoned ≤ gain.inspected ∧ gain.inspected ≤ t.produced.length

section Counters
variable {config : Config} {baseline : Tally} {labelledDry : Value} {startedAt : Float}
  {moves : List (State × Event)} {t : State}

theorem Flow.delivered_le (h : Flow config t) :
    t.dispatch.delivered.length ≤ t.dispatch.pulled.flatten.length := by
  have hrecords := congrArg List.length h.load.records_eq
  rw [(List.reverse_perm t.dispatch.pulled).flatten.length_eq] at hrecords
  simp only [List.length_append, List.length_map, Dispatch.State.deliveries,
    List.length_reverse] at hrecords
  omega

/-- At any time what is counted as done has been inspected, and what has been inspected was read. -/
theorem Flow.counted (h : Flow config t) :
    t.migration.tally.migrated + t.migration.tally.abandoned ≤ t.migration.tally.inspected ∧
      t.migration.tally.inspected ≤ t.produced.length := by
  have hcounted := h.slots.counted
  have hsettled := h.slots.settled_le
  have hdelivered := h.delivered_le
  obtain ⟨lost, perm, -⟩ := h.gathered
  have hpulled := perm.length_eq
  rw [List.length_append] at hpulled
  have hread := h.scan.yielded_subperm.length_le
  rw [h.inspected]
  refine ⟨by rw [← h.inspected]; omega, ?_⟩
  show _ ≤ t.scan.produced.length
  omega

theorem trace_baseline
    (trace : Trace FreeStep (start config labelledDry baseline startedAt) moves t) :
    t.baseline = baseline :=
  (trace.strengthen (P := fun t => t.baseline = baseline) rfl
    fun _ _ _ same step => ⟨(step_baseline step).trans same, step⟩).2

theorem trace_quiet
    (trace : Trace FreeStep (start config labelledDry baseline startedAt) moves t)
    (unreturned : ∀ summary, t.status ≠ .completed summary) :
    Quiet t.notices ∧ Quiet t.scan.notices ∧ Quiet t.migration.notices := by
  induction trace with
  | nil =>
    refine ⟨?_, ?_, ?_⟩ <;> simp [Quiet, start, Scan.start, Migration.start]
  | snoc earlier step ih =>
    exact step_quiet step unreturned (ih (by simp [step.running]))

end Counters

section Failures
variable {config : Config} {answers : Nat → Nat → Answer Record} {baseline : Tally}
  {labelledDry : Value} {startedAt : Float} {moves : List (State × Event)} {t : State}

/-- A run over a store whose scan of some segment raises ends by that, or by the failure of another
segment, if it ends. -/
theorem raised_or_running (positive : config.Positive)
    (raises : ∃ i < config.segments, ∃ cause, Scan.Raises (answers i) cause)
    (trace : Trace (AnsweredStep answers) (start config labelledDry baseline startedAt) moves t) :
    t.status = .running ∨ ∃ i < config.segments, ∃ cause, Scan.Raises (answers i) cause ∧
      t.status = .failed (.because (.scan i config.segments cause) cause) := by
  cases trace_reported positive trace with
  | running running => exact .inl running
  | completed completed =>
    obtain ⟨i, hi, cause, raised⟩ := raises
    exact absurd raised ((exhausts_of_completed positive trace completed i hi).not_raises cause)
  | failed failed scan =>
    obtain ⟨i, hi, cause, raised, rfl⟩ := (trace_marked trace).failed _ scan
    exact .inr ⟨i, hi, cause, raised, failed⟩

theorem failed_scan_not_reported (positive : config.Positive)
    (raises : ∃ i < config.segments, ∃ cause, Scan.Raises (answers i) cause)
    (trace : Trace (AnsweredStep answers) (start config labelledDry baseline startedAt) moves t) :
    NotReported config baseline answers t := by
  have hfree := trace.mono fun _ _ _ step => step.free
  have hflow := trace_flow positive hfree
  have hended := raised_or_running positive raises trace
  have hunreturned : ∀ summary, t.status ≠ .completed summary := by
    intro summary completed
    rcases hended with running | ⟨_, _, _, _, failed⟩
    · rw [running] at completed; cases completed
    · rw [failed] at completed; cases completed
  constructor
  · exact hunreturned
  · intro summary mem
    obtain ⟨own, scan, migration⟩ := trace_quiet hfree hunreturned
    rcases List.mem_append.mp mem with mem | mem
    · rcases List.mem_append.mp mem with mem | mem
      · exact own summary mem
      · exact scan summary mem
    · exact migration summary mem
  · exact fun stopped => hended.resolve_left stopped
  · intro stopped
    cases hflow.stage with
    | running running => exact absurd running stopped
    | completed completed => exact absurd completed (hunreturned _)
    | broken broken _ _ scan dispatch =>
      refine ⟨hflow.scan.halted scan, hflow.load.halted dispatch, hflow.slots.broken broken, ?_⟩
      exact fun e enabled => stopped (State.isRunning_iff.mp enabled.1)
  · refine ⟨t.migration.tally, ?_, hflow.counted⟩
    rw [State.tally, trace_baseline hfree]

end Failures

/-! ## A run that fails

One record is read and written before the store raises. -/

def fault : Failure := .plain .ordinary "scan broke"

def faultyStore : Nat → Nat → Answer Record := fun _ n => if n = 0 then .item ada else .failed fault

/-- The events of the run, the last of which comes first. -/
def faultyEvents : List Event :=
  [.request, .collect [], .acquire, .answer 0 (.ok true) 0, .start 0, .assign, .put 0,
    .read 0 (.failed fault), .begin, .collect [ada], .put 0, .read 0 (.item ada), .acquire,
    .request]

def faultyEnd : State := Trace.reached State.next smallStart faultyEvents

theorem told_read {answers : Nat → Nat → Answer Record} {s : State} {segment : Nat}
    {r : Scan.Reader Record} {reply : Answer Record} (hr : s.scan.readers[segment]? = some r)
    (due : reply = answers segment r.produced.length) :
    (Event.read segment reply).Told answers s := by
  intro r' hr'
  rw [hr] at hr'
  cases hr'
  exact due

theorem faulty_trace : Trace (AnsweredStep faultyStore) smallStart
    (Trace.replay State.next smallStart faultyEvents) faultyEnd := by
  apply Trace.of_replays State.next
  refine ⟨⟨⟨?_⟩, trivial, trivial⟩, ⟨⟨?_⟩, trivial, trivial⟩, ⟨⟨?_⟩, trivial, trivial⟩,
    ⟨⟨?_⟩, trivial, trivial⟩, ⟨⟨?_⟩, trivial, trivial⟩, ⟨⟨?_⟩, trivial, trivial⟩,
    ⟨⟨?_⟩, trivial, trivial⟩, ⟨⟨?_⟩, told_read rfl rfl, trivial⟩, ⟨⟨?_⟩, trivial, trivial⟩,
    ⟨⟨?_⟩, trivial, trivial⟩, ⟨⟨?_⟩, trivial, trivial⟩, ⟨⟨?_⟩, told_read rfl rfl, trivial⟩,
    ⟨⟨?_⟩, trivial, trivial⟩, ⟨⟨?_⟩, trivial, trivial⟩, trivial⟩
  all_goals decide +kernel

theorem faulty_not_reported : smallConfig.Positive ∧
    (∃ i < smallConfig.segments, ∃ cause, Scan.Raises (faultyStore i) cause) ∧
    (∃ moves, Trace (AnsweredStep faultyStore) smallStart moves faultyEnd) ∧
    faultyEnd.isRunning = false ∧ NotReported smallConfig .zero faultyStore faultyEnd := by
  have raises : ∃ i < smallConfig.segments, ∃ cause, Scan.Raises (faultyStore i) cause := by
    refine ⟨0, by decide, fault, 1, ?_, rfl⟩
    intro k hk
    obtain rfl := Nat.lt_one_iff.mp hk
    exact ⟨ada, rfl⟩
  refine ⟨small_positive, raises, ⟨_, faulty_trace⟩, by decide +kernel,
    failed_scan_not_reported small_positive raises faulty_trace⟩

end Rekey.Run
