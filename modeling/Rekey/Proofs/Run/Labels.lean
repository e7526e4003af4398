import Rekey.Proofs.Migration.Live
import Rekey.Proofs.Run.DryRun

/-! # What the flag of a summary says

A summary shows how the counters of a run are labelled. Whether the run writes is for its
configuration to say. So the flag is right where the two agree, and a run that is given the counters
of another mode reports that mode. -/
namespace Rekey.Run

open Counter (Tally)

/-- Between `s` and `t` no run has come to its end. -/
structure Unended (s t : State) : Prop where
  label : t.labelledDry = s.labelledDry
  status : ∀ summary, t.status = .completed summary → s.status = .completed summary

section Steps
variable {config : Config} {s t : State} {e : Event}

theorem close_unended (s : State) : Unended s s.close := by
  unfold State.close
  cases s.migration.status with
  | running | finished => exact ⟨rfl, fun _ => id⟩
  | failed | cancelled => exact ⟨rfl, fun _ ended => by cases ended⟩

theorem migrate_unended (s : State) (e : Migration.Event) : Unended s (s.migrate e) := by
  obtain ⟨label, status⟩ := close_unended { s with
    migration := s.migration.next e
    dispatch := ((s.migration.next e).settledSince s.migration).foldl
      (fun d t => d.next (.done t.number)) s.dispatch }
  exact ⟨label, status⟩

theorem deliver_unended (s : State) (record : Option Record) (e : Dispatch.Event Record) :
    Unended s (s.deliver record e) := by
  cases record with
  | some record => exact ⟨rfl, fun _ => id⟩
  | none =>
    unfold State.deliver
    dsimp only
    split
    · next h => cases h
    · next failure _ _ =>
      obtain ⟨label, status⟩ :=
        migrate_unended { s with dispatch := s.dispatch.next e } (.streamFail failure)
      exact ⟨label, status⟩
    · exact ⟨rfl, fun _ => id⟩

theorem collect_unended (s : State) (order : List Record) : Unended s (s.collect order) := by
  unfold State.collect
  dsimp only
  repeat' split
  all_goals exact ⟨rfl, fun _ => id⟩

/-- Only the last event of a run ends it with a summary. -/
theorem unended_of_step (step : FreeStep s e t) : (∃ now, e = .finish now) ∨ Unended s t := by
  obtain ⟨-⟩ := step
  cases e with
  | finish now => exact .inl ⟨now, rfl⟩
  | read | put | acquire | flush | exhaust | conclude | assign => exact .inr ⟨rfl, fun _ => id⟩
  | collect order => exact .inr (collect_unended s order)
  | request | begin | surrender => exact .inr (deliver_unended s _ _)
  | start number => exact .inr (migrate_unended s (.start number))
  | answer number outcome fraction =>
    exact .inr (migrate_unended s (.answer number outcome fraction))
  | wake number => exact .inr (migrate_unended s (.wake number))
  | cancel => exact .inr (migrate_unended s .cancel)

end Steps

section Runs
variable {config : Config} {baseline : Tally} {labelledDry : Value} {startedAt : Float}
  {s t : State} {e : Event} {moves : List (State × Event)} {summary : Summary}

/-- A run keeps its label, and its summary shows it and the counters. -/
structure Labelled (labelledDry : Value) (baseline : Tally) (t : State) : Prop where
  label : t.labelledDry = labelledDry
  baseline : t.baseline = baseline
  summary : ∀ summary, t.status = .completed summary → ∃ now, summary = t.summary now

theorem Labelled.step (h : Labelled labelledDry baseline s) (step : FreeStep s e t) :
    Labelled labelledDry baseline t := by
  have base : t.baseline = baseline := (step_baseline step).trans h.baseline
  rcases unended_of_step step with ⟨now, rfl⟩ | unended
  · obtain ⟨-⟩ := step
    refine ⟨h.label, base, fun summary ended => ⟨now, ?_⟩⟩
    exact (Status.completed.inj ended).symm
  · refine ⟨unended.label.trans h.label, base, fun summary ended => ?_⟩
    have := unended.status summary ended
    rw [step.running] at this
    cases this

theorem trace_labelled
    (trace : Trace FreeStep (start config labelledDry baseline startedAt) moves t) :
    Labelled labelledDry baseline t :=
  trace.preserves (P := fun _ t => Labelled labelledDry baseline t)
    ⟨rfl, rfl, fun _ ended => by cases ended⟩ fun _ _ _ _ _ h step => h.step step

theorem trace_live (positive : config.Positive) (live : config.isDry = false)
    (trace : Trace FreeStep (start config labelledDry baseline startedAt) moves t) :
    Migration.Live t.migration := by
  apply trace.preserves (P := fun _ t => Migration.Live t.migration)
  · rw [start, live]
    exact Migration.start_live _ _
  · intro moves s e u earlier h step
    have flow := trace_flow positive earlier
    rcases flow.migration_step step with ⟨e', -, step'⟩ | ⟨-, same⟩
    · exact h.step flow.slots step'
    · rwa [same]

/-- A run that has returned has called for nothing exactly if it was dry or had nothing to do. -/
theorem uncalled_iff (positive : config.Positive)
    (trace : Trace FreeStep (start config labelledDry baseline startedAt) moves t)
    (completed : t.status = .completed summary) :
    t.migration.calls = [] ↔ config.isDry = true ∨ t.migration.tally.inspected = 0 := by
  cases mode : config.isDry with
  | true => simp [(trace_dry positive mode trace).calls]
  | false =>
    have flow := trace_flow positive trace
    cases flow.stage with
    | running running => rw [running] at completed; cases completed
    | broken _ _ unended => exact absurd completed (unended summary)
    | completed _ finished tasks =>
      rw [(trace_live positive mode trace).calls_eq_nil_iff flow.slots finished tasks]
      simp

/-- The flag of a summary is right: a run that it calls dry has called for no record, and one that
it calls live is live. -/
structure Truthful (config : Config) (t : State) (summary : Summary) : Prop where
  dry : summary.dryRun.truthy = true → t.migration.calls = []
  live : summary.dryRun.truthy = false → config.isDry = false

theorem truthful_iff_of_uncalled {idle : Prop}
    (uncalled : t.migration.calls = [] ↔ config.isDry = true ∨ idle) :
    Truthful config t summary ↔ summary.dryRun.truthy = config.isDry ∨
      (summary.dryRun.truthy = true ∧ idle) := by
  constructor
  · rintro ⟨dry, live⟩
    cases flag : summary.dryRun.truthy with
    | true =>
      rcases uncalled.mp (dry flag) with mode | idle
      · exact .inl mode.symm
      · exact .inr ⟨rfl, idle⟩
    | false => exact .inl (live flag).symm
  · rintro (agree | ⟨flag, idle⟩)
    · exact ⟨fun flag => uncalled.mpr (.inl (agree ▸ flag)), fun flag => agree ▸ flag⟩
    · exact ⟨fun _ => uncalled.mpr (.inr idle), fun live => by rw [flag] at live; cases live⟩

/-- What the flag of a summary comes from, and when it is right. -/
structure Flagged (config : Config) (labelledDry : Value) (baseline : Tally) (t : State)
    (summary : Summary) : Prop where
  flag : summary.dryRun = labelledDry
  uncalled : config.isDry = true → t.migration.calls = []
  called : config.isDry = false → ∀ x ∈ t.migration.settled, x.record ∈ t.migration.calls
  truthful_iff : Truthful config t summary ↔ labelledDry.truthy = config.isDry ∨
    (labelledDry.truthy = true ∧ summary.inspected = baseline.inspected)
  own_counters : labelledDry = config.dryRun → Truthful config t summary

/-- The flag of a summary is the label of the run's counters, and it is right exactly if that is the
mode of the configuration, or a run that is called dry has had nothing to do. -/
theorem summary_flagged (positive : config.Positive)
    (trace : Trace FreeStep (start config labelledDry baseline startedAt) moves t)
    (completed : t.status = .completed summary) :
    Flagged config labelledDry baseline t summary := by
  have labelled := trace_labelled trace
  obtain ⟨now, rfl⟩ := labelled.summary _ completed
  have flag : (t.summary now).dryRun = labelledDry := labelled.label
  have idle : (t.summary now).inspected = baseline.inspected ↔
      t.migration.tally.inspected = 0 := by
    show ((t.baseline.inspected + t.migration.tally.inspected : Nat) : Int) = _ ↔ _
    rw [labelled.baseline]
    omega
  have truthful : Truthful config t (t.summary now) ↔ labelledDry.truthy = config.isDry ∨
      (labelledDry.truthy = true ∧ (t.summary now).inspected = baseline.inspected) := by
    rw [truthful_iff_of_uncalled (uncalled_iff positive trace completed), flag, idle]
  exact ⟨flag, fun dry => (trace_dry positive dry trace).calls,
    fun live => (trace_live positive live trace).settled, truthful,
    fun own => truthful.mpr (.inl (own ▸ rfl))⟩

end Runs

theorem small_run_flagged : smallConfig.Positive ∧ ∃ summary,
    smallEnd.status = .completed summary ∧ smallEnd.migration.calls = [ada, ada] ∧
      Flagged smallConfig (.bool false) .zero smallEnd summary :=
  ⟨small_positive, _, rfl, by decide +kernel,
    summary_flagged small_positive (small_trace.mono fun _ _ _ step => step.1.free) rfl⟩

/-- The small run, given the counters of a dry run. -/
def mislabelledStart : State := start smallConfig (.bool true) .zero 0

def mislabelledEnd : State := Trace.reached State.next mislabelledStart smallEvents

/-- It writes its record, and its summary calls it dry. -/
theorem mislabelled_run_writes : smallConfig.isDry = false ∧ ∃ moves summary,
    Trace FreeStep mislabelledStart moves mislabelledEnd ∧
      mislabelledEnd.status = .completed summary ∧ summary.dryRun.truthy = true ∧
      summary.migrated = 1 ∧ mislabelledEnd.migration.calls = [ada, ada] := by
  have runs : Trace.Runs State.next State.Enabled mislabelledStart smallEvents := by
    decide +kernel
  exact ⟨rfl, _, _, Trace.of_runs State.next (fun _ _ => .intro) runs, rfl, rfl,
    by decide +kernel, by decide +kernel⟩

end Rekey.Run
