import Rekey.Proofs.Migration.Dry
import Rekey.Proofs.Run.Sharing
import Rekey.Scripted.ListStore

/-! # A dry run leaves the store alone

No call of a dry run is ever made, so that the store carries none out, whatever other runs do with
it. When a run returns, dry or not, each record of its source has been dispatched and marked done
once. -/
namespace Rekey.Run

open Counter (Tally)
open Scripted (ListStore)

variable {ι σ : Type}

/-- The records that an event marks done, by their numbers. -/
def State.marks (s : State) (e : Event) : List Nat :=
  ((s.next e).migration.settledSince s.migration).map (·.number)

def marked (moves : List (State × Event)) : List Nat := moves.flatMap fun m => m.1.marks m.2

/-- What a run over `records` has done when it has returned. -/
structure Covered (baseline : Tally) (records : List Record) (moves : List (State × Event))
    (t : State) : Prop where
  inspected : t.tally.inspected = baseline.inspected + records.length
  dispatched : (t.dispatch.deliveries.map (·.record)).Perm records
  marked : (marked moves).Perm (List.range records.length)
  resolved : ∀ window, t.dispatch.unresolved window = 0

section Marks
variable {config : Config} {baseline : Tally} {labelledDry : Value} {startedAt : Float}
  {s t : State} {e : Event} {moves : List (State × Event)}

theorem settledSince_append {s u : Migration.State} {more : List Migration.Settled}
    (h : u.settled = more ++ s.settled) : u.settledSince s = more.reverse := by
  simp [Migration.State.settledSince, h]

theorem Flow.settled_step (h : Flow config s) (step : FreeStep s e t) :
    ∃ more, t.migration.settled = more ++ s.migration.settled := by
  rcases h.migration_step step with ⟨e', -, step'⟩ | ⟨-, same⟩
  · exact Migration.step_settled step'
  · exact ⟨[], by rw [same]; rfl⟩

/-- A record is marked done when its migration is settled. -/
theorem trace_marks (positive : config.Positive)
    (trace : Trace FreeStep (start config labelledDry baseline startedAt) moves t) :
    (marked moves).Perm (t.migration.settled.map (·.number)) := by
  induction trace with
  | nil => exact .nil
  | @snoc moves s u e earlier step ih =>
    obtain ⟨more, hmore⟩ := (trace_flow positive earlier).settled_step step
    have hmarks : s.marks e = more.reverse.map (·.number) := by
      obtain ⟨-⟩ := step
      rw [State.marks, settledSince_append hmore]
    unfold marked at ih ⊢
    rw [List.flatMap_cons, hmarks, hmore, List.map_append]
    exact ((List.reverse_perm more).map _).append ih

end Marks

section Covered
variable {config : Config} {baseline : Tally} {labelledDry : Value} {startedAt : Float}
  {answers : Nat → Nat → Answer Record} {source : Nat → Stream Record} {t : State}
  {moves : List (State × Event)} {summary : Summary}

theorem failure_of_exhausts {stream : Stream Record} (h : Scan.Exhausts stream.answer) :
    stream.failure = none := by
  cases hf : stream.failure with
  | none => rfl
  | some cause =>
    refine absurd ⟨stream.items.length, fun k hk => ⟨_, Scan.answer_of_lt hk⟩, ?_⟩
      (h.not_raises cause)
    rw [Scan.answer_length_eq, hf]

theorem ordinary_of_answered (streams : ∀ i < config.segments, answers i = (source i).answer)
    (trace : Trace (AnsweredStep answers) (start config labelledDry baseline startedAt) moves t) :
    Trace (OrdinaryStep source) (start config labelledDry baseline startedAt) moves t := by
  induction trace with
  | nil => exact .nil
  | @snoc moves s u e earlier step ih =>
    have total := (trace_marked earlier).total
    obtain ⟨⟨enabled⟩, told, ordinary⟩ := step
    refine ih.snoc ⟨.intro enabled ?_, ordinary⟩
    cases e with
    | read segment answer =>
      intro r hr
      have hi : segment < config.segments := total ▸ (List.getElem?_eq_some_iff.mp hr).1
      rw [told r hr, streams segment hi]
    | put | acquire | collect | flush | exhaust | request | begin | surrender | conclude | assign
    | start | answer | wake | finish | cancel => trivial

/-- A run that returns has dispatched each record of its source once and marked it done once. -/
theorem covered_of_completed (positive : config.Positive)
    (streams : ∀ i < config.segments, answers i = (source i).answer)
    (trace : Trace (AnsweredStep answers) (start config labelledDry baseline startedAt) moves t)
    (completed : t.status = .completed summary) :
    Covered baseline ((List.range config.segments).flatMap fun i => (source i).items) moves t := by
  have sound : ∀ i < config.segments, (source i).failure = none := by
    intro i hi
    have exhausts := exhausts_of_completed positive trace completed i hi
    rw [streams i hi] at exhausts
    exact failure_of_exhausts exhausts
  have h := invariant_of_sound positive sound (ordinary_of_answered streams trace)
  have hgiven := h.given_perm completed
  have hmarks := trace_marks positive (trace.mono fun _ _ _ step => step.free)
  constructor
  · rw [h.tally_eq, hgiven.length_eq]
  · exact hgiven
  · have hnumbers := (h.settled_perm completed).map (·.2)
    rw [List.map_map, List.zipIdx_map_snd, ← List.range_eq_range', hgiven.length_eq] at hnumbers
    exact hmarks.trans hnumbers
  · intro window
    obtain ⟨pending, -, current, -, -⟩ := h.nothing_left completed
    rw [h.handing.unresolved, pending, current]
    simp

end Covered

section Dry
variable {config : Config} {baseline : Tally} {labelledDry : Value} {startedAt : Float}
  {answers : Nat → Nat → Answer Record} {s t : State} {e : Event} {moves : List (State × Event)}

theorem Flow.dry (h : Flow config s) (dry : Migration.Dry s.migration) (step : FreeStep s e t) :
    Migration.Dry t.migration := by
  rcases h.migration_step step with ⟨e', -, step'⟩ | ⟨-, same⟩
  · exact Migration.step_preserves_dry dry step'
  · rwa [same]

theorem trace_dry (positive : config.Positive) (dry : config.isDry = true)
    (trace : Trace FreeStep (start config labelledDry baseline startedAt) moves t) :
    Migration.Dry t.migration := by
  apply trace.preserves (P := fun _ t => Migration.Dry t.migration)
  · rw [start, dry]
    exact Migration.start_dry _ _
  · exact fun _ _ _ _ earlier h step => (trace_flow positive earlier).dry h step

/-- Nothing is cancelled in a dry run that has not been broken off. -/
theorem dry_answered (positive : config.Positive) (dry : config.isDry = true)
    (trace : Trace (fun s e t => FreeStep s e t ∧ e.Told answers s)
      (start config labelledDry baseline startedAt) moves t) (whole : t.migration.IsWhole) :
    Trace (AnsweredStep answers) (start config labelledDry baseline startedAt) moves t := by
  induction trace with
  | nil => exact .nil
  | @snoc moves s u e earlier step ih =>
    obtain ⟨step, told⟩ := step
    have free := earlier.mono fun _ _ _ step => step.1
    have h := trace_dry positive dry free
    refine (ih (whole_of_step (trace_flow positive free) step)).snoc ⟨step, told, ?_⟩
    obtain ⟨enabled⟩ := step
    cases e with
    | answer => exact absurd enabled.2 h.unanswered
    | cancel =>
      rw [State.next, migrate_migration] at whole
      rcases whole with whole | whole <;> cases whole
    | read | put | acquire | collect | flush | exhaust | request | begin | surrender | conclude
    | assign | start | wake | finish => trivial

end Dry

/-- A dry run has no call on its way and no outcome. -/
structure Pass.Dry (p : Pass) : Prop where
  migration : Migration.Dry p.run.migration
  calls : p.calls = []
  replies : p.replies = []

section Passes
variable {plan : Plan} {p q : Pass} {reply? : Option Reply} {s : State} {e : Event}

theorem call?_eq_none (dry : Migration.Dry s.migration) (enabled : s.Enabled e) :
    s.call? e = none := by
  cases e with
  | start number => simp only [State.call?, dry.dryRun, if_true]
  | wake number => exact absurd enabled.2 dry.asleep
  | read | put | acquire | collect | flush | exhaust | request | begin | surrender | conclude
  | assign | answer | finish | cancel => rfl

theorem passStep_preserves_dry (flow : Flow plan.config p.run) (h : p.Dry)
    (step : PassStep plan p reply? q) : q.Dry ∧ reply? = none := by
  cases step with
  | move step =>
    have migration := flow.dry h.migration step
    obtain ⟨enabled⟩ := step
    refine ⟨⟨migration, ?_, h.replies⟩, rfl⟩
    rw [call?_eq_none h.migration enabled, h.calls]
    rfl
  | carryOut made =>
    rw [h.calls] at made
    cases made
  | answer mem =>
    rw [h.replies] at mem
    cases mem

theorem trace_pass_dry {moves : List (Pass × Option Reply)} (positive : plan.config.Positive)
    (dry : plan.config.isDry = true) (trace : Trace (PassStep plan) (.start plan) moves p) :
    p.Dry ∧ carriedOut moves = [] := by
  apply trace.preserves (P := fun moves p => p.Dry ∧ carriedOut moves = [])
  · refine ⟨⟨?_, rfl, rfl⟩, rfl⟩
    simp only [Pass.start, Plan.start, start, dry]
    exact Migration.start_dry _ _
  · rintro moves p reply? q earlier ⟨h, none⟩ step
    obtain ⟨dry, rfl⟩ := passStep_preserves_dry (trace_pass positive earlier).flow h step
    exact ⟨dry, by rw [carriedOut_cons, none]; rfl⟩

end Passes

/-- What a dry run `i` has done among the runs on a store that was in the state `initial`. -/
structure Harmless [DecidableEq ι] (store : Store σ) (plans : ι → Plan) (initial : σ) (i : ι)
    (moves : List (Shared ι σ × Shared.Event ι)) (w : Shared ι σ) : Prop where
  uncalled : (w.passes i).run.migration.calls = [] ∧ (w.passes i).calls = []
  unpaused : (w.passes i).run.migration.delays = []
  carried : ∀ x ∈ Shared.replies store moves, x.1 ≠ i
  unchanged : ∀ m ∈ moves, m.2.pass = i → (m.1.next store plans m.2).world = m.1.world
  alone : (∀ m ∈ moves, m.2.pass = i) → w.world = initial
  migrated : (w.passes i).run.tally.migrated = (plans i).baseline.migrated
  abandoned : (w.passes i).run.tally.abandoned = (plans i).baseline.abandoned
  returned : ∀ summary, (w.passes i).run.status = .completed summary →
    ∀ source : Nat → Stream Record,
      (∀ j < (plans i).config.segments, (plans i).answers j = (source j).answer) →
      Covered (plans i).baseline
        ((List.range (plans i).config.segments).flatMap fun j => (source j).items)
        (Shared.runMoves plans i moves) (w.passes i).run

section Harmless
variable [DecidableEq ι] {store : Store σ} {plans : ι → Plan} {initial : σ} {i : ι}
  {moves : List (Shared ι σ × Shared.Event ι)} {w : Shared ι σ}

theorem unanswered_of_dry (positive : (plans i).config.Positive)
    (dry : (plans i).config.isDry = true)
    (trace : Trace (Shared.Step store plans) (.start plans initial) moves w) :
    ∀ x ∈ Shared.replies store moves, x.1 ≠ i := by
  obtain ⟨-, none⟩ := trace_pass_dry positive dry (Shared.pass_trace trace i)
  rw [Shared.carriedOut_seen, List.map_eq_nil_iff, List.filter_eq_nil_iff] at none
  exact fun x mem own => none x mem (by simpa using own)

theorem dry_run_harmless (positive : (plans i).config.Positive)
    (dry : (plans i).config.isDry = true)
    (trace : Trace (Shared.Step store plans) (.start plans initial) moves w) :
    Harmless store plans initial i moves w := by
  have hpass := trace_pass positive (Shared.pass_trace trace i)
  obtain ⟨quiet, -⟩ := trace_pass_dry positive dry (Shared.pass_trace trace i)
  have apart := unanswered_of_dry positive dry trace
  constructor
  · exact ⟨quiet.migration.calls, quiet.calls⟩
  · exact quiet.migration.delays
  · exact apart
  · exact fun m mem own => Shared.world_kept (Shared.reply?_eq_none mem apart own)
  · intro own
    exact Shared.world_of_unanswered trace fun m mem => Shared.reply?_eq_none mem apart (own m mem)
  · rw [hpass.migrated, quiet.migration.migrated, Nat.add_zero]
  · rw [State.tally, hpass.baseline]
    show (plans i).baseline.abandoned + _ = _
    rw [quiet.migration.abandoned, Nat.add_zero]
  · intro summary completed source streams
    have whole := (hpass.completed completed).1
    have answered := dry_answered positive dry (Shared.run_trace trace i) whole
    exact covered_of_completed positive streams answered completed

/-- A dry run and a live one over the same records. -/
def besidePlans : Fin 2 → Plan
  | 0 => ⟨{ wideConfig with dryRun := .bool true }, .bool true, .zero, 0,
      fun i => (wideSource i).answer⟩
  | 1 => ⟨wideConfig, .bool false, .zero, 0, fun i => (wideSource i).answer⟩

/-- One record is written once the store is no longer busy, one is there already, and one is
refused. -/
def besideStart : Shared (Fin 2) ListStore :=
  .start besidePlans (.new [ada, bea, cleo] none
    [("ada", .each [.error busy]), ("cleo", .always refused)] ["bea"])

def besideEvents : List (Shared.Event (Fin 2)) :=
  [.inner 0 (.finish 0), .inner 0 .conclude, .inner 0 .exhaust, .inner 0 .acquire,
    .inner 0 .request, .inner 0 (.start 2), .inner 0 .assign, .inner 0 .begin,
    .inner 0 (.flush [cleo]), .inner 0 (.collect []), .inner 0 (.put 1), .inner 0 (.collect []),
    .inner 1 (.finish 0), .inner 0 (.collect []), .inner 1 .conclude, .answer 1 0 0,
    .inner 0 .acquire, .inner 1 .exhaust, .inner 1 .acquire, .read 0 1, .answer 1 2 0,
    .carryOut 1 2, .inner 0 (.put 1), .inner 1 .request, .inner 1 (.start 2), .inner 0 (.put 0),
    .inner 1 .assign, .answer 1 1 0, .read 0 0, .carryOut 1 1, .inner 1 (.wake 1),
    .inner 0 .request, .answer 1 1 0, .carryOut 1 1, .inner 0 (.start 1), .carryOut 1 0,
    .inner 1 .begin, .inner 0 .assign, .inner 1 (.flush [cleo]), .inner 1 (.collect []),
    .inner 0 .request, .inner 1 (.put 1), .inner 1 (.collect []), .inner 0 (.start 0),
    .inner 1 (.collect []), .inner 1 .acquire, .inner 0 .assign, .read 1 1, .inner 1 (.put 1),
    .inner 0 .begin, .inner 1 (.put 0), .read 1 0, .inner 0 (.collect [bea, ada]),
    .inner 1 .request, .inner 1 (.start 1), .inner 0 (.put 0), .inner 1 .assign,
    .inner 1 .request, .read 0 0, .inner 1 (.start 0), .inner 1 .assign, .inner 0 (.collect []),
    .inner 1 .begin, .inner 1 (.collect [bea, ada]), .inner 0 (.put 0), .inner 1 (.put 0),
    .read 1 0, .read 0 0, .inner 1 (.collect []), .inner 1 (.put 0), .read 0 1, .read 1 0,
    .read 1 1, .inner 0 .acquire, .inner 1 .acquire, .inner 1 .request, .inner 0 .request]

def besideNext : Shared (Fin 2) ListStore → Shared.Event (Fin 2) → Shared (Fin 2) ListStore :=
  Shared.next ListStore.store besidePlans

def besideEnd : Shared (Fin 2) ListStore := Trace.reached besideNext besideStart besideEvents

/-- The live run writes one record of three and abandons one, the dry run neither. -/
theorem dry_beside_live_harmless : (besidePlans 0).config.Positive ∧
    (besidePlans 0).config.isDry = true ∧
    ((besideEnd.passes 0).run.status matches .completed _) = true ∧
    (besideEnd.passes 0).run.tally = ⟨3, 0, 0⟩ ∧ (besideEnd.passes 1).run.tally = ⟨3, 1, 1⟩ ∧
    ∃ moves, Trace (Shared.Step ListStore.store besidePlans) besideStart moves besideEnd ∧
      Harmless ListStore.store besidePlans besideStart.world 0 moves besideEnd := by
  have positive : (besidePlans 0).config.Positive := ⟨by decide, by decide, by decide, by decide⟩
  have runs : Trace.Runs besideNext (Shared.Enabled besidePlans) besideStart besideEvents := by
    decide +kernel
  have trace : Trace (Shared.Step ListStore.store besidePlans) besideStart
      (Trace.replay besideNext besideStart besideEvents) besideEnd :=
    Trace.of_runs besideNext (fun _ _ => .intro) runs
  exact ⟨positive, rfl, by decide +kernel, by decide +kernel, by decide +kernel, _, trace,
    dry_run_harmless positive rfl trace⟩

end Harmless

end Rekey.Run
