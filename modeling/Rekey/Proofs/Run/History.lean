import Rekey.Proofs.Run.Conservation

/-! # Histories of runs

A run without cancellation has a history, and the migrations in it have theirs: what is known of the
migrations on their own holds of them in every run. -/
namespace Rekey.Run

open Counter (Tally)

def OrdinaryStep (source : Nat → Stream Record) (s : State) (e : Event) (t : State) : Prop :=
  Step source s e t ∧ e.Ordinary

/-- The event of the migrations that an event brings about. -/
def State.migrationEvent? (s : State) : Event → Option Migration.Event
  | .request =>
    match s.dispatch.current, s.dispatch.puller with
    | record :: _, _ => some (.inspect record)
    | [], .failed failure => some (.streamFail failure)
    | [], _ => none
  | .begin => (s.dispatch.ready.head?.bind (·.head?)).map .inspect
  | .surrender =>
    match s.dispatch.puller with
    | .failed failure => some (.streamFail failure)
    | _ => none
  | .conclude => some .streamEnd
  | .assign => some .assign
  | .start number => some (.start number)
  | .answer number outcome fraction => some (.answer number outcome fraction)
  | .wake number => some (.wake number)
  | .finish _ => some .finish
  | .cancel => some .cancel
  | .read .. | .put _ | .acquire | .collect _ | .flush _ | .exhaust => none

def history (moves : List (State × Event)) : List (Migration.State × Migration.Event) :=
  Trace.seen State.migration State.migrationEvent? moves

section Trace
variable {config : Config} {baseline : Tally} {source : Nat → Stream Record} {s t : State}
  {moves : List (State × Event)} {labelledDry : Value} {startedAt : Float}

theorem running_of_step {e : Event} (step : Step source s e t) : s.isRunning = true := by
  obtain ⟨enabled, -⟩ := step
  exact enabled.1

theorem Lost.not_running (h : Lost config source s) : s.isRunning = false := by
  obtain ⟨i, -, cause, -, hs⟩ := h
  simp [State.isRunning, hs]

theorem migration_step (h : Invariant config baseline source s) {e : Event}
    (step : OrdinaryStep source s e t) :
    (∃ e', s.migrationEvent? e = some e' ∧ Migration.OrdinaryStep s.migration e' t.migration) ∨
      (s.migrationEvent? e = none ∧ t.migration = s.migration) := by
  obtain ⟨step, ordinary⟩ := step
  have running := running_of_step step
  have change := change_of_step step ordinary h.whole h.ready_nonempty
  obtain ⟨⟨-, enabled⟩, -⟩ := step
  generalize s.next e = t at change
  cases change with
  | read | put | acquire | gather | fill | mark | fault | flush | exhaust =>
    exact .inr ⟨rfl, rfl⟩
  | next ready request hc =>
    exact .inl ⟨.inspect _, by simp [State.migrationEvent?, hc], .intro ready, trivial⟩
  | await _ _ hc sound =>
    exact .inr ⟨by simp only [State.migrationEvent?, hc], rfl⟩
  | begin waiting hr =>
    refine .inl ⟨.inspect _, by simp [State.migrationEvent?, hr], .intro ?_, trivial⟩
    exact h.handing.waiting waiting.2.1
  | @lose _ failure _ event failed _ _ migration =>
    rcases event with ⟨rfl, hc⟩ | rfl
    · refine .inl
        ⟨.streamFail failure, by simp only [State.migrationEvent?, hc, failed], ?_, trivial⟩
      rw [migration]
      exact .intro (e := .streamFail _) enabled.1
    · refine .inl ⟨.streamFail failure, by simp only [State.migrationEvent?, failed], ?_, trivial⟩
      rw [migration]
      exact .intro (e := .streamFail _) (h.handing.waiting enabled.2.1)
  | conclude concluding =>
    exact .inl ⟨.streamEnd, rfl, .intro (h.handing.waiting concluding.2.1), trivial⟩
  | assign assigning => exact .inl ⟨.assign, rfl, .intro assigning, trivial⟩
  | move task own | settle task own =>
    refine .inl ⟨_, ?_, own⟩
    cases e <;> simp_all [Event.task?, State.migrationEvent?]
  | finish finishing => exact .inl ⟨.finish, rfl, .intro finishing, trivial⟩

/-- The invariant holds before every step of a run, whatever more is known of its steps, and after
the last one unless that has raised the failure of a segment's scan. -/
theorem invariant_all_along (positive : config.Positive)
    (ordinary : Scan.Ordinary source config.segments) {step : State → Event → State → Prop}
    (within : ∀ s e t, step s e t → OrdinaryStep source s e t)
    (trace : Trace step (start config labelledDry baseline startedAt) moves t) :
    Trace (fun s e t => Invariant config baseline source s ∧ step s e t)
        (start config labelledDry baseline startedAt) moves t ∧
      (Invariant config baseline source t ∨ Lost config source t) := by
  apply trace.strengthen (P := fun t => Invariant config baseline source t ∨ Lost config source t)
  · exact .inl (start_invariant positive ordinary labelledDry startedAt)
  · intro t e u h one
    obtain ⟨taken, uncancelled⟩ := within t e u one
    rcases h with h | h
    · exact ⟨step_preserves_invariant h ordinary taken uncancelled, h, one⟩
    · have := running_of_step taken
      rw [h.not_running] at this
      cases this

theorem invariant_trace (positive : config.Positive)
    (ordinary : Scan.Ordinary source config.segments)
    (trace : Trace (OrdinaryStep source) (start config labelledDry baseline startedAt) moves t) :
    Trace (fun s e t => Invariant config baseline source s ∧ OrdinaryStep source s e t)
      (start config labelledDry baseline startedAt) moves t :=
  (invariant_all_along positive ordinary (fun _ _ _ step => step) trace).1

theorem trace_invariant (positive : config.Positive)
    (ordinary : Scan.Ordinary source config.segments)
    (trace : Trace (OrdinaryStep source) (start config labelledDry baseline startedAt) moves t) :
    Invariant config baseline source t ∨ Lost config source t :=
  (invariant_all_along positive ordinary (fun _ _ _ step => step) trace).2

/-- Within a run the migrations take their own steps. -/
theorem trace_migration (positive : config.Positive)
    (ordinary : Scan.Ordinary source config.segments)
    (trace : Trace (OrdinaryStep source) (start config labelledDry baseline startedAt) moves t) :
    Trace Migration.OrdinaryStep
      (Migration.start config.isDry config.maxConcurrency config.retry) (history moves)
      t.migration :=
  (invariant_trace positive ordinary trace).component State.migration State.migrationEvent?
    fun _ _ _ step => migration_step step.1 step.2

theorem not_lost (sound : ∀ i < config.segments, (source i).failure = none) :
    ¬ Lost config source t := by
  rintro ⟨i, hi, cause, hcause, -⟩
  rw [sound i hi] at hcause
  cases hcause

theorem ordinary_of_sound (sound : ∀ i < config.segments, (source i).failure = none) :
    Scan.Ordinary source config.segments := by
  intro i hi failure hf
  rw [sound i hi] at hf
  cases hf

theorem invariant_of_sound (positive : config.Positive)
    (sound : ∀ i < config.segments, (source i).failure = none)
    (trace : Trace (OrdinaryStep source) (start config labelledDry baseline startedAt) moves t) :
    Invariant config baseline source t :=
  (trace_invariant positive (ordinary_of_sound sound) trace).resolve_right (not_lost sound)

end Trace

/-! ## A small run

One record is read, its first call fails in a way that may pass, and its second one writes it. -/

def Happen (source : Nat → Stream Record) (s : State) : List Event → Prop
  | [] => True
  | e :: events =>
    (Trace.reached State.next s events).Enabled e ∧
      e.Follows source (Trace.reached State.next s events) ∧ e.Ordinary ∧ Happen source s events

theorem trace_of_happen {source : Nat → Stream Record} {s : State} {events : List Event}
    (h : Happen source s events) :
    Trace (OrdinaryStep source) s (Trace.replay State.next s events)
      (Trace.reached State.next s events) := by
  refine Trace.of_replays _ ?_
  induction events with
  | nil => trivial
  | cons e events ih =>
    obtain ⟨enabled, follows, ordinary, rest⟩ := h
    exact ⟨⟨.intro enabled follows, ordinary⟩, ih rest⟩

theorem follows_read {source : Nat → Stream Record} {s : State} {segment : Nat}
    {r : Scan.Reader Record} {answer : Answer Record} (hr : s.scan.readers[segment]? = some r)
    (due : answer = (source segment).answer r.produced.length) :
    (Event.read segment answer).Follows source s := by
  intro r' hr'
  rw [hr] at hr'
  cases hr'
  exact due

def ada : Record := ⟨"ada", ⟨"hash", "salt"⟩, 5⟩

def bea : Record := ⟨"bea", ⟨"hash", "salt"⟩, 20⟩

def cleo : Record := ⟨"cleo", ⟨"hash", "salt"⟩, 7⟩

def busy : Failure := .transient "busy" none

def refused : Failure := .plain .store "refused"

def steadyPolicy : Retry.Policy Float := ⟨2, 1, 1, none, 0⟩

def smallConfig : Config := ⟨.bool false, 1, 1, 1, 1, steadyPolicy⟩

theorem small_positive : smallConfig.Positive := ⟨by decide, by decide, by decide, by decide⟩

def smallSource : Nat → Stream Record := fun _ => ⟨[ada], none⟩

def smallStart : State := start smallConfig (.bool false) .zero 0

/-- The events of the small run, the last of which comes first. -/
def smallEvents : List Event :=
  [.finish 0, .conclude, .exhaust, .collect [], .put 0, .read 0 .exhausted, .acquire, .request,
    .answer 0 (.ok true) 0, .wake 0, .answer 0 (.error busy) 0, .start 0, .assign, .begin,
    .collect [ada], .put 0, .read 0 (.item ada), .acquire, .request]

theorem small_happen : Happen smallSource smallStart smallEvents := by
  have ordinary : busy.isOrdinary = true := rfl
  refine ⟨?_, trivial, trivial, ?_, trivial, trivial, ?_, trivial, trivial, ?_, trivial, trivial,
    ?_, trivial, trivial, ?_, follows_read rfl rfl, trivial, ?_, trivial, trivial, ?_, trivial,
    trivial, ?_, trivial, trivial, ?_, trivial, trivial, ?_, trivial, ordinary, ?_, trivial, trivial,
    ?_, trivial, trivial, ?_, trivial, trivial, ?_, trivial, trivial, ?_, trivial, trivial,
    ?_, follows_read rfl rfl, trivial, ?_, trivial, trivial, ?_, trivial, trivial, trivial⟩
  all_goals decide +kernel

def smallMoves : List (State × Event) := Trace.replay State.next smallStart smallEvents

def smallEnd : State := Trace.reached State.next smallStart smallEvents

theorem small_trace : Trace (OrdinaryStep smallSource) smallStart smallMoves smallEnd :=
  trace_of_happen small_happen

/-! ## A run with every outcome

Three records are read in two segments and come in two windows, the first of them in another order.
One record is written with its second call, one is declined and one is abandoned. -/

def wideConfig : Config := ⟨.bool false, 2, 2, 2, 2, steadyPolicy⟩

theorem wide_positive : wideConfig.Positive := ⟨by decide, by decide, by decide, by decide⟩

def wideSource : Nat → Stream Record
  | 0 => ⟨[ada, bea], none⟩
  | _ + 1 => ⟨[cleo], none⟩

theorem wide_sound (i : Nat) : (wideSource i).failure = none := by cases i <;> rfl

def wideStart : State := start wideConfig (.bool false) .zero 0

/-- The events of the run, the last of which comes first. Two tasks are under way at a time. -/
def wideEvents : List Event :=
  [.finish 0, .conclude, .answer 0 (.ok false) 0, .exhaust, .acquire, .answer 2 (.error refused) 0,
    .request, .start 2, .assign, .answer 1 (.ok true) 0, .wake 1, .answer 1 (.error busy) 0, .begin,
    .flush [cleo], .collect [], .put 1, .collect [], .collect [], .acquire, .read 1 .exhausted,
    .put 1, .put 0, .read 0 .exhausted, .request, .start 1, .assign, .request, .start 0, .assign,
    .begin, .collect [bea, ada], .put 0, .read 0 (.item bea), .collect [], .put 0,
    .read 0 (.item ada), .read 1 (.item cleo), .acquire, .request]

theorem wide_happen : Happen wideSource wideStart wideEvents := by
  simp only [wideEvents, Happen]
  constructorm* _ ∧ _
  all_goals first
    | exact trivial
    | decide +kernel
    | exact follows_read rfl rfl
    | rfl

def wideMoves : List (State × Event) := Trace.replay State.next wideStart wideEvents

def wideEnd : State := Trace.reached State.next wideStart wideEvents

theorem wide_trace : Trace (OrdinaryStep wideSource) wideStart wideMoves wideEnd :=
  trace_of_happen wide_happen

end Rekey.Run
