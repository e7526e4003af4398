import Rekey.Proofs.Run.Ending
import Rekey.Proofs.Run.Unacknowledged
import Rekey.Proofs.Service.Responsive

/-! # A run at work over a responsive client

The wall clock moves while a run is at work. Over a client that answers or fails in an ordinary way,
the run is never cancelled: it can go on until it returns or raises, and it raises exactly if a scan
has. Its effort is bounded by the records that it has read. -/
namespace Rekey.Run

open Counter (Tally)
open Service (Client Repository Responsive Session)

/-- A run that was broken off has no task left. -/
theorem Flow.whole_of_task {config : Config} {s : State} (flow : Flow config s)
    {t : Migration.Task} (mem : t ∈ s.migration.tasks) : s.migration.IsWhole := by
  by_contra broken
  have pending := Migration.mem_pending mem
  rw [flow.slots.broken broken] at pending
  cases pending

namespace Work

/-- Something happens at work, or the wall clock comes to show another time. -/
inductive Happening where
  | event (e : Event)
  | clock (now : Float)

section Steps
variable {μ : Type}

def clocked (w : Work μ) (now : Float) : Work μ :=
  { w with session := { w.session with repository := { w.session.repository with now } } }

inductive TimedStep [Client μ] : Work μ → Happening → Work μ → Prop where
  | event {w u : Work μ} {e : Event} : Step w e u → TimedStep w (.event e) u
  | clock {w : Work μ} {now : Float} : TimedStep w (.clock now) (w.clocked now)

variable [Client μ]

theorem trace_timed {w u : Work μ} {moves : List (Work μ × Event)} (trace : Trace Step w moves u) :
    Trace TimedStep w (moves.map fun m => (m.1, .event m.2)) u := by
  induction trace with
  | nil => exact .nil
  | snoc _ step ih => exact ih.snoc (.event step)

/-- The event of the run itself, if what happens is one. -/
def runEvent? (w : Work μ) : Happening → Option Run.Event
  | .event (.read segment) => (w.advance segment).1.map (.read segment)
  | .event (.answer number fraction) => (w.reply? number).map (.answer number · fraction)
  | .event (.inner e) => if e.isInner then some e else none
  | .event (.page _) | .event (.carryOut _) | .clock _ => none

def runMoves (moves : List (Work μ × Happening)) : List (State × Run.Event) :=
  Trace.seen (·.run) runEvent? moves

/-- The scan of a segment has raised at work. -/
def ScanFailed (moves : List (Work μ × Happening)) : Prop :=
  ∃ m ∈ moves, ∃ i cause, m.2 = .event (.read i) ∧ (m.1.advance i).1 = some (.failed cause)

/-- What takes an effort: all but the turning of pages and the passing of time. -/
def Happening.isEffort : Happening → Bool
  | .event (.page _) | .clock _ => false
  | .event _ => true

end Steps

/-- The outcomes on their way at work are few, and ordinary where they are failures. -/
structure Pending {μ : Type} (config : Config) (w : Work μ) : Prop where
  replying : ∃ written, Replying w.run w.replies written
  ordinary : ∀ y ∈ w.replies, ∀ failure, y.outcome = .error failure → failure.isOrdinary = true
  few : w.replies.length ≤ config.maxConcurrency

/-- One thing happens at work, of which the run takes a step of its own or none. -/
structure Happens {μ : Type} [Client μ] (config : Config) (w : Work μ) (h : Happening)
    (u : Work μ) : Prop where
  pending : Pending config u
  ran : (∃ e, w.runEvent? h = some e ∧ FreeStep w.run e u.run ∧ e.Ordinary) ∨
    (w.runEvent? h = none ∧ u.run = w.run)
  effort : (if h.isEffort then 1 else 0) + w.replies.length ≤
    2 * (w.runEvent? h).toList.length + u.replies.length

section Steps
variable {μ : Type} {config : Config} {w u : Work μ} {h : Happening}

theorem Pending.of_run (pending : Pending config w) (flow : Flow config w.run) {e : Run.Event}
    (step : FreeStep w.run e u.run) (unanswered : ∀ number, e.answer? number = none)
    (same : u.replies = w.replies) : Pending config u := by
  obtain ⟨⟨written, replying⟩, ordinary, few⟩ := pending
  refine ⟨⟨written, ?_⟩, ?_, ?_⟩ <;> rw [same]
  · exact replying.silent flow step unanswered
  · exact ordinary
  · exact few

theorem Pending.still (pending : Pending config w) (run : u.run = w.run)
    (replies : u.replies = w.replies) : Pending config u := by
  obtain ⟨replying, ordinary, few⟩ := pending
  constructor <;> rw [replies]
  · rw [run]
    exact replying
  · exact ordinary
  · exact few

/-- Outcomes on their way belong to different tasks, of which there are not too many. -/
theorem replies_le {replies : List Reply} {written : Nat}
    (replying : Replying w.run replies written) (flow : Flow config w.run)
    (whole : w.run.migration.IsWhole) : replies.length ≤ config.maxConcurrency := by
  have known : replies.map (·.number) ⊆ w.run.migration.tasks.map (·.number) := by
    intro number mem
    obtain ⟨y, hy, rfl⟩ := List.mem_map.mp mem
    obtain ⟨x, hx, -, key⟩ := replying.calling whole y hy
    exact List.mem_map.mpr ⟨x, hx, congrArg Prod.snd key⟩
  have fewer := (List.subperm_of_subset replying.numbers known).length_le
  rw [List.length_map, List.length_map] at fewer
  exact Nat.le_trans fewer flow.slots.limited

variable [Client μ]

/-- The run takes a step of its own, while the outcomes on their way stay as they are. -/
theorem Happens.of_run (flow : Flow config w.run) (pending : Pending config w) {e : Run.Event}
    (label : w.runEvent? h = some e) (step : FreeStep w.run e u.run) (plain : e.Ordinary)
    (unanswered : ∀ number, e.answer? number = none) (same : u.replies = w.replies) :
    Happens config w h u := by
  refine ⟨pending.of_run flow step unanswered same, .inl ⟨e, label, step, plain⟩, ?_⟩
  rw [label, same]
  refine Nat.add_le_add_right ?_ _
  cases h.isEffort
  · exact Nat.zero_le _
  · exact Nat.le_succ 1

theorem Happens.carryOut (responsive : Responsive μ) (flow : Flow config w.run)
    (pending : Pending config w) {t : Migration.Task} {outcome : Except Failure Bool}
    {session : Session μ} (mem : t ∈ w.run.migration.tasks) (calling : t.stage = .calling)
    (fresh : ∀ y ∈ w.replies, y.number ≠ t.number)
    (migrated : w.session.migrate t.record = (outcome, session)) :
    Happens config w (.event (.carryOut t.number))
      { w with session, replies := ⟨t.number, t.record, outcome⟩ :: w.replies } := by
  obtain ⟨⟨written, replying⟩, ordinary, -⟩ := pending
  have carried := replying.carriedOut mem calling fresh outcome
  have few := replies_le carried flow (flow.whole_of_task mem)
  refine ⟨⟨⟨_, carried⟩, ?_, few⟩, .inr ⟨rfl, rfl⟩, ?_⟩
  · refine List.forall_mem_cons.mpr ⟨fun failure raised => ?_, ordinary⟩
    have first : (w.session.repository.migrate t.record).1 = outcome :=
      congrArg Prod.fst migrated
    exact responsive.migrate (first.trans raised)
  · show 1 + w.replies.length ≤ 0 + (w.replies.length + 1)
    omega

theorem Happens.answer (flow : Flow config w.run) (pending : Pending config w) {y : Reply}
    {fraction : Float} (mem : y ∈ w.replies)
    (enabled : w.run.Enabled (.answer y.number y.outcome fraction)) :
    Happens config w (.event (.answer y.number fraction))
      { w with
        run := w.run.next (.answer y.number y.outcome fraction)
        replies := w.replies.filter (·.number != y.number) } := by
  obtain ⟨⟨written, replying⟩, ordinary, few⟩ := pending
  have step : FreeStep w.run (.answer y.number y.outcome fraction) _ := .intro enabled
  have fewer := (Migration.perm_cons_filter replying.numbers mem).length_eq
  rw [List.length_cons] at fewer
  have told : w.reply? y.number = some y.outcome := by
    obtain ⟨z, found⟩ : ∃ z, w.replies.find? (·.number == y.number) = some z :=
      Option.isSome_iff_exists.mp (List.find?_isSome.mpr ⟨y, mem, beq_self_eq_true _⟩)
    have same : z.number = y.number := by simpa using List.find?_some found
    rw [reply?, found, Option.map_some,
      List.inj_on_of_nodup_map replying.numbers (List.mem_of_find?_eq_some found) mem same]
  constructor
  · refine ⟨⟨_, replying.answered flow mem step⟩, ?_, ?_⟩
    · exact fun z hz => ordinary z (List.mem_of_mem_filter hz)
    · exact Nat.le_trans (by dsimp only; omega) few
  · refine .inl ⟨_, by rw [runEvent?, told, Option.map_some], step, ?_⟩
    cases outcome : y.outcome with
    | ok => trivial
    | error failure => exact ordinary y mem failure outcome
  · rw [runEvent?, told]
    simp only [Happening.isEffort, if_true, Option.map_some, Option.toList_some,
      List.length_singleton]
    omega

theorem step_happens (responsive : Responsive μ) (flow : Flow config w.run)
    (pending : Pending config w) (step : TimedStep w h u) : Happens config w h u := by
  cases step with
  | clock => exact ⟨pending.still rfl rfl, .inr ⟨rfl, rfl⟩, Nat.le_refl _⟩
  | event step =>
    cases change_of_step step with
    | page => exact ⟨pending.still rfl rfl, .inr ⟨rfl, rfl⟩, Nat.le_refl _⟩
    | @read i answer session enabled advanced =>
      have label : w.runEvent? (.event (.read i)) = some (.read i answer) := by
        rw [runEvent?, advanced, Option.map_some]
      exact .of_run flow pending label (.intro enabled) trivial (fun _ => rfl) rfl
    | carryOut mem calling fresh migrated =>
      exact .carryOut responsive flow pending mem calling fresh migrated
    | answer mem enabled => exact .answer flow pending mem enabled
    | @inner e inner enabled =>
      refine .of_run flow pending (if_pos inner) (.intro enabled) ?_ ?_ rfl
      · cases e with
        | answer | cancel => cases inner
        | read | put | acquire | collect | flush | exhaust | request | begin | surrender
        | conclude | assign | start | wake | finish => trivial
      · intro number
        cases e with
        | answer => cases inner
        | read | put | acquire | collect | flush | exhaust | request | begin | surrender
        | conclude | assign | start | wake | finish | cancel => rfl

theorem runEvent?_eq_read_iff {i : Nat} {answer : Answer Record} :
    w.runEvent? h = some (.read i answer) ↔
      h = .event (.read i) ∧ (w.advance i).1 = some answer := by
  constructor
  · intro label
    unfold runEvent? at label
    split at label
    · obtain ⟨answer', told, same⟩ := Option.map_eq_some_iff.mp label
      cases same
      exact ⟨rfl, told⟩
    · obtain ⟨_, -, other⟩ := Option.map_eq_some_iff.mp label
      cases other
    · split at label
      · next inner =>
        cases label
        cases inner
      · cases label
    all_goals cases label
  · rintro ⟨rfl, told⟩
    rw [runEvent?, told, Option.map_some]

end Steps

section Traces
variable {μ : Type} [Client μ] {config : Config} {w : Work μ}
  {moves : List (Work μ × Happening)} {labelledDry : Value} {baseline : Tally} {startedAt : Float}
  {repository : Repository μ}

theorem mem_runMoves_read_iff {s : State} {i : Nat} {answer : Answer Record} :
    (s, .read i answer) ∈ runMoves moves ↔
      ∃ m ∈ moves, m.1.run = s ∧ m.2 = .event (.read i) ∧ (m.1.advance i).1 = some answer := by
  simp only [runMoves, Trace.seen, List.mem_filterMap, Option.map_eq_some_iff, Prod.mk.injEq]
  constructor
  · rintro ⟨m, mem, e, label, same, rfl⟩
    exact ⟨m, mem, same, runEvent?_eq_read_iff.mp label⟩
  · rintro ⟨m, mem, same, read⟩
    exact ⟨m, mem, _, runEvent?_eq_read_iff.mpr read, same, rfl⟩

theorem scanFailed_iff : ScanFailed moves ↔ Run.ScanFailed (runMoves moves) := by
  constructor
  · rintro ⟨m, mem, i, cause, read⟩
    exact ⟨_, mem_runMoves_read_iff.mpr ⟨m, mem, rfl, read⟩, i, cause, rfl⟩
  · rintro ⟨⟨s, _⟩, mem, i, cause, rfl⟩
    obtain ⟨m, mem, -, read⟩ := mem_runMoves_read_iff.mp mem
    exact ⟨m, mem, i, cause, read⟩

theorem runMoves_ordinaryScans (responsive : Responsive μ) : OrdinaryScans (runMoves moves) := by
  rintro ⟨s, _⟩ mem i cause rfl
  obtain ⟨m, -, -, -, told⟩ := mem_runMoves_read_iff.mp mem
  exact responsive.advance (r := m.1.session.repository) told

/-- What is known of a run at work, and of its own steps there. -/
structure Ran (config : Config) (start : State) (moves : List (Work μ × Happening))
    (w : Work μ) : Prop where
  run : Trace FreeStep start (runMoves moves) w.run
  ordinary : ∀ m ∈ runMoves moves, m.2.Ordinary
  pending : Pending config w
  effort : moves.countP (·.2.isEffort) ≤ 2 * (runMoves moves).length + w.replies.length

theorem trace_ran (responsive : Responsive μ) (positive : config.Positive)
    (trace : Trace TimedStep (start config labelledDry baseline startedAt repository) moves w) :
    Ran config (Run.start config labelledDry baseline startedAt) moves w := by
  induction trace with
  | nil =>
    refine ⟨.nil, fun m mem => absurd mem List.not_mem_nil, ⟨⟨0, ?_⟩, ?_, Nat.zero_le _⟩,
      Nat.zero_le _⟩
    · exact ⟨List.nodup_nil, fun _ y mem => absurd mem List.not_mem_nil, rfl⟩
    · exact fun y mem => absurd mem List.not_mem_nil
  | @snoc moves w u h earlier step ih =>
    obtain ⟨run, ordinary, pending, effort⟩ := ih
    obtain ⟨pending', ran, more⟩ :=
      step_happens responsive (trace_flow positive run) pending step
    have cons : runMoves ((w, h) :: moves) =
        (w.runEvent? h).toList.map (w.run, ·) ++ runMoves moves := by
      cases label : w.runEvent? h <;> simp [runMoves, Trace.seen, label]
    have effort' : ((w, h) :: moves).countP (·.2.isEffort) ≤
        2 * (runMoves ((w, h) :: moves)).length + u.replies.length := by
      rw [cons, List.countP_cons, List.length_append, List.length_map]
      dsimp only
      omega
    rcases ran with ⟨e, label, one, plain⟩ | ⟨label, same⟩
    · rw [label] at cons
      refine ⟨?_, ?_, pending', effort'⟩ <;> rw [cons]
      · exact run.snoc one
      · exact List.forall_mem_cons.mpr ⟨plain, ordinary⟩
    · rw [label] at cons
      refine ⟨?_, ?_, pending', effort'⟩ <;> rw [cons]
      · exact same ▸ run
      · exact ordinary

theorem internal_inner {e : Run.Event} (internal : e.isInternal = true) : e.isInner = true := by
  cases e with
  | read | answer | wake | cancel => cases internal
  | put | acquire | collect | flush | exhaust | request | begin | surrender | conclude | assign
  | start | finish => rfl

theorem enabled_read {i : Nat} {answer : Answer Record} (told : (w.advance i).1 = some answer)
    (enabled : w.run.Enabled (.read i answer)) : w.Enabled (.read i) := by
  rw [Enabled, told, Option.any_some]
  exact decide_eq_true enabled

/-- Where nothing can happen at work, the run has nothing to do. -/
theorem quiescent_of_idle (flow : Flow config w.run) (running : w.run.isRunning = true)
    (idle : ∀ e, ¬ w.Enabled e) : Quiescent w.run := by
  have migrating := Migration.State.isRunning_iff.mpr (flow.running running).2
  have known : ∀ t ∈ w.run.migration.tasks, w.run.migration.task? t.number = some t :=
    fun t mem => Migration.State.task?_of_mem flow.slots.tasks_nodup mem
  constructor
  · exact fun e internal enabled => idle (.inner e) ⟨internal_inner internal, enabled⟩
  · intro scanning going i
    rw [← Bool.not_eq_true]
    intro reading
    cases told : (w.advance i).1 with
    | none => exact idle (.page i) ⟨running, scanning, reading, by rw [told]; rfl⟩
    | some answer => exact idle (.read i) (enabled_read told ⟨running, scanning, going, reading⟩)
  · intro t mem calling
    cases told : w.reply? t.number with
    | none =>
      refine idle (.carryOut t.number) ⟨?_, by rw [told]; rfl⟩
      exact Migration.State.stageIs_iff.mpr ⟨t, known t mem, by rw [calling]⟩
    | some outcome =>
      refine idle (.answer t.number 0) ?_
      rw [Enabled, told, Option.any_some]
      refine decide_eq_true ⟨running, migrating, ?_⟩
      exact Migration.State.stageIs_iff.mpr ⟨t, known t mem, by rw [calling]⟩
  · intro t mem delay sleeping
    refine idle (.inner (.wake t.number)) ⟨rfl, running, migrating, ?_⟩
    exact Migration.State.stageIs_iff.mpr ⟨t, known t mem, by rw [sleeping]⟩

/-- Until the run has ended, something can happen. -/
theorem goes_on (responsive : Responsive μ) (positive : config.Positive)
    (trace : Trace TimedStep (start config labelledDry baseline startedAt repository) moves w)
    (running : w.run.status = .running) : ∃ e, w.Enabled e := by
  obtain ⟨run, ordinary, -⟩ := trace_ran responsive positive trace
  by_contra none
  have going := State.isRunning_iff.mpr running
  refine running_not_quiescent positive run ordinary (runMoves_ordinaryScans responsive) going ?_
  exact quiescent_of_idle (trace_flow positive run) going (not_exists.mp none)

theorem effort_le (responsive : Responsive μ) (positive : config.Positive)
    (trace : Trace TimedStep (start config labelledDry baseline startedAt repository) moves w) :
    moves.countP (·.2.isEffort) ≤
      2 * stepsFor config w.run.produced.length + config.maxConcurrency := by
  obtain ⟨run, ordinary, pending, effort⟩ := trace_ran responsive positive trace
  have steps := trace_length_le_stepsFor positive run ordinary (runMoves_ordinaryScans responsive)
  have few := pending.few
  omega

theorem work_comes_out (responsive : Responsive μ) (positive : config.Positive)
    (trace : Trace TimedStep (start config labelledDry baseline startedAt repository) moves w) :
    ComesOut (runMoves moves) w.run := by
  obtain ⟨run, ordinary, -⟩ := trace_ran responsive positive trace
  exact run_comes_out positive run ordinary

end Traces
end Work
end Rekey.Run
