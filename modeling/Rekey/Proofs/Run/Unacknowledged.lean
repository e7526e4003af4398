import Rekey.Proofs.Run.Passes
import Rekey.Proofs.Run.Tables
import Rekey.Proofs.Service.Lossy

/-! # Writes of which a run is not told

A write may take place although the answer to its request is lost. The task asks again and is told
that there is nothing left to write, so that nobody counts the item. What a run has created is what
it has counted and what was created by such writes. -/
namespace Rekey.Run

open Counter (Tally)
open Service (Client Flaky Item Lossy Memory Repository Session)

/-- Outcomes on their way are those of tasks that wait for them. With those counted already, the
writes they tell of are `written`. -/
structure Replying (s : State) (replies : List Reply) (written : Nat) : Prop where
  numbers : (replies.map (·.number)).Nodup
  calling : s.migration.IsWhole → ∀ y ∈ replies,
    ∃ t ∈ s.migration.tasks, t.stage = .calling ∧ t.key = y.key
  counted : s.migration.tally.migrated + replies.countP (wrote ·.outcome) = written

section Replying
variable {config : Config} {s t : State} {replies : List Reply} {written : Nat}

theorem Replying.silent (h : Replying s replies written) (flow : Flow config s) {e : Event}
    (step : FreeStep s e t) (unanswered : ∀ number, e.answer? number = none) :
    Replying t replies written := by
  obtain ⟨e', effect, answers, writes, -⟩ := flow.effect step
  refine ⟨h.numbers, fun still y hy => ?_, ?_⟩
  · obtain ⟨x, mem, calling, key⟩ := h.calling (whole_of_step flow step) y hy
    exact ⟨x, effect.calling still x mem calling ((answers _).trans (unanswered _)), calling, key⟩
  · have quiet : e'.writes = false := by
      rw [writes]
      cases e with
      | answer number => simpa [Event.answer?] using unanswered number
      | read | put | acquire | collect | flush | exhaust | request | begin | surrender | conclude
      | assign | start | wake | finish | cancel => rfl
    rw [effect.migrated, quiet]
    exact h.counted

theorem Replying.carriedOut (h : Replying s replies written) {x : Migration.Task}
    (mem : x ∈ s.migration.tasks) (calling : x.stage = .calling)
    (fresh : ∀ y ∈ replies, y.number ≠ x.number) (outcome : Except Failure Bool) :
    Replying s (⟨x.number, x.record, outcome⟩ :: replies)
      (written + if wrote outcome then 1 else 0) := by
  refine ⟨?_, fun whole y hy => ?_, ?_⟩
  · rw [List.map_cons]
    refine List.nodup_cons.mpr ⟨fun again => ?_, h.numbers⟩
    obtain ⟨y, hy, same⟩ := List.mem_map.mp again
    exact fresh y hy same
  · rcases List.mem_cons.mp hy with rfl | hy
    · exact ⟨x, mem, calling, rfl⟩
    · exact h.calling whole y hy
  · rw [List.countP_cons, ← h.counted, Nat.add_assoc]

theorem Replying.answered (h : Replying s replies written) (flow : Flow config s) {y : Reply}
    {fraction : Float} (mem : y ∈ replies)
    (step : FreeStep s (.answer y.number y.outcome fraction) t) :
    Replying t (replies.filter (·.number != y.number)) written := by
  obtain ⟨e', effect, answers, writes, -⟩ := flow.effect step
  refine ⟨h.numbers.sublist (List.filter_sublist.map _), fun still z hz => ?_, ?_⟩
  · obtain ⟨hz, apart⟩ := List.mem_filter.mp hz
    obtain ⟨x, hx, calling, key⟩ := h.calling (whole_of_step flow step) z hz
    refine ⟨x, effect.calling still x hx calling ?_, calling, key⟩
    have other : y.number ≠ x.number := by
      rw [show x.number = z.number from congrArg Prod.snd key]
      exact fun same => by simp [same] at apart
    rw [answers, Event.answer?, if_neg other]
  · have hcounted := h.counted
    rw [(Migration.perm_cons_filter h.numbers mem).countP_eq, List.countP_cons] at hcounted
    rw [effect.migrated, writes, writes_answer, ← hcounted]
    omega

/-- A run that has returned has been told of all that was carried out for it. -/
theorem Replying.completed (h : Replying s replies written) (flow : Flow config s)
    {summary : Summary} (completed : s.status = .completed summary) :
    s.migration.tally.migrated = written := by
  cases flow.stage with
  | running running => rw [running] at completed; cases completed
  | broken _ _ unfinished => exact absurd completed (unfinished summary)
  | completed _ finished tasks =>
    have none : replies = [] := by
      apply List.eq_nil_iff_forall_not_mem.mpr
      intro y hy
      obtain ⟨x, mem, -⟩ := h.calling (.inr finished) y hy
      rw [tasks] at mem
      cases mem
    have hcounted := h.counted
    rw [none] at hcounted
    exact hcounted

end Replying

namespace Work

section Moves
variable {μ : Type} [Client μ]

/-- The items that the destination holds. -/
def contents (items : μ → List Item) (w : Work μ) : List Item := items w.session.repository.service

/-- The outcome of the call that an event carries out. -/
def outcome? (w : Work μ) : Work.Event → Option (Except Failure Bool)
  | .carryOut number => (w.run.migration.task? number).map fun t => (w.session.migrate t.record).1
  | _ => none

def acknowledges (w : Work μ) (e : Work.Event) : Bool := (w.outcome? e).any wrote

/-- Whether an item is created by a call with the outcome of which nobody is told so. -/
def conceals (items : μ → List Item) (w : Work μ) (e : Work.Event) : Bool :=
  (w.contents items).length < ((w.next e).contents items).length && !w.acknowledges e

def concealed (items : μ → List Item) (moves : List (Work μ × Work.Event)) : Nat :=
  moves.countP fun m => m.1.conceals items m.2

theorem concealed_cons (items : μ → List Item) (w : Work μ) (e : Work.Event)
    (moves : List (Work μ × Work.Event)) : concealed items ((w, e) :: moves) =
      concealed items moves + if w.conceals items e then 1 else 0 := List.countP_cons

end Moves

/-- What holds of a run at work on a destination that held the items `before`. -/
structure Tracked {μ : Type} [Client μ] (config : Config) (baseline : Tally) (sound : μ → Prop)
    (items : μ → List Item) (destination : String) (before : List Item)
    (moves : List (Work μ × Work.Event)) (w : Work μ) : Prop where
  flow : Flow config w.run
  baseline_eq : w.run.baseline = baseline
  sound : sound w.session.repository.service
  destined : w.session.repository.destination = destination
  replying : Replying w.run w.replies (moves.countP fun m => m.1.acknowledges m.2)
  created : ∃ added, (w.contents items).Perm (before ++ added) ∧
    added.length = (moves.countP fun m => m.1.acknowledges m.2) + concealed items moves

section Tracked
variable {μ : Type} [Client μ] {config : Config} {baseline : Tally} {sound : μ → Prop}
  {items : μ → List Item} {destination : String} {before : List Item}
  {moves : List (Work μ × Work.Event)} {w u : Work μ}

theorem start_tracked (positive : config.Positive) (labelledDry : Value) (startedAt : Float)
    {repository : Repository μ} (kept : sound repository.service)
    (destined : repository.destination = destination) :
    Tracked config baseline sound items destination (items repository.service) []
      (start config labelledDry baseline startedAt repository) where
  flow := start_flow positive labelledDry baseline startedAt
  baseline_eq := rfl
  sound := kept
  destined := destined
  replying := ⟨.nil, fun _ _ hy => (by cases hy), rfl⟩
  created := ⟨[], by rw [List.append_nil]; rfl, rfl⟩

/-- An event that carries out no call leaves the destination as it is. -/
theorem Tracked.quiet (h : Tracked config baseline sound items destination before moves w)
    {e : Work.Event} {run : State} {session : Session μ} {replies : List Reply}
    (silent : w.outcome? e = none) (same : (w.next e).contents items = w.contents items)
    (flow : Flow config run) (baseline_eq : run.baseline = w.run.baseline)
    (kept : sound session.repository.service)
    (destined : session.repository.destination = destination)
    (contents : items session.repository.service = w.contents items)
    (replying : Replying run replies (moves.countP fun m => m.1.acknowledges m.2)) :
    Tracked config baseline sound items destination before ((w, e) :: moves)
      { run, session, replies } := by
  have unacknowledged : w.acknowledges e = false := by rw [acknowledges, silent]; rfl
  have unconcealed : w.conceals items e = false := by rw [conceals, same]; simp
  obtain ⟨added, perm, length⟩ := h.created
  refine ⟨flow, baseline_eq.trans h.baseline_eq, kept, destined, ?_, added, ?_, ?_⟩
  · rwa [List.countP_cons_of_neg (by simp [unacknowledged])]
  · rw [Work.contents, contents]
    exact perm
  · rw [concealed_cons, unconcealed, List.countP_cons_of_neg (by simp [unacknowledged])]
    exact length

theorem Tracked.carryOut (h : Tracked config baseline sound items destination before moves w)
    (lossy : Lossy sound items destination) {x : Migration.Task} {outcome : Except Failure Bool}
    {session : Session μ} (mem : x ∈ w.run.migration.tasks) (calling : x.stage = .calling)
    (fresh : ∀ y ∈ w.replies, y.number ≠ x.number)
    (migrated : w.session.migrate x.record = (outcome, session))
    (told : w.outcome? (.carryOut x.number) = some outcome)
    (next : (w.next (.carryOut x.number)).contents items = items session.repository.service) :
    Tracked config baseline sound items destination before ((w, .carryOut x.number) :: moves)
      { w with session, replies := ⟨x.number, x.record, outcome⟩ :: w.replies } := by
  obtain ⟨kept, destined, cases⟩ := lossy.migrate h.sound h.destined x.record
  simp only [Session.migrate, Prod.mk.injEq] at migrated
  obtain ⟨rfl, rfl⟩ := migrated
  have acknowledges : w.acknowledges (.carryOut x.number) =
      wrote (w.session.repository.migrate x.record).1 := by rw [Work.acknowledges, told]; rfl
  obtain ⟨added, perm, length⟩ := h.created
  refine ⟨h.flow, h.baseline_eq, kept, destined, ?_, ?_⟩
  · rw [List.countP_cons, acknowledges]
    exact h.replying.carriedOut mem calling fresh _
  · rw [concealed_cons, conceals, next, List.countP_cons, acknowledges]
    rcases cases with ⟨same, untold⟩ | ⟨now, free, stored⟩
    · have silent := Bool.eq_false_iff.mpr (mt wrote_iff.mp untold)
      refine ⟨added, ?_, ?_⟩
      · rw [Work.contents, same]
        exact perm
      · rw [silent, same]
        simpa [Work.contents] using length
    · have longer : (w.contents items).length <
          (items (w.session.repository.migrate x.record).2.service).length := by
        rw [stored.length_eq, List.length_append]
        exact Nat.lt_succ_self _
      refine ⟨added ++ [.ofMigrated x.record now], ?_, ?_⟩
      · rw [← List.append_assoc]
        exact stored.trans (perm.append_right _)
      · rw [List.length_append, length, List.length_singleton, decide_eq_true longer]
        cases wrote (w.session.repository.migrate x.record).1 <;> simp <;> omega

theorem step_preserves_tracked (h : Tracked config baseline sound items destination before moves w)
    (lossy : Lossy sound items destination) {e : Work.Event} (step : Work.Step w e u) :
    Tracked config baseline sound items destination before ((w, e) :: moves) u := by
  have change := change_of_step step
  obtain ⟨-⟩ := step
  generalize hu : w.next e = u at change
  cases change with
  | @page i session _ advanced =>
    obtain ⟨kept, same, destined⟩ := lossy.advance h.sound i w.run.scan.total
      (w.session.position i)
    obtain rfl := congrArg Prod.snd advanced
    refine h.quiet rfl ?_ h.flow rfl kept (destined.trans h.destined) same h.replying
    rw [hu]
    exact same
  | @read i answer session enabled advanced =>
    obtain ⟨kept, same, destined⟩ := lossy.advance h.sound i w.run.scan.total
      (w.session.position i)
    obtain rfl := congrArg Prod.snd advanced
    have step : FreeStep w.run (.read i answer) (w.run.next (.read i answer)) := .intro enabled
    refine h.quiet rfl ?_ (step_preserves_flow h.flow step) rfl kept (destined.trans h.destined)
      same (h.replying.silent h.flow step fun _ => rfl)
    rw [hu]
    exact same
  | @carryOut x outcome session mem calling fresh migrated =>
    refine h.carryOut lossy mem calling fresh migrated ?_ (by rw [hu]; rfl)
    rw [outcome?, Migration.State.task?_of_mem h.flow.slots.tasks_nodup mem, Option.map_some, migrated]
  | @answer y fraction mem enabled =>
    have step : FreeStep w.run (.answer y.number y.outcome fraction) _ := .intro enabled
    refine h.quiet rfl ?_ (step_preserves_flow h.flow step) (step_baseline step) h.sound h.destined
      rfl (h.replying.answered h.flow mem step)
    rw [hu]
    rfl
  | @inner e inner enabled =>
    have step : FreeStep w.run e (w.run.next e) := .intro enabled
    refine h.quiet rfl rfl (step_preserves_flow h.flow step) (step_baseline step) h.sound
      h.destined rfl (h.replying.silent h.flow step ?_)
    cases e with
    | answer => cases inner
    | read | put | acquire | collect | flush | exhaust | request | begin | surrender | conclude
    | assign | start | wake | finish | cancel => exact fun _ => rfl

theorem trace_tracked (positive : config.Positive) (lossy : Lossy sound items destination)
    {labelledDry : Value} {startedAt : Float} {repository : Repository μ}
    (kept : sound repository.service) (destined : repository.destination = destination)
    (trace : Trace Work.Step (start config labelledDry baseline startedAt repository) moves w) :
    Tracked config baseline sound items destination (items repository.service) moves w :=
  trace.preserves
    (P := Tracked config baseline sound items destination (items repository.service))
    (start_tracked positive labelledDry startedAt kept destined)
    fun _ _ _ _ _ h step => step_preserves_tracked h lossy step

end Tracked

end Work

section Created
variable {μ : Type} [Client μ] {config : Config} {baseline : Tally} {sound : μ → Prop}
  {items : μ → List Item} {destination : String} {moves : List (Work μ × Work.Event)} {w : Work μ}
  {summary : Summary}

/-- When a run has returned, the items that it has created are those it has counted and those whose
creation was concealed. -/
theorem created_counted_or_concealed (positive : config.Positive)
    (lossy : Lossy sound items destination) {labelledDry : Value} {startedAt : Float}
    {repository : Repository μ} (kept : sound repository.service)
    (destined : repository.destination = destination)
    (trace : Trace Work.Step (Work.start config labelledDry baseline startedAt repository) moves w)
    (completed : w.run.status = .completed summary) :
    ∃ created, (w.contents items).Perm (items repository.service ++ created) ∧
      baseline.migrated + created.length = w.run.tally.migrated + Work.concealed items moves ∧
      (w.run.tally.migrated = baseline.migrated + created.length ↔
        Work.concealed items moves = 0) := by
  have h := Work.trace_tracked positive lossy kept destined trace
  obtain ⟨created, perm, length⟩ := h.created
  have migrated : w.run.tally.migrated =
      baseline.migrated + w.run.migration.tally.migrated := by
    rw [State.tally, h.baseline_eq]
    rfl
  have counted := h.replying.completed h.flow completed
  refine ⟨created, perm, ?_, ?_⟩ <;> omega

end Created

/-! ## A run whose first write is not acknowledged -/

def flakyService : Flaky :=
  ⟨{ Memory.empty with tables := [("old", [.ofSource bea]), ("new", [])] }, [true]⟩

def flakyRepository : Repository Flaky :=
  ⟨"old", "new", none, none, .none, 10, flakyService, []⟩

def flakyWork : Work Flaky := Work.start smallConfig (.bool false) .zero 0 flakyRepository

/-- The answer to the first call is lost, and the second call finds the item. The last event comes
first. -/
def flakyEvents : List Work.Event :=
  [.inner (.finish 0), .inner .conclude, .inner .exhaust, .inner (.collect []), .inner (.put 0),
    .read 0, .inner .acquire, .inner .request, .answer 0 0, .carryOut 0, .inner (.wake 0),
    .answer 0 0, .carryOut 0, .inner (.start 0), .inner .assign, .inner .begin,
    .inner (.collect [bea]), .inner (.put 0), .read 0, .page 0, .inner .acquire, .inner .request]

def flakyEnd : Work Flaky := Trace.reached Work.next flakyWork flakyEvents

theorem flaky_trace : Trace Work.Step flakyWork (Trace.replay Work.next flakyWork flakyEvents)
    flakyEnd := Work.trace_of_happen (by decide +kernel)

theorem flaky_completed : ∃ summary, flakyEnd.run.status = .completed summary :=
  completed_of_matches (by decide +kernel)

/-- The run returns and has abandoned nothing. It has created an item and counted none. -/
theorem created_item_not_counted : smallConfig.Positive ∧ smallConfig.isDry = false ∧
    Lossy (fun _ : Flaky => True) (Flaky.items "new") "new" ∧
    (∃ moves, Trace Work.Step flakyWork moves flakyEnd) ∧
    (∃ summary, flakyEnd.run.status = .completed summary) ∧ flakyEnd.run.tally = ⟨1, 0, 0⟩ ∧
    (flakyWork.contents (Flaky.items "new")).length = 0 ∧
    (flakyEnd.contents (Flaky.items "new")).length = 1 :=
  ⟨small_positive, rfl, Flaky.lossy "new", ⟨_, flaky_trace⟩, flaky_completed, by decide +kernel,
    by decide +kernel, by decide +kernel⟩

theorem flaky_run_conceals_one :
    Work.concealed (Flaky.items "new") (Trace.replay Work.next flakyWork flakyEvents) = 1 ∧
    ∃ created, (flakyEnd.contents (Flaky.items "new")).Perm
        (Flaky.items "new" flakyRepository.service ++ created) ∧ created.length = 1 := by
  obtain ⟨summary, completed⟩ := flaky_completed
  obtain ⟨created, perm, length, -⟩ := created_counted_or_concealed small_positive
    (Flaky.lossy "new") trivial rfl flaky_trace completed
  have one : Work.concealed (Flaky.items "new")
      (Trace.replay Work.next flakyWork flakyEvents) = 1 := by decide +kernel
  have none : flakyEnd.run.tally.migrated = 0 := by decide +kernel
  rw [one, none] at length
  exact ⟨one, created, perm, by simpa [Tally.zero] using length⟩

end Rekey.Run
