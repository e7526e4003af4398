import Rekey.Proofs.Migration.Effects
import Rekey.Proofs.Run.Accounting
import Rekey.Proofs.Run.Answers
import Rekey.Run.Shared

/-! # One of the runs on a store

As a run sees it, the store carries out its calls in any order, and answers them as it will. The
calls carried out account for what the run has counted and settled, wherever it is broken off. -/
namespace Rekey.Run

open Counter (Tally)

def Call.key (call : Call) : Record × Nat := (call.record, call.number)

def Reply.key (reply : Reply) : Record × Nat := (reply.record, reply.number)

/-- Whether the store has answered, or raised an exception and no cancellation. -/
def Reply.isOrdinary (reply : Reply) : Bool :=
  match reply.outcome with
  | .ok _ => true
  | .error failure => failure.isOrdinary

def Event.answer? (number : Nat) : Event → Option (Except Failure Bool)
  | .answer n outcome _ => if n = number then some outcome else none
  | _ => none

def Event.writes : Event → Bool
  | .answer _ (.ok true) _ => true
  | _ => false

theorem writes_answer (number : Nat) (outcome : Except Failure Bool) (fraction : Float) :
    (Event.answer number outcome fraction).writes = wrote outcome := by
  cases outcome with
  | error => rfl
  | ok written => cases written <;> rfl

/-- The record is in the source of a run. -/
def Plan.Gives (plan : Plan) (record : Record) : Prop :=
  ∃ i < plan.config.segments, Scan.Gives (plan.answers i) record

/-- What can happen to a run. A call that is carried out labels the step with the reply. -/
inductive PassStep (plan : Plan) : Pass → Option Reply → Pass → Prop where
  | move {p : Pass} {e : Event} {t : State} : FreeStep p.run e t → e.Told plan.answers p.run →
    (∀ number, e.answer? number = none) →
    PassStep plan p none { p with run := t, calls := (p.run.call? e).toList ++ p.calls }
  | carryOut {p : Pass} {call : Call} {reply : Reply} : call ∈ p.calls → reply.key = call.key →
    PassStep plan p (some reply) { p with
      calls := p.calls.filter (·.number != call.number)
      replies := reply :: p.replies }
  | answer {p : Pass} {reply : Reply} {fraction : Float} {t : State} : reply ∈ p.replies →
    FreeStep p.run (.answer reply.number reply.outcome fraction) t →
    PassStep plan p none { p with
      run := t
      replies := p.replies.filter (·.number != reply.number) }

def carriedOut (moves : List (Pass × Option Reply)) : List Reply := moves.filterMap (·.2)

def Pass.underWay (p : Pass) : List (Record × Nat) :=
  p.calls.map Call.key ++ p.replies.map Reply.key

/-- What holds of a run at any time, when the calls `carried` have been carried out for it. -/
structure Pass.Invariant (plan : Plan) (carried : List Reply) (p : Pass) : Prop where
  flow : Flow plan.config p.run
  baseline : p.run.baseline = plan.baseline
  marked : Scan.Marked plan.answers plan.config.segments p.run.scan
  given : ∀ t ∈ p.run.migration.pending, plan.Gives t.record
  requested : ∀ call ∈ p.calls, plan.Gives call.record
  sourced : ∀ reply ∈ carried, plan.Gives reply.record
  numbers : (p.underWay.map (·.2)).Nodup
  calling : p.run.migration.IsWhole → ∀ k ∈ p.underWay,
    ∃ t ∈ p.run.migration.tasks, t.stage = .calling ∧ t.key = k
  replied : ∀ reply ∈ p.replies, reply ∈ carried
  counted : p.run.migration.tally.migrated + p.replies.countP (wrote ·.outcome) =
    carried.countP (wrote ·.outcome)
  settled : ∀ x ∈ p.run.migration.settled, x.ending.isPresent = true →
    ∃ reply ∈ carried, reply.record = x.record ∧ ∃ b, reply.outcome = .ok b

section Effects
variable {config : Config} {s t : State} {e : Event}

theorem label_answer {e' : Migration.Event} (label : s.migrationEvent? e = some e') :
    (∀ number, e'.answer? number = e.answer? number) ∧ e'.writes = e.writes := by
  cases e with
  | answer number outcome fraction =>
    cases label
    refine ⟨fun n => rfl, ?_⟩
    match outcome with
    | .ok true | .ok false | .error _ => rfl
  | begin =>
    obtain ⟨record, -, rfl⟩ := Option.map_eq_some_iff.mp label
    exact ⟨fun _ => rfl, rfl⟩
  | request | surrender =>
    simp only [State.migrationEvent?] at label
    split at label <;> cases label <;> exact ⟨fun _ => rfl, rfl⟩
  | conclude | assign | start | wake | finish | cancel =>
    cases label
    exact ⟨fun _ => rfl, rfl⟩
  | read | put | acquire | collect | flush | exhaust => cases label

theorem unlabelled_answer (label : s.migrationEvent? e = none) :
    (∀ number, e.answer? number = none) ∧ e.writes = false := by
  cases e with
  | answer => cases label
  | read | put | acquire | collect | flush | exhaust | request | begin | surrender | conclude
  | assign | start | wake | finish | cancel => exact ⟨fun _ => rfl, rfl⟩

/-- What an event changes in the migrations of a run. -/
theorem Flow.effect (h : Flow config s) (step : FreeStep s e t) :
    ∃ e' : Migration.Event, Migration.Effect s.migration e' t.migration ∧
      (∀ number, e'.answer? number = e.answer? number) ∧ e'.writes = e.writes ∧
      ∀ record, e'.record? = some record → record ∈ s.produced := by
  rcases h.migration_step step with ⟨e', label, step'⟩ | ⟨label, same⟩
  · obtain ⟨answers, writes⟩ := label_answer label
    refine ⟨e', Migration.step_effect h.slots step', answers, writes, fun record inspects => ?_⟩
    cases e' with
    | inspect =>
      cases inspects
      exact h.inspected_produced label
    | assign | start | answer | wake | streamEnd | streamFail | finish | cancel => cases inspects
  · obtain ⟨answers, writes⟩ := unlabelled_answer label
    rw [same]
    refine ⟨.assign, Migration.effect_refl _ rfl, fun n => (answers n).symm, writes.symm, ?_⟩
    exact fun record inspects => by cases inspects

/-- A task that makes a call was not calling before, and is after. -/
theorem Flow.caller (h : Flow config s) (step : FreeStep s e t) {call : Call}
    (made : s.call? e = some call) : ∃ x ∈ s.migration.tasks, x.stage ≠ .calling ∧
      x.key = call.key ∧ { x with stage := .calling } ∈ t.migration.tasks := by
  suffices ∃ e' x, s.migrationEvent? e = some e' ∧ s.migration.caller? e' = some x ∧
      x.key = call.key by
    obtain ⟨e', x, label, caller, key⟩ := this
    rcases h.migration_step step with ⟨e'', label', step'⟩ | ⟨label', -⟩
    · obtain rfl := Option.some.inj (label.symm.trans label')
      obtain ⟨mem, idle, calls⟩ := Migration.caller_calls step' caller
      exact ⟨x, mem, idle, key, calls⟩
    · rw [label] at label'
      cases label'
  cases e with
  | start number =>
    simp only [State.call?] at made
    by_cases dry : s.migration.dryRun = true
    · rw [if_pos dry] at made
      cases made
    · rw [if_neg dry] at made
      obtain ⟨x, hx, rfl⟩ := Option.map_eq_some_iff.mp made
      obtain rfl := (Migration.State.task?_eq_some hx).2
      exact ⟨.start x.number, x, rfl, by simp [Migration.State.caller?, dry, hx], rfl⟩
  | wake number =>
    obtain ⟨x, hx, rfl⟩ := Option.map_eq_some_iff.mp made
    obtain rfl := (Migration.State.task?_eq_some hx).2
    exact ⟨.wake x.number, x, rfl, hx, rfl⟩
  | read | put | acquire | collect | flush | exhaust | request | begin | surrender | conclude
  | assign | answer | finish | cancel => cases made

end Effects

section Preservation
variable {plan : Plan} {carried : List Reply} {p q : Pass}

theorem start_pass (positive : plan.config.Positive) : (Pass.start plan).Invariant plan [] := by
  constructor
  · exact start_flow positive _ _ _
  · rfl
  · exact Scan.start_marked _ _ _
  all_goals simp [Pass.start, Plan.start, start, Migration.start, Pass.underWay,
    Migration.State.pending, Tally.zero]

theorem Pass.Invariant.gives (h : p.Invariant plan carried) {record : Record}
    (read : record ∈ p.run.produced) : plan.Gives record := by
  obtain ⟨i, hi, gives⟩ := h.marked.told.gives read
  rw [h.flow.scan.total] at hi
  exact ⟨i, hi, gives⟩

theorem Pass.Invariant.given_step (h : p.Invariant plan carried) {e : Event} {t : State}
    (step : FreeStep p.run e t) : ∀ x ∈ t.migration.pending, plan.Gives x.record := by
  obtain ⟨e', effect, -, -, inspects⟩ := h.flow.effect step
  intro x hx
  rcases effect.pending x hx with new | ⟨y, hy, same⟩
  · exact h.gives (inspects _ new)
  · rw [← same]
    exact h.given y hy

theorem whole_of_step {config : Config} {s t : State} {e : Event} (h : Flow config s)
    (step : FreeStep s e t) : s.migration.IsWhole := by
  exact .inl (h.running (State.isRunning_iff.mpr step.running)).2

theorem Pass.Invariant.move (h : p.Invariant plan carried) {e : Event} {t : State}
    (step : FreeStep p.run e t) (told : e.Told plan.answers p.run)
    (unanswered : ∀ number, e.answer? number = none) : Pass.Invariant plan carried
      { p with run := t, calls := (p.run.call? e).toList ++ p.calls } := by
  obtain ⟨e', effect, answers, writes, -⟩ := h.flow.effect step
  have whole := whole_of_step h.flow step
  have new : ∀ call ∈ p.run.call? e, ∃ x ∈ p.run.migration.tasks, x.stage ≠ .calling ∧
      x.key = call.key ∧ { x with stage := .calling } ∈ t.migration.tasks :=
    fun call made => h.flow.caller step made
  have hunder : Pass.underWay { p with run := t, calls := (p.run.call? e).toList ++ p.calls } =
      (p.run.call? e).toList.map Call.key ++ p.underWay := by
    simp [Pass.underWay]
  constructor
  · exact step_preserves_flow h.flow step
  · exact (step_baseline step).trans h.baseline
  · exact step_marked h.marked told step
  · exact h.given_step step
  · intro call made
    rcases List.mem_append.mp made with made | made
    · obtain ⟨x, mem, -, key, -⟩ := new call (Option.mem_toList.mp made)
      rw [show call.record = x.record from (congrArg Prod.fst key).symm]
      exact h.given x (List.mem_append_right _ mem)
    · exact h.requested call made
  · exact h.sourced
  · rw [hunder]
    cases made : p.run.call? e with
    | none => exact h.numbers
    | some call =>
      refine List.nodup_cons.mpr ⟨fun again => ?_, h.numbers⟩
      -- The task would be calling already.
      obtain ⟨k, hk, same⟩ := List.mem_map.mp again
      obtain ⟨x, mem, idle, key, -⟩ := new call made
      obtain ⟨y, hy, calling, rfl⟩ := h.calling whole k hk
      obtain rfl := h.flow.slots.eq_of_number mem hy (same.trans (congrArg Prod.snd key).symm)
      exact idle calling
  · intro still k hk
    rw [hunder] at hk
    rcases List.mem_append.mp hk with hk | hk
    · obtain ⟨call, made, rfl⟩ := List.mem_map.mp hk
      obtain ⟨x, -, -, key, mem⟩ := new call (Option.mem_toList.mp made)
      exact ⟨_, mem, rfl, key⟩
    · obtain ⟨x, mem, calling, key⟩ := h.calling whole k hk
      exact ⟨x, effect.calling still x mem calling ((answers _).trans (unanswered _)), calling, key⟩
  · exact h.replied
  · have quiet : e'.writes = false := by
      rw [writes]
      cases e with
      | answer number => simpa [Event.answer?] using unanswered number
      | read | put | acquire | collect | flush | exhaust | request | begin | surrender | conclude
      | assign | start | wake | finish | cancel => rfl
    rw [effect.migrated, quiet]
    exact h.counted
  · intro x hx present
    rcases effect.settled x hx present with old | ⟨y, -, -, -, b, told⟩
    · exact h.settled x old present
    · rw [answers, unanswered] at told
      cases told

theorem Pass.Invariant.carryOut (h : p.Invariant plan carried) {call : Call} {reply : Reply}
    (made : call ∈ p.calls) (key : reply.key = call.key) : Pass.Invariant plan (reply :: carried)
      { p with
        calls := p.calls.filter (·.number != call.number)
        replies := reply :: p.replies } := by
  have hnumbers := h.numbers
  rw [Pass.underWay, List.map_append, List.map_map] at hnumbers
  have hcalls : p.calls.Perm (call :: p.calls.filter (·.number != call.number)) :=
    Migration.perm_cons_filter (f := Call.number) (List.nodup_append.mp hnumbers).1 made
  have hunder : (Pass.underWay { p with
      calls := p.calls.filter (·.number != call.number)
      replies := reply :: p.replies }).Perm p.underWay := by
    unfold Pass.underWay
    rw [List.map_cons, key]
    refine List.perm_middle.trans ?_
    exact (hcalls.map Call.key).symm.append_right _
  constructor
  · exact h.flow
  · exact h.baseline
  · exact h.marked
  · exact h.given
  · exact fun c hc => h.requested c (List.mem_of_mem_filter hc)
  · intro y hy
    rcases List.mem_cons.mp hy with rfl | hy
    · rw [show y.record = call.record from congrArg Prod.fst key]
      exact h.requested call made
    · exact h.sourced y hy
  · exact ((hunder.map _).nodup_iff).mpr h.numbers
  · exact fun whole k hk => h.calling whole k (hunder.mem_iff.mp hk)
  · intro y hy
    rcases List.mem_cons.mp hy with rfl | hy
    · exact List.mem_cons_self
    · exact List.mem_cons_of_mem _ (h.replied y hy)
  · rw [List.countP_cons, List.countP_cons, ← h.counted, Nat.add_assoc]
  · intro x hx present
    obtain ⟨y, hy, answered⟩ := h.settled x hx present
    exact ⟨y, List.mem_cons_of_mem _ hy, answered⟩

theorem Pass.Invariant.answer (h : p.Invariant plan carried) {reply : Reply} {fraction : Float}
    {t : State} (mem : reply ∈ p.replies)
    (step : FreeStep p.run (.answer reply.number reply.outcome fraction) t) :
    Pass.Invariant plan carried { p with
      run := t
      replies := p.replies.filter (·.number != reply.number) } := by
  obtain ⟨e', effect, answers, writes, -⟩ := h.flow.effect step
  have whole := whole_of_step h.flow step
  have hnumbers := h.numbers
  rw [Pass.underWay, List.map_append, List.map_map, List.map_map] at hnumbers
  have hreplies : p.replies.Perm (reply :: p.replies.filter (·.number != reply.number)) :=
    Migration.perm_cons_filter (f := Reply.number) (List.nodup_append.mp hnumbers).2.1 mem
  have hunder : p.underWay.Perm (reply.key :: Pass.underWay { p with
      run := t
      replies := p.replies.filter (·.number != reply.number) }) := by
    unfold Pass.underWay
    exact ((hreplies.map Reply.key).append_left _).trans List.perm_middle
  have hunique := (hunder.map (·.2)).nodup_iff.mp h.numbers
  rw [List.map_cons] at hunique
  obtain ⟨apart, rest⟩ := List.nodup_cons.mp hunique
  constructor
  · exact step_preserves_flow h.flow step
  · exact (step_baseline step).trans h.baseline
  · exact step_marked (e := .answer _ _ _) h.marked trivial step
  · exact h.given_step step
  · exact h.requested
  · exact h.sourced
  · exact rest
  · intro still k hk
    have hk' := hunder.mem_iff.mpr (List.mem_cons_of_mem _ hk)
    obtain ⟨x, hx, calling, rfl⟩ := h.calling whole k hk'
    refine ⟨x, effect.calling still x hx calling ?_, calling, rfl⟩
    have other : reply.number ≠ x.number := fun same =>
      apart (List.mem_map.mpr ⟨x.key, hk, same.symm⟩)
    rw [answers, Event.answer?, if_neg other]
  · exact fun y hy => h.replied y (List.mem_of_mem_filter hy)
  · have hcounted := h.counted
    rw [hreplies.countP_eq, List.countP_cons] at hcounted
    rw [effect.migrated, writes, writes_answer, ← hcounted]
    dsimp only
    omega
  · intro x hx present
    rcases effect.settled x hx present with old | ⟨y, hy, calling, same, b, answered⟩
    · exact h.settled x old present
    · rw [answers, Event.answer?] at answered
      split at answered
      · next number =>
        obtain ⟨z, hz, -, key⟩ := h.calling whole reply.key (hunder.mem_iff.mpr List.mem_cons_self)
        obtain rfl := h.flow.slots.eq_of_number hy hz ((congrArg Prod.snd key).trans number)
        refine ⟨reply, h.replied reply mem, ?_, b, Option.some.inj answered⟩
        exact (congrArg Prod.fst key).symm.trans (congrArg Prod.fst same)
      · cases answered

theorem carriedOut_cons (m : Pass × Option Reply) (moves : List (Pass × Option Reply)) :
    carriedOut (m :: moves) = m.2.toList ++ carriedOut moves := by
  obtain ⟨p, _ | reply⟩ := m <;> rfl

theorem passStep_preserves_invariant {reply? : Option Reply} (h : p.Invariant plan carried)
    (step : PassStep plan p reply? q) : q.Invariant plan (reply?.toList ++ carried) := by
  cases step with
  | move step told unanswered => exact h.move step told unanswered
  | carryOut made key => exact h.carryOut made key
  | answer mem step => exact h.answer mem step

theorem trace_pass {moves : List (Pass × Option Reply)} (positive : plan.config.Positive)
    (trace : Trace (PassStep plan) (.start plan) moves p) : p.Invariant plan (carriedOut moves) :=
  trace.preserves (P := fun moves p => p.Invariant plan (carriedOut moves)) (start_pass positive)
    fun _ _ _ _ _ h step => by
      rw [carriedOut_cons]
      exact passStep_preserves_invariant h step

end Preservation

/-- The run has gone on without a cancellation, or it has been broken off. -/
def Orderly (plan : Plan) (s : State) : Prop :=
  (∃ moves, Trace (AnsweredStep plan.answers) plan.start moves s) ∨ ¬ s.migration.IsWhole

/-- A live run that has returned and has abandoned no record. -/
structure Clean (plan : Plan) (s : State) : Prop where
  live : plan.config.isDry = false
  completed : ∃ summary, s.status = .completed summary
  abandoned : s.tally.abandoned = plan.baseline.abandoned

section Completion
variable {plan : Plan} {carried : List Reply} {p : Pass} {moves : List (Pass × Option Reply)}
  {summary : Summary}

theorem Orderly.step {s t : State} {e : Event} (h : Orderly plan s) (flow : Flow plan.config s)
    (step : FreeStep s e t) (told : e.Told plan.answers s) (ordinary : e.Ordinary ∨ e = .cancel) :
    Orderly plan t := by
  have whole := whole_of_step flow step
  rcases ordinary with ordinary | rfl
  · obtain ⟨moves, trace⟩ := h.resolve_right (not_not_intro whole)
    exact .inl ⟨_, trace.snoc ⟨step, told, ordinary⟩⟩
  · obtain ⟨-⟩ := step
    refine .inr ?_
    rw [State.next, migrate_migration]
    rintro (running | finished)
    · cases running
    · cases finished

theorem trace_orderly (positive : plan.config.Positive)
    (trace : Trace (PassStep plan) (.start plan) moves p)
    (ordinary : ∀ reply ∈ carriedOut moves, reply.isOrdinary = true) : Orderly plan p.run := by
  refine trace.preserves (P := fun moves p => (∀ reply ∈ carriedOut moves,
    reply.isOrdinary = true) → Orderly plan p.run) (fun _ => .inl ⟨[], .nil⟩) ?_ ordinary
  intro moves p reply? q earlier ih step ordinary
  rw [carriedOut_cons] at ordinary
  have h := trace_pass positive earlier
  have orderly := ih fun reply mem => ordinary reply (List.mem_append_right _ mem)
  cases step with
  | @move e _ step told unanswered =>
    refine orderly.step h.flow step told ?_
    cases e with
    | answer number => simpa [Event.answer?] using unanswered number
    | cancel => exact .inr rfl
    | read | put | acquire | collect | flush | exhaust | request | begin | surrender | conclude
    | assign | start | wake | finish => exact .inl trivial
  | carryOut => exact orderly
  | @answer reply _ _ mem step =>
    refine orderly.step h.flow step trivial (.inl ?_)
    have := ordinary reply (List.mem_append_right _ (h.replied reply mem))
    unfold Reply.isOrdinary at this
    unfold Event.Ordinary
    cases houtcome : reply.outcome with
    | ok => trivial
    | error failure => rwa [houtcome] at this

/-- When a run has returned, none of its calls is on its way any more. -/
theorem Pass.Invariant.completed (h : p.Invariant plan carried)
    (completed : p.run.status = .completed summary) :
    p.run.migration.IsWhole ∧ p.calls = [] ∧ p.replies = [] := by
  cases h.flow.stage with
  | running running => rw [running] at completed; cases completed
  | broken _ _ unfinished => exact absurd completed (unfinished summary)
  | completed _ finished tasks =>
    have none : p.underWay = [] := by
      apply List.eq_nil_iff_forall_not_mem.mpr
      intro k hk
      obtain ⟨t, mem, -⟩ := h.calling (.inr finished) k hk
      rw [tasks] at mem
      cases mem
    obtain ⟨calls, replies⟩ := List.append_eq_nil_iff.mp none
    exact ⟨.inr finished, List.map_eq_nil_iff.mp calls, List.map_eq_nil_iff.mp replies⟩

theorem Pass.Invariant.migrated (h : p.Invariant plan carried) : p.run.tally.migrated =
    plan.baseline.migrated + p.run.migration.tally.migrated := by
  rw [State.tally, h.baseline]
  rfl

/-- A live run that returns and abandons no record has had an answer for each record of its
source. -/
theorem clean_answered (positive : plan.config.Positive)
    (trace : Trace (PassStep plan) (.start plan) moves p)
    (ordinary : ∀ reply ∈ carriedOut moves, reply.isOrdinary = true)
    (clean : Clean plan p.run) {record : Record} (gives : plan.Gives record) :
    ∃ reply ∈ carriedOut moves, reply.record = record ∧ ∃ b, reply.outcome = .ok b := by
  obtain ⟨live, ⟨summary, completed⟩, abandoned⟩ := clean
  have hpass := trace_pass positive trace
  obtain ⟨moves', orderly⟩ := (trace_orderly positive trace ordinary).resolve_right
    (not_not_intro (hpass.completed completed).1)
  obtain ⟨i, hi, n, items, given⟩ := gives
  have hstreams := trace_streams (n := moves'.length + n + 1) orderly (by omega)
  have sound : ∀ j < plan.config.segments,
      (sourceOf plan.answers (moves'.length + n + 1) j).failure = none := by
    intro j hj
    cases hf : (sourceOf plan.answers (moves'.length + n + 1) j).failure with
    | none => rfl
    | some cause =>
      have exhausted := exhausts_of_completed positive orderly completed j hj
      exact absurd (Scan.raises_of_streamOf hf) (exhausted.not_raises cause)
  have h := invariant_of_sound positive sound hstreams
  have hgiven : record ∈ p.run.given :=
    (h.given_perm completed).mem_iff.mpr (List.mem_flatMap.mpr ⟨i, List.mem_range.mpr hi,
      Scan.streamOf_gives items given (by omega)⟩)
  obtain ⟨x, hx, rfl⟩ := List.mem_map.mp ((h.settled_records completed).mem_iff.mpr hgiven)
  have hending := (settled_series positive live sound hstreams completed (fun _ => 0) x hx).2
  have hkept : x.ending.isAbandoned = false := by
    rw [h.tally_eq] at abandoned
    have none := List.countP_eq_zero.mp (Nat.add_eq_left.mp abandoned) x hx
    simpa using none
  refine hpass.settled x hx ?_
  rw [hending] at hkept ⊢
  match houtcome : (seriesFor plan.config moves' (fun _ => 0) x.key.2).outcome with
  | .ok true | .ok false => rfl
  | .error _ =>
    rw [houtcome] at hkept
    cases hkept

end Completion

end Rekey.Run
