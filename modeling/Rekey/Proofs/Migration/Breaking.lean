import Rekey.Proofs.Migration.CleanUp

/-! # Breaking off at once

The migrations alone are broken off in a single step, in which all tasks under way are cut off
together. Every end of a supervised run is such a step of the state that its tasks have come to, and
every such step is the end of a supervised run, in which the tasks are cut off one after another. -/
namespace Rekey.Migration

/-- The step with which the migrations alone end. -/
def Outcome.event : Outcome → Event
  | .finished => .finish
  | .failed failure => .streamFail failure
  | .cancelled => .cancel

def Outcome.status : Outcome → Status
  | .finished => .finished
  | .failed failure => .failed failure
  | .cancelled => .cancelled

section Breaking
variable {limit : Nat} {dryRun : Bool} {policy : Retry.Policy Float} {given : List Record}
  {moves : List (Supervised × Move)} {r u : Supervised} {m : Move} {e : Event} {n : Nat}
  {outcome : Outcome} {s : State}

theorem abort_settled (s : State) (status : Status) :
    ((s.abort status).settled.map Settled.key).Perm s.begun := by
  let cut (t : Task) : Settled := ⟨t.number, t.record, .cutOff⟩
  show (((s.awake.map cut).reverse ++ s.settled).map Settled.key).Perm s.begun
  rw [List.map_append, List.map_reverse, List.map_map]
  exact (List.reverse_perm _).append_right _

/-- What a supervised run has come to when it is over, as an end of the migrations alone. -/
structure BrokenOff (moves : List (Supervised × Move)) (core : State) (outcome : Outcome)
    (v : State) : Prop where
  status : v.status = outcome.status
  tasks : v.tasks = []
  waiting : v.waiting = none
  settled : (v.settled.map Settled.key).Perm (marksIn moves)
  tally : v.tally = core.tally
  calls : v.calls = core.calls
  delays : v.delays = core.delays
  notices : v.notices = core.notices

theorem Sound.due_enabled (h : Sound r) (none : r.alive = []) (due : r.Due outcome) :
    r.core.Enabled outcome.event := by
  have running := State.isRunning_iff.mpr h.running
  cases outcome with
  | finished =>
    obtain ⟨-, uncut, supply⟩ := due
    exact ⟨running, supply, List.isEmpty_iff.mpr (tasks_of_dead none uncut)⟩
  | failed failure => exact due
  | cancelled => exact running

/-- The migrations alone end with the same marks, counts, calls and pauses as under supervision. -/
theorem run_breaks_off (trace : Trace MoveStep (supervise (start dryRun limit policy)) moves r)
    (closed : r.phase = .closed outcome) :
    Trace Step (start dryRun limit policy) ((r.core, outcome.event) :: courseOf moves)
      (r.core.next outcome.event) ∧
      BrokenOff moves r.core outcome (r.core.next outcome.event) := by
  have course := trace_course trace
  have sound := trace_sound trace
  have ledger := trace_ledger course
  obtain ⟨none, due⟩ := sound.dead closed
  have marked := (marksIn_perm trace none).symm
  refine ⟨(course.mono fun _ _ _ step => step.1).snoc ⟨sound.due_enabled none due⟩, ?_⟩
  cases outcome with
  | finished =>
    obtain ⟨-, uncut, supply⟩ := due
    have tasks := tasks_of_dead none uncut
    refine ⟨rfl, tasks, ledger.last supply, ?_, rfl, rfl, rfl, rfl⟩
    rw [State.begun, State.awake, tasks] at marked
    exact marked
  | failed failure | cancelled =>
    exact ⟨rfl, rfl, rfl, (abort_settled _ _).trans marked, rfl, rfl, rfl, rfl⟩

/-- That a run may end in this way without another step of the migrations themselves. -/
def Ends (r : Supervised) (outcome : Outcome) : Prop :=
  ∃ moves u, Trace MoveStep r moves u ∧ u.phase = .closed outcome ∧ u.core = r.core ∧
    courseOf moves = []

theorem courseOf_append (later earlier : List (Supervised × Move)) :
    courseOf (later ++ earlier) = courseOf later ++ courseOf earlier := List.filterMap_append

theorem Ends.after (step : MoveStep r m u) (rests : m.event? = none) (ends : Ends u outcome) :
    Ends r outcome := by
  obtain ⟨moves, v, trace, closed, core, course⟩ := ends
  have same : u.core = r.core := by
    rcases moveStep_core step with ⟨e, hevent, -⟩ | ⟨-, same⟩
    · rw [rests] at hevent
      cases hevent
    · exact same
  refine ⟨_, v, (Trace.nil.snoc step).append trace, closed, core.trans same, ?_⟩
  rw [courseOf_append, course]
  simp [courseOf, Trace.seen, rests]

theorem ends_of_dead (none : r.alive = []) (decided : r.phase.outcome? = some outcome) :
    Ends r outcome := by
  have clearing : ∀ {r : Supervised} {awaited}, r.alive = [] →
      r.phase = .clearing awaited outcome → Ends r outcome := by
    intro r awaited none hphase
    have enabled : r.Enabled .leave := by
      simp only [Supervised.Enabled, hphase]
      exact fun n _ => by simp [none]
    refine Ends.after ⟨enabled⟩ rfl ⟨[], _, .nil, ?_, rfl, rfl⟩
    simp [Supervised.next, hphase, Phase.outcome?]
  cases hphase : r.phase with
  | taking =>
    rw [hphase] at decided
    cases decided
  | gathering awaited told =>
    have enabled : r.Enabled .gathered := by
      simp only [Supervised.Enabled, hphase]
      exact .inl fun n _ => by simp [none]
    refine Ends.after ⟨enabled⟩ rfl ?_
    simp only [Supervised.next, decided]
    exact clearing none rfl
  | clearing awaited other =>
    rw [hphase] at decided
    cases decided
    exact clearing none hphase
  | closed other =>
    rw [hphase] at decided
    cases decided
    exact ⟨[], r, .nil, hphase, rfl, rfl⟩

theorem alive_cutOff (r : Supervised) (n : Nat) :
    (r.next (.cutOff n)).alive = r.alive.filter (· != n) := by
  show (r.core.tasks.map Task.number).filter (· ∉ n :: r.cutOff) = _
  rw [Supervised.alive, List.filter_filter]
  apply List.filter_congr
  intro k _
  by_cases same : k = n <;> simp [same]

/-- The tasks that were told may all be cut off, one after another. -/
theorem ends_of_told (told : r.alive ⊆ r.cancelling)
    (decided : r.phase.outcome? = some outcome) : Ends r outcome := by
  induction left : r.alive.length using Nat.strong_induction_on generalizing r with
  | _ k fewer =>
    cases some : r.alive with
    | nil => exact ends_of_dead some decided
    | cons n others =>
      have mem : n ∈ r.alive := some ▸ List.mem_cons_self
      have less : (r.next (.cutOff n)).alive.length < k := by
        rw [alive_cutOff, ← left, List.length_filter_lt_length_iff_exists]
        exact ⟨n, mem, by simp⟩
      refine Ends.after (m := .cutOff n) ⟨told mem, mem⟩ rfl (fewer _ less ?_ decided rfl)
      rw [alive_cutOff]
      exact List.Subset.trans List.filter_sublist.subset told

/-- A supervised run in which nothing is known of a cancellation. -/
structure Calm (r : Supervised) : Prop where
  quiet : r.cancelling = []
  uncut : r.cutOff = []
  phase : r.phase = .taking ∨ ∃ awaited, r.phase = .gathering awaited false

theorem Calm.taking (h : Calm r) (sound : Sound r) (flowing : r.core.supply = .flowing) :
    r.phase.isTaking = true := by
  rcases h.phase with hphase | ⟨awaited, hphase⟩
  · rw [hphase]
    rfl
  · have stands := sound.stands
    rw [hphase] at stands
    cases flowing.symm.trans stands.2.1

/-- Before they are broken off, the migrations alone do what they do under supervision. -/
theorem follow_calm {moves : List (State × Event)}
    (trace : Trace OrdinaryStep (start dryRun limit policy) moves s) (running : s.status = .running) :
    ∃ moves' r, Trace MoveStep (supervise (start dryRun limit policy)) moves' r ∧ r.core = s ∧
      courseOf moves' = moves ∧ Calm r := by
  refine trace.preserves (P := fun moves s => s.status = .running → ∃ moves' r,
    Trace MoveStep (supervise (start dryRun limit policy)) moves' r ∧ r.core = s ∧
      courseOf moves' = moves ∧ Calm r) (fun _ => ⟨[], _, .nil, rfl, rfl, rfl, rfl, .inl rfl⟩) ?_
    running
  rintro moves s e v earlier follow ⟨step, ordinary⟩ going
  have running := State.isRunning_iff.mp (State.running_of_step step)
  obtain ⟨enabled⟩ := step
  obtain ⟨moves', r, trace', rfl, rfl, calm⟩ := follow running
  have sound := trace_sound trace'
  have own : r.Admits e → ∃ moves'' r', Trace MoveStep (supervise (start dryRun limit policy)) moves''
      r' ∧ r'.core = r.core.next e ∧ courseOf moves'' = (r.core, e) :: courseOf moves' ∧ Calm r' :=
    fun admits => ⟨_, _, trace'.snoc (.intro (m := .own e) ⟨admits, ordinary, enabled⟩), rfl, rfl,
      calm.quiet, calm.uncut, calm.phase⟩
  have spared : ∀ n, n ∉ r.cancelling ∧ n ∉ r.cutOff := by
    simp [calm.quiet, calm.uncut]
  cases e with
  | inspect => exact own (calm.taking sound (State.isReady_iff.mp enabled).2.2)
  | assign =>
    apply own
    apply calm.taking sound
    cases supply : r.core.supply with
    | flowing => rfl
    | ended =>
      have waiting := (trace_ledger earlier).last supply
      simp [State.Enabled, waiting] at enabled
  | start | answer | wake => exact own (spared _)
  | streamEnd =>
    have taking := calm.taking sound (State.isReady_iff.mp enabled).2.2
    exact ⟨_, _, trace'.snoc (.intro (m := .streamEnd) ⟨taking, enabled⟩), rfl, rfl,
      calm.quiet, calm.uncut, .inr ⟨_, rfl⟩⟩
  | streamFail | finish => cases going
  | cancel => exact ordinary.elim

theorem Sound.told (h : Sound r) (phase : Phase) :
    (r.tell r.pending phase).alive ⊆ (r.tell r.pending phase).cancelling :=
  fun _ alive => mem_told.mpr ⟨h.watched alive, alive⟩

/-- Wherever the migrations alone may end, so may a supervised run that has come there. -/
theorem broken_off_runs {moves : List (State × Event)}
    (trace : Trace OrdinaryStep (start dryRun limit policy) moves s)
    (enabled : s.Enabled outcome.event) : ∃ moves' r,
    Trace MoveStep (supervise (start dryRun limit policy)) moves' r ∧
      r.phase = .closed outcome ∧ r.core = s ∧ courseOf moves' = moves := by
  have running := State.isRunning_iff.mp (State.running_of_step (.intro enabled))
  obtain ⟨before, r, trace', rfl, rfl, calm⟩ := follow_calm trace running
  have sound := trace_sound trace'
  have ends : Ends r outcome := by
    cases outcome with
    | finished =>
      obtain ⟨-, supply, tasks⟩ := enabled
      have none : r.alive = [] := by
        rw [Supervised.alive, List.isEmpty_iff.mp tasks]
        rfl
      apply ends_of_dead none
      rcases calm.phase with hphase | ⟨awaited, hphase⟩
      · have stands := sound.stands
        rw [hphase] at stands
        cases supply.symm.trans stands.2.2
      · rw [hphase]
        rfl
    | failed failure =>
      have taking := calm.taking sound (State.isReady_iff.mp enabled).2.2
      exact Ends.after (m := .streamFail failure) ⟨taking, enabled⟩ rfl
        (ends_of_told (sound.told _) rfl)
    | cancelled =>
      have going : r.Enabled .cancel := by
        rcases calm.phase with hphase | ⟨awaited, hphase⟩ <;>
          simp [Supervised.Enabled, hphase, Phase.isClosed]
      refine Ends.after ⟨going⟩ rfl ?_
      simp only [Supervised.next, Supervised.cancel]
      have stands := sound.stands
      rcases calm.phase with hphase | ⟨awaited, hphase⟩
      · rw [hphase]
        exact ends_of_told (sound.told _) rfl
      · rw [hphase] at stands ⊢
        exact ends_of_told (fun n alive => mem_told.mpr ⟨stands.1 alive, alive⟩) rfl
  obtain ⟨later, u, after, closed, core, course⟩ := ends
  refine ⟨_, u, trace'.append after, closed, core, ?_⟩
  rw [courseOf_append, course]
  rfl

end Breaking

end Rekey.Migration
