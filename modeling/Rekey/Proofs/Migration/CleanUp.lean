import Rekey.Proofs.Dispatch.Accounts
import Rekey.Proofs.Migration.Supervision

/-! # Every run is cleared up

However a run of the migrations ends, none of its tasks is left, each record whose migration was
begun has been marked as done once, and no cancellation has been counted.

A task would fail if its mark were refused, which no move allows for. None is refused where each
window has a slot for all of its records (`mark_accepted`). -/
namespace Rekey.Migration

/-- The tasks that were cut off after they had made a step. -/
def Supervised.severed (r : Supervised) : List Task :=
  r.core.awake.filter (·.number ∈ r.cutOff)

def Supervised.marked (r : Supervised) : List (Record × Nat) :=
  r.core.settled.map Settled.key ++ r.severed.map Task.key

def Move.outcome? : Move → Option Outcome
  | .streamEnd => some .finished
  | .streamFail failure => some (.failed failure)
  | .cancel => some .cancelled
  | .own _ | .cutOff _ | .deflect _ | .putAway _ | .gathered | .leave => none

/-- What the moves of a run make it end as: the newest of those that decide it counts. -/
def outcomeOf (moves : List (Supervised × Move)) : Option Outcome :=
  moves.findSome? fun m => m.2.outcome?

def Happened (moves : List (Supervised × Move)) (m : Move) : Prop := m ∈ moves.map (·.2)

section CleanUp
variable {limit : Nat} {dryRun : Bool} {policy : Retry.Policy Float} {given : List Record}
  {moves : List (Supervised × Move)} {r u : Supervised} {m : Move} {e : Event} {n : Nat}

section Marks
variable {s v : State} {t t' : Task}

theorem settledSince_append {more : List Settled} (h : v.settled = more ++ s.settled) :
    v.settledSince s = more.reverse := by
  simp [State.settledSince, h]

theorem settled_perm (s : State) (e : Event) : ((s.next e).settled.map Settled.key).Perm
    (((s.next e).settledSince s).map Settled.key ++ s.settled.map Settled.key) := by
  obtain ⟨more, hmore⟩ := next_settled s e
  rw [settledSince_append hmore, hmore, List.map_append, List.map_reverse]
  exact (List.reverse_perm _).symm.append_right _

/-- One task aside, others are not concerned by what it does. -/
theorem awake_others (nodup : (s.tasks.map Task.number).Nodup) (mem : t ∈ s.tasks)
    {p : Task → Bool} (out : p t = false) :
    (((s.others t.number).filter (·.stage != .created)).filter p).Perm (s.awake.filter p) := by
  have split := ((others_perm nodup mem).filter (·.stage != .created)).filter p
  refine List.Perm.trans ?_ split.symm
  rw [List.filter_cons]
  split
  · rw [List.filter_cons_of_neg (by simp [out])]
  · exact List.Perm.refl _

theorem Moved.awake_perm (moved : Moved s t t' v) (nodup : (s.tasks.map Task.number).Nodup)
    (mem : t ∈ s.tasks) {p : Task → Bool} (out : ∀ x : Task, x.number = t.number → p x = false) :
    (v.awake.filter p).Perm (s.awake.filter p) := by
  rw [State.awake, moved.tasks, List.filter_append, List.filter_append]
  have fresh : ([t'].filter (·.stage != .created)).filter p = [] := by
    apply List.filter_eq_nil_iff.mpr
    intro x hx
    rw [List.mem_singleton.mp (List.mem_of_mem_filter hx), out t' moved.number]
    exact Bool.false_ne_true
  rw [fresh, List.append_nil]
  exact awake_others nodup mem (out t rfl)

theorem Ended.awake_perm {ending : Ending} (ended : Ended s t ending v)
    (nodup : (s.tasks.map Task.number).Nodup) (mem : t ∈ s.tasks) {p : Task → Bool}
    (out : p t = false) : (v.awake.filter p).Perm (s.awake.filter p) := by
  rw [State.awake, ended.tasks]
  exact awake_others nodup mem out

theorem TaskStep.awake_perm (step : TaskStep s t e v) (nodup : (s.tasks.map Task.number).Nodup)
    (mem : t ∈ s.tasks) {p : Task → Bool} (out : ∀ x : Task, x.number = t.number → p x = false) :
    (v.awake.filter p).Perm (s.awake.filter p) := by
  rcases step.goes_or_ends with ⟨t', moved⟩ | ⟨ending, -, ended⟩
  · exact moved.awake_perm nodup mem out
  · exact ended.awake_perm nodup mem (out t rfl)

/-- Whoever goes on by itself is not among those cut off. -/
theorem severed_own (nodup : (r.core.tasks.map Task.number).Nodup)
    (ledger : Ledger limit given r.core) (enabled : r.Enabled (.own e)) :
    (r.next (.own e)).severed.Perm r.severed := by
  obtain ⟨admits, ordinary, enabled⟩ := enabled
  cases e with
  | start | answer | wake =>
    obtain ⟨t, mem, -, -, rfl, step⟩ := taskStep_of_enabled enabled ordinary rfl
    apply step.awake_perm nodup mem
    intro x same
    rw [same]
    exact decide_eq_false (Supervised.Admits.spared admits rfl).2
  | inspect => exact List.Perm.refl _
  | assign =>
    obtain ⟨t, waiting⟩ := Option.isSome_iff_exists.mp enabled.2.1
    have created := (ledger.fresh t waiting).1
    simp [Supervised.severed, Supervised.next, State.next, waiting, State.awake,
      List.filter_append, created]
  | streamEnd | streamFail | finish | cancel => exact admits.elim

theorem severed_cutOff (alive : n ∈ r.alive) : ((r.next (.cutOff n)).severed.map Task.key).Perm
    (r.marks (.cutOff n) ++ r.severed.map Task.key) := by
  obtain ⟨-, uncut⟩ := mem_alive.mp alive
  have own : (r.next (.cutOff n)).severed.filter (·.number == n) =
      r.core.awake.filter (·.number == n) := by
    show (r.core.awake.filter (·.number ∈ n :: r.cutOff)).filter (·.number == n) = _
    rw [List.filter_filter]
    apply List.filter_congr
    intro t _
    by_cases same : t.number = n <;> simp [same]
  have rest : (r.next (.cutOff n)).severed.filter (fun t => !(t.number == n)) = r.severed := by
    show (r.core.awake.filter (·.number ∈ n :: r.cutOff)).filter (fun t => !(t.number == n)) = _
    rw [List.filter_filter]
    apply List.filter_congr
    intro t _
    by_cases same : t.number = n <;> simp [same, uncut]
  have split := List.filter_append_perm (·.number == n) (r.next (.cutOff n)).severed
  rw [own, rest] at split
  rw [Supervised.marks, ← List.map_append]
  exact (split.map Task.key).symm

theorem moveStep_marked (h : Sound r) (ledger : Ledger limit given r.core)
    (step : MoveStep r m u) : u.marked.Perm (r.marks m ++ r.marked) := by
  obtain ⟨enabled⟩ := step
  cases m with
  | own e =>
    have severed := (severed_own (h.tasks_nodup ledger) ledger enabled).map Task.key
    have all := (settled_perm r.core e).append severed
    rwa [List.append_assoc] at all
  | cutOff n =>
    refine ((severed_cutOff enabled.2).append_left _).trans ?_
    rw [← List.append_assoc, Supervised.marked, ← List.append_assoc]
    exact List.perm_append_comm.append_right _
  | streamEnd | streamFail | deflect | putAway => exact List.Perm.refl _
  | cancel =>
    simp only [Supervised.next, Supervised.cancel]
    split <;> exact List.Perm.refl _
  | gathered | leave =>
    simp only [Supervised.next]
    split <;> exact List.Perm.refl _

theorem trace_marked (trace : Trace MoveStep (supervise (start dryRun limit policy)) moves r) :
    (marksIn moves).Perm r.marked := by
  refine trace.preserves (P := fun moves r => (marksIn moves).Perm r.marked)
    (List.Perm.refl _) ?_
  intro moves r m u earlier marked step
  have one := moveStep_marked (trace_sound earlier) (trace_ledger (trace_course earlier)) step
  exact (marked.append_left _).trans one.symm

end Marks

section Outcome
variable {outcome : Outcome}

theorem outcomeOf_cons (r : Supervised) (m : Move) (moves : List (Supervised × Move)) :
    outcomeOf ((r, m) :: moves) = m.outcome?.or (outcomeOf moves) := by
  unfold outcomeOf
  rw [List.findSome?_cons]
  cases m.outcome? <;> rfl

theorem happened_cons {m' : Move} :
    Happened ((r, m) :: moves) m' ↔ m' = m ∨ Happened moves m' := by
  rw [Happened, List.map_cons, List.mem_cons, Happened]

theorem moveStep_outcome (step : MoveStep r m u) :
    u.phase.outcome? = m.outcome?.or r.phase.outcome? := by
  obtain ⟨enabled⟩ := step
  cases m with
  | own | cutOff | deflect | putAway | streamEnd | streamFail => rfl
  | cancel =>
    simp only [Supervised.next, Supervised.cancel]
    split
    · rfl
    · rfl
    · rfl
    · next hphase =>
      simp [Supervised.Enabled, hphase, Phase.isClosed] at enabled
  | gathered | leave =>
    simp only [Supervised.next]
    split
    · next houtcome => exact houtcome.symm
    · rfl

theorem trace_outcome (trace : Trace MoveStep (supervise (start dryRun limit policy)) moves r) :
    r.phase.outcome? = outcomeOf moves := by
  refine trace.preserves (P := fun moves r => r.phase.outcome? = outcomeOf moves) rfl ?_
  intro moves r m u _ known step
  rw [outcomeOf_cons, ← known]
  exact moveStep_outcome step

/-- The stream ends once, by its last record or by a failure. -/
theorem Move.taking (enabled : r.Enabled m) (decides : m.outcome? = some outcome)
    (inside : m ≠ .cancel) : r.phase.outcome? = none := by
  have taking : r.phase.isTaking = true := by
    cases m with
    | streamEnd | streamFail => exact enabled.1
    | cancel => exact absurd rfl inside
    | own | cutOff | deflect | putAway | gathered | leave => cases decides
  revert taking
  cases r.phase <;> simp [Phase.isTaking, Phase.outcome?]

/-- Without a cancellation from outside the run ends as its stream did, whatever has become of the
migrations. -/
theorem outcome_of_stream (trace : Trace MoveStep (supervise (start dryRun limit policy)) moves r)
    {m : Move} (decides : m.outcome? = some outcome) (ended : Happened moves m)
    (undisturbed : ¬ Happened moves .cancel) : outcomeOf moves = some outcome := by
  refine trace.preserves (P := fun moves _ => ¬ Happened moves .cancel → Happened moves m →
    outcomeOf moves = some outcome) (fun _ none => absurd none List.not_mem_nil) ?_
    undisturbed ended
  intro moves r last u earlier known step undisturbed ended
  rw [happened_cons, not_or] at undisturbed
  rw [outcomeOf_cons]
  rcases happened_cons.mp ended with rfl | before
  · rw [decides, Option.some_or]
  · have decided := known undisturbed.2 before
    cases hlast : last.outcome? with
    | none => exact decided
    | some other =>
      obtain ⟨enabled⟩ := step
      have untaken := Move.taking enabled hlast (Ne.symm undisturbed.1)
      rw [trace_outcome earlier, decided] at untaken
      cases untaken

end Outcome

section Closed
variable {outcome : Outcome}

/-- Once a run is over, all that can happen is that tasks are put away. -/
theorem closed_rests (closed : r.phase = .closed outcome) (none : r.alive = [])
    (step : MoveStep r m u) :
    u.core = r.core ∧ u.cutOff = r.cutOff ∧ u.phase = r.phase ∧ r.marks m = [] := by
  obtain ⟨enabled⟩ := step
  have untaken : r.phase.isTaking ≠ true := by simp [closed, Phase.isTaking]
  have dead : ∀ n, n ∉ r.alive := by simp [none]
  cases m with
  | own e =>
    obtain ⟨admits, ordinary, enabled⟩ := enabled
    cases e with
    | start | answer | wake =>
      obtain ⟨t, mem, -, -, rfl, -⟩ := taskStep_of_enabled enabled ordinary rfl
      have spared := (Supervised.Admits.spared admits rfl).2
      exact absurd (mem_alive.mpr ⟨List.mem_map_of_mem mem, spared⟩) (dead _)
    | inspect | assign => exact absurd admits untaken
    | streamEnd | streamFail | finish | cancel => exact admits.elim
  | streamEnd | streamFail => exact absurd enabled.1 untaken
  | cancel => simp [Supervised.Enabled, closed, Phase.isClosed] at enabled
  | cutOff => exact absurd enabled.2 (dead _)
  | deflect => exact absurd enabled.2.1 (dead _)
  | putAway => exact ⟨rfl, rfl, rfl, rfl⟩
  | gathered | leave => simp [Supervised.Enabled, closed] at enabled

theorem trace_rests {later : List (Supervised × Move)} (closed : r.phase = .closed outcome)
    (none : r.alive = []) (trace : Trace MoveStep r later u) :
    u.core = r.core ∧ u.cutOff = r.cutOff ∧ u.phase = r.phase ∧ marksIn later = [] := by
  refine trace.preserves (P := fun later u => u.core = r.core ∧ u.cutOff = r.cutOff ∧
    u.phase = r.phase ∧ marksIn later = []) ⟨rfl, rfl, rfl, rfl⟩ ?_
  rintro later t m u - ⟨core, cutOff, phase, quiet⟩ step
  have dead : t.alive = [] := by rw [Supervised.alive, core, cutOff]; exact none
  obtain ⟨core', cutOff', phase', quiet'⟩ := closed_rests (phase.trans closed) dead step
  exact ⟨core'.trans core, cutOff'.trans cutOff, phase'.trans phase, by
    rw [marksIn_cons, quiet, quiet']; rfl⟩

end Closed

section Endings
variable {s v : State}

/-- No migration that comes to its own end ends as one cut off. -/
theorem TaskStep.uncut {t : Task} (step : TaskStep s t e v)
    (uncut : ∀ x ∈ s.settled, x.ending ≠ .cutOff) : ∀ x ∈ v.settled, x.ending ≠ .cutOff := by
  rcases step.goes_or_ends with ⟨t', moved⟩ | ⟨ending, own, ended⟩
  · rw [moved.settled]
    exact uncut
  · rw [ended.settled]
    exact List.forall_mem_cons.mpr ⟨own, uncut⟩

theorem trace_uncut {moves : List (State × Event)}
    (trace : Trace OrdinaryStep (start dryRun limit policy) moves s) (whole : s.IsWhole) :
    ∀ x ∈ s.settled, x.ending ≠ .cutOff := by
  refine trace.preserves (P := fun _ s => s.IsWhole → ∀ x ∈ s.settled, x.ending ≠ .cutOff)
    (fun _ _ none => absurd none List.not_mem_nil) ?_ whole
  rintro moves s e v - uncut ⟨⟨enabled⟩, ordinary⟩ whole
  have running := State.isRunning_iff.mp (State.running_of_step (.intro enabled))
  replace uncut := uncut (.inl running)
  cases e with
  | start | answer | wake =>
    obtain ⟨t, -, -, -, -, step⟩ := taskStep_of_enabled enabled ordinary rfl
    exact step.uncut uncut
  | inspect | streamEnd | finish => exact uncut
  | assign =>
    simp only [State.next]
    split <;> exact uncut
  | streamFail => rcases whole with hw | hw <;> cases hw
  | cancel => exact ordinary.elim

end Endings

/-- The tasks made in a run, by the records they were made for. -/
def createdIn (moves : List (Supervised × Move)) : List (Record × Nat) :=
  assignedIn (courseOf moves)

/-- The migrations that were begun in a run. -/
def begunIn (moves : List (Supervised × Move)) : List (Record × Nat) := startedIn (courseOf moves)

def suppliedIn (moves : List (Supervised × Move)) : List Record := inspectedIn (courseOf moves)

/-- What is left of a run when it is over. -/
structure CleanedUp (moves : List (Supervised × Move)) (r : Supervised) (outcome : Outcome) :
    Prop where
  ended : ((createdIn moves).map (·.2)).Perm (r.core.settled.map (·.number) ++ r.cutOff)
  apart : ((createdIn moves).map (·.2)).Nodup
  quiet : ∀ {later u}, Trace MoveStep r later u →
    u.core = r.core ∧ u.cutOff = r.cutOff ∧ marksIn later = []
  marked : (marksIn moves).Perm (begunIn moves)
  once : (marksIn moves).Nodup
  migrated : r.core.tally.migrated = r.core.settled.countP (·.ending.isWritten)
  abandoned : r.core.tally.abandoned = r.core.settled.countP (·.ending.isAbandoned)
  uncut : ∀ x ∈ r.core.settled, x.ending ≠ .cutOff
  failed : ∀ failure, Happened moves (.streamFail failure) → ¬ Happened moves .cancel →
    outcome = .failed failure
  completed : Happened moves .streamEnd → ¬ Happened moves .cancel → outcome = .finished ∧
    r.cutOff = [] ∧ (r.core.settled.map Settled.key).Perm (suppliedIn moves).zipIdx

section Closed
variable {outcome : Outcome}

theorem Sound.dead (h : Sound r) (closed : r.phase = .closed outcome) :
    r.alive = [] ∧ r.Due outcome := by
  have stands := h.stands
  rwa [closed] at stands

theorem mem_cutOff_of_dead (none : r.alive = []) (mem : n ∈ r.core.tasks.map Task.number) :
    n ∈ r.cutOff := by
  by_contra uncut
  have alive := mem_alive.mpr ⟨mem, uncut⟩
  rw [none] at alive
  cases alive

theorem Sound.cutOff_perm (h : Sound r) (ledger : Ledger limit given r.core)
    (none : r.alive = []) : (r.core.tasks.map Task.number).Perm r.cutOff := by
  apply (List.perm_ext_iff_of_nodup (h.tasks_nodup ledger) h.nodup).mpr
  exact fun n => ⟨mem_cutOff_of_dead none, fun cut => h.known cut⟩

theorem severed_of_dead (none : r.alive = []) : r.severed = r.core.awake := by
  apply List.filter_eq_self.mpr
  intro t mem
  have task := List.mem_map_of_mem (f := Task.number) (List.mem_of_mem_filter mem)
  simpa using mem_cutOff_of_dead none task

/-- Once no task is left the records marked are those whose migration was begun. -/
theorem marksIn_perm (trace : Trace MoveStep (supervise (start dryRun limit policy)) moves r)
    (none : r.alive = []) : (marksIn moves).Perm r.core.begun := by
  have all := trace_marked trace
  rw [Supervised.marked, severed_of_dead none] at all
  exact all.trans List.perm_append_comm

theorem tasks_of_dead (none : r.alive = []) (uncut : r.cutOff = []) :
    r.core.tasks = [] := by
  rw [Supervised.alive, uncut] at none
  simpa using none

theorem assigned_sublist (s : State) : s.assigned.Sublist s.known := by
  rw [State.assigned, State.known, State.pending, List.map_append]
  exact (List.sublist_append_right _ _).append_right _

theorem begun_sublist (s : State) : s.begun.Sublist s.known :=
  ((List.filter_sublist.map _).append_right _).trans (assigned_sublist s)

/-- When the run is over it has come to the end of every task that it made, and nothing follows. -/
theorem run_cleaned_up (trace : Trace MoveStep (supervise (start dryRun limit policy)) moves r)
    (closed : r.phase = .closed outcome) : CleanedUp moves r outcome := by
  have course := trace_course trace
  have sound := trace_sound trace
  have ledger := trace_ledger course
  have whole : r.core.IsWhole := .inl sound.running
  obtain ⟨none, due⟩ := sound.dead closed
  have created : (createdIn moves).Perm r.core.assigned := trace_assigned course whole
  have marked := marksIn_perm trace none
  have decided : outcomeOf moves = some outcome := by
    rw [← trace_outcome trace, closed]
    rfl
  have numbers := ledger.numbers_nodup whole
  constructor
  case ended =>
    refine (created.map _).trans ?_
    rw [State.assigned, List.map_append, List.map_map, List.map_map]
    exact ((sound.cutOff_perm ledger none).append_right _).trans List.perm_append_comm
  case apart =>
    rw [(created.map _).nodup_iff]
    exact ((assigned_sublist _).map _).nodup numbers
  case quiet =>
    intro later u after
    obtain ⟨core, cutOff, -, quiet⟩ := trace_rests closed none after
    exact ⟨core, cutOff, quiet⟩
  case marked => exact marked.trans (trace_begun course whole).symm
  case once =>
    rw [marked.nodup_iff]
    exact (begun_sublist _).nodup (.of_map _ numbers)
  case migrated => exact ledger.migrated
  case abandoned => exact ledger.abandoned
  case uncut => exact trace_uncut course whole
  case failed =>
    intro failure failed undisturbed
    have known := outcome_of_stream trace (m := .streamFail failure) rfl failed undisturbed
    exact Option.some.inj (decided.symm.trans known)
  case completed =>
    intro ended undisturbed
    have known := outcome_of_stream trace (m := .streamEnd) rfl ended undisturbed
    obtain rfl := Option.some.inj (decided.symm.trans known)
    obtain ⟨-, uncut, supply⟩ := due
    have all := ledger.known whole
    rw [State.known, State.pending, ledger.last supply, tasks_of_dead none uncut] at all
    exact ⟨rfl, uncut, all⟩

end Closed

/-- When the stream fails one migration is in a pause, one waits for the store, which completes the
write in spite of the cancellation, and one has not been started. -/
def interruptedMoves : List Move :=
  let take (key : String) : List Move :=
    [.own .assign, .own (.inspect ⟨key, ⟨"hash", "salt"⟩, 5⟩)]
  [.leave, .cutOff 2, .own (.answer 1 (.ok true) 0), .deflect 1, .putAway 0, .cutOff 0,
    .streamFail (.plain .runtime "scan")] ++ take "cyd" ++ .own (.start 1) :: take "bob" ++
    [.own (.answer 0 (.error (.transient "busy" none)) 0), .own (.start 0)] ++ take "ada"

def interrupted : Supervised :=
  Trace.reached Supervised.next (supervise (start false 3 ⟨2, 1, 1, none, 0⟩)) interruptedMoves

theorem interrupted_cleaned_up : ∃ moves,
    Trace MoveStep (supervise (start false 3 ⟨2, 1, 1, none, 0⟩)) moves interrupted ∧
      interrupted.phase = .closed (.failed (.plain .runtime "scan")) ∧
      CleanedUp moves interrupted (.failed (.plain .runtime "scan")) := by
  have trace : Trace MoveStep (supervise (start false 3 ⟨2, 1, 1, none, 0⟩))
      (Trace.replay Supervised.next (supervise (start false 3 ⟨2, 1, 1, none, 0⟩))
        interruptedMoves) interrupted := by
    apply Trace.of_replays Supervised.next
    refine ⟨⟨?_⟩, ⟨?_⟩, ⟨?_⟩, ⟨?_⟩, ⟨?_⟩, ⟨?_⟩, ⟨?_⟩, ⟨?_⟩, ⟨?_⟩, ⟨?_⟩, ⟨?_⟩, ⟨?_⟩, ⟨?_⟩, ⟨?_⟩,
      ⟨?_⟩, ⟨?_⟩, trivial⟩
    all_goals decide +kernel
  exact ⟨_, trace, rfl, run_cleaned_up trace rfl⟩

section Windows
open Dispatch (Slot)

theorem marked_subperm (r : Supervised) : List.Subperm r.marked r.core.known := by
  have severed : (r.severed.map Task.key).Sublist (r.core.pending.map Task.key) := by
    apply List.Sublist.map
    exact (List.filter_sublist.trans List.filter_sublist).trans (List.sublist_append_right _ _)
  exact List.perm_append_comm.subperm.trans (severed.append_right _).subperm

/-- Where the records are those of windows, by a number for each, no slot is marked more often than
its window has records, so that it takes every mark. -/
theorem mark_accepted (trace : Trace MoveStep (supervise (start dryRun limit policy)) moves r)
    (step : MoveStep r m u) {window : Nat → Nat} {w size : Nat}
    (fits : (suppliedIn ((r, m) :: moves)).zipIdx.countP (window ·.2 = w) ≤ size)
    {record : Record} (mark : (record, n) ∈ r.marks m) (own : window n = w) :
    ∃ slot, (Slot.after size ((marksIn moves).countP (window ·.2 = w))).recordDone = .ok slot := by
  have all := trace.snoc step
  have sound := trace_sound all
  have known := (trace_ledger (trace_course all)).known (.inl sound.running)
  have most := ((trace_marked all).subperm.trans (marked_subperm u)).trans known.subperm
  have bound := most.countP_le (window ·.2 = w)
  have here : 0 < (r.marks m).countP (window ·.2 = w) :=
    List.countP_pos_iff.mpr ⟨_, mark, by simpa using own⟩
  simp only [marksIn_cons, List.countP_append] at bound
  have room : (marksIn moves).countP (window ·.2 = w) < size := by
    unfold suppliedIn at fits
    omega
  exact ⟨_, Slot.recordDone_after.trans (if_pos room)⟩

end Windows

end CleanUp

end Rekey.Migration
