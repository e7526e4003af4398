import Rekey.Proofs.Migration.Begun
import Rekey.Proofs.Migration.Slots

/-! # The supervision of the migrations

How the migrations come to an end, one task at a time. A task stays among the pending ones until it
is put away, which is some time after it has ended. While the stream flows nobody waits for the
tasks. After its last record those pending are waited for, and whatever ends that, or ends the
stream before, those then pending are told of a cancellation and waited for once more. A task told
is cut off where it stands, unless the call or the pause that it waits for deflects the cancellation;
the task then goes on as if it had not been told.

The state `core` is that of the migrations themselves. A task cut off rests in it as it was, and the
core is never broken off: how both systems end compares `Rekey.Proofs.Migration.Breaking`. -/
namespace Rekey.Migration

inductive Outcome where
  | finished
  | failed (failure : Failure)
  | cancelled

/-- After the last record the tasks are gathered, and they may be told to cancel. When those that are
to be cleared away have ended, the run ends with the outcome that was set. -/
inductive Phase where
  | taking
  | gathering (awaited : List Nat) (told : Bool)
  | clearing (awaited : List Nat) (outcome : Outcome)
  | closed (outcome : Outcome)

/-- The migrations under supervision. The lists hold the numbers of the tasks that are not put away,
of those told of a cancellation that has not reached them, and of those it has ended. -/
structure Supervised where
  core : State
  pending : List Nat
  cancelling : List Nat
  cutOff : List Nat
  phase : Phase

/-- The loop over the stream, or a task, makes a move of its own; the stream ends or fails; the run is
cancelled from outside. A task that is cancelled is cut off or deflects that. When the tasks have been
gathered or cleared away, the run goes on to its end. -/
inductive Move where
  | own (e : Event)
  | streamEnd
  | streamFail (failure : Failure)
  | cancel
  | cutOff (number : Nat)
  | deflect (number : Nat)
  | putAway (number : Nat)
  | gathered
  | leave

def Phase.isTaking : Phase → Bool
  | .taking => true
  | .gathering .. | .clearing .. | .closed _ => false

def Phase.isClosed : Phase → Bool
  | .closed _ => true
  | .taking | .gathering .. | .clearing .. => false

/-- How the run is going to end as things stand. -/
def Phase.outcome? : Phase → Option Outcome
  | .taking => none
  | .gathering _ told => some (if told then .cancelled else .finished)
  | .clearing _ outcome | .closed outcome => some outcome

instance (e : Event) : Decidable e.Ordinary := by
  unfold Event.Ordinary
  split <;> infer_instance

def supervise (s : State) : Supervised := ⟨s, [], [], [], .taking⟩

namespace Supervised

/-- The tasks that have not ended. -/
def alive (r : Supervised) : List Nat := (r.core.tasks.map Task.number).filter (· ∉ r.cutOff)

def Admits (r : Supervised) : Event → Prop
  | .inspect _ | .assign => r.phase.isTaking = true
  | .start number | .answer number .. | .wake number =>
    number ∉ r.cancelling ∧ number ∉ r.cutOff
  | .streamEnd | .streamFail _ | .finish | .cancel => False

instance (r : Supervised) (e : Event) : Decidable (r.Admits e) :=
  match e with
  | .inspect _ | .assign => inferInstanceAs (Decidable (r.phase.isTaking = true))
  | .start number | .answer number .. | .wake number =>
    inferInstanceAs (Decidable (number ∉ r.cancelling ∧ number ∉ r.cutOff))
  | .streamEnd | .streamFail _ | .finish | .cancel => inferInstanceAs (Decidable False)

def Ended (r : Supervised) (numbers : List Nat) : Prop := ∀ n ∈ numbers, n ∉ r.alive

instance (r : Supervised) (numbers : List Nat) : Decidable (r.Ended numbers) :=
  inferInstanceAs (Decidable (∀ n ∈ numbers, n ∉ r.alive))

/-- What may happen. The store fails in no way that a migration does not catch: cancellations come
from the supervision alone. -/
def Enabled (r : Supervised) : Move → Prop
  | .own e => r.Admits e ∧ e.Ordinary ∧ r.core.Enabled e
  | .streamEnd | .streamFail _ => r.phase.isTaking = true ∧ r.core.isReady = true
  | .cancel => r.phase.isClosed = false
  | .cutOff number => number ∈ r.cancelling ∧ number ∈ r.alive
  | .deflect number => number ∈ r.cancelling ∧ number ∈ r.alive ∧
    r.core.stageIs number (· != .created) = true
  | .putAway number => number ∈ r.pending ∧ number ∉ r.alive
  | .gathered => match r.phase with
    -- A wait that was told to cancel ends with the first task that is cut off.
    | .gathering awaited told =>
      r.Ended awaited ∨ (told = true ∧ ∃ n ∈ awaited, n ∈ r.cutOff)
    | .taking | .clearing .. | .closed _ => False
  | .leave => match r.phase with
    | .clearing awaited _ => r.Ended awaited
    | .taking | .gathering .. | .closed _ => False

instance (r : Supervised) (m : Move) : Decidable (r.Enabled m) := by
  cases m <;> unfold Enabled <;> first | infer_instance | (dsimp only; split <;> infer_instance)

/-- Tells tasks of a cancellation, which those that have ended do not mind. -/
def tell (r : Supervised) (numbers : List Nat) (phase : Phase) : Supervised :=
  { r with cancelling := numbers.filter (· ∈ r.alive), phase }

def clear (r : Supervised) (outcome : Outcome) : Supervised :=
  r.tell r.pending (.clearing r.pending outcome)

def cancel (r : Supervised) : Supervised :=
  match r.phase with
  | .taking => r.clear .cancelled
  | .gathering awaited _ => r.tell awaited (.gathering awaited true)
  | .clearing awaited _ => r.tell awaited (.clearing awaited .cancelled)
  | .closed _ => r

def next (r : Supervised) : Move → Supervised
  | .own e =>
    { r with
      core := r.core.next e
      pending := (r.core.assigned? e).toList.map (·.2) ++ r.pending }
  | .streamEnd => { r with core := r.core.next .streamEnd, phase := .gathering r.pending false }
  | .streamFail failure => r.clear (.failed failure)
  | .cancel => r.cancel
  | .cutOff number => { r with cutOff := number :: r.cutOff }
  | .deflect number => { r with cancelling := r.cancelling.filter (· != number) }
  | .putAway number => { r with pending := r.pending.filter (· != number) }
  | .gathered => match r.phase.outcome? with
    | some outcome => r.clear outcome
    | none => r
  | .leave => match r.phase.outcome? with
    | some outcome => { r with phase := .closed outcome }
    | none => r

/-- The records that a move marks as done: a task marks its record however it ends once it has made
a step, and one that has made none leaves no mark. -/
def marks (r : Supervised) : Move → List (Record × Nat)
  | .own e => ((r.core.next e).settledSince r.core).map Settled.key
  | .cutOff number => (r.core.awake.filter (·.number == number)).map Task.key
  | _ => []

end Supervised

inductive MoveStep : Supervised → Move → Supervised → Prop where
  | intro {r : Supervised} {m : Move} (enabled : r.Enabled m) : MoveStep r m (r.next m)

/-- The step of the migrations themselves that a move is. -/
def Move.event? : Move → Option Event
  | .own e => some e
  | .streamEnd => some .streamEnd
  | _ => none

def courseOf (moves : List (Supervised × Move)) : List (State × Event) :=
  Trace.seen Supervised.core (fun _ m => m.event?) moves

def marksIn (moves : List (Supervised × Move)) : List (Record × Nat) :=
  moves.flatMap fun m => m.1.marks m.2

theorem marksIn_cons (m : Supervised × Move) (moves : List (Supervised × Move)) :
    marksIn (m :: moves) = m.1.marks m.2 ++ marksIn moves := rfl

section Supervision
variable {limit : Nat} {dryRun : Bool} {policy : Retry.Policy Float}
  {moves : List (Supervised × Move)} {r u : Supervised} {m : Move} {e : Event} {n : Nat}

theorem mem_alive : n ∈ r.alive ↔ n ∈ r.core.tasks.map Task.number ∧ n ∉ r.cutOff := by
  rw [Supervised.alive, List.mem_filter, decide_eq_true_iff]

theorem mem_told {numbers : List Nat} {phase : Phase} :
    n ∈ (r.tell numbers phase).cancelling ↔ n ∈ numbers ∧ n ∈ r.alive := by
  rw [Supervised.tell, List.mem_filter, decide_eq_true_iff]

/-- The migrations themselves take a step of their own or rest. -/
theorem moveStep_core (step : MoveStep r m u) :
    (∃ e, m.event? = some e ∧ OrdinaryStep r.core e u.core) ∨
      (m.event? = none ∧ u.core = r.core) := by
  obtain ⟨enabled⟩ := step
  cases m with
  | own e => exact .inl ⟨e, rfl, ⟨enabled.2.2⟩, enabled.2.1⟩
  | streamEnd => exact .inl ⟨.streamEnd, rfl, ⟨enabled.2⟩, trivial⟩
  | streamFail | cutOff | deflect | putAway => exact .inr ⟨rfl, rfl⟩
  | cancel =>
    refine .inr ⟨rfl, ?_⟩
    simp only [Supervised.next, Supervised.cancel]
    split <;> rfl
  | gathered | leave =>
    refine .inr ⟨rfl, ?_⟩
    simp only [Supervised.next]
    split <;> rfl

/-- What the supervision adds is when the migrations go on and which of them no longer. -/
theorem trace_course (trace : Trace MoveStep (supervise (start dryRun limit policy)) moves r) :
    Trace OrdinaryStep (start dryRun limit policy) (courseOf moves) r.core :=
  trace.component Supervised.core (fun _ m => m.event?) fun _ _ _ => moveStep_core

/-- That an ending of the run is due. -/
def Supervised.Due (r : Supervised) : Outcome → Prop
  | .finished => r.alive = [] ∧ r.cutOff = [] ∧ r.core.supply = .ended
  | .failed _ => r.core.isReady = true
  | .cancelled => True

/-- What holds in a phase: the tasks that have not ended are waited for as soon as any are, and none
is cut off before somebody was told of a cancellation. -/
def Supervised.Stands (r : Supervised) : Phase → Prop
  | .taking => r.cancelling = [] ∧ r.cutOff = [] ∧ r.core.supply = .flowing
  | .gathering awaited told => r.alive ⊆ awaited ∧ r.core.supply = .ended ∧
    (told = false → r.cancelling = [] ∧ r.cutOff = [])
  | .clearing awaited outcome => r.alive ⊆ awaited ∧ r.Due outcome
  | .closed outcome => r.alive = [] ∧ r.Due outcome

structure Sound (r : Supervised) : Prop where
  running : r.core.status = .running
  known : r.cutOff ⊆ r.core.tasks.map Task.number
  nodup : r.cutOff.Nodup
  watched : r.alive ⊆ r.pending
  stands : r.Stands r.phase

theorem start_sound (dryRun : Bool) (limit : Nat) (policy : Retry.Policy Float) :
    Sound (supervise (start dryRun limit policy)) :=
  ⟨rfl, List.nil_subset _, .nil, by simp [Supervised.alive, supervise, start], rfl, rfl, rfl⟩

/-- A change that wakes nobody keeps what holds in a phase, if it cuts off no task in a calm. -/
structure Calmer (r u : Supervised) : Prop where
  alive : u.alive ⊆ r.alive
  supply : u.core.supply = r.core.supply
  ready : u.core.isReady = r.core.isReady
  told : r.cancelling = [] → u.cancelling = []
  calm : r.cancelling = [] ∨ r.alive = [] → u.cutOff = r.cutOff

theorem Calmer.due (h : Calmer r u) {outcome : Outcome} (due : r.Due outcome) :
    u.Due outcome := by
  cases outcome with
  | finished =>
    obtain ⟨none, uncut, ended⟩ := due
    exact ⟨List.subset_nil.mp (none ▸ h.alive), (h.calm (.inr none)).trans uncut,
      h.supply.trans ended⟩
  | failed failure => exact h.ready.trans due
  | cancelled => trivial

theorem Calmer.stands (h : Calmer r u) {phase : Phase} (stands : r.Stands phase) :
    u.Stands phase := by
  cases phase with
  | taking =>
    obtain ⟨quiet, uncut, flowing⟩ := stands
    exact ⟨h.told quiet, (h.calm (.inl quiet)).trans uncut, h.supply.trans flowing⟩
  | gathering awaited told =>
    obtain ⟨watched, ended, untold⟩ := stands
    refine ⟨List.Subset.trans h.alive watched, h.supply.trans ended, fun hn => ?_⟩
    obtain ⟨quiet, uncut⟩ := untold hn
    exact ⟨h.told quiet, (h.calm (.inl quiet)).trans uncut⟩
  | clearing awaited outcome => exact ⟨List.Subset.trans h.alive stands.1, h.due stands.2⟩
  | closed outcome => exact ⟨List.subset_nil.mp (stands.1 ▸ h.alive), h.due stands.2⟩

theorem Supervised.Stands.taking (h : r.Stands r.phase) (taking : r.phase.isTaking = true) :
    r.phase = .taking ∧ r.cancelling = [] ∧ r.cutOff = [] ∧ r.core.supply = .flowing := by
  unfold Phase.isTaking at taking
  split at taking
  · next hphase =>
    rw [hphase] at h
    exact ⟨hphase, h⟩
  · cases taking
  · cases taking
  · cases taking

section Tasks
variable {s v : State} {t : Task}

theorem Moved.numbers {t' : Task} (moved : Moved s t t' v)
    (nodup : (s.tasks.map Task.number).Nodup) (mem : t ∈ s.tasks) :
    (s.tasks.map Task.number).Perm (v.tasks.map Task.number) := by
  rw [moved.tasks, List.map_append, List.map_singleton, moved.number]
  exact ((others_perm nodup mem).map Task.number).trans (List.perm_append_singleton _ _).symm

theorem Ended.numbers {ending : Ending} (ended : Ended s t ending v)
    (nodup : (s.tasks.map Task.number).Nodup) (mem : t ∈ s.tasks) :
    (s.tasks.map Task.number).Perm (t.number :: v.tasks.map Task.number) := by
  rw [ended.tasks]
  exact (others_perm nodup mem).map Task.number

/-- A task that makes a step stays among the tasks or ends. -/
theorem TaskStep.numbers (step : TaskStep s t e v) (nodup : (s.tasks.map Task.number).Nodup)
    (mem : t ∈ s.tasks) : (s.tasks.map Task.number).Perm (v.tasks.map Task.number) ∨
      (s.tasks.map Task.number).Perm (t.number :: v.tasks.map Task.number) := by
  rcases step.goes_or_ends with ⟨t', moved⟩ | ⟨ending, -, ended⟩
  · exact .inl (moved.numbers nodup mem)
  · exact .inr (ended.numbers nodup mem)

end Tasks

/-- Only tasks alive that are not told go on by themselves. -/
theorem Supervised.Admits.spared (admits : r.Admits e) (own : e.number? = some n) :
    n ∉ r.cancelling ∧ n ∉ r.cutOff := by
  cases e with
  | start | answer | wake =>
    cases own
    exact admits
  | inspect | assign | streamEnd | streamFail | finish | cancel => cases own

section Sound
variable {given : List Record}

theorem Sound.tasks_nodup (h : Sound r) (ledger : Ledger limit given r.core) :
    (r.core.tasks.map Task.number).Nodup := ledger.tasks_nodup (.inl h.running)

theorem Sound.ownTask (h : Sound r) (ledger : Ledger limit given r.core) (admits : r.Admits e)
    (ordinary : e.Ordinary) (enabled : r.core.Enabled e) (own : e.number? = some n) :
    Sound (r.next (.own e)) := by
  obtain ⟨t, mem, -, -, rfl, step⟩ := taskStep_of_enabled enabled ordinary own
  have spared := (admits.spared own).2
  have frame := step.frame
  have numbers := step.numbers (h.tasks_nodup ledger) mem
  have back : (r.core.next e).tasks.map Task.number ⊆ r.core.tasks.map Task.number := by
    rcases numbers with all | but
    · exact all.symm.subset
    · exact fun n hn => but.symm.subset (List.mem_cons_of_mem _ hn)
  have alive : (r.next (.own e)).alive ⊆ r.alive := by
    intro n hn
    obtain ⟨task, uncut⟩ := mem_alive.mp hn
    exact mem_alive.mpr ⟨back task, uncut⟩
  refine ⟨frame.status.trans h.running, ?_, h.nodup,
    fun _ hn => List.mem_append_right _ (h.watched (alive hn)), ?_⟩
  · intro n hn
    rcases numbers with all | but
    · exact all.subset (h.known hn)
    · have hne : n ≠ t.number := fun same => spared (same ▸ hn)
      exact (List.mem_cons.mp (but.subset (h.known hn))).resolve_left hne
  · have calmer : Calmer r (r.next (.own e)) :=
      ⟨alive, frame.supply, frame.isReady_eq, fun quiet => quiet, fun _ => rfl⟩
    exact calmer.stands h.stands

/-- The loop over the stream goes on while nobody waits for the tasks. -/
theorem Sound.ownLoop (h : Sound r) (taking : r.phase.isTaking = true)
    (running : (r.core.next e).status = .running)
    (tasks : (r.core.next e).tasks.map Task.number =
      r.core.tasks.map Task.number ++ (r.core.assigned? e).toList.map (·.2))
    (supply : (r.core.next e).supply = r.core.supply) : Sound (r.next (.own e)) := by
  obtain ⟨phase, quiet, uncut, flowing⟩ := h.stands.taking taking
  refine ⟨running, ?_, h.nodup, ?_, ?_⟩
  · show r.cutOff ⊆ _
    rw [uncut]
    exact List.nil_subset _
  · intro n hn
    obtain ⟨task, spared⟩ := mem_alive.mp hn
    replace task : n ∈ (r.core.next e).tasks.map Task.number := task
    rw [tasks] at task
    rcases List.mem_append.mp task with task | fresh
    · exact List.mem_append_right _ (h.watched (mem_alive.mpr ⟨task, spared⟩))
    · exact List.mem_append_left _ fresh
  · show (r.next (.own e)).Stands r.phase
    rw [phase]
    exact ⟨quiet, uncut, supply.trans flowing⟩

theorem Sound.own (h : Sound r) (ledger : Ledger limit given r.core)
    (enabled : r.Enabled (.own e)) : Sound (r.next (.own e)) := by
  obtain ⟨admits, ordinary, enabled⟩ := enabled
  cases e with
  | start | answer | wake => exact h.ownTask ledger admits ordinary enabled rfl
  | inspect record => exact h.ownLoop admits h.running (by simp [State.next, State.assigned?]) rfl
  | assign =>
    obtain ⟨t, waiting⟩ := Option.isSome_iff_exists.mp enabled.2.1
    apply h.ownLoop admits <;> simp [State.next, waiting, h.running, State.assigned?, Task.key]
  | streamEnd | streamFail | finish | cancel => exact admits.elim

theorem Sound.streamEnd (h : Sound r) (taking : r.phase.isTaking = true) :
    Sound (r.next .streamEnd) := by
  obtain ⟨-, quiet, uncut, -⟩ := h.stands.taking taking
  exact ⟨h.running, h.known, h.nodup, h.watched, h.watched, rfl, fun _ => ⟨quiet, uncut⟩⟩

theorem Sound.tell (h : Sound r) (numbers : List Nat) {phase : Phase}
    (stands : (r.tell numbers phase).Stands phase) : Sound (r.tell numbers phase) :=
  ⟨h.running, h.known, h.nodup, h.watched, stands⟩

theorem Sound.clear (h : Sound r) {outcome : Outcome} (due : r.Due outcome) :
    Sound (r.clear outcome) := by
  apply h.tell
  refine ⟨h.watched, ?_⟩
  cases outcome <;> exact due

theorem Sound.cancel (h : Sound r) : Sound r.cancel := by
  unfold Supervised.cancel
  have stands := h.stands
  split
  · exact h.clear trivial
  · next hphase =>
    rw [hphase] at stands
    exact h.tell _ ⟨stands.1, stands.2.1, by simp⟩
  · next hphase =>
    rw [hphase] at stands
    exact h.tell _ ⟨stands.1, trivial⟩
  · exact h

theorem Sound.cutOff (h : Sound r) (told : n ∈ r.cancelling) (alive : n ∈ r.alive) :
    Sound (r.next (.cutOff n)) := by
  obtain ⟨task, uncut⟩ := mem_alive.mp alive
  have fewer : (r.next (.cutOff n)).alive ⊆ r.alive := by
    intro k hk
    obtain ⟨htask, hcut⟩ := mem_alive.mp hk
    exact mem_alive.mpr ⟨htask, fun cut => hcut (List.mem_cons_of_mem _ cut)⟩
  refine ⟨h.running, List.cons_subset.mpr ⟨task, h.known⟩, List.nodup_cons.mpr ⟨uncut, h.nodup⟩,
    List.Subset.trans fewer h.watched, ?_⟩
  have calmer : Calmer r (r.next (.cutOff n)) := by
    refine ⟨fewer, rfl, rfl, fun quiet => quiet, ?_⟩
    rintro (quiet | none)
    · exact absurd (quiet ▸ told) List.not_mem_nil
    · exact absurd (none ▸ alive) List.not_mem_nil
  exact calmer.stands h.stands

theorem Sound.deflect (h : Sound r) : Sound (r.next (.deflect n)) := by
  refine ⟨h.running, h.known, h.nodup, h.watched, ?_⟩
  have calmer : Calmer r (r.next (.deflect n)) :=
    ⟨List.Subset.refl _, rfl, rfl, fun quiet => by simp [Supervised.next, quiet], fun _ => rfl⟩
  exact calmer.stands h.stands

/-- A task that is put away has ended. -/
theorem Sound.putAway (h : Sound r) (ended : n ∉ r.alive) : Sound (r.next (.putAway n)) := by
  refine ⟨h.running, h.known, h.nodup, fun k hk => ?_, ?_⟩
  · have hne : k ≠ n := fun same => ended (same ▸ hk)
    exact List.mem_filter.mpr ⟨h.watched hk, by simpa using hne⟩
  · have calmer : Calmer r (r.next (.putAway n)) :=
      ⟨List.Subset.refl _, rfl, rfl, fun quiet => quiet, fun _ => rfl⟩
    exact calmer.stands h.stands

theorem Supervised.Ended.none {awaited : List Nat} (ended : r.Ended awaited)
    (watched : r.alive ⊆ awaited) : r.alive = [] :=
  List.eq_nil_iff_forall_not_mem.mpr fun n hn => ended n (watched hn) hn

theorem Sound.gathered (h : Sound r) (enabled : r.Enabled .gathered) :
    Sound (r.next .gathered) := by
  have stands := h.stands
  simp only [Supervised.Enabled] at enabled
  simp only [Supervised.next]
  split at enabled
  · next awaited told hphase =>
    rw [hphase] at stands
    obtain ⟨watched, supply, untold⟩ := stands
    rw [hphase, Phase.outcome?]
    cases told with
    | true => exact h.clear trivial
    | false =>
      obtain ⟨-, uncut⟩ := untold rfl
      rcases enabled with ended | ⟨told, -⟩
      · exact h.clear ⟨ended.none watched, uncut, supply⟩
      · cases told
  · exact enabled.elim
  · exact enabled.elim
  · exact enabled.elim

theorem Sound.leave (h : Sound r) (enabled : r.Enabled .leave) : Sound (r.next .leave) := by
  have stands := h.stands
  simp only [Supervised.Enabled] at enabled
  simp only [Supervised.next]
  split at enabled
  · next awaited outcome hphase =>
    rw [hphase] at stands
    rw [hphase, Phase.outcome?]
    refine ⟨h.running, h.known, h.nodup, h.watched, enabled.none stands.1, ?_⟩
    cases outcome <;> exact stands.2
  · exact enabled.elim
  · exact enabled.elim
  · exact enabled.elim

theorem moveStep_sound (h : Sound r) (ledger : Ledger limit given r.core)
    (step : MoveStep r m u) : Sound u := by
  obtain ⟨enabled⟩ := step
  cases m with
  | own => exact h.own ledger enabled
  | streamEnd => exact h.streamEnd enabled.1
  | streamFail => exact h.clear enabled.2
  | cancel => exact h.cancel
  | cutOff => exact h.cutOff enabled.1 enabled.2
  | deflect => exact h.deflect
  | putAway => exact h.putAway enabled.2
  | gathered => exact h.gathered enabled
  | leave => exact h.leave enabled

theorem trace_sound (trace : Trace MoveStep (supervise (start dryRun limit policy)) moves r) :
    Sound r :=
  trace.preserves (P := fun _ r => Sound r) (start_sound dryRun limit policy)
    fun _ _ _ _ earlier h step => moveStep_sound h (trace_ledger (trace_course earlier)) step

end Sound

end Supervision

end Rekey.Migration
