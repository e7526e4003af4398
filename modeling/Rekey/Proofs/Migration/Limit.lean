import Rekey.Proofs.Migration.Slots
import Rekey.Proofs.Trace

/-! # The limit on migrations under way

A task has at most one call outstanding, so calls, pauses and tasks about to start together keep to
the slots. Calls are counted over the whole history: one that is broken off has begun and never
ends. -/
namespace Rekey.Migration

open Retry (Policy)

/-- Whether an act calls the store for the record of a number. -/
def State.makesCall (s : State) (number : Nat) : Act → Bool
  | .event (.start n) => n == number && !s.dryRun
  | .event (.wake n) => n == number
  | .event _ | .pauseFails .. => false

def Act.endsCall (number : Nat) : Act → Bool
  | .event (.answer n ..) => n == number
  | .event _ | .pauseFails .. => false

def callsMade (number : Nat) (moves : List (State × Act)) : Nat :=
  moves.countP fun m => m.1.makesCall number m.2

def callsEnded (number : Nat) (moves : List (State × Act)) : Nat :=
  moves.countP fun m => m.2.endsCall number

def Task.hasCall (number : Nat) (t : Task) : Bool := t.number == number && t.stage matches .calling

def State.outstanding (s : State) (number : Nat) : Nat := s.calling.countP (·.number == number)

/-- The tasks that have not started. -/
def State.unstarted (s : State) : List Task := s.tasks.filter (·.stage matches .created)

/-- The migrations keep their limit in a state reached by `moves`: on the records under way, on the
calls for one record, on the slots and on the records that are inspected ahead. -/
structure WithinLimit (limit : Nat) (moves : List (State × Act)) (s : State) : Prop where
  under_way : s.calling.length + s.sleeping.length + s.unstarted.length ≤ limit
  distinct : (s.calling.map Task.number).Nodup
  once : ∀ number, callsMade number moves ≤ callsEnded number moves + 1
  outstanding : s.IsWhole → ∀ number,
    callsMade number moves = callsEnded number moves + s.outstanding number
  slots : s.IsWhole → s.free + s.tasks.length = limit
  ahead : s.tally.inspected ≤ s.settled.length + limit + 1

theorem callsMade_cons (number : Nat) (m : State × Act) (moves : List (State × Act)) :
    callsMade number (m :: moves) =
      callsMade number moves + if m.1.makesCall number m.2 then 1 else 0 := by
  unfold callsMade
  rw [List.countP_cons]

theorem callsEnded_cons (number : Nat) (m : State × Act) (moves : List (State × Act)) :
    callsEnded number (m :: moves) =
      callsEnded number moves + if m.2.endsCall number then 1 else 0 := by
  unfold callsEnded
  rw [List.countP_cons]

section Outstanding
variable {limit : Nat} {s u : State} {t t' : Task}

theorem outstanding_eq (s : State) (number : Nat) :
    s.outstanding number = s.tasks.countP (Task.hasCall number) := by
  unfold State.outstanding State.calling
  rw [List.countP_filter]
  rfl

theorem Slots.outstanding_le_one (h : Slots limit s) (number : Nat) :
    s.outstanding number ≤ 1 := by
  have hcount := List.nodup_iff_count_le_one.mp h.tasks_nodup number
  rw [List.count, List.countP_map] at hcount
  rw [outstanding_eq]
  refine Nat.le_trans ?_ hcount
  apply List.countP_mono_left
  intro t _ ht
  exact (Bool.and_eq_true_iff.mp ht).1

/-- The calls under way are those of a task and those of all others. -/
theorem Slots.outstanding_split (h : Slots limit s) (mem : t ∈ s.tasks) (number : Nat) :
    s.outstanding number = (s.others t.number).countP (Task.hasCall number) +
      if t.hasCall number then 1 else 0 := by
  rw [outstanding_eq, (others_perm h.tasks_nodup mem).countP_eq, List.countP_cons]

theorem outstanding_moved (moved : Moved s t t' u) (number : Nat) :
    u.outstanding number = (s.others t.number).countP (Task.hasCall number) +
      if t'.hasCall number then 1 else 0 := by
  rw [outstanding_eq, moved.tasks, List.countP_append, List.countP_singleton]

theorem outstanding_ended {ending : Ending} (ended : Ended s t ending u) (number : Nat) :
    u.outstanding number = (s.others t.number).countP (Task.hasCall number) := by
  rw [outstanding_eq, ended.tasks]

/-- An act begins one call, ends one or neither, unless it breaks the migrations off. -/
def CallsBalanced (s : State) (a : Act) (u : State) : Prop := ∀ number,
  (if s.makesCall number a then 1 else 0) + s.outstanding number =
    (if a.endsCall number then 1 else 0) + u.outstanding number

theorem Slots.taskAct_balanced (h : Slots limit s) (mem : t ∈ s.tasks) {a : Act}
    (act : TaskAct s t a u) (whole : u.IsWhole) : CallsBalanced s a u := by
  intro number
  rw [h.outstanding_split mem]
  have hcut : ∀ {u}, CutShort s t u → u.IsWhole →
      u.outstanding number = (s.others t.number).countP (Task.hasCall number) := by
    rintro u ⟨v, ended, rfl | rfl⟩ whole
    · exact outstanding_ended ended number
    · rcases whole with whole | whole <;> cases whole
  cases act with
  | step step =>
    cases step with
    | skip dry created ended =>
      rw [outstanding_ended ended]
      simp [State.makesCall, Act.endsCall, Task.hasCall, dry, created]
    | begin live created moved =>
      rw [outstanding_moved moved]
      simp [State.makesCall, Act.endsCall, Task.hasCall, live, created, Nat.add_comm]
    | resume sleeping moved =>
      rw [outstanding_moved moved]
      simp [State.makesCall, Act.endsCall, Task.hasCall, sleeping, Nat.add_comm]
    | pause calling _ moved =>
      rw [outstanding_moved moved]
      simp [State.makesCall, Act.endsCall, Task.hasCall, calling, Nat.add_comm]
    | conclude calling _ ended =>
      rw [outstanding_ended ended]
      simp [State.makesCall, Act.endsCall, Task.hasCall, calling, Nat.add_comm]
  | cut calling cut =>
    rw [hcut cut whole]
    simp [State.makesCall, Act.endsCall, Task.hasCall, calling, Nat.add_comm]
  | pauseFails sleeping ended =>
    have : u.outstanding number = (s.others t.number).countP (Task.hasCall number) := by
      rcases ended with ended | cut
      · exact outstanding_ended ended number
      · exact hcut cut whole
    rw [this]
    simp [State.makesCall, Act.endsCall, Task.hasCall, sleeping]

theorem Slots.balanced (h : Slots limit s) {a : Act} (step : ActStep s a u) (whole : u.IsWhole) :
    CallsBalanced s a u := by
  cases a with
  | pauseFails =>
    obtain ⟨t, mem, -, act⟩ := taskAct_of_step step rfl
    exact h.taskAct_balanced mem act whole
  | event e =>
    cases e with
    | start | answer | wake =>
      obtain ⟨t, mem, -, act⟩ := taskAct_of_step step rfl
      exact h.taskAct_balanced mem act whole
    | assign =>
      obtain ⟨⟨-, waiting, -⟩⟩ := step
      obtain ⟨t, ht⟩ := Option.isSome_iff_exists.mp waiting
      have hcreated := h.fresh t ht
      intro number
      simp [State.makesCall, Act.endsCall, outstanding_eq, State.next, ht, Task.hasCall, hcreated]
    | inspect | streamEnd | finish =>
      obtain ⟨⟨-⟩⟩ := step
      exact fun _ => rfl
    | streamFail | cancel =>
      obtain ⟨⟨-⟩⟩ := step
      rcases whole with whole | whole <;> cases whole

/-- An act that breaks the migrations off calls nobody. -/
theorem makesCall_of_broken {a : Act} (step : ActStep s a u) (broken : ¬ u.IsWhole) (number : Nat) :
    s.makesCall number a = false := by
  cases a with
  | pauseFails => rfl
  | event e =>
    cases e with
    | inspect | assign | answer | streamEnd | streamFail | finish | cancel => rfl
    | start | wake =>
      obtain ⟨t, -, running, act⟩ := taskAct_of_step step rfl
      cases act with
      | step act => exact absurd (.inl (act.frame.status.trans running)) broken

end Outstanding

section Limit
variable {dryRun : Bool} {limit : Nat} {policy : Policy Float} {moves : List (State × Act)}
  {s : State}

theorem stages_length (s : State) :
    s.calling.length + s.sleeping.length + s.unstarted.length = s.tasks.length := by
  unfold State.calling State.sleeping State.unstarted
  induction s.tasks with
  | nil => rfl
  | cons t tasks ih =>
    simp only [List.length_cons]
    cases h : t.stage <;> simp [h] <;> omega

theorem trace_slots (trace : Trace ActStep (start dryRun limit policy) moves s) : Slots limit s :=
  (trace.strengthen (start_slots dryRun limit policy)
    fun _ _ _ slots step => ⟨act_preserves_slots slots step, step⟩).2

theorem whole_of_step {a : Act} {u : State} (step : ActStep s a u) : s.IsWhole := by
  cases step with
  | event step => exact .inl (State.isRunning_iff.mp (State.running_of_step step))
  | pauseFails running => exact .inl (State.isRunning_iff.mp running)

/-- Calls made are answered or under way, as long as none is broken off. -/
theorem trace_calls (trace : Trace ActStep (start dryRun limit policy) moves s) (number : Nat) :
    (s.IsWhole → callsMade number moves = callsEnded number moves + s.outstanding number) ∧
      callsMade number moves ≤ callsEnded number moves + 1 := by
  induction trace with
  | nil => exact ⟨fun _ => rfl, Nat.zero_le _⟩
  | @snoc moves s u a earlier step ih =>
    have exact := ih.1 (whole_of_step step)
    have slots := trace_slots earlier
    rw [callsMade_cons, callsEnded_cons]
    dsimp only
    by_cases whole : u.IsWhole
    · have balanced := slots.balanced step whole number
      have hone := (act_preserves_slots slots step).outstanding_le_one number
      exact ⟨fun _ => by omega, by omega⟩
    · have hone := slots.outstanding_le_one number
      rw [makesCall_of_broken step whole number]
      refine ⟨fun h => absurd h whole, ?_⟩
      simp only [Bool.false_eq_true, if_false]
      omega

theorem migrations_within_limit
    (trace : Trace ActStep (start dryRun limit policy) moves s) : WithinLimit limit moves s := by
  have slots := trace_slots trace
  constructor
  · rw [stages_length]
    exact slots.limited
  · exact slots.tasks_nodup.sublist (List.filter_sublist.map Task.number)
  · exact fun number => (trace_calls trace number).2
  · exact fun whole number => (trace_calls trace number).1 whole
  · exact slots.balance
  · exact slots.behind

theorem trace_acts {s t : State} {moves : List (State × Event)} (trace : Trace Step s moves t) :
    Trace ActStep s (moves.map fun m => (m.1, .event m.2)) t := by
  induction trace with
  | nil => exact .nil
  | snoc _ step ih => exact ih.snoc (.event step)

/-- With one slot, held through a pause, and a second record that waits for it. -/
def crowdedEvents : List Event :=
  let busy := .error (.transient "busy" none)
  [.inspect ⟨"bob", ⟨"hash", "salt"⟩, 5⟩, .answer 0 busy 0, .start 0, .assign,
    .inspect ⟨"ada", ⟨"hash", "salt"⟩, 5⟩]

def crowded : State := Trace.reached State.next (start false 1 ⟨2, 1, 1, none, 0⟩) crowdedEvents

theorem crowded_within_limit : ∃ moves,
    Trace ActStep (start false 1 ⟨2, 1, 1, none, 0⟩) moves crowded ∧
      crowded.sleeping.length = 1 ∧ crowded.tally.inspected = crowded.settled.length + 1 + 1 ∧
      WithinLimit 1 moves crowded := by
  have trace : Trace Step (start false 1 ⟨2, 1, 1, none, 0⟩)
      (Trace.replay State.next (start false 1 ⟨2, 1, 1, none, 0⟩) crowdedEvents) crowded := by
    apply Trace.of_replays State.next
    refine ⟨⟨?_⟩, ⟨?_⟩, ⟨?_⟩, ⟨?_⟩, ⟨?_⟩, trivial⟩
    all_goals decide +kernel
  exact ⟨_, trace_acts trace, by decide +kernel, by decide +kernel,
    migrations_within_limit (trace_acts trace)⟩

end Limit

end Rekey.Migration
