import Rekey.Proofs.Migration.Ledger
import Rekey.Proofs.Trace

/-! # Each migration is a series of attempts

The answers that a task has got from the store decide where it stands: it has made one retry for each
of them, and has ended as a series of attempts with these outcomes ends. No other task's answers come
into it. -/
namespace Rekey.Migration

open Retry (Policy)

/-- A step without cancellation. -/
def OrdinaryStep (s : State) (e : Event) (u : State) : Prop := Step s e u ∧ e.Ordinary

def Event.answer? (number : Nat) : Event → Option (Except Failure Bool)
  | .answer n outcome _ => if n = number then some outcome else none
  | _ => none

def State.started? (s : State) : Event → Option (Record × Nat)
  | .start number => (s.task? number).map Task.key
  | _ => none

def answersTo (number : Nat) (moves : List (State × Event)) : List (Except Failure Bool) :=
  moves.filterMap fun m => m.2.answer? number

def startedIn (moves : List (State × Event)) : List (Record × Nat) :=
  moves.filterMap fun m => m.1.started? m.2

/-- Outcomes, newest first, after each of which a series goes on. -/
def GoneOn (p : Policy Float) : List (Except Failure Bool) → Prop
  | [] => True
  | last :: earlier => p.GoesOn Failure.isTransient earlier.length last ∧ GoneOn p earlier

/-- Outcomes, newest first, with the last of which a series comes to an ending. -/
def Concluded (p : Policy Float) (answers : List (Except Failure Bool)) (ending : Ending) : Prop :=
  ∃ last earlier, answers = last :: earlier ∧ GoneOn p earlier ∧
    ¬ p.GoesOn Failure.isTransient earlier.length last ∧
    ending = .ofOutcome (p.conclusion Failure.isTransient earlier.length last)

/-- The series of attempts whose calls had the outcomes `answers`, newest first. -/
def seriesOf (p : Policy Float) (answers : List (Except Failure Bool)) (fraction : Nat → Float) :
    Retry.Transcript Float Bool Nat :=
  Retry.runOutcomes p Failure.isTransient (fun n => answers.reverse.getD n (.ok false)) fraction

/-- What the answers of the store say about the tasks. -/
structure Attempted (moves : List (State × Event)) (s : State) : Prop where
  pending : ∀ t ∈ s.pending, t.retries = (answersTo t.number moves).length ∧
    GoneOn s.policy (answersTo t.number moves)
  settled : ∀ x ∈ s.settled, Concluded s.policy (answersTo x.number moves) x.ending
  later : ∀ n, s.tally.inspected ≤ n → answersTo n moves = []
  started : (startedIn moves).Perm
    ((s.tasks.filter (·.stage != .created)).map Task.key ++ s.settled.map Settled.key)

theorem answersTo_cons (number : Nat) (m : State × Event) (moves : List (State × Event)) :
    answersTo number (m :: moves) = (m.2.answer? number).toList ++ answersTo number moves := by
  unfold answersTo
  cases h : m.2.answer? number <;> simp [h]

theorem startedIn_cons (m : State × Event) (moves : List (State × Event)) :
    startedIn (m :: moves) = (m.1.started? m.2).toList ++ startedIn moves := by
  unfold startedIn
  cases h : m.1.started? m.2 <;> simp [h]

section GoneOn
variable {p : Policy Float}

theorem GoneOn.getElem? {answers : List (Except Failure Bool)} (h : GoneOn p answers) {i : Nat}
    {outcome : Except Failure Bool} (hi : answers.reverse[i]? = some outcome) :
    p.GoesOn Failure.isTransient i outcome := by
  induction answers with
  | nil => simp at hi
  | cons last earlier ih =>
    rw [List.reverse_cons] at hi
    rcases Nat.lt_trichotomy i earlier.length with hlt | rfl | hgt
    · rw [List.getElem?_append_left (by simpa using hlt)] at hi
      exact ih h.2 hi
    · rw [List.getElem?_append_right (by simp)] at hi
      simp only [List.length_reverse, Nat.sub_self, List.getElem?_cons_zero,
        Option.some.injEq] at hi
      exact hi ▸ h.1
    · rw [List.getElem?_eq_none (by simp; omega)] at hi
      cases hi

/-- A settled record has used up all its answers, and has ended as `Retry.run` ends on them. -/
theorem Concluded.series {answers : List (Except Failure Bool)} {ending : Ending}
    (h : Concluded p answers ending) (fraction : Nat → Float) :
    (seriesOf p answers fraction).calls = answers.length ∧
      ending = .ofOutcome (seriesOf p answers fraction).outcome := by
  obtain ⟨last, earlier, rfl, gone, stops, rfl⟩ := h
  have hlast : (last :: earlier).reverse.getD earlier.length (.ok false) = last := by
    simp [List.getD]
  have hbefore : ∀ i < earlier.length,
      p.GoesOn Failure.isTransient i ((last :: earlier).reverse.getD i (.ok false)) := by
    intro i hi
    have hget : earlier.reverse[i]? = some (earlier.reverse.get ⟨i, by simpa using hi⟩) :=
      List.getElem?_eq_getElem _
    have := gone.getElem? hget
    rwa [List.getD, List.reverse_cons, List.getElem?_append_left (by simpa using hi), hget,
      Option.getD_some]
  obtain ⟨hcalls, houtcome⟩ :=
    Retry.runOutcomes_of_goesOn hbefore (by rwa [hlast]) fraction
  rw [hlast] at houtcome
  exact ⟨by simpa [seriesOf] using hcalls, by rw [seriesOf, houtcome]⟩

end GoneOn

section Preservation
variable {limit : Nat} {given : List Record} {moves : List (State × Event)} {s u : State}
  {t t' : Task}

theorem start_attempted (dryRun : Bool) (limit : Nat) (policy : Policy Float) :
    Attempted [] (start dryRun limit policy) := by
  constructor <;> simp [start, State.pending, answersTo, startedIn]

theorem pending_perm (h : Ledger limit given s) (whole : s.IsWhole) (mem : t ∈ s.tasks) :
    s.pending.Perm (t :: (s.waiting.toList ++ s.others t.number)) :=
  ((others_perm (h.tasks_nodup whole) mem).append_left _).trans List.perm_middle

theorem pending_ne (h : Ledger limit given s) (whole : s.IsWhole) (mem : t ∈ s.tasks)
    (other : t' ∈ s.waiting.toList ++ s.others t.number) : t'.number ≠ t.number := by
  have hnodup := h.numbers_nodup whole
  simp only [State.known, List.map_append, List.map_map] at hnodup
  have hnumbers := (((pending_perm h whole mem).map ((·.2) ∘ Task.key)).nodup_iff).mp
    (List.nodup_append.mp hnodup).1
  exact fun heq => (List.nodup_cons.mp hnumbers).1 (List.mem_map.mpr ⟨t', other, heq⟩)

theorem Moved.mem_pending (moved : Moved s t t' u) (h : Ledger limit given s) (whole : s.IsWhole)
    (mem : t ∈ s.tasks) {x : Task} (hx : x ∈ u.pending) :
    x = t' ∨ (x ∈ s.pending ∧ x.number ≠ t.number) := by
  simp only [State.pending, moved.waiting, moved.tasks, ← List.append_assoc] at hx
  rcases List.mem_append.mp hx with hx | hx
  · exact .inr ⟨(pending_perm h whole mem).mem_iff.mpr (List.mem_cons_of_mem _ hx),
      pending_ne h whole mem hx⟩
  · exact .inl (List.mem_singleton.mp hx)

theorem Ended.mem_pending {ending : Ending} (ended : Ended s t ending u) (h : Ledger limit given s)
    (whole : s.IsWhole) (mem : t ∈ s.tasks) {x : Task} (hx : x ∈ u.pending) :
    x ∈ s.pending ∧ x.number ≠ t.number := by
  simp only [State.pending, ended.waiting, ended.tasks] at hx
  exact ⟨(pending_perm h whole mem).mem_iff.mpr (List.mem_cons_of_mem _ hx),
    pending_ne h whole mem hx⟩

theorem started_perm (h : Ledger limit given s) (whole : s.IsWhole) (mem : t ∈ s.tasks)
    (key : t'.key = t.key) (awake : t'.stage ≠ .created) :
    (((s.others t.number ++ [t']).filter (·.stage != .created)).map Task.key).Perm
      ((if t.stage = .created then [t.key] else []) ++
        (s.tasks.filter (·.stage != .created)).map Task.key) := by
  have hperm := ((others_perm (h.tasks_nodup whole) mem).filter (·.stage != .created)).map Task.key
  rw [List.filter_append, List.map_append,
    show [t'].filter (·.stage != .created) = [t'] by simp [awake], List.map_singleton, key]
  refine (List.perm_append_singleton _ _).trans ?_
  by_cases hc : t.stage = .created
  · rw [List.filter_cons_of_neg (by simp [hc])] at hperm
    rw [if_pos hc]
    exact (hperm.symm.cons _)
  · rw [List.filter_cons_of_pos (by simpa using hc), List.map_cons] at hperm
    rw [if_neg hc]
    exact hperm.symm

theorem Attempted.called (a : Attempted moves s) (h : Ledger limit given s) (whole : s.IsWhole)
    (mem : t ∈ s.tasks) {e : Event} (silent : ∀ n, e.answer? n = none)
    (started : s.started? e = if t.stage = .created then some t.key else none)
    (moved : Moved s t { t with stage := .calling } u) : Attempted ((s, e) :: moves) u := by
  constructor
  · intro x hx
    rw [answersTo_cons, silent, moved.policy]
    rcases moved.mem_pending h whole mem hx with rfl | ⟨hx, -⟩
    · exact a.pending t (mem_pending mem)
    · exact a.pending x hx
  · intro x hx
    rw [moved.settled] at hx
    rw [answersTo_cons, silent, moved.policy]
    exact a.settled x hx
  · intro n hn
    rw [moved.tally] at hn
    rw [answersTo_cons, silent, a.later n hn]
    rfl
  · have hperm := @started_perm _ _ _ _ { t with stage := .calling } h whole mem rfl (by simp)
    rw [startedIn_cons, started, moved.tasks, moved.settled]
    refine List.Perm.trans ?_ (hperm.append_right _).symm
    rw [List.append_assoc]
    refine (a.started.append_left _).trans ?_
    by_cases hc : t.stage = .created <;> simp [hc]

theorem Attempted.paused (a : Attempted moves s) (h : Ledger limit given s) (whole : s.IsWhole)
    (mem : t ∈ s.tasks) (calling : t.stage = .calling) {failure : Failure} {fraction delay : Float}
    (goes : s.policy.GoesOn Failure.isTransient t.retries (.error failure : Except Failure Bool))
    (moved : Moved s t { t with retries := t.retries + 1, stage := .sleeping delay } u) :
    Attempted ((s, .answer t.number (.error failure) fraction) :: moves) u := by
  obtain ⟨hretries, hgone⟩ := a.pending t (mem_pending mem)
  constructor
  · intro x hx
    rw [answersTo_cons, moved.policy]
    rcases moved.mem_pending h whole mem hx with rfl | ⟨hx, hne⟩
    · simp only [Event.answer?, if_true, Option.toList_some, List.singleton_append,
        List.length_cons, GoneOn]
      exact ⟨by rw [hretries], hretries ▸ goes, hgone⟩
    · rw [Event.answer?, if_neg hne.symm]
      exact a.pending x hx
  · intro x hx
    rw [moved.settled] at hx
    rw [answersTo_cons, Event.answer?, moved.policy,
      if_neg (h.settled_ne whole hx (mem_pending mem)).symm]
    exact a.settled x hx
  · intro n hn
    have hlt := h.number_lt whole (mem_pending mem)
    rw [moved.tally] at hn
    rw [answersTo_cons, Event.answer?, if_neg (by omega), a.later n hn]
    rfl
  · have hperm := @started_perm _ _ _ _
      { t with retries := t.retries + 1, stage := .sleeping delay } h whole mem rfl (by simp)
    rw [if_neg (by simp [calling])] at hperm
    rw [startedIn_cons, moved.tasks, moved.settled]
    exact a.started.trans (hperm.append_right _).symm

theorem Attempted.concluded (a : Attempted moves s) (h : Ledger limit given s) (whole : s.IsWhole)
    (mem : t ∈ s.tasks) (calling : t.stage = .calling) {outcome : Except Failure Bool}
    {fraction : Float} (stops : ¬ s.policy.GoesOn Failure.isTransient t.retries outcome)
    (ended : Ended s t (.ofOutcome (s.policy.conclusion Failure.isTransient t.retries outcome)) u) :
    Attempted ((s, .answer t.number outcome fraction) :: moves) u := by
  obtain ⟨hretries, hgone⟩ := a.pending t (mem_pending mem)
  have hinspected : u.tally.inspected = s.tally.inspected := by
    rw [ended.tally, Counter.Tally.plus, (countP_credit _ t.number t.record).1, Nat.add_zero]
  constructor
  · intro x hx
    obtain ⟨hx, hne⟩ := ended.mem_pending h whole mem hx
    rw [answersTo_cons, Event.answer?, if_neg hne.symm, ended.policy]
    exact a.pending x hx
  · intro x hx
    rw [ended.settled] at hx
    rw [answersTo_cons, ended.policy]
    rcases List.mem_cons.mp hx with rfl | hx
    · simp only [Event.answer?, if_true, Option.toList_some, List.singleton_append]
      exact ⟨outcome, _, rfl, hgone, hretries ▸ stops, by rw [hretries]⟩
    · rw [Event.answer?, if_neg (h.settled_ne whole hx (mem_pending mem)).symm]
      exact a.settled x hx
  · intro n hn
    have hlt := h.number_lt whole (mem_pending mem)
    rw [hinspected] at hn
    rw [answersTo_cons, Event.answer?, if_neg (by omega), a.later n hn]
    rfl
  · have hperm := ((others_perm (h.tasks_nodup whole) mem).filter
      (·.stage != .created)).map Task.key
    rw [List.filter_cons_of_pos (by simp [calling]), List.map_cons] at hperm
    rw [startedIn_cons, ended.tasks, ended.settled, List.map_cons]
    refine a.started.trans ((hperm.append_right _).trans ?_)
    exact List.perm_middle.symm

theorem Attempted.of_taskStep (a : Attempted moves s) (h : Ledger limit given s)
    (whole : s.IsWhole) (live : s.dryRun = false) {e : Event} (task : s.task? t.number = some t)
    (step : TaskStep s t e u) : Attempted ((s, e) :: moves) u := by
  have mem := (State.task?_eq_some task).1
  cases step with
  | skip dry => rw [live] at dry; cases dry
  | begin _ created moved =>
    exact a.called h whole mem (fun _ => rfl) (by simp [State.started?, task, created]) moved
  | resume sleeping moved =>
    exact a.called h whole mem (fun _ => rfl) (by simp [State.started?, sleeping]) moved
  | pause calling goes moved => exact a.paused h whole mem calling goes moved
  | conclude calling stops ended => exact a.concluded h whole mem calling stops ended

/-- The events that are not a task's change nothing that tasks have been answered. -/
theorem Attempted.of_pending (a : Attempted moves s) {e : Event}
    (silent : ∀ n, e.answer? n = none) (quiet : s.started? e = none)
    (inspected : s.tally.inspected ≤ u.tally.inspected) (policy : u.policy = s.policy)
    (pending : ∀ t ∈ u.pending, t ∈ s.pending ∨ (t.number = s.tally.inspected ∧ t.retries = 0))
    (awake : u.tasks.filter (·.stage != .created) = s.tasks.filter (·.stage != .created))
    (settled : u.settled = s.settled) : Attempted ((s, e) :: moves) u := by
  have hanswers : ∀ n, answersTo n ((s, e) :: moves) = answersTo n moves := by
    intro n; rw [answersTo_cons, silent]; rfl
  constructor
  · intro t ht
    rw [hanswers, policy]
    rcases pending t ht with ht | ⟨hnumber, hretries⟩
    · exact a.pending t ht
    · rw [a.later _ (Nat.le_of_eq hnumber.symm), hretries]
      exact ⟨rfl, trivial⟩
  · intro x hx
    rw [hanswers, policy]
    exact a.settled x (settled ▸ hx)
  · intro n hn
    rw [hanswers]
    exact a.later n (Nat.le_trans inspected hn)
  · rw [startedIn_cons, quiet, awake, settled]
    exact a.started

theorem step_preserves_attempted (a : Attempted moves s) (h : Ledger limit given s)
    (live : s.dryRun = false) {e : Event} (step : OrdinaryStep s e u) (whole : u.IsWhole) :
    Attempted ((s, e) :: moves) u := by
  obtain ⟨⟨enabled⟩, ordinary⟩ := step
  cases e with
  | inspect record =>
    obtain ⟨running, waiting, -⟩ := State.isReady_iff.mp enabled
    refine a.of_pending (fun _ => rfl) rfl (Nat.le_succ _) rfl ?_ rfl rfl
    intro t ht
    simp only [State.pending, State.next, Option.toList_some, List.mem_append,
      List.mem_singleton] at ht
    rcases ht with rfl | ht
    · exact .inr ⟨rfl, rfl⟩
    · exact .inl (List.mem_append_right _ ht)
  | assign =>
    obtain ⟨t, ht⟩ := Option.isSome_iff_exists.mp enabled.2.1
    have hfresh := (h.fresh t ht).1
    simp only [State.next, ht]
    refine a.of_pending (fun _ => rfl) rfl (Nat.le_refl _) rfl ?_ ?_ rfl
    · intro t' ht'
      refine .inl ?_
      simp only [State.pending, Option.toList_none, List.nil_append] at ht'
      simp only [State.pending, ht, Option.toList_some]
      exact List.perm_append_comm.mem_iff.mp ht'
    · rw [List.filter_append]
      simp [hfresh]
  | start | answer | wake =>
    obtain ⟨t, -, running, ht, -, step⟩ := taskStep_of_enabled enabled ordinary rfl
    exact a.of_taskStep h (.inl running) live ht step
  | streamEnd =>
    exact a.of_pending (fun _ => rfl) rfl (Nat.le_refl _) rfl (fun _ => .inl) rfl rfl
  | streamFail failure => rcases whole with hw | hw <;> cases hw
  | finish =>
    exact a.of_pending (fun _ => rfl) rfl (Nat.le_refl _) rfl (fun _ => .inl) rfl rfl
  | cancel => exact ordinary.elim

def inspectedIn (moves : List (State × Event)) : List Record :=
  (moves.filterMap fun m => m.2.record?).reverse

theorem inspectedIn_cons (m : State × Event) (moves : List (State × Event)) :
    inspectedIn (m :: moves) = inspectedIn moves ++ m.2.record?.toList := by
  unfold inspectedIn
  cases h : m.2.record? <;> simp [h]

theorem trace_settings {dryRun : Bool} {policy : Policy Float}
    (trace : Trace OrdinaryStep (start dryRun limit policy) moves s) :
    Settings (start dryRun limit policy) s := by
  refine trace.preserves (P := fun _ s => Settings (start dryRun limit policy) s)
    ⟨rfl, rfl, rfl⟩ ?_
  intro moves t e u _ h step
  have own := step_settings step.1 step.2
  exact ⟨own.dryRun.trans h.dryRun, own.limit.trans h.limit, own.policy.trans h.policy⟩

theorem trace_ledger {dryRun : Bool} {policy : Policy Float}
    (trace : Trace OrdinaryStep (start dryRun limit policy) moves s) :
    Ledger limit (inspectedIn moves) s := by
  refine trace.preserves (P := fun moves s => Ledger limit (inspectedIn moves) s)
    (start_ledger dryRun limit policy) ?_
  intro moves t e u _ h step
  rw [inspectedIn_cons]
  exact step_preserves_ledger h step.1 step.2

theorem trace_attempted {policy : Policy Float}
    (trace : Trace OrdinaryStep (start false limit policy) moves s) (whole : s.IsWhole) :
    Attempted moves s := by
  refine trace.preserves (P := fun moves s => s.IsWhole → Attempted moves s)
    (fun _ => start_attempted false limit policy) ?_ whole
  intro moves t e u earlier attempted step whole
  have running := State.isRunning_iff.mp (State.running_of_step step.1)
  exact step_preserves_attempted (attempted (.inl running)) (trace_ledger earlier)
    (trace_settings earlier).dryRun step whole

end Preservation

end Rekey.Migration
