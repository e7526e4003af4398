import Rekey.Proofs.Migration.Attempts

/-! # Records that answer for themselves

When the outcome of a call depends on nothing but the key of its record and the number of earlier
calls for that key, and the keys are distinct, each task gets the outcomes of its own record in their
order, whatever the others do. -/
namespace Rekey.Migration

open Retry (Policy)

abbrev Script := String → Nat → Except Failure Bool

def State.callsFor (s : State) (key : String) : Nat := s.calls.countP (·.key = key)

/-- The store answers a call for a key with the outcome due to it. -/
def Event.Scripted (script : Script) (s : State) : Event → Prop
  | .answer number outcome _ =>
    ∀ t, s.task? number = some t → outcome = script t.record.key (s.callsFor t.record.key - 1)
  | _ => True

def ScriptedStep (script : Script) (s : State) (e : Event) (u : State) : Prop :=
  OrdinaryStep s e u ∧ e.Scripted script s

/-- Answers, newest first, that are the first ones of a sequence of outcomes. -/
def AnswersOf (outcomes : Nat → Except Failure Bool) : List (Except Failure Bool) → Prop
  | [] => True
  | last :: earlier => last = outcomes earlier.length ∧ AnswersOf outcomes earlier

/-- The tasks have been called for as often as they were answered, the call under way apart, and the
answers are those of their keys. -/
structure Called (script : Script) (given : List Record) (moves : List (State × Event))
    (s : State) : Prop where
  pending : ∀ t ∈ s.pending, s.callsFor t.record.key =
      (answersTo t.number moves).length + (if t.stage = .calling then 1 else 0) ∧
    AnswersOf (script t.record.key) (answersTo t.number moves)
  settled : ∀ x ∈ s.settled, s.callsFor x.record.key = (answersTo x.number moves).length ∧
    AnswersOf (script x.record.key) (answersTo x.number moves)
  unknown : ∀ key, key ∉ given.map (·.key) → s.callsFor key = 0

theorem AnswersOf.getElem? {outcomes : Nat → Except Failure Bool}
    {answers : List (Except Failure Bool)} (h : AnswersOf outcomes answers) {i : Nat}
    (hi : i < answers.length) : answers.reverse[i]? = some (outcomes i) := by
  induction answers with
  | nil => cases hi
  | cons last earlier ih =>
    rw [List.reverse_cons]
    rcases Nat.lt_or_eq_of_le (Nat.le_of_lt_succ hi) with hlt | rfl
    · rw [List.getElem?_append_left (by simpa using hlt)]
      exact ih h.2 hlt
    · rw [List.getElem?_append_right (by simp)]
      simp [h.1]

section Preservation
variable {script : Script} {limit : Nat} {given : List Record} {moves : List (State × Event)}
  {s u : State} {t : Task}

theorem callsFor_called {record : Record} (calls : u.calls = record :: s.calls) (key : String) :
    u.callsFor key = s.callsFor key + if record.key = key then 1 else 0 := by
  unfold State.callsFor
  rw [calls, List.countP_cons]
  simp

theorem callsFor_same (calls : u.calls = s.calls) (key : String) :
    u.callsFor key = s.callsFor key := by
  unfold State.callsFor; rw [calls]

theorem Ledger.number_of_key (h : Ledger limit given s) (whole : s.IsWhole)
    (distinct : (given.map (·.key)).Nodup) {k k' : Record × Nat} (hk : k ∈ s.known)
    (hk' : k' ∈ s.known) (same : k.1.key = k'.1.key) : k.2 = k'.2 := by
  have hget := h.known_lt whole hk
  have hget' := h.known_lt whole hk'
  obtain ⟨hlt, hi⟩ := List.getElem?_eq_some_iff.mp hget
  obtain ⟨hlt', hi'⟩ := List.getElem?_eq_some_iff.mp hget'
  have hkeys : (given.map (·.key)).get ⟨k.2, by simpa using hlt⟩ =
      (given.map (·.key)).get ⟨k'.2, by simpa using hlt'⟩ := by
    simp [hi, hi', same]
  exact congrArg Fin.val (distinct.injective_get hkeys)

theorem pending_key_ne (h : Ledger limit given s) (whole : s.IsWhole)
    (distinct : (given.map (·.key)).Nodup) (mem : t ∈ s.tasks) {x : Task} (hx : x ∈ s.pending)
    (other : x.number ≠ t.number) : t.record.key ≠ x.record.key := by
  intro same
  exact other (h.number_of_key whole distinct (pending_known (mem_pending mem))
    (pending_known hx) same).symm

theorem settled_key_ne (h : Ledger limit given s) (whole : s.IsWhole)
    (distinct : (given.map (·.key)).Nodup) (mem : t ∈ s.tasks) {x : Settled}
    (hx : x ∈ s.settled) : t.record.key ≠ x.record.key := by
  intro same
  exact h.settled_ne whole hx (mem_pending mem) (h.number_of_key whole distinct
    (pending_known (mem_pending mem)) (settled_known hx) same).symm

theorem key_mem_given (h : Ledger limit given s) (whole : s.IsWhole) (ht : t ∈ s.pending) :
    t.record.key ∈ given.map (·.key) := by
  have hget := h.known_lt whole (pending_known ht)
  exact List.mem_map_of_mem (List.mem_of_getElem? hget)

theorem Called.called (c : Called script given moves s) (h : Ledger limit given s)
    (whole : s.IsWhole) (distinct : (given.map (·.key)).Nodup) (mem : t ∈ s.tasks) {e : Event}
    (silent : ∀ n, e.answer? n = none) (idle : t.stage ≠ .calling)
    (moved : Moved s t { t with stage := .calling } u) (calls : u.calls = t.record :: s.calls) :
    Called script given ((s, e) :: moves) u := by
  have hanswers : ∀ n, answersTo n ((s, e) :: moves) = answersTo n moves := by
    intro n; rw [answersTo_cons, silent]; rfl
  constructor
  · intro x hx
    rw [hanswers, callsFor_called calls]
    rcases moved.mem_pending h whole mem hx with rfl | ⟨hx, hne⟩
    · have hpending := c.pending t (mem_pending mem)
      rw [if_neg idle] at hpending
      exact ⟨by simp [hpending.1], hpending.2⟩
    · rw [if_neg (pending_key_ne h whole distinct mem hx hne)]
      exact c.pending x hx
  · intro x hx
    rw [moved.settled] at hx
    rw [hanswers, callsFor_called calls, if_neg (settled_key_ne h whole distinct mem hx)]
    exact c.settled x hx
  · intro key hkey
    have hne : t.record.key ≠ key := by
      rintro rfl
      exact hkey (key_mem_given h whole (mem_pending mem))
    rw [callsFor_called calls, if_neg hne, c.unknown key hkey]

/-- The answer that a calling task gets by the script is the next one of its key. -/
theorem Called.answered (c : Called script given moves s) (mem : t ∈ s.tasks)
    (task : s.task? t.number = some t) (calling : t.stage = .calling)
    {outcome : Except Failure Bool} {fraction : Float}
    (scripted : (Event.answer t.number outcome fraction).Scripted script s) :
    s.callsFor t.record.key = (outcome :: answersTo t.number moves).length ∧
      AnswersOf (script t.record.key) (outcome :: answersTo t.number moves) := by
  obtain ⟨hcalls, hanswers⟩ := c.pending t (mem_pending mem)
  rw [if_pos calling] at hcalls
  have houtcome := scripted t task
  rw [hcalls, Nat.add_sub_cancel] at houtcome
  exact ⟨hcalls, houtcome, hanswers⟩

theorem Called.paused (c : Called script given moves s) (h : Ledger limit given s)
    (whole : s.IsWhole) (mem : t ∈ s.tasks) {failure : Failure} {fraction delay : Float}
    (answered : s.callsFor t.record.key = ((.error failure) :: answersTo t.number moves).length ∧
      AnswersOf (script t.record.key) ((.error failure) :: answersTo t.number moves))
    (moved : Moved s t { t with retries := t.retries + 1, stage := .sleeping delay } u)
    (calls : u.calls = s.calls) :
    Called script given ((s, .answer t.number (.error failure) fraction) :: moves) u := by
  refine ⟨?_, ?_, fun key hkey => (callsFor_same calls key).trans (c.unknown key hkey)⟩
  · intro x hx
    rw [answersTo_cons, callsFor_same calls]
    rcases moved.mem_pending h whole mem hx with rfl | ⟨hx, hne⟩
    · simp only [Event.answer?, if_true, Option.toList_some, List.singleton_append, reduceCtorEq,
        if_false, Nat.add_zero]
      exact answered
    · rw [Event.answer?, if_neg hne.symm]
      exact c.pending x hx
  · intro x hx
    rw [moved.settled] at hx
    rw [answersTo_cons, Event.answer?, callsFor_same calls,
      if_neg (h.settled_ne whole hx (mem_pending mem)).symm]
    exact c.settled x hx

theorem Called.concluded (c : Called script given moves s) (h : Ledger limit given s)
    (whole : s.IsWhole) (mem : t ∈ s.tasks) {outcome : Except Failure Bool} {fraction : Float}
    {ending : Ending}
    (answered : s.callsFor t.record.key = (outcome :: answersTo t.number moves).length ∧
      AnswersOf (script t.record.key) (outcome :: answersTo t.number moves))
    (ended : Ended s t ending u) (calls : u.calls = s.calls) :
    Called script given ((s, .answer t.number outcome fraction) :: moves) u := by
  refine ⟨?_, ?_, fun key hkey => (callsFor_same calls key).trans (c.unknown key hkey)⟩
  · intro x hx
    obtain ⟨hx, hne⟩ := ended.mem_pending h whole mem hx
    rw [answersTo_cons, Event.answer?, callsFor_same calls, if_neg hne.symm]
    exact c.pending x hx
  · intro x hx
    rw [ended.settled] at hx
    rw [answersTo_cons, callsFor_same calls]
    rcases List.mem_cons.mp hx with rfl | hx
    · simp only [Event.answer?, if_true, Option.toList_some, List.singleton_append]
      exact answered
    · rw [Event.answer?, if_neg (h.settled_ne whole hx (mem_pending mem)).symm]
      exact c.settled x hx

theorem Called.of_taskStep (c : Called script given moves s) (h : Ledger limit given s)
    (whole : s.IsWhole) (distinct : (given.map (·.key)).Nodup) (live : s.dryRun = false)
    {e : Event} (task : s.task? t.number = some t) (scripted : e.Scripted script s)
    (step : TaskStep s t e u) : Called script given ((s, e) :: moves) u := by
  have mem := (State.task?_eq_some task).1
  cases step with
  | skip dry => rw [live] at dry; cases dry
  | begin _ created moved calls =>
    exact c.called h whole distinct mem (fun _ => rfl) (by simp [created]) moved calls
  | resume sleeping moved calls =>
    exact c.called h whole distinct mem (fun _ => rfl) (by simp [sleeping]) moved calls
  | pause calling _ moved calls =>
    exact c.paused h whole mem (c.answered mem task calling scripted) moved calls
  | conclude calling _ ended calls =>
    exact c.concluded h whole mem (c.answered mem task calling scripted) ended calls

theorem Called.of_pending (c : Called script given moves s) {e : Event} {given' : List Record}
    (silent : ∀ n, e.answer? n = none) (more : given ⊆ given') (calls : u.calls = s.calls)
    (pending : ∀ t ∈ u.pending, t ∈ s.pending ∨
      (t.stage = .created ∧ answersTo t.number moves = [] ∧ s.callsFor t.record.key = 0))
    (settled : u.settled = s.settled) : Called script given' ((s, e) :: moves) u := by
  have hanswers : ∀ n, answersTo n ((s, e) :: moves) = answersTo n moves := by
    intro n; rw [answersTo_cons, silent]; rfl
  refine ⟨?_, ?_, fun key hkey => ?_⟩
  · intro t ht
    rw [hanswers, callsFor_same calls]
    rcases pending t ht with ht | ⟨hstage, hnone, hcalls⟩
    · exact c.pending t ht
    · rw [hnone, hcalls, if_neg (by simp [hstage])]
      exact ⟨rfl, trivial⟩
  · intro x hx
    rw [hanswers, callsFor_same calls]
    exact c.settled x (settled ▸ hx)
  · rw [callsFor_same calls]
    exact c.unknown key fun hmem => hkey (List.map_subset _ more hmem)

theorem step_preserves_called (c : Called script given moves s) (h : Ledger limit given s)
    (a : Attempted moves s) (live : s.dryRun = false) {e : Event}
    (step : ScriptedStep script s e u) (whole : u.IsWhole)
    (distinct : ((given ++ e.record?.toList).map (·.key)).Nodup) :
    Called script (given ++ e.record?.toList) ((s, e) :: moves) u := by
  obtain ⟨⟨⟨enabled⟩, ordinary⟩, scripted⟩ := step
  have hdistinct : (given.map (·.key)).Nodup := by
    rw [List.map_append] at distinct
    exact (List.nodup_append.mp distinct).1
  cases e with
  | inspect record =>
    obtain ⟨running, waiting, -⟩ := State.isReady_iff.mp enabled
    refine c.of_pending (fun _ => rfl) (List.subset_append_left _ _) rfl (fun t ht => ?_) rfl
    simp only [State.pending, State.next, Option.toList_some, List.mem_append,
      List.mem_singleton] at ht
    rcases ht with rfl | ht
    · refine .inr ⟨rfl, a.later _ (Nat.le_refl _), c.unknown _ fun hmem => ?_⟩
      rw [Event.record?, Option.toList_some, List.map_append, List.map_singleton] at distinct
      exact (List.nodup_append.mp distinct).2.2 _ hmem _ (List.mem_singleton_self _) rfl
    · exact .inl (List.mem_append_right _ ht)
  | assign =>
    obtain ⟨t, ht⟩ := Option.isSome_iff_exists.mp enabled.2.1
    simp only [State.next, ht]
    refine c.of_pending (fun _ => rfl) (List.subset_append_left _ _) rfl (fun t' ht' => ?_) rfl
    refine .inl ?_
    simp only [State.pending, Option.toList_none, List.nil_append] at ht'
    simp only [State.pending, ht, Option.toList_some]
    exact List.perm_append_comm.mem_iff.mp ht'
  | start | answer | wake =>
    obtain ⟨t, -, running, ht, -, step⟩ := taskStep_of_enabled enabled ordinary rfl
    simpa [Event.record?] using c.of_taskStep h (.inl running) hdistinct live ht scripted step
  | streamEnd =>
    exact c.of_pending (fun _ => rfl) (List.subset_append_left _ _) rfl (fun _ => .inl) rfl
  | streamFail failure => rcases whole with hw | hw <;> cases hw
  | finish =>
    exact c.of_pending (fun _ => rfl) (List.subset_append_left _ _) rfl (fun _ => .inl) rfl
  | cancel => exact ordinary.elim

theorem start_called (script : Script) (dryRun : Bool) (limit : Nat) (policy : Policy Float) :
    Called script [] [] (start dryRun limit policy) := by
  constructor <;> simp [start, State.pending, State.callsFor]

theorem trace_called {policy : Policy Float}
    (trace : Trace (ScriptedStep script) (start false limit policy) moves s) (whole : s.IsWhole)
    (distinct : ((inspectedIn moves).map (·.key)).Nodup) :
    Called script (inspectedIn moves) moves s := by
  refine trace.preserves (P := fun moves s => s.IsWhole →
      ((inspectedIn moves).map (·.key)).Nodup → Called script (inspectedIn moves) moves s)
    (fun _ _ => start_called script false limit policy) ?_ whole distinct
  intro moves t e u earlier called step whole distinct
  have running := State.isRunning_iff.mp (State.running_of_step step.1.1)
  have hown := earlier.mono fun _ _ _ step => step.1
  rw [inspectedIn_cons] at distinct ⊢
  refine step_preserves_called (called (.inl running) ?_) (trace_ledger hown)
    (trace_attempted hown (.inl running)) (trace_settings hown).dryRun step whole distinct
  rw [List.map_append] at distinct
  exact (List.nodup_append.mp distinct).1

end Preservation

end Rekey.Migration
