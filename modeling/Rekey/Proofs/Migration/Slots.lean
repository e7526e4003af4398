import Rekey.Proofs.Migration.Ledger

/-! # Slots

Every slot is free or held by an unfinished task until the migrations are broken off, and records
inspected are settled, hold a slot or wait for one. This holds whatever the stream gives, whatever
the store answers, a cancellation included, and however long the tasks pause or their pauses fail.
-/
namespace Rekey.Migration

open Counter (Tally)
open Retry (Policy)

def Act.number? : Act → Option Nat
  | .event e => e.number?
  | .pauseFails number _ => some number

/-- A cancellation is raised in a task, which ends; if no more records can come, it ends
everything. -/
def CutShort (s : State) (t : Task) (u : State) : Prop :=
  ∃ v, Ended s t .cutOff v ∧ (u = v ∨ u = v.abort .cancelled)

inductive TaskAct (s : State) (t : Task) : Act → State → Prop where
  | step {e : Event} {u : State} : TaskStep s t e u → TaskAct s t (.event e) u
  | cut {u : State} {failure : Failure} {fraction : Float} : t.stage = .calling →
    CutShort s t u → TaskAct s t (.event (.answer t.number (.error failure) fraction)) u
  | pauseFails {u : State} {failure : Failure} {delay : Float} : t.stage = .sleeping delay →
    Ended s t (.abandoned failure) u ∨ CutShort s t u → TaskAct s t (.pauseFails t.number failure) u

/-- What is true of the slots, the tasks and the counters at any time. -/
structure Slots (limit : Nat) (s : State) : Prop where
  numbers : (s.pending.map Task.number).Nodup
  number_lt : ∀ t ∈ s.pending, t.number < s.tally.inspected
  balance : s.IsWhole → s.free + s.tasks.length = limit
  limited : s.tasks.length ≤ limit
  account : s.IsWhole → s.tally.inspected = s.settled.length + s.pending.length
  settled_le : s.settled.length + s.pending.length ≤ s.tally.inspected
  behind : s.tally.inspected ≤ s.settled.length + limit + 1
  counted : s.tally.migrated + s.tally.abandoned ≤ s.settled.length
  broken : ¬ s.IsWhole → s.pending = []
  fresh : ∀ t, s.waiting = some t → t.stage = .created

section Steps
variable {limit : Nat} {s u : State} {t : Task}

theorem start_slots (dryRun : Bool) (limit : Nat) (policy : Policy Float) :
    Slots limit (start dryRun limit policy) := by
  constructor <;> simp [start, Tally.zero, State.pending]

theorem fail_cutShort (s : State) (t : Task) {failure : Failure}
    (cancels : failure.isOrdinary = false) (fraction : Float) :
    CutShort s t (s.fail t failure fraction) := by
  refine ⟨s.settle t .cutOff, (settle_ended s t .cutOff rfl rfl).1, ?_⟩
  unfold State.fail
  simp only [cancels, Bool.false_eq_true, if_false]
  split
  · exact .inr rfl
  · exact .inl rfl

theorem failPause_act {delay : Float} (sleeping : t.stage = .sleeping delay) (failure : Failure) :
    TaskAct s t (.pauseFails t.number failure) (s.failPause t failure) := by
  apply TaskAct.pauseFails sleeping
  unfold State.failPause
  by_cases ordinary : failure.isOrdinary = true
  · rw [if_pos ordinary]
    exact .inl ⟨⟨rfl, rfl, rfl, rfl, rfl, rfl⟩, rfl, rfl, rfl, rfl, rfl⟩
  · rw [if_neg ordinary]
    exact .inr (fail_cutShort s t (Bool.eq_false_iff.mpr ordinary) 0)

/-- An act of a task that can happen is one of a task under way. -/
theorem taskAct_of_step {a : Act} {number : Nat} (step : ActStep s a u)
    (own : a.number? = some number) : ∃ t ∈ s.tasks, s.status = .running ∧ TaskAct s t a u := by
  cases step with
  | pauseFails running known sleeping =>
    exact ⟨_, (State.task?_eq_some known).1, State.isRunning_iff.mp running,
      failPause_act sleeping _⟩
  | @event _ e step =>
    obtain ⟨enabled⟩ := step
    by_cases ordinary : e.Ordinary
    · obtain ⟨t, mem, running, -, -, step⟩ := taskStep_of_enabled enabled ordinary own
      exact ⟨t, mem, running, .step step⟩
    · -- Only an answer is an act of a task and not ordinary.
      match e, enabled, ordinary with
      | .answer number (.error failure) fraction, enabled, ordinary =>
        obtain ⟨t, ht, hstage⟩ := State.stageIs_iff.mp enabled.2
        obtain ⟨mem, rfl⟩ := State.task?_eq_some ht
        have calling : t.stage = .calling := by revert hstage; cases t.stage <;> simp
        refine ⟨t, mem, State.isRunning_iff.mp enabled.1, ?_⟩
        simp only [State.next, ht]
        exact .cut calling (fail_cutShort s t (Bool.eq_false_iff.mpr ordinary) fraction)
      | .answer _ (.ok _) _, _, ordinary => exact absurd trivial ordinary
      | .start _, _, ordinary => exact absurd trivial ordinary
      | .wake _, _, ordinary => exact absurd trivial ordinary
      | .cancel, _, _ => cases own

theorem Slots.tasks_nodup (h : Slots limit s) : (s.tasks.map Task.number).Nodup := by
  have hnumbers := h.numbers
  rw [State.pending, List.map_append] at hnumbers
  exact (List.nodup_append.mp hnumbers).2.1

theorem Slots.pending_perm (h : Slots limit s) (mem : t ∈ s.tasks) :
    s.pending.Perm (t :: (s.waiting.toList ++ s.others t.number)) :=
  ((others_perm h.tasks_nodup mem).append_left _).trans List.perm_middle

theorem Slots.of_moved (h : Slots limit s) {t' : Task} (mem : t ∈ s.tasks)
    (moved : Moved s t t' u) : Slots limit u := by
  have hperm : (u.pending.map Task.number).Perm (s.pending.map Task.number) := by
    refine List.Perm.trans ?_ ((h.pending_perm mem).map _).symm
    rw [State.pending, moved.waiting, moved.tasks, ← List.append_assoc, List.map_append,
      List.map_singleton, moved.number]
    exact List.perm_append_singleton _ _
  have hlength : u.pending.length = s.pending.length := by simpa using hperm.length_eq
  have htasks : u.tasks.length = s.tasks.length := by
    rw [moved.tasks, (others_perm h.tasks_nodup mem).length_eq]
    simp
  have hwhole := moved.isWhole_iff
  constructor
  · exact hperm.nodup_iff.mpr h.numbers
  · intro x hx
    obtain ⟨y, hy, hxy⟩ := List.mem_map.mp (hperm.mem_iff.mp (List.mem_map_of_mem hx))
    rw [moved.tally, ← hxy]
    exact h.number_lt y hy
  · rw [hwhole, moved.free, htasks]
    exact h.balance
  · rw [htasks]
    exact h.limited
  · rw [hwhole, moved.tally, moved.settled, hlength]
    exact h.account
  · rw [moved.tally, moved.settled, hlength]
    exact h.settled_le
  · rw [moved.tally, moved.settled]
    exact h.behind
  · rw [moved.tally, moved.settled]
    exact h.counted
  · intro broken
    have := h.broken (mt hwhole.mpr broken)
    rw [← List.length_eq_zero_iff, hlength, this, List.length_nil]
  · rw [moved.waiting]
    exact h.fresh

theorem credit_le (ending : Ending) :
    ending.credit.inspected = 0 ∧ ending.credit.migrated + ending.credit.abandoned ≤ 1 := by
  cases ending <;> simp [Ending.credit, Tally.zero]

theorem Slots.of_ended (h : Slots limit s) (running : s.status = .running) {ending : Ending}
    (mem : t ∈ s.tasks) (ended : Ended s t ending u) : Slots limit u := by
  have hperm : s.pending.Perm (t :: u.pending) := by
    have := h.pending_perm mem
    rwa [← ended.waiting, ← ended.tasks] at this
  have hlength := hperm.length_eq
  have htasks := (others_perm h.tasks_nodup mem).length_eq
  rw [← ended.tasks] at htasks
  simp only [List.length_cons] at hlength htasks
  have hwhole : u.IsWhole := .inl (ended.status.trans running)
  have haccount := h.account (.inl running)
  have hbalance := h.balance (.inl running)
  have hlimited := h.limited
  have hbehind := h.behind
  have hcounted := h.counted
  obtain ⟨hinspected, hcredit⟩ := credit_le ending
  have htally : u.tally.inspected = s.tally.inspected := by
    rw [ended.tally, Tally.plus, hinspected, Nat.add_zero]
  have hsettled : u.settled.length = s.settled.length + 1 := by
    rw [ended.settled, List.length_cons]
  constructor
  · exact (List.nodup_cons.mp ((hperm.map Task.number).nodup_iff.mp h.numbers)).2
  · intro x hx
    rw [htally]
    exact h.number_lt x (hperm.mem_iff.mpr (List.mem_cons_of_mem _ hx))
  · intro _
    rw [ended.free]
    omega
  · omega
  · intro _
    omega
  · omega
  · omega
  · rw [hsettled, ended.tally]
    simp only [Tally.plus]
    omega
  · exact fun broken => absurd hwhole broken
  · rw [ended.waiting]
    exact h.fresh

theorem Slots.abort (h : Slots limit s) {status : Status} (stopped : status ≠ .running)
    (unfinished : status ≠ .finished) : Slots limit (s.abort status) := by
  have hbroken : ¬ (s.abort status).IsWhole := by
    rintro (hw | hw)
    · exact stopped hw
    · exact unfinished hw
  have hsettled : s.settled.length ≤ (s.abort status).settled.length := by simp [State.abort]
  have hmore : (s.abort status).settled.length ≤ s.settled.length + s.pending.length := by
    have := List.length_filter_le (·.stage != Stage.created) s.tasks
    simp only [State.abort, State.pending, List.length_append, List.length_reverse, List.length_map]
    omega
  have hpending : (s.abort status).pending = [] := rfl
  have hbehind := h.behind
  have hle := h.settled_le
  have hcounted := h.counted
  have htally : (s.abort status).tally = s.tally := rfl
  constructor
  · simp [hpending]
  · simp [hpending]
  · exact fun whole => absurd whole hbroken
  · exact Nat.zero_le _
  · exact fun whole => absurd whole hbroken
  · rw [hpending, htally, List.length_nil]
    omega
  · rw [htally]
    omega
  · rw [htally]
    omega
  · exact fun _ => hpending
  · exact fun t waiting => by cases waiting

theorem Slots.inspect (h : Slots limit s) (ready : s.isReady = true) (record : Record) :
    Slots limit (s.next (.inspect record)) := by
  obtain ⟨running, waiting, -⟩ := State.isReady_iff.mp ready
  have hpending : s.pending = s.tasks := by simp [State.pending, waiting]
  have hnew : (s.next (.inspect record)).pending =
      ⟨s.tally.inspected, record, 0, .created⟩ :: s.tasks := rfl
  have htally : (s.next (.inspect record)).tally =
      { s.tally with inspected := s.tally.inspected + 1 } := rfl
  have hnumbers := h.numbers
  have hlt := h.number_lt
  have haccount := h.account (.inl running)
  have hlimited := h.limited
  rw [hpending] at hnumbers hlt haccount
  constructor
  · rw [hnew, List.map_cons]
    refine List.nodup_cons.mpr ⟨?_, hnumbers⟩
    intro hmem
    obtain ⟨t, ht, heq⟩ := List.mem_map.mp hmem
    exact absurd heq (Nat.ne_of_lt (hlt t ht))
  · intro t ht
    rw [hnew] at ht
    rw [htally]
    rcases List.mem_cons.mp ht with rfl | ht
    · exact Nat.lt_succ_self _
    · exact Nat.lt_succ_of_lt (hlt t ht)
  · exact fun _ => h.balance (.inl running)
  · exact hlimited
  · intro _
    rw [hnew, htally, List.length_cons]
    show s.tally.inspected + 1 = s.settled.length + _
    omega
  · rw [hnew, htally, List.length_cons]
    show s.settled.length + _ ≤ s.tally.inspected + 1
    omega
  · rw [htally]
    show s.tally.inspected + 1 ≤ s.settled.length + limit + 1
    omega
  · exact h.counted
  · exact fun broken => absurd (.inl running) broken
  · rintro t ⟨⟩
    rfl

theorem Slots.assign (h : Slots limit s) (enabled : s.Enabled .assign) :
    Slots limit (s.next .assign) := by
  obtain ⟨running, waiting, free⟩ := enabled
  have running := State.isRunning_iff.mp running
  obtain ⟨t, ht⟩ := Option.isSome_iff_exists.mp waiting
  have hperm : (s.next .assign).pending.Perm s.pending := by
    simp only [State.pending, State.next, ht, Option.toList_none, List.nil_append,
      Option.toList_some]
    exact List.perm_append_comm
  have hbalance := h.balance (.inl running)
  have htasks : (s.next .assign).tasks.length = s.tasks.length + 1 := by simp [State.next, ht]
  have hfree : (s.next .assign).free = s.free - 1 := by simp [State.next, ht]
  have hsame : (s.next .assign).status = s.status ∧ (s.next .assign).tally = s.tally ∧
      (s.next .assign).settled = s.settled := by simp [State.next, ht]
  obtain ⟨hstatus, htally, hsettled⟩ := hsame
  constructor
  · exact ((hperm.map _).nodup_iff).mpr h.numbers
  · intro t ht
    rw [htally]
    exact h.number_lt t (hperm.mem_iff.mp ht)
  · intro _
    omega
  · omega
  · intro _
    rw [htally, hsettled, hperm.length_eq]
    exact h.account (.inl running)
  · rw [htally, hsettled, hperm.length_eq]
    exact h.settled_le
  · rw [htally, hsettled]
    exact h.behind
  · rw [htally, hsettled]
    exact h.counted
  · intro broken
    exact absurd (.inl (hstatus.trans running)) broken
  · intro t waiting
    simp [State.next, ht] at waiting

theorem Slots.of_cutShort (h : Slots limit s) (running : s.status = .running) (mem : t ∈ s.tasks)
    (cut : CutShort s t u) : Slots limit u := by
  obtain ⟨v, ended, rfl | rfl⟩ := cut
  · exact h.of_ended running mem ended
  · exact (h.of_ended running mem ended).abort (by simp) (by simp)

theorem Slots.of_taskAct (h : Slots limit s) (running : s.status = .running) {a : Act}
    (mem : t ∈ s.tasks) (act : TaskAct s t a u) : Slots limit u := by
  cases act with
  | step step =>
    cases step with
    | skip _ _ ended => exact h.of_ended running mem ended
    | begin _ _ moved => exact h.of_moved mem moved
    | resume _ moved => exact h.of_moved mem moved
    | pause _ _ moved => exact h.of_moved mem moved
    | conclude _ _ ended => exact h.of_ended running mem ended
  | cut _ cut => exact h.of_cutShort running mem cut
  | pauseFails _ ended =>
    rcases ended with ended | cut
    · exact h.of_ended running mem ended
    · exact h.of_cutShort running mem cut

theorem act_preserves_slots {a : Act} (h : Slots limit s) (step : ActStep s a u) :
    Slots limit u := by
  cases a with
  | pauseFails =>
    obtain ⟨t, mem, running, act⟩ := taskAct_of_step step rfl
    exact h.of_taskAct running mem act
  | event e =>
    cases e with
    | start | answer | wake =>
      obtain ⟨t, mem, running, act⟩ := taskAct_of_step step rfl
      exact h.of_taskAct running mem act
    | inspect record =>
      obtain ⟨⟨enabled⟩⟩ := step
      exact h.inspect enabled record
    | assign =>
      obtain ⟨⟨enabled⟩⟩ := step
      exact h.assign enabled
    | streamEnd =>
      obtain ⟨⟨enabled⟩⟩ := step
      exact { h with }
    | streamFail failure =>
      obtain ⟨⟨enabled⟩⟩ := step
      exact h.abort (by simp) (by simp)
    | finish =>
      obtain ⟨⟨enabled⟩⟩ := step
      have running := State.isRunning_iff.mp enabled.1
      exact { h with
        balance := fun _ => h.balance (.inl running)
        account := fun _ => h.account (.inl running)
        broken := fun broken => absurd (.inr rfl) broken }
    | cancel =>
      obtain ⟨⟨enabled⟩⟩ := step
      exact h.abort (by simp) (by simp)

theorem step_preserves_slots {e : Event} (h : Slots limit s) (step : Step s e u) :
    Slots limit u := act_preserves_slots h (.event step)

theorem Frame.isReady_eq (frame : Frame s u) : u.isReady = s.isReady := by
  unfold State.isReady State.isRunning
  rw [frame.status, frame.waiting, frame.supply]

/-- Nothing is inspected, and the stream is as ready for a record as before unless the migrations
are broken off. -/
structure Undisturbed (s u : State) : Prop where
  inspected : u.tally.inspected = s.tally.inspected
  going : (u.isReady = s.isReady ∧ u.status = s.status) ∨ ¬ u.IsWhole

theorem Frame.undisturbed (frame : Frame s u)
    (inspected : u.tally.inspected = s.tally.inspected) : Undisturbed s u :=
  ⟨inspected, .inl ⟨frame.isReady_eq, frame.status⟩⟩

theorem Ended.undisturbed {ending : Ending} (ended : Ended s t ending u) : Undisturbed s u := by
  apply ended.toFrame.undisturbed
  rw [ended.tally, Tally.plus, (credit_le ending).1, Nat.add_zero]

theorem abort_undisturbed (s : State) {status : Status} (stopped : status ≠ .running)
    (unfinished : status ≠ .finished) : Undisturbed s (s.abort status) := by
  refine ⟨rfl, .inr ?_⟩
  rintro (whole | whole)
  · exact stopped whole
  · exact unfinished whole

theorem CutShort.undisturbed (cut : CutShort s t u) : Undisturbed s u := by
  obtain ⟨v, ended, rfl | rfl⟩ := cut
  · exact ended.undisturbed
  · refine ⟨ended.undisturbed.inspected, .inr ?_⟩
    rintro (whole | whole) <;> cases whole

theorem TaskAct.undisturbed {a : Act} (act : TaskAct s t a u) : Undisturbed s u := by
  cases act with
  | step step =>
    cases step with
    | skip _ _ ended => exact ended.undisturbed
    | begin _ _ moved => exact moved.toFrame.undisturbed (by rw [moved.tally])
    | resume _ moved => exact moved.toFrame.undisturbed (by rw [moved.tally])
    | pause _ _ moved => exact moved.toFrame.undisturbed (by rw [moved.tally])
    | conclude _ _ ended => exact ended.undisturbed
  | cut _ cut => exact cut.undisturbed
  | pauseFails _ ended =>
    rcases ended with ended | cut
    · exact ended.undisturbed
    · exact cut.undisturbed

/-- What has been settled stays so. -/
theorem next_settled (s : State) (e : Event) : ∃ more, (s.next e).settled = more ++ s.settled := by
  have habort : ∀ s status, ∃ more, (State.abort s status).settled = more ++ s.settled :=
    fun s status => ⟨_, rfl⟩
  cases e with
  | inspect | streamEnd | finish => exact ⟨[], rfl⟩
  | streamFail | cancel => exact habort s _
  | assign =>
    simp only [State.next]
    split <;> exact ⟨[], rfl⟩
  | start number =>
    simp only [State.next]
    split
    · split
      · exact ⟨[_], rfl⟩
      · exact ⟨[], rfl⟩
    · exact ⟨[], rfl⟩
  | wake number =>
    simp only [State.next]
    split <;> exact ⟨[], rfl⟩
  | answer number outcome fraction =>
    simp only [State.next]
    split
    · next t _ =>
      unfold State.answer
      split
      · exact ⟨[_], rfl⟩
      · exact ⟨[_], rfl⟩
      · unfold State.fail
        split
        · split
          · exact ⟨[], rfl⟩
          · exact ⟨[_], rfl⟩
        · dsimp only
          split
          · obtain ⟨more, hmore⟩ := habort (s.settle t .cutOff) .cancelled
            exact ⟨more ++ [⟨t.number, t.record, .cutOff⟩], by
              rw [hmore, List.append_assoc]; rfl⟩
          · exact ⟨[_], rfl⟩
    · exact ⟨[], rfl⟩

theorem step_settled {s u : State} {e : Event} (step : Step s e u) :
    ∃ more, u.settled = more ++ s.settled := by
  obtain ⟨-⟩ := step
  exact next_settled s e

end Steps

end Rekey.Migration
