import Rekey.Proofs.Migration.Tasks
import Mathlib.Data.List.Nodup
import Mathlib.Data.List.Count

/-! # What has become of the records inspected

Until the migrations are broken off, each record inspected waits for a slot, has a task or is
settled, and no record twice. The counters and the warnings say what the settled records came to, and
every slot is free or held by a task. -/
namespace Rekey.Migration

open Counter (Tally)

def Task.key (t : Task) : Record × Nat := (t.record, t.number)

def Settled.key (x : Settled) : Record × Nat := (x.record, x.number)

def Event.record? : Event → Option Record
  | .inspect record => some record
  | _ => none

namespace State

/-- Whether the migrations are under way or have come to their end, and were not broken off. -/
def IsWhole (s : State) : Prop := s.status = .running ∨ s.status = .finished

def pending (s : State) : List Task := s.waiting.toList ++ s.tasks

def known (s : State) : List (Record × Nat) :=
  s.pending.map Task.key ++ s.settled.map Settled.key

end State

/-- What is true of the migrations when the records `given` have been inspected in this order. -/
structure Ledger (limit : Nat) (given : List Record) (s : State) : Prop where
  inspected : s.tally.inspected = given.length
  migrated : s.tally.migrated = s.settled.countP (·.ending.isWritten)
  abandoned : s.tally.abandoned = s.settled.countP (·.ending.isAbandoned)
  warnings : s.warnings = s.settled.filterMap Settled.warning?
  known : s.IsWhole → s.known.Perm given.zipIdx
  slots : s.IsWhole → s.free + s.tasks.length = limit
  fresh : ∀ t, s.waiting = some t → t.stage = .created ∧ t.retries = 0
  last : s.supply = .ended → s.waiting = none
  finished : s.status = .finished → s.tasks = [] ∧ s.supply = .ended
  kept : s.status ≠ .cancelled

theorem start_ledger (dryRun : Bool) (limit : Nat) (policy : Retry.Policy Float) :
    Ledger limit [] (start dryRun limit policy) := by
  constructor <;> simp [start, Tally.zero, State.warnings, State.known, State.pending]

theorem perm_cons_filter {α : Type} {f : α → Nat} {l : List α} {a : α} (nodup : (l.map f).Nodup)
    (mem : a ∈ l) : l.Perm (a :: l.filter (f · != f a)) := by
  induction l with
  | nil => cases mem
  | cons x l ih =>
    obtain ⟨hx, hl⟩ := List.nodup_cons.mp nodup
    rcases List.mem_cons.mp mem with rfl | hmem
    · have hall : l.filter (f · != f a) = l := by
        apply List.filter_eq_self.mpr
        intro y hy
        have : f y ≠ f a := fun h => hx (h ▸ List.mem_map_of_mem hy)
        simpa using this
      simp [hall]
    · have hne : f x ≠ f a := fun h => hx (h ▸ List.mem_map_of_mem hmem)
      rw [List.filter_cons_of_pos (by simpa using hne)]
      exact ((ih hl hmem).cons x).trans (.swap a x _)

theorem others_perm {s : State} {t : Task} (nodup : (s.tasks.map Task.number).Nodup)
    (mem : t ∈ s.tasks) : s.tasks.Perm (t :: s.others t.number) :=
  perm_cons_filter nodup mem

section Ledger
variable {limit : Nat} {given : List Record} {s u : State} {t : Task}

theorem mem_pending (mem : t ∈ s.tasks) : t ∈ s.pending := List.mem_append_right _ mem

theorem pending_known (ht : t ∈ s.pending) : t.key ∈ s.known :=
  List.mem_append_left _ (List.mem_map_of_mem ht)

theorem settled_known {x : Settled} (hx : x ∈ s.settled) : x.key ∈ s.known :=
  List.mem_append_right _ (List.mem_map_of_mem hx)

theorem zipIdx_append_singleton (given : List Record) (record : Record) :
    (given ++ [record]).zipIdx = given.zipIdx ++ [(record, given.length)] := by
  simp [List.zipIdx_append]

theorem Ledger.numbers_nodup (h : Ledger limit given s) (whole : s.IsWhole) :
    (s.known.map (·.2)).Nodup := by
  rw [((h.known whole).map (·.2)).nodup_iff, List.zipIdx_map_snd]
  exact List.nodup_range'

theorem Ledger.tasks_nodup (h : Ledger limit given s) (whole : s.IsWhole) :
    (s.tasks.map Task.number).Nodup := by
  have := h.numbers_nodup whole
  simp only [State.known, State.pending, List.map_append, List.map_map] at this
  exact (List.nodup_append.mp (List.nodup_append.mp this).1).2.1

theorem Ledger.settled_ne (h : Ledger limit given s) (whole : s.IsWhole) {x : Settled}
    (hx : x ∈ s.settled) (ht : t ∈ s.pending) : x.number ≠ t.number := by
  have := h.numbers_nodup whole
  simp only [State.known, List.map_append, List.map_map] at this
  have hne := (List.nodup_append.mp this).2.2
  exact fun heq => hne _ (List.mem_map_of_mem ht) _ (List.mem_map_of_mem hx) heq.symm

theorem Ledger.known_lt (h : Ledger limit given s) (whole : s.IsWhole) {k : Record × Nat}
    (hk : k ∈ s.known) : given[k.2]? = some k.1 :=
  List.mem_zipIdx_iff_getElem?.mp ((h.known whole).mem_iff.mp hk)

theorem Ledger.given_perm (h : Ledger limit given s) {limit' : Nat} {given' : List Record}
    (h' : Ledger limit' given' s) (whole : s.IsWhole) : given.Perm given' := by
  have hzip := ((h.known whole).symm.trans (h'.known whole)).map (·.1)
  rwa [List.zipIdx_map_fst, List.zipIdx_map_fst] at hzip

theorem Ledger.number_lt (h : Ledger limit given s) (whole : s.IsWhole) (ht : t ∈ s.pending) :
    t.number < s.tally.inspected := by
  have hget := h.known_lt whole (pending_known ht)
  rw [h.inspected]
  exact (List.getElem?_eq_some_iff.mp hget).1

theorem Frame.isWhole_iff (frame : Frame s u) : u.IsWhole ↔ s.IsWhole := by
  unfold State.IsWhole; rw [frame.status]

theorem Ledger.of_moved (h : Ledger limit given s) {t' : Task} (whole : s.IsWhole)
    (unfinished : s.status ≠ .finished) (mem : t ∈ s.tasks) (moved : Moved s t t' u) :
    Ledger limit given u := by
  have hperm := others_perm (h.tasks_nodup whole) mem
  have hkey : t'.key = t.key := by simp only [Task.key, moved.record, moved.number]
  refine ⟨by rw [moved.tally, h.inspected], by rw [moved.tally, moved.settled, h.migrated],
    by rw [moved.tally, moved.settled, h.abandoned],
    by rw [moved.warnings, moved.settled, h.warnings],
    fun _ => ?_, fun _ => ?_, by rw [moved.waiting]; exact h.fresh,
    by rw [moved.supply, moved.waiting]; exact h.last,
    fun hf => absurd (moved.status ▸ hf) unfinished, by rw [moved.status]; exact h.kept⟩
  · refine List.Perm.trans ?_ (h.known whole)
    unfold State.known State.pending
    rw [moved.waiting, moved.tasks, moved.settled]
    refine List.Perm.append_right _ ?_
    rw [List.map_append, List.map_append, List.map_append]
    refine List.Perm.append_left _ ?_
    rw [List.map_singleton, hkey]
    exact (List.perm_append_singleton _ _).trans (hperm.map Task.key).symm
  · have := hperm.length_eq
    rw [moved.free, moved.tasks, ← h.slots whole]
    simp only [List.length_cons, List.length_append, List.length_nil] at this ⊢
    omega

theorem countP_credit (ending : Ending) (number : Nat) (record : Record) :
    ending.credit.inspected = 0 ∧
    ending.credit.migrated =
      [(⟨number, record, ending⟩ : Settled)].countP (·.ending.isWritten) ∧
    ending.credit.abandoned =
      [(⟨number, record, ending⟩ : Settled)].countP (·.ending.isAbandoned) := by
  cases ending <;> exact ⟨rfl, rfl, rfl⟩

theorem Ledger.of_ended (h : Ledger limit given s) {ending : Ending} (whole : s.IsWhole)
    (unfinished : s.status ≠ .finished) (mem : t ∈ s.tasks) (ended : Ended s t ending u) :
    Ledger limit given u := by
  have hperm := others_perm (h.tasks_nodup whole) mem
  obtain ⟨hinspected, hmigrated, habandoned⟩ :=
    countP_credit ending t.number t.record
  refine ⟨?_, ?_, ?_, ?_, fun _ => ?_, fun _ => ?_, by rw [ended.waiting]; exact h.fresh,
    by rw [ended.supply, ended.waiting]; exact h.last,
    fun hf => absurd (ended.status ▸ hf) unfinished, by rw [ended.status]; exact h.kept⟩
  · simp only [ended.tally, Tally.plus, hinspected, h.inspected, Nat.add_zero]
  · rw [ended.tally, ended.settled, ← List.singleton_append, List.countP_append, ← hmigrated,
      ← h.migrated]
    exact Nat.add_comm _ _
  · rw [ended.tally, ended.settled, ← List.singleton_append, List.countP_append, ← habandoned,
      ← h.abandoned]
    exact Nat.add_comm _ _
  · rw [ended.warnings, ended.settled, h.warnings, ← List.singleton_append, List.filterMap_append]
    rfl
  · refine List.Perm.trans ?_ (h.known whole)
    unfold State.known State.pending
    rw [ended.waiting, ended.tasks, ended.settled]
    rw [List.map_append, List.map_append, List.append_assoc, List.append_assoc]
    refine List.Perm.append_left _ ?_
    rw [List.map_cons]
    exact List.perm_middle.trans ((hperm.map Task.key).symm.append_right _)
  · have := hperm.length_eq
    have hslots := h.slots whole
    rw [ended.free, ended.tasks]
    rw [List.length_cons] at this
    omega

theorem Ledger.of_taskStep (h : Ledger limit given s) {e : Event} (whole : s.IsWhole)
    (unfinished : s.status ≠ .finished) (mem : t ∈ s.tasks) (step : TaskStep s t e u) :
    Ledger limit given u := by
  cases step with
  | skip _ _ ended => exact h.of_ended whole unfinished mem ended
  | begin _ _ moved => exact h.of_moved whole unfinished mem moved
  | resume _ moved => exact h.of_moved whole unfinished mem moved
  | pause _ _ moved => exact h.of_moved whole unfinished mem moved
  | conclude _ _ ended => exact h.of_ended whole unfinished mem ended

theorem Ledger.inspect (h : Ledger limit given s) (ready : s.isReady = true) (record : Record) :
    Ledger limit (given ++ [record]) (s.next (.inspect record)) := by
  obtain ⟨running, waiting, flowing⟩ := State.isReady_iff.mp ready
  refine ⟨by simp [State.next, h.inspected], h.migrated, h.abandoned, h.warnings, fun _ => ?_,
    fun _ => h.slots (.inl running), ?_, fun hs => ?_, fun hf => ?_, h.kept⟩
  · have hknown := h.known (.inl running)
    simp only [State.known, State.pending, waiting, Option.toList_none, List.nil_append] at hknown
    rw [zipIdx_append_singleton]
    simp only [State.known, State.pending, State.next, Option.toList_some, Task.key, h.inspected,
      List.map_append, List.map_singleton, List.append_assoc]
    exact List.perm_append_comm.trans (hknown.append_right _)
  · rintro t ⟨⟩; exact ⟨rfl, rfl⟩
  · rw [show (s.next (.inspect record)).supply = s.supply from rfl, flowing] at hs; cases hs
  · rw [show (s.next (.inspect record)).status = s.status from rfl, running] at hf; cases hf

theorem Ledger.assign (h : Ledger limit given s) (enabled : s.Enabled .assign) :
    Ledger limit given (s.next .assign) := by
  obtain ⟨running, waiting, free⟩ := enabled
  have running := State.isRunning_iff.mp running
  obtain ⟨t, ht⟩ := Option.isSome_iff_exists.mp waiting
  have hknown := h.known (.inl running)
  have hslots := h.slots (.inl running)
  simp only [State.known, State.pending, ht] at hknown
  simp only [State.next, ht]
  refine ⟨h.inspected, h.migrated, h.abandoned, h.warnings, fun _ => ?_, fun _ => ?_, by simp,
    fun _ => rfl, fun hf => ?_, h.kept⟩
  · refine List.Perm.trans ?_ hknown
    unfold State.known State.pending
    refine List.Perm.append_right _ (List.Perm.map _ ?_)
    exact @List.perm_append_comm _ s.tasks [t]
  · simp only [List.length_append, List.length_singleton]
    omega
  · dsimp only at hf; rw [running] at hf; cases hf

theorem Ledger.abort (h : Ledger limit given s) (failure : Failure) :
    Ledger limit given (s.abort (.failed failure)) := by
  refine ⟨h.inspected, ?_, ?_, ?_, ?_, ?_, by simp [State.abort], fun _ => rfl,
    by simp [State.abort], by simp [State.abort]⟩
  · simp only [State.abort, List.countP_append, h.migrated]
    simp [Ending.isWritten]
  · simp only [State.abort, List.countP_append, h.abandoned]
    simp [Ending.isAbandoned]
  · rw [show (s.abort (.failed failure)).warnings = s.warnings from rfl, h.warnings]
    simp [State.abort, List.filterMap_append, Settled.warning?]
  · rintro (hw | hw) <;> cases hw
  · rintro (hw | hw) <;> cases hw

theorem Ledger.streamEnd (h : Ledger limit given s) (ready : s.isReady = true) :
    Ledger limit given (s.next .streamEnd) := by
  obtain ⟨running, waiting, -⟩ := State.isReady_iff.mp ready
  exact { h with
    last := fun _ => waiting
    finished := fun hf => by
      rw [show (s.next .streamEnd).status = s.status from rfl, running] at hf; cases hf }

theorem Ledger.finish (h : Ledger limit given s) (enabled : s.Enabled .finish) :
    Ledger limit given (s.next .finish) := by
  obtain ⟨running, supply, tasks⟩ := enabled
  have running := State.isRunning_iff.mp running
  exact { h with
    known := fun _ => h.known (.inl running)
    slots := fun _ => h.slots (.inl running)
    finished := fun _ => ⟨List.isEmpty_iff.mp tasks, supply⟩
    kept := by simp [State.next] }

theorem step_preserves_ledger {e : Event} (h : Ledger limit given s) (step : Step s e u)
    (ordinary : e.Ordinary) : Ledger limit (given ++ e.record?.toList) u := by
  obtain ⟨enabled⟩ := step
  cases e with
  | inspect record => exact h.inspect enabled record
  | assign => simpa [Event.record?] using h.assign enabled
  | start | answer | wake =>
    obtain ⟨t, mem, running, -, -, step⟩ := taskStep_of_enabled enabled ordinary rfl
    simpa [Event.record?] using h.of_taskStep (.inl running) (by simp [running]) mem step
  | streamEnd => simpa [Event.record?] using h.streamEnd enabled
  | streamFail failure => simpa [Event.record?, State.next] using h.abort failure
  | finish => simpa [Event.record?] using h.finish enabled
  | cancel => exact ordinary.elim

end Ledger

end Rekey.Migration
