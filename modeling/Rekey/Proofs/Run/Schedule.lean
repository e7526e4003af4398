import Rekey.Proofs.Run.Masked
import Rekey.Proofs.Trace
import Mathlib.Data.List.Range

/-! # Runs on a schedule

A schedule says who acts when, what the calls of the store bring and what the clock shows. What else
an event holds comes from the source and from a source of randomness, so a schedule decides a run.
Randomness looks at lengths, never at records. -/
namespace Rekey.Run

variable {ρ : Type}

/-- A source of randomness with states in `ρ`: the places out of which a list of some length is put
together anew, and a fraction. -/
structure Rng (ρ : Type) where
  places : ρ → (length : Nat) → List Nat × ρ
  fraction : ρ → Float × ρ
  arranges : ∀ r length, (places r length).1.Perm (List.range length)

section Arrangement
variable {α β : Type}

def arrange (places : List Nat) (window : List α) : List α := places.filterMap (window[·]?)

theorem arrange_map (f : α → β) (places : List Nat) (window : List α) :
    arrange places (window.map f) = (arrange places window).map f := by
  simp [arrange, List.map_filterMap]

theorem arrange_range (window : List α) : arrange (List.range window.length) window = window := by
  unfold arrange
  induction window with
  | nil => rfl
  | cons a rest ih =>
    rw [List.length_cons, List.range_succ_eq_map, List.filterMap_cons, List.filterMap_map]
    exact congrArg (a :: ·) ih

theorem Rng.arrange_perm (rng : Rng ρ) (r : ρ) (window : List α) :
    (arrange (rng.places r window.length).1 window).Perm window := by
  have perm := (rng.arranges r window.length).filterMap (window[·]?)
  rwa [← arrange, ← arrange, arrange_range] at perm

end Arrangement

/-- The part of an event that a schedule lays down; the rest is blank. -/
def Event.scheduled : Event → Event
  | .read segment _ => .read segment .exhausted
  | .collect _ => .collect []
  | .flush _ => .flush []
  | .answer number outcome _ => .answer number outcome 0
  | e => e

namespace State

def readCount (s : State) (segment : Nat) : Nat :=
  ((s.scan.readers[segment]?).map (·.produced.length)).getD 0

/-- A scheduled event with its blanks filled in. A fraction that is not drawn is zero. -/
def fill (source : Nat → Stream Record) (rng : Rng ρ) (s : State) (r : ρ) : Event → Event × ρ
  | .read segment _ => (.read segment ((source segment).answer (s.readCount segment)), r)
  | .collect _ =>
    match s.completes? with
    | some window =>
      (.collect (arrange (rng.places r window.length).1 window), (rng.places r window.length).2)
    | none => (.collect [], r)
  | .flush _ =>
    (.flush (arrange (rng.places r s.held.length).1 s.held.reverse),
      (rng.places r s.held.length).2)
  | .answer number outcome _ =>
    if s.migration.draws number outcome then
      (.answer number outcome (rng.fraction r).1, (rng.fraction r).2)
    else (.answer number outcome 0, r)
  | e => (e, r)

end State

/-- A step of a run on a schedule. The source of randomness moves on with the draws. -/
inductive RandomStep (source : Nat → Stream Record) (rng : Rng ρ) :
    State × ρ → Event → State × ρ → Prop where
  | intro {s : State} {r r' : ρ} {e : Event} (enabled : s.Enabled e)
      (filled : s.fill source rng r e = (e, r')) : RandomStep source rng (s, r) e (s.next e, r')

/-- The schedule of a run, newest first. -/
def schedule (moves : List ((State × ρ) × Event)) : List Event := moves.map (·.2.scheduled)

section Schedules
variable {source : Nat → Stream Record} {rng : Rng ρ}

theorem fill_scheduled (s : State) (r : ρ) (e : Event) :
    s.fill source rng r e.scheduled = s.fill source rng r e := by
  cases e <;> rfl

theorem scheduled_fill (s : State) (r : ρ) (e : Event) :
    (s.fill source rng r e).1.scheduled = e.scheduled := by
  cases e with
  | collect =>
    unfold State.fill
    dsimp only
    split <;> rfl
  | answer =>
    unfold State.fill
    dsimp only
    split <;> rfl
  | _ => rfl

theorem RandomStep.step {m n : State × ρ} {e : Event} (h : RandomStep source rng m e n) :
    Step source m.1 e n.1 := by
  cases h with
  | @intro s r r' e enabled filled =>
    refine ⟨enabled, ?_⟩
    cases e with
    | read segment answer =>
      intro reader hreader
      have told := congrArg Prod.fst filled
      simp only [State.fill, State.readCount, hreader] at told
      exact (Event.read.inj told).2.symm
    | _ => trivial

section Cases
variable {m : State × ρ}

theorem RandomStep.undrawn {e : Event} (enabled : m.1.Enabled e)
    (filled : ∀ s r, State.fill source rng s r e = (e, r)) :
    RandomStep source rng m e (m.1.next e, m.2) := ⟨enabled, filled m.1 m.2⟩

theorem RandomStep.read {segment : Nat} {answer : Answer Record}
    (enabled : m.1.Enabled (.read segment answer)) (count : Nat)
    (counted : m.1.readCount segment = count) (told : (source segment).answer count = answer) :
    RandomStep source rng m (.read segment answer) (m.1.next (.read segment answer), m.2) :=
  ⟨enabled, by rw [State.fill, counted, told]⟩

theorem RandomStep.gather (enabled : m.1.Enabled (.collect []))
    (unfilled : m.1.completes? = none) :
    RandomStep source rng m (.collect []) (m.1.next (.collect []), m.2) :=
  ⟨enabled, by rw [State.fill, unfilled]⟩

theorem RandomStep.window {order : List Record} {r : ρ}
    (enabled : m.1.Enabled (.collect order)) (window : List Record)
    (full : m.1.completes? = some window)
    (drawn : arrange (rng.places m.2 window.length).1 window = order)
    (left : (rng.places m.2 window.length).2 = r) :
    RandomStep source rng m (.collect order) (m.1.next (.collect order), r) :=
  ⟨enabled, by simp only [State.fill, full, drawn, left]⟩

theorem RandomStep.answer {number : Nat} {outcome : Except Failure Bool}
    (enabled : m.1.Enabled (.answer number outcome 0))
    (undrawn : m.1.migration.draws number outcome = false) :
    RandomStep source rng m (.answer number outcome 0)
      (m.1.next (.answer number outcome 0), m.2) :=
  ⟨enabled, by simp [State.fill, undrawn]⟩

end Cases

/-- A schedule decides what the next step is. -/
theorem RandomStep.decided {m n n' : State × ρ} {e e' : Event} (h : RandomStep source rng m e n)
    (h' : RandomStep source rng m e' n') (same : e.scheduled = e'.scheduled) :
    e = e' ∧ n = n' := by
  cases h with
  | intro _ filled =>
    cases h' with
    | intro _ filled' =>
      rw [← fill_scheduled, same, fill_scheduled, filled'] at filled
      obtain ⟨rfl, rfl⟩ := Prod.mk.inj filled
      exact ⟨rfl, rfl⟩

end Schedules

section Masking
variable {source : Nat → Stream Record} {rng : Rng ρ} {s : State}

/-- The same source with the secrets struck out. -/
def withoutSecrets (source : Nat → Stream Record) (segment : Nat) : Stream Record :=
  (source segment).map Record.masked

/-- A state on a schedule with the secrets struck out. -/
def veil (m : State × ρ) : State × ρ := (m.1.masked, m.2)

theorem scheduled_masked (e : Event) : e.masked.scheduled = e.scheduled := by
  cases e <;> rfl

theorem readCount_masked (segment : Nat) : s.masked.readCount segment = s.readCount segment := by
  have readers : s.masked.scan.readers[segment]? =
      (s.scan.readers[segment]?).map (Scan.Reader.map Record.masked) := List.getElem?_map
  unfold State.readCount
  rw [readers]
  cases s.scan.readers[segment]? with
  | none => rfl
  | some reader => exact List.length_map _

theorem fill_masked (r : ρ) (e : Event) :
    s.masked.fill (withoutSecrets source) rng r e.masked =
      ((s.fill source rng r e).1.masked, (s.fill source rng r e).2) := by
  cases e with
  | read segment answer =>
    simp only [State.fill, Event.masked, withoutSecrets, readCount_masked, Stream.map_answer]
  | collect order =>
    simp only [State.fill, Event.masked, completes?_masked]
    cases s.completes? with
    | none => rfl
    | some window => simp only [Option.map_some, List.length_map, arrange_map]
  | flush order =>
    have held : s.masked.held = s.held.map Record.masked := rfl
    simp only [State.fill, Event.masked, held, List.length_map, ← List.map_reverse, arrange_map]
  | answer number outcome fraction =>
    have draws : s.masked.migration.draws number outcome = s.migration.draws number outcome :=
      Migration.draws_masked s.migration number outcome
    simp only [State.fill, Event.masked, draws]
    split <;> rfl
  | _ => rfl

/-- What a schedule may go on with does not depend on the secrets. -/
theorem enabled_fill {r : ρ} {e : Event} (h : s.masked.Enabled e) :
    s.Enabled (s.fill source rng r e).1 := by
  cases e with
  | collect order =>
    obtain ⟨running, pulling, take, -⟩ := h
    have able : ∀ order, State.allows s.completes? order = true → s.Enabled (.collect order) :=
      fun _ allowed => ⟨running, pulling, (take_enabled_masked s).mp take, allowed⟩
    unfold State.fill
    dsimp only
    cases hwindow : s.completes? with
    | none => exact able [] (by rw [hwindow]; rfl)
    | some window =>
      exact able _ (by rw [hwindow]; exact List.isPerm_iff.mpr (rng.arrange_perm r window))
  | flush order =>
    obtain ⟨running, pulling, ended, held, -⟩ := h
    have perm := rng.arrange_perm r s.held.reverse
    rw [List.length_reverse] at perm
    exact ⟨running, pulling, ended, List.isEmpty_map.symm.trans held, List.isPerm_iff.mpr perm⟩
  | answer number outcome fraction =>
    have able : ∀ fraction, s.Enabled (.answer number outcome fraction) :=
      fun _ => (enabled_masked s rfl).mp h
    unfold State.fill
    dsimp only
    split <;> exact able _
  | read segment answer =>
    have able : ∀ answer, s.Enabled (.read segment answer) :=
      fun answer => (enabled_masked s (e := .read segment answer) rfl).mp h
    exact able _
  | _ => exact (enabled_masked s rfl).mp h

theorem RandomStep.masked {m n : State × ρ} {e : Event} (h : RandomStep source rng m e n) :
    RandomStep (withoutSecrets source) rng (veil m) e.masked (veil n) := by
  cases h with
  | @intro s r r' e enabled filled =>
    have step : RandomStep (withoutSecrets source) rng (s.masked, r) e.masked
        (s.masked.next e.masked, r') :=
      ⟨enabled.masked, by rw [fill_masked, filled]⟩
    rwa [next_masked] at step

/-- A step with the secrets struck out is one of a run with secrets. -/
theorem RandomStep.unmask {m n : State × ρ} {e : Event}
    (h : RandomStep (withoutSecrets source) rng (veil m) e n) :
    ∃ e' n', RandomStep source rng m e' n' ∧ e'.scheduled = e.scheduled ∧ veil n' = n := by
  obtain ⟨s, r⟩ := m
  have filled : s.fill source rng r (s.fill source rng r e).1 = s.fill source rng r e := by
    rw [← fill_scheduled, scheduled_fill, fill_scheduled]
  have step : RandomStep source rng (s, r) (s.fill source rng r e).1
      (s.next (s.fill source rng r e).1, (s.fill source rng r e).2) := by
    refine ⟨?_, filled⟩
    cases h with
    | intro enabled _ => exact enabled_fill enabled
  have same : (s.fill source rng r e).1.masked.scheduled = e.scheduled := by
    rw [scheduled_masked, scheduled_fill]
  exact ⟨_, _, step, scheduled_fill s r e, (step.masked.decided h same).2⟩

end Masking

end Rekey.Run
