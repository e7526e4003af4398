import Rekey.Proofs.Run.Answers
import Rekey.Proofs.Run.Progress
import Rekey.Proofs.Scan.Asking

/-! # How a run comes out

Whatever a store answers to a run, the run is one over these answers. So it returns only if no scan
of a segment has raised, and raises only if one has. Until then it can always go on, and it takes a
number of steps that the records read so far determine. -/
namespace Rekey.Run

open Counter (Tally)

/-- What an event tells the reader of segment `i` behind its first `n` records. -/
def tells? (i n : Nat) (m : State × Event) : Option (Answer Record) :=
  match m.2 with
  | .read segment answer =>
    if segment = i ∧ (m.1.scan.readers[i]?).map (·.produced.length) = some n then some answer
    else none
  | _ => none

/-- What the readers were told in a history; where they have not asked, that there is no more. -/
def answersOf (moves : List (State × Event)) (i n : Nat) : Answer Record :=
  (moves.findSome? (tells? i n)).getD .exhausted

/-- The scan of a segment has raised. -/
def ScanFailed (moves : List (State × Event)) : Prop :=
  ∃ m ∈ moves, ∃ i cause, m.2 = .read i (.failed cause)

section Steps
variable {i n : Nat} {m : State × Event} {answer : Answer Record} {s t : State} {e : Event}

theorem tells?_eq_some_iff : tells? i n m = some answer ↔
    m.2 = .read i answer ∧ ∃ r, m.1.scan.readers[i]? = some r ∧ r.produced.length = n := by
  unfold tells?
  split
  · next segment answer' read =>
    rw [read, Option.ite_none_right_eq_some, Option.map_eq_some_iff, Option.some.injEq,
      Event.read.injEq, and_right_comm]
  · next other =>
    simp only [reduceCtorEq, false_iff, not_and]
    exact fun read => absurd read (other _ _)

theorem step_goesOn (step : FreeStep s e t) : Scan.GoesOn s.scan t.scan := by
  rcases scan_step step with same | ⟨e', enabled, next, -⟩
  · rw [same]
    exact .of_readers_eq rfl
  · rw [next]
    exact Scan.next_goesOn enabled

/-- A reader that asks has not yet been told what it asks. -/
theorem FreeStep.asks (step : FreeStep m.1 m.2 t) (told : tells? i n m = some answer) :
    ∃ r, m.1.scan.readers[i]? = some r ∧ r.produced.length = n ∧ r.asksOn = true := by
  obtain ⟨read, r, hr, length⟩ := tells?_eq_some_iff.mp told
  obtain ⟨enabled⟩ := step
  rw [read] at enabled
  obtain ⟨r', hr', reading⟩ := Scan.State.isReading_iff.mp enabled.2.2.2
  obtain rfl := Option.some.inj (hr.symm.trans hr')
  exact ⟨r, hr, length, by simp [Scan.Reader.asksOn, reading]⟩

end Steps

section Histories
variable {config : Config} {baseline : Tally} {labelledDry : Value} {startedAt : Float}
  {moves : List (State × Event)} {s t : State} {i n : Nat} {answer : Answer Record}

theorem trace_after (trace : Trace FreeStep s moves t) :
    ∀ m ∈ moves, tells? i n m = some answer →
      ∀ r, t.scan.readers[i]? = some r → r.After n answer := by
  induction trace with
  | nil => exact fun m mem => absurd mem List.not_mem_nil
  | @snoc moves t u e earlier step ih =>
    intro m mem told r' hr'
    obtain ⟨r, hr, onward⟩ := step_goesOn step i r' hr'
    rcases List.mem_cons.mp mem with rfl | mem
    · obtain ⟨rfl, r'', hr'', rfl⟩ := tells?_eq_some_iff.mp told
      obtain ⟨-⟩ := step
      exact Scan.read_after hr'' answer hr'
    · exact (ih m mem told r hr).onward onward

/-- Each question is asked once, and has one answer. -/
theorem told_once (trace : Trace FreeStep s moves t) {answer' : Answer Record} :
    ∀ m ∈ moves, tells? i n m = some answer → ∀ m' ∈ moves, tells? i n m' = some answer' →
      answer = answer' := by
  induction trace generalizing answer answer' with
  | nil => exact fun m mem => absurd mem List.not_mem_nil
  | @snoc moves t u e earlier step ih =>
    have fresh : ∀ m ∈ moves, ∀ a b, tells? i n m = some a → tells? i n (t, e) ≠ some b := by
      intro m mem a b told again
      obtain ⟨r, hr, rfl, asks⟩ := FreeStep.asks (m := (t, e)) step again
      cases trace_after earlier m mem told r hr with
      | beyond more => exact Nat.lt_irrefl _ more
      | last _ silent => rw [silent] at asks; cases asks
    intro m mem told m' mem' told'
    rcases List.mem_cons.mp mem with rfl | mem <;> rcases List.mem_cons.mp mem' with rfl | mem'
    · exact Option.some.inj (told.symm.trans told')
    · exact absurd told (fresh m' mem' _ _ told')
    · exact absurd told' (fresh m mem _ _ told)
    · exact ih m mem told m' mem' told'

theorem answersOf_eq (trace : Trace FreeStep s moves t) {m : State × Event} (mem : m ∈ moves)
    (told : tells? i n m = some answer) : answersOf moves i n = answer := by
  unfold answersOf
  cases found : moves.findSome? (tells? i n) with
  | none => rw [List.findSome?_eq_none_iff.mp found m mem] at told; cases told
  | some answer' =>
    obtain ⟨m', mem', told'⟩ := List.exists_of_findSome?_eq_some found
    exact told_once trace m' mem' told' m mem told

theorem told_of_answersOf (h : answersOf moves i n = answer) (more : answer ≠ .exhausted) :
    ∃ m ∈ moves, tells? i n m = some answer := by
  unfold answersOf at h
  cases found : moves.findSome? (tells? i n) with
  | none => rw [found] at h; exact absurd h.symm more
  | some answer' =>
    rw [found] at h
    exact h ▸ List.exists_of_findSome?_eq_some found

/-- A run is one over the answers that it was given. -/
theorem trace_answered (trace : Trace FreeStep s moves t)
    (ordinary : ∀ m ∈ moves, m.2.Ordinary) : Trace (AnsweredStep (answersOf moves)) s moves t := by
  have told : ∀ m ∈ moves, m.2.Told (answersOf moves) m.1 ∧ m.2.Ordinary := by
    rintro ⟨s, e⟩ mem
    refine ⟨?_, ordinary _ mem⟩
    cases e with
    | read i answer =>
      intro r hr
      exact (answersOf_eq trace mem (tells?_eq_some_iff.mpr ⟨rfl, r, hr, rfl⟩)).symm
    | put | acquire | collect | flush | exhaust | request | begin | surrender | conclude | assign
    | start | answer | wake | finish | cancel => trivial
  have restricted : Trace (fun s e t => FreeStep s e t ∧ e.Told (answersOf moves) s ∧ e.Ordinary)
      s moves t := trace.restrict told
  exact restricted.mono fun _ _ _ step => ⟨step.1, step.2.1, step.2.2⟩

theorem scanFailed_of_raises {cause : Failure} (raises : Scan.Raises (answersOf moves i) cause) :
    ScanFailed moves := by
  obtain ⟨n, -, raised⟩ := raises
  obtain ⟨m, mem, told⟩ := told_of_answersOf raised nofun
  exact ⟨m, mem, i, cause, (tells?_eq_some_iff.mp told).1⟩

end Histories

/-- A run in the state `t`, as far as it has come. -/
inductive ComesOut (moves : List (State × Event)) (t : State) : Prop where
  | running : t.status = .running → ComesOut moves t
  | completed (summary : Summary) : t.status = .completed summary → ¬ ScanFailed moves →
    ComesOut moves t
  | failed (failure : Failure) : t.status = .failed failure → ScanFailed moves → ComesOut moves t

section Runs
variable {config : Config} {baseline : Tally} {labelledDry : Value} {startedAt : Float}
  {moves : List (State × Event)} {t : State}

theorem raises_of_scanFailed
    (trace : Trace FreeStep (start config labelledDry baseline startedAt) moves t)
    (ordinary : ∀ m ∈ moves, m.2.Ordinary) (failed : ScanFailed moves) :
    ∃ i < config.segments, ∃ cause, Scan.Raises (answersOf moves i) cause := by
  obtain ⟨m, mem, i, cause, read⟩ := failed
  obtain ⟨later, earlier, split⟩ := List.append_of_mem mem
  have answered := trace_answered trace ordinary
  rw [split] at answered
  obtain ⟨before, u, ⟨step, told, -⟩⟩ := answered.before
  rw [← split] at before told
  have marked := trace_marked before
  obtain ⟨enabled⟩ := step
  rw [read] at enabled told
  obtain ⟨r, hr, -⟩ := Scan.State.isReading_iff.mp enabled.2.2.2
  refine ⟨i, ?_, cause, r.produced.length, marked.told.items hr, (told r hr).symm⟩
  rw [← marked.total]
  exact (List.getElem?_eq_some_iff.mp hr).1

theorem run_comes_out (positive : config.Positive)
    (trace : Trace FreeStep (start config labelledDry baseline startedAt) moves t)
    (ordinary : ∀ m ∈ moves, m.2.Ordinary) : ComesOut moves t := by
  have answered := trace_answered trace ordinary
  cases trace_reported positive answered with
  | running running => exact .running running
  | completed completed =>
    refine .completed _ completed fun failed => ?_
    obtain ⟨i, hi, cause, raises⟩ := raises_of_scanFailed trace ordinary failed
    exact (exhausts_of_completed positive answered completed i hi).not_raises cause raises
  | failed failed scan =>
    obtain ⟨i, -, cause, raises, -⟩ := (trace_marked answered).failed _ scan
    exact .failed _ failed (scanFailed_of_raises raises)

/-! ## Going on -/

/-- The failures of the scans are ordinary. -/
def OrdinaryScans (moves : List (State × Event)) : Prop :=
  ∀ m ∈ moves, ∀ i cause, m.2 = .read i (.failed cause) → cause.isOrdinary = true

theorem sourceOf_ordinary (scans : OrdinaryScans moves) (n : Nat) :
    Scan.Ordinary (sourceOf (answersOf moves) n) config.segments := by
  intro i _ cause failed
  obtain ⟨k, -, raised⟩ := Scan.raises_of_streamOf failed
  obtain ⟨m, mem, told⟩ := told_of_answersOf raised nofun
  exact scans m mem i cause (tells?_eq_some_iff.mp told).1

/-- A run under way can take a step, or waits for the store or for the end of a pause. -/
theorem running_not_quiescent (positive : config.Positive)
    (trace : Trace FreeStep (start config labelledDry baseline startedAt) moves t)
    (ordinary : ∀ m ∈ moves, m.2.Ordinary) (scans : OrdinaryScans moves)
    (running : t.isRunning = true) : ¬ Quiescent t := by
  intro quiescent
  have streams := trace_streams (trace_answered trace ordinary) (Nat.lt_succ_self _)
  rcases trace_invariant positive (sourceOf_ordinary scans _) streams with h | ⟨i, -, cause, -, hs⟩
  · rw [quiescent.not_running h positive] at running
    cases running
  · rw [State.isRunning_iff.mp running] at hs
    cases hs

/-- Each record read costs a number of steps that grows with the retries allowed. -/
def stepsFor (config : Config) (records : Nat) : Nat :=
  records * (2 * config.retry.maxRetries + 10) + 3 * config.segments + 7

theorem items_le_produced
    (trace : Trace FreeStep (start config labelledDry baseline startedAt) moves t) {i n : Nat}
    {r : Scan.Reader Record} (hr : t.scan.readers[i]? = some r) :
    (sourceOf (answersOf moves) n i).items.length ≤ r.produced.length := by
  refine Scan.streamOf_length_le fun record given => ?_
  obtain ⟨m, mem, told⟩ := told_of_answersOf given nofun
  cases trace_after trace m mem told r hr with
  | beyond more => exact Nat.lt_irrefl _ more
  | last _ _ none => exact none record rfl

/-- What is known of each reader adds up. -/
theorem sum_le_produced {readers : List (Scan.Reader Record)} {items : Nat → Nat} (each : Nat)
    (le : ∀ (i : Nat) (r : Scan.Reader Record), readers[i]? = some r →
      items i ≤ r.produced.length) :
    ((List.range readers.length).map fun i => items i * each + 3).sum ≤
      (readers.flatMap (·.produced)).length * each + 3 * readers.length := by
  induction readers generalizing items with
  | nil => simp
  | cons r readers ih =>
    have first := Nat.mul_le_mul_right each (le 0 r rfl)
    have rest := ih fun i r hr => le (i + 1) r hr
    rw [List.length_cons, List.range_succ_eq_map, List.map_cons, List.sum_cons, List.map_map,
      List.flatMap_cons, List.length_append, Nat.add_mul]
    simp only [Function.comp_def, Nat.succ_eq_add_one]
    omega

theorem trace_length_le_stepsFor (positive : config.Positive)
    (trace : Trace FreeStep (start config labelledDry baseline startedAt) moves t)
    (ordinary : ∀ m ∈ moves, m.2.Ordinary) (scans : OrdinaryScans moves) :
    moves.length ≤ stepsFor config t.produced.length := by
  have answered := trace_answered trace ordinary
  have total := (trace_marked answered).total
  have bound := trace_length_le positive (sourceOf_ordinary scans _)
    (trace_streams answered (Nat.lt_succ_self _))
  have sum := sum_le_produced (2 * config.retry.maxRetries + 10)
    fun i r hr => items_le_produced (n := moves.length.succ) trace hr
  rw [total] at sum
  exact Nat.le_trans bound (Nat.add_le_add_right sum 7)

end Runs

end Rekey.Run
