import Rekey.Proofs.Run.Locality
import Rekey.Proofs.Run.Schedule
import Rekey.Proofs.Service.Masked

/-! # Nothing but the writes shows a secret

Two runs on one schedule, over sources that differ only in the secrets of their records, cannot be
told apart: a run goes the same way with the secrets struck out, and a schedule decides a run. -/
namespace Rekey.Run

open Counter (Tally)
open Service (Client Repository)

variable {ρ : Type}

/-- The lines of a log, each with its level. -/
def logged (notices : List Notice) : List (Level × String) :=
  notices.map fun notice => (notice.level, notice.message)

/-- The texts of a record and of its secret. -/
def displayed (records : List Record) : List (String × String) :=
  records.map fun record => (record.shown, record.secret.shown)

/-- What can be seen of a state from outside. -/
structure Observation where
  log : List (Level × String)
  delays : List Float
  counters : Tally
  status : Status
  records : List (String × String)

/-- The records in a state: those read, gathered, dispatched, sent to the store and settled. -/
def State.handled (s : State) : List Record :=
  s.produced ++ s.held ++ s.dispatch.pulled.flatten ++ s.dispatch.delivered.map (·.record) ++
    s.migration.calls ++ s.migration.settled.map (·.record)

def State.observation (s : State) : Observation where
  log := logged s.log
  delays := s.migration.delays
  counters := s.tally
  status := s.status
  records := displayed s.handled

/-- What is seen of a run, state by state, newest first. -/
def observations (moves : List ((State × ρ) × Event)) (t : State × ρ) : List Observation :=
  t.1.observation :: moves.map (·.1.1.observation)

section Observations

theorem displayed_masked (records : List Record) :
    displayed (records.map Record.masked) = displayed records := by
  simp only [displayed, List.map_map, Function.comp_def, Record.shown_masked]
  rfl

theorem handled_masked (s : State) : s.masked.handled = s.handled.map Record.masked := by
  have produced : s.masked.produced = s.produced.map Record.masked := by
    simp [State.produced, State.masked, Scan.State.map, Scan.Reader.map, List.flatMap_map,
      List.map_flatMap]
  have delivered : s.masked.dispatch.delivered.map (·.record) =
      (s.dispatch.delivered.map (·.record)).map Record.masked := by
    simp [State.masked, Dispatch.State.map, Dispatch.Delivery.map]
  have settled : s.masked.migration.settled.map (·.record) =
      (s.migration.settled.map (·.record)).map Record.masked := by
    simp [State.masked, Migration.State.masked, Migration.Settled.masked]
  have pulled : s.masked.dispatch.pulled.flatten = s.dispatch.pulled.flatten.map Record.masked :=
    List.map_flatten.symm
  unfold State.handled
  rw [produced, delivered, settled, pulled]
  simp only [List.map_append]
  rfl

theorem observation_masked (s : State) : s.masked.observation = s.observation := by
  have records : displayed s.masked.handled = displayed s.handled := by
    rw [handled_masked, displayed_masked]
  unfold State.observation
  rw [records]
  rfl

def maskedMoves (moves : List ((State × ρ) × Event)) : List ((State × ρ) × Event) :=
  moves.map fun m => (veil m.1, m.2.masked)

theorem schedule_masked (moves : List ((State × ρ) × Event)) :
    schedule (maskedMoves moves) = schedule moves := by
  simp [schedule, maskedMoves, scheduled_masked]

theorem observations_masked (moves : List ((State × ρ) × Event)) (t : State × ρ) :
    observations (maskedMoves moves) (veil t) = observations moves t := by
  simp [observations, maskedMoves, veil, observation_masked]

end Observations

section Runs
variable {rng : Rng ρ} {source source' : Nat → Stream Record}
  {s t t' : State × ρ} {moves moves' : List ((State × ρ) × Event)}

theorem trace_masked (trace : Trace (RandomStep source rng) s moves t) :
    Trace (RandomStep (withoutSecrets source) rng) (veil s) (maskedMoves moves) (veil t) := by
  induction trace with
  | nil => exact .nil
  | snoc _ step ih => exact ih.snoc step.masked

/-- Runs on one schedule, over sources that are the same but for the secrets, show the same. -/
theorem observations_eq (trace : Trace (RandomStep source rng) s moves t)
    (alike : withoutSecrets source' = withoutSecrets source)
    (trace' : Trace (RandomStep source' rng) s moves' t')
    (same : schedule moves' = schedule moves) : observations moves' t' = observations moves t := by
  have masked' := trace_masked trace'
  rw [alike] at masked'
  have same' : schedule (maskedMoves moves') = schedule (maskedMoves moves) := by
    rw [schedule_masked, schedule_masked, same]
  obtain ⟨hmoves, ht⟩ := (trace_masked trace).unique Event.scheduled
    (fun _ _ _ _ _ => RandomStep.decided) masked' same'
  rw [← observations_masked, hmoves, ht, observations_masked]

/-- A schedule that can be run over one source can be run over another that is the same but for the
secrets. -/
theorem exists_trace (trace : Trace (RandomStep source rng) s moves t)
    (alike : withoutSecrets source' = withoutSecrets source) :
    ∃ moves' t', Trace (RandomStep source' rng) s moves' t' ∧ schedule moves' = schedule moves := by
  have one : ∀ (t t' : State × ρ) (e : Event) (u : State × ρ), veil t' = veil t →
      RandomStep source rng t e u →
      ∃ e' u', RandomStep source' rng t' e' u' ∧ e'.scheduled = e.scheduled ∧ veil u' = veil u := by
    intro t t' e u related step
    have masked := step.masked
    rw [← alike, ← related] at masked
    obtain ⟨e', u', step', same, reached⟩ := masked.unmask
    exact ⟨e', u', step', same.trans (scheduled_masked e), reached⟩
  obtain ⟨moves', t', trace', same, -⟩ :=
    trace.follow Event.scheduled (show veil s = veil s from rfl) one
  exact ⟨moves', t', trace', same⟩

end Runs

/-- Secrets show in nothing but the writes. Over a source with other secrets a schedule runs just
the same, and the log, the delays, the counters, the outcome and the texts of the records are the
same in every state. The scan of a segment over other secrets logs the same and fails the same. -/
theorem secrets_not_observable (rng : Rng ρ) :
    (∀ config labelledDry baseline startedAt (r : ρ) (source source' : Nat → Stream Record),
      withoutSecrets source' = withoutSecrets source →
      ∀ moves t, Trace (RandomStep source rng)
        (start config labelledDry baseline startedAt, r) moves t →
      (∃ moves' t', Trace (RandomStep source' rng)
        (start config labelledDry baseline startedAt, r) moves' t' ∧
          schedule moves' = schedule moves) ∧
      ∀ moves' t', Trace (RandomStep source' rng)
        (start config labelledDry baseline startedAt, r) moves' t' →
          schedule moves' = schedule moves → observations moves' t' = observations moves t) ∧
    (∀ (μ μ' : Type) [Client μ] [Client μ'] (rel : μ → μ' → Prop), Service.Alike rel →
      ∀ (repository : Repository μ) (repository' : Repository μ'),
      repository.Alike rel repository' → ∀ segment total limit,
      let scan := repository.scanSegment segment total limit
      let scan' := repository'.scanSegment segment total limit
      displayed scan'.1 = displayed scan.1 ∧ scan'.2.1 = scan.2.1 ∧
        logged scan'.2.2.notices = logged scan.2.2.notices) := by
  constructor
  · intro config labelledDry baseline startedAt r source source' alike moves t trace
    exact ⟨exists_trace trace alike, fun _ _ trace' same => observations_eq trace alike trace' same⟩
  · intro μ μ' _ _ rel alike repository repository' related segment total limit
    obtain ⟨records, failure, scanned⟩ := related.scanSegment alike segment total limit
    refine ⟨?_, failure, congrArg logged scanned.notices⟩
    rw [← displayed_masked, records, displayed_masked]

/-- Windows come out the other way round. -/
def reversing : Rng Unit where
  places r length := ((List.range length).reverse, r)
  fraction r := (0.5, r)
  arranges _ length := List.reverse_perm (List.range length)

def pairSource (_ : Nat) : Stream Record := ⟨[ada, cleo], none⟩

def resalted (r : Record) : Record := { r with secret := ⟨"other hash", "other salt"⟩ }

def resaltedSource (_ : Nat) : Stream Record := ⟨[resalted ada, resalted cleo], none⟩

/-- The write of the record that comes first out of its window is refused. -/
def refusedEvents : List Event :=
  [.answer 0 (.error (.plain .store "refused")) 0, .start 0, .assign, .begin, .collect [cleo, ada],
    .put 0, .read 0 (.item cleo), .collect [], .put 0, .read 0 (.item ada), .acquire, .request]

def pairNext (m : State × Unit) (e : Event) : State × Unit := (m.1.next e, m.2)

def refusedEnd : State × Unit := Trace.reached pairNext (crossedStart, ()) refusedEvents

theorem refused_trace : Trace (RandomStep pairSource reversing) (crossedStart, ())
    (Trace.replay pairNext (crossedStart, ()) refusedEvents) refusedEnd := by
  apply Trace.of_replays pairNext
  refine ⟨.answer ?_ ?_, .undrawn ?_ fun _ _ => rfl, .undrawn ?_ fun _ _ => rfl,
    .undrawn ?_ fun _ _ => rfl, .window ?_ [ada, cleo] ?_ ?_ rfl, .undrawn ?_ fun _ _ => rfl,
    .read ?_ 1 ?_ rfl, .gather ?_ ?_, .undrawn ?_ fun _ _ => rfl, .read ?_ 0 ?_ rfl,
    .undrawn ?_ fun _ _ => rfl, .undrawn ?_ fun _ _ => rfl, trivial⟩
  all_goals decide +kernel

/-- A legacy item whose time of expiry is not a number. -/
def spoiled (r : Record) : Service.Item :=
  [("PK", .ofText (KeySpace.legacy r.key)), ("hash", .ofText r.secret.hash),
    ("salt", .ofText r.secret.salt), ("expires_at", .ofText "soon")]

def spoiledRepository (r : Record) : Repository :=
  ⟨"old", "new", none, none, .none, 0, ⟨[("old", [spoiled r])], none, none, [], [], []⟩, []⟩

theorem refusal_shows_no_secret :
    withoutSecrets resaltedSource = withoutSecrets pairSource ∧
    (.warning, "Failed to migrate record for cleo: refused") ∈ logged refusedEnd.1.log ∧
    (∃ moves moves' t',
      Trace (RandomStep pairSource reversing) (crossedStart, ()) moves refusedEnd ∧
      Trace (RandomStep resaltedSource reversing) (crossedStart, ()) moves' t' ∧
      observations moves' t' = observations moves refusedEnd) ∧
    logged ((spoiledRepository (resalted ada)).scanSegment 0 1 none).2.2.notices =
      logged ((spoiledRepository ada).scanSegment 0 1 none).2.2.notices := by
  have alike : withoutSecrets resaltedSource = withoutSecrets pairSource := rfl
  obtain ⟨runs, scans⟩ := secrets_not_observable reversing
  obtain ⟨⟨moves', t', trace', same⟩, equal⟩ :=
    runs crossedConfig (.bool false) .zero 0 () pairSource resaltedSource alike _ _ refused_trace
  have related : (spoiledRepository ada).Alike (fun m m' => m'.masked = m.masked)
      (spoiledRepository (resalted ada)) := ⟨rfl, rfl, rfl, rfl, rfl, rfl⟩
  obtain ⟨-, -, notices⟩ := scans _ _ _ Service.Memory.alike _ _ related 0 1 none
  refine ⟨alike, ?_, ⟨_, moves', t', refused_trace, trace', equal _ _ trace' same⟩, notices⟩
  decide +kernel

end Rekey.Run
