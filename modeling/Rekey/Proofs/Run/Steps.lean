import Rekey.Run.Basic
import Rekey.Proofs.Dispatch.Delivery
import Rekey.Proofs.Migration.Attempts
import Rekey.Proofs.Scan.Conservation

/-! # What the steps of a run do

Each event of a run moves one stage, or hands something from one stage to the next. The cases below
say which; nothing else about the definitions of the steps is needed further on. -/
namespace Rekey.Run

def Event.Ordinary : Event → Prop
  | .answer _ (.error failure) _ => failure.isOrdinary = true
  | .cancel => False
  | _ => True

def Event.task? : Event → Option Migration.Event
  | .start number => some (.start number)
  | .answer number outcome fraction => some (.answer number outcome fraction)
  | .wake number => some (.wake number)
  | _ => none

/-- The cases of a step. -/
inductive Change (s : State) : Event → State → Prop where
  | read {segment : Nat} {answer : Answer Record} :
    s.scanning = true → s.scan.Enabled (.read segment answer) →
    Change s (.read segment answer) { s with scan := s.scan.read segment answer }
  | put {segment : Nat} : s.scanning = true → s.scan.Enabled (.put segment) →
    Change s (.put segment) { s with scan := s.scan.put segment }
  | acquire : s.dispatch.puller = .seeking → 0 < s.dispatch.free →
    Change s .acquire { s with scanning := true, dispatch := s.dispatch.next .acquire }
  | gather {segment : Nat} {record : Record} {queue : List (Scan.Entry Record)}
      {held : List Record} {order : List Record} :
    s.dispatch.puller = .pulling → s.scan.isRunning = true →
    s.scan.queue = .item segment record :: queue →
    Window.push s.config.buffer s.held record = (none, held) →
    Change s (.collect order) { s with scan := s.scan.take, held }
  | fill {segment : Nat} {record : Record} {queue : List (Scan.Entry Record)}
      {window held order : List Record} :
    s.dispatch.puller = .pulling → s.scan.isRunning = true →
    s.scan.queue = .item segment record :: queue →
    Window.push s.config.buffer s.held record = (some window, held) → order.Perm window →
    Change s (.collect order)
      { s with scan := s.scan.take, held, dispatch := s.dispatch.arrive order }
  | mark {segment : Nat} {queue : List (Scan.Entry Record)} {order : List Record} :
    s.dispatch.puller = .pulling → s.scan.isRunning = true →
    s.scan.queue = .done segment :: queue →
    Change s (.collect order) { s with scan := s.scan.take }
  | fault {segment : Nat} {cause failure : Failure} {queue : List (Scan.Entry Record)}
      {order : List Record} :
    s.dispatch.puller = .pulling → s.scan.isRunning = true →
    s.scan.queue = .failed segment cause :: queue → s.scan.take.status = .failed failure →
    Change s (.collect order)
      { s with scan := s.scan.take, held := [], dispatch := s.dispatch.next (.sourceFail failure) }
  | flush {order : List Record} : s.dispatch.puller = .pulling → s.scan.status = .ended →
    s.held ≠ [] → order.Perm s.held →
    Change s (.flush order) { s with held := [], dispatch := s.dispatch.arrive order }
  | exhaust : s.dispatch.puller = .pulling → s.scan.status = .ended → s.held = [] →
    Change s .exhaust { s with dispatch := s.dispatch.next .sourceEnd }
  | next {record : Record} {current : List Record} : s.migration.isReady = true →
    s.dispatch.Enabled .request → s.dispatch.current = record :: current →
    Change s .request
      { s with dispatch := s.dispatch.deliver, migration := s.migration.next (.inspect record) }
  | await : s.migration.isReady = true → s.dispatch.Enabled .request → s.dispatch.current = [] →
    (∀ failure, s.dispatch.puller ≠ .failed failure) →
    Change s .request { s with dispatch := s.dispatch.await }
  | begin {record : Record} {current : List Record} {ready : List (List Record)} :
    s.dispatch.Enabled .begin → s.dispatch.ready = (record :: current) :: ready →
    Change s .begin
      { s with dispatch := s.dispatch.begin, migration := s.migration.next (.inspect record) }
  | lose {e : Event} {failure : Failure} {t : State} :
    (e = .request ∧ s.dispatch.current = []) ∨ e = .surrender →
    s.dispatch.puller = .failed failure → t.status = .failed failure → t.config = s.config →
    t.migration = s.migration.abort (.failed failure) → Change s e t
  | conclude : s.dispatch.Enabled .conclude →
    Change s .conclude
      { s with dispatch := s.dispatch.next .conclude, migration := s.migration.next .streamEnd }
  | assign : s.migration.Enabled .assign →
    Change s .assign { s with migration := s.migration.next .assign }
  | move {e : Event} {e' : Migration.Event} {t t' : Migration.Task} {u : Migration.State} :
    e.task? = some e' → Migration.OrdinaryStep s.migration e' u →
    s.migration.task? t.number = some t → Migration.TaskStep s.migration t e' u →
    Migration.Moved s.migration t t' u →
    Change s e { s with migration := u }
  | settle {e : Event} {e' : Migration.Event} {t : Migration.Task} {ending : Migration.Ending}
      {u : Migration.State} :
    e.task? = some e' → Migration.OrdinaryStep s.migration e' u →
    s.migration.task? t.number = some t → Migration.TaskStep s.migration t e' u →
    Migration.Ended s.migration t ending u →
    Change s e { s with migration := u, dispatch := s.dispatch.next (.done t.number) }
  | finish {now : Float} : s.migration.Enabled .finish →
    Change s (.finish now)
      { s with
        migration := s.migration.next .finish
        status := .completed (s.summary now)
        notices := .runCompleted (s.summary now) :: s.notices }

namespace State

theorem isRunning_iff {s : State} : s.isRunning = true ↔ s.status = .running := by
  unfold isRunning; cases s.status <;> simp

theorem scanEnded_iff {s : State} : s.scanEnded = true ↔ s.scan.status = .ended := by
  unfold scanEnded; cases s.scan.status <;> simp

end State

theorem completed_of_matches {s : State} (h : (s.status matches .completed _) = true) :
    ∃ summary, s.status = .completed summary := by
  cases hs : s.status with
  | completed summary => exact ⟨summary, rfl⟩
  | running | failed | cancelled => rw [hs] at h; cases h

section Cases
variable {s : State}

theorem close_of_whole (whole : s.migration.IsWhole) : s.close = s := by
  unfold State.close
  rcases whole with h | h <;> simp [h]

theorem migrate_of_moved {e : Migration.Event} {t t' : Migration.Task} {u : Migration.State}
    (hu : s.migration.next e = u) (moved : Migration.Moved s.migration t t' u)
    (whole : s.migration.IsWhole) : s.migrate e = { s with migration := u } := by
  have hsince : u.settledSince s.migration = [] := by
    simp [Migration.State.settledSince, moved.settled]
  unfold State.migrate
  simp only [hu, hsince, List.foldl_nil]
  exact close_of_whole (s := { s with migration := u }) (moved.isWhole_iff.mpr whole)

theorem migrate_of_ended {e : Migration.Event} {t : Migration.Task} {ending : Migration.Ending}
    {u : Migration.State} (hu : s.migration.next e = u)
    (ended : Migration.Ended s.migration t ending u) (whole : s.migration.IsWhole) :
    s.migrate e = { s with migration := u, dispatch := s.dispatch.next (.done t.number) } := by
  have hsince : u.settledSince s.migration = [⟨t.number, t.record, ending⟩] := by
    simp [Migration.State.settledSince, ended.settled]
  unfold State.migrate
  simp only [hu, hsince, List.foldl_cons, List.foldl_nil]
  exact close_of_whole
    (s := { s with migration := u, dispatch := s.dispatch.next (.done t.number) })
    (ended.isWhole_iff.mpr whole)

theorem change_of_task {e : Event} {e' : Migration.Event} {number : Nat}
    (task : e.task? = some e') (enabled : s.migration.Enabled e') (ordinary : e'.Ordinary)
    (own : e'.number? = some number) (whole : s.migration.IsWhole) : Change s e (s.migrate e') := by
  obtain ⟨t, -, -, ht, -, step⟩ := Migration.taskStep_of_enabled enabled ordinary own
  have hstep := step
  have own : Migration.OrdinaryStep s.migration e' (s.migration.next e') :=
    ⟨.intro enabled, ordinary⟩
  generalize hu : s.migration.next e' = u at step hstep own
  cases step with
  | skip _ _ ended => rw [migrate_of_ended hu ended whole]; exact .settle task own ht hstep ended
  | begin _ _ moved => rw [migrate_of_moved hu moved whole]; exact .move task own ht hstep moved
  | resume _ moved => rw [migrate_of_moved hu moved whole]; exact .move task own ht hstep moved
  | pause _ _ moved => rw [migrate_of_moved hu moved whole]; exact .move task own ht hstep moved
  | conclude _ _ ended => rw [migrate_of_ended hu ended whole]; exact .settle task own ht hstep ended

theorem change_of_failed {e : Event} {failure : Failure} {dispatch : Dispatch.State Record}
    (event : (e = .request ∧ s.dispatch.current = []) ∨ e = .surrender)
    (failed : s.dispatch.puller = .failed failure) :
    Change s e (State.migrate { s with dispatch := dispatch } (.streamFail failure)) :=
  .lose event failed (by simp [State.migrate, State.close, Migration.State.next,
    Migration.State.abort]) (by simp [State.migrate, State.close, Migration.State.next,
    Migration.State.abort]) (by simp [State.migrate, State.close, Migration.State.next,
    Migration.State.abort])

theorem deliver_some (record : Record) (e : Dispatch.Event Record) :
    s.deliver (some record) e = { s with
      dispatch := s.dispatch.next e
      migration := s.migration.next (.inspect record) } := rfl

theorem deliver_none {e : Dispatch.Event Record} (running : (s.dispatch.next e).status = .running) :
    s.deliver none e = { s with dispatch := s.dispatch.next e } := by
  unfold State.deliver
  simp only [running]

theorem deliver_failed {e : Dispatch.Event Record} {failure : Failure}
    (failed : (s.dispatch.next e).status = .failed failure) :
    s.deliver none e =
      State.migrate { s with dispatch := s.dispatch.next e } (.streamFail failure) := by
  unfold State.deliver
  simp only [failed]

theorem await_failed {failure : Failure} (failed : s.dispatch.puller = .failed failure) :
    s.dispatch.await.status = .failed failure := by
  simp [Dispatch.State.await, failed, Dispatch.State.shut]

theorem change_of_collect {order : List Record} (pulling : s.dispatch.puller = .pulling)
    (running : s.scan.isRunning = true) (nonempty : s.scan.queue.isEmpty = false)
    (allowed : State.allows s.completes? order = true) :
    Change s (.collect order) (s.collect order) := by
  cases hq : s.scan.queue with
  | nil => simp [hq] at nonempty
  | cons entry queue =>
    unfold State.collect
    simp only [hq]
    cases entry with
    | item segment record =>
      simp only [State.completes?, hq] at allowed
      rcases hp : Window.push s.config.buffer s.held record with ⟨_ | window, held⟩
      · simp only [hp]
        exact .gather pulling running hq hp
      · simp only [hp, State.allows] at allowed ⊢
        exact .fill pulling running hq hp (List.isPerm_iff.mp allowed)
    | done segment =>
      have hstatus : ∀ failure, s.scan.take.status ≠ .failed failure := by
        intro failure
        have hrunning := Scan.State.isRunning_iff.mp running
        simp only [Scan.State.take, hq]
        split
        · simp [Scan.State.shut]
        · simp [hrunning]
      dsimp only
      cases hs : s.scan.take.status with
      | failed failure => exact absurd hs (hstatus failure)
      | running | ended | closed => exact .mark pulling running hq
    | failed segment cause =>
      obtain ⟨failure, hs⟩ : ∃ failure, s.scan.take.status = .failed failure := by
        simp only [Scan.State.take, hq, Scan.State.shut]
        exact ⟨_, rfl⟩
      dsimp only
      rw [hs]
      exact .fault pulling running hq hs

/-- The cases are all there are. What is asked of the state holds throughout a run. -/
theorem change_of_enabled {e : Event} (enabled : s.Enabled e) (ordinary : e.Ordinary)
    (whole : s.migration.IsWhole) (nonempty : ∀ window ∈ s.dispatch.ready, window ≠ []) :
    Change s e (s.next e) := by
  obtain ⟨-, enabled⟩ := enabled
  cases e with
  | read segment answer => exact .read enabled.1 enabled.2
  | put segment => exact .put enabled.1 enabled.2
  | acquire => exact .acquire (Dispatch.State.isSeeking_iff.mp enabled.1) enabled.2
  | collect order =>
    obtain ⟨pulling, ⟨running, queue⟩, allowed⟩ := enabled
    exact change_of_collect (Dispatch.State.isPulling_iff.mp pulling) running queue allowed
  | flush order =>
    obtain ⟨pulling, ended, held, perm⟩ := enabled
    refine .flush (Dispatch.State.isPulling_iff.mp pulling) (State.scanEnded_iff.mp ended) ?_ ?_
    · intro h; simp [h] at held
    · exact (List.isPerm_iff.mp perm).trans (List.reverse_perm _)
  | exhaust =>
    obtain ⟨pulling, ended, held⟩ := enabled
    exact .exhaust (Dispatch.State.isPulling_iff.mp pulling) (State.scanEnded_iff.mp ended)
      (List.isEmpty_iff.mp held)
  | request =>
    obtain ⟨ready, request⟩ := enabled
    simp only [State.next]
    cases hc : s.dispatch.current with
    | cons record current =>
      have hnext : s.dispatch.next .request = s.dispatch.deliver := by
        simp [Dispatch.State.next, hc]
      rw [List.head?_cons, deliver_some, hnext]
      exact .next ready request hc
    | nil =>
      have hnext : s.dispatch.next .request = s.dispatch.await := by
        simp [Dispatch.State.next, hc]
      rw [List.head?_nil]
      cases hp : s.dispatch.puller with
      | failed failure =>
        rw [deliver_failed (by rw [hnext]; exact await_failed hp)]
        exact change_of_failed (.inl ⟨rfl, hc⟩) hp
      | resting | seeking | pulling | ended | stopped =>
        have hrunning := Dispatch.State.isRunning_iff.mp request.1
        rw [deliver_none (by simp [hnext, Dispatch.State.await, hp, hrunning]), hnext]
        exact .await ready request hc (by simp [hp])
  | begin =>
    obtain ⟨running, waiting, ready⟩ := enabled
    cases hr : s.dispatch.ready with
    | nil => simp [hr] at ready
    | cons window later =>
      obtain ⟨record, current, rfl⟩ := List.exists_cons_of_ne_nil (nonempty window (by simp [hr]))
      simp only [State.next, hr, List.head?_cons, Option.bind_some]
      rw [deliver_some]
      exact .begin ⟨running, waiting, ready⟩ hr
  | surrender =>
    obtain ⟨running, waiting, ready, failed⟩ := enabled
    split at failed
    · next failure hp =>
      have hstatus : (s.dispatch.next .surrender).status = .failed failure := await_failed hp
      rw [State.next, deliver_failed hstatus]
      exact change_of_failed (.inr rfl) hp
    · exact failed.elim
  | conclude => exact .conclude enabled
  | assign => exact .assign enabled
  | start | wake => exact change_of_task rfl enabled ordinary rfl whole
  | answer number outcome fraction =>
    refine change_of_task rfl enabled ?_ rfl whole
    cases outcome with
    | ok => trivial
    | error failure => exact ordinary
  | finish now => exact .finish enabled
  | cancel => exact ordinary.elim

theorem change_of_step {source : Nat → Stream Record} {e : Event} {t : State}
    (step : Step source s e t) (ordinary : e.Ordinary) (whole : s.migration.IsWhole)
    (nonempty : ∀ window ∈ s.dispatch.ready, window ≠ []) : Change s e t := by
  obtain ⟨enabled, -⟩ := step
  exact change_of_enabled enabled ordinary whole nonempty

end Cases

end Rekey.Run
