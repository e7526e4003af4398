import Rekey.Run.Basic
import Rekey.Proofs.Dispatch.Mapped
import Rekey.Proofs.Migration.Masked
import Rekey.Proofs.Scan.Mapped

/-! # Runs do not look into the secrets

Secrets may be struck out before a step of a run or after it. -/
namespace Rekey.Run

def State.masked (s : State) : State :=
  { s with
    scan := s.scan.map Record.masked
    held := s.held.map Record.masked
    dispatch := s.dispatch.map Record.masked
    migration := s.migration.masked }

def Event.masked : Event → Event
  | .read segment reply => .read segment (reply.map Record.masked)
  | .collect order => .collect (order.map Record.masked)
  | .flush order => .flush (order.map Record.masked)
  | e => e

theorem push_map {α β : Type} (f : α → β) (size : Nat) (held : List α) (item : α) :
    Window.push size (held.map f) (f item) =
      ((Window.push size held item).1.map (List.map f), (Window.push size held item).2.map f) := by
  unfold Window.push
  rw [← List.map_cons, List.length_map, ← List.map_reverse]
  split <;> rfl

section Steps
variable (s : State)

theorem close_masked : s.masked.close = s.close.masked := by
  have scan : s.masked.scan.isRunning = s.scan.isRunning := rfl
  have dispatch : s.masked.dispatch.isRunning = s.dispatch.isRunning := rfl
  have status : s.masked.migration.status = s.migration.status := rfl
  have scan_shut : s.masked.scan.shut .closed = (s.scan.shut .closed).map Record.masked :=
    Scan.shut_map Record.masked s.scan .closed
  unfold State.close
  rw [scan, dispatch, status, scan_shut]
  cases s.migration.status with
  | running | finished => rfl
  | failed | cancelled => cases s.scan.isRunning <;> cases s.dispatch.isRunning <;> rfl

theorem marks_masked (settled : List Migration.Settled) (d : Dispatch.State Record) :
    (settled.map Migration.Settled.masked).foldl (fun d t => d.next (.done t.number))
        (d.map Record.masked) =
      (settled.foldl (fun d t => d.next (.done t.number)) d).map Record.masked := by
  induction settled generalizing d with
  | nil => rfl
  | cons t rest ih =>
    rw [List.map_cons, List.foldl_cons, List.foldl_cons, ← ih, ← Dispatch.done_map]
    rfl

theorem migrate_masked (e : Migration.Event) : s.masked.migrate e.masked = (s.migrate e).masked := by
  have migration : s.masked.migration.next e.masked = (s.migration.next e).masked :=
    Migration.next_masked s.migration e
  have settled : (s.migration.next e).masked.settledSince s.masked.migration =
      ((s.migration.next e).settledSince s.migration).map Migration.Settled.masked :=
    Migration.settledSince_masked s.migration (s.migration.next e)
  have marks := marks_masked ((s.migration.next e).settledSince s.migration) s.dispatch
  unfold State.migrate
  dsimp only
  rw [migration, settled, show s.masked.dispatch = s.dispatch.map Record.masked from rfl, marks,
    ← close_masked]
  rfl

theorem deliver_masked (record : Option Record) (e : Dispatch.Event Record) :
    s.masked.deliver (record.map Record.masked) (e.map Record.masked) =
      (s.deliver record e).masked := by
  have dispatch : s.masked.dispatch.next (e.map Record.masked) =
      (s.dispatch.next e).map Record.masked := Dispatch.next_map Record.masked s.dispatch e
  have status : ((s.dispatch.next e).map Record.masked).status = (s.dispatch.next e).status := rfl
  unfold State.deliver
  rw [dispatch]
  cases record with
  | some record => rfl
  | none =>
    dsimp only [Option.map_none]
    rw [status]
    cases (s.dispatch.next e).status with
    | failed failure =>
      exact migrate_masked { s with dispatch := s.dispatch.next e } (.streamFail failure)
    | running | ended | closed => rfl

theorem collect_masked (order : List Record) :
    s.masked.collect (order.map Record.masked) = (s.collect order).masked := by
  have scan : s.masked.scan.take = s.scan.take.map Record.masked :=
    Scan.take_map Record.masked s.scan
  have queue : s.masked.scan.queue = s.scan.queue.map (Scan.Entry.map Record.masked) := rfl
  have status : (s.scan.take.map Record.masked).status = s.scan.take.status := rfl
  unfold State.collect
  rw [scan, queue]
  cases s.scan.queue with
  | nil =>
    dsimp only [List.map_nil]
    rw [status]
    cases s.scan.take.status <;> rfl
  | cons entry later =>
    cases entry with
    | item segment record =>
      have pushed : Window.push s.masked.config.buffer s.masked.held record.masked = _ :=
        push_map Record.masked s.config.buffer s.held record
      have arrived : s.masked.dispatch.next (.arrive (order.map Record.masked)) =
        (s.dispatch.next (.arrive order)).map Record.masked :=
        Dispatch.arrive_map Record.masked s.dispatch order
      simp only [List.map_cons, Scan.Entry.map]
      rw [pushed, arrived]
      obtain ⟨window, held⟩ := Window.push s.config.buffer s.held record
      cases window <;> rfl
    | done | failed =>
      simp only [List.map_cons, Scan.Entry.map]
      rw [status]
      cases s.scan.take.status <;> rfl

theorem next_masked (e : Event) : s.masked.next e.masked = (s.next e).masked := by
  cases e with
  | read segment answer =>
    have scan : s.masked.scan.next (.read segment (answer.map Record.masked)) =
        (s.scan.next (.read segment answer)).map Record.masked :=
      Scan.next_map Record.masked s.scan (.read segment answer)
    simp only [State.next, Event.masked, scan]
    rfl
  | put segment =>
    have scan : s.masked.scan.next (.put segment) =
        (s.scan.next (.put segment)).map Record.masked :=
      Scan.next_map Record.masked s.scan (.put segment)
    simp only [State.next, Event.masked, scan]
    rfl
  | collect order => exact collect_masked s order
  | flush order =>
    have arrived : s.masked.dispatch.next (.arrive (order.map Record.masked)) =
        (s.dispatch.next (.arrive order)).map Record.masked :=
      Dispatch.arrive_map Record.masked s.dispatch order
    simp only [State.next, Event.masked, arrived]
    rfl
  | request =>
    have current : s.masked.dispatch.current.head? =
        s.dispatch.current.head?.map Record.masked := List.head?_map
    simp only [State.next, Event.masked, current]
    exact deliver_masked s _ .request
  | begin =>
    have ready : (s.masked.dispatch.ready.head?.bind (·.head?)) =
        (s.dispatch.ready.head?.bind (·.head?)).map Record.masked := by
      show ((s.dispatch.ready.map (List.map Record.masked)).head?.bind _) = _
      rw [List.head?_map]
      cases s.dispatch.ready.head? with
      | none => rfl
      | some window => exact List.head?_map
    simp only [State.next, Event.masked, ready]
    exact deliver_masked s _ .begin
  | surrender => exact deliver_masked s none .surrender
  | assign =>
    have migration : s.masked.migration.next .assign = (s.migration.next .assign).masked :=
      Migration.next_masked s.migration .assign
    simp only [State.next, Event.masked, migration]
    rfl
  | start number => exact migrate_masked s (.start number)
  | answer number outcome fraction => exact migrate_masked s (.answer number outcome fraction)
  | wake number => exact migrate_masked s (.wake number)
  | cancel => exact migrate_masked s .cancel
  | acquire | exhaust | conclude | finish => rfl

theorem completes?_masked :
    s.masked.completes? = s.completes?.map (List.map Record.masked) := by
  have queue : s.masked.scan.queue = s.scan.queue.map (Scan.Entry.map Record.masked) := rfl
  unfold State.completes?
  rw [queue]
  cases s.scan.queue with
  | nil => rfl
  | cons entry later =>
    cases entry with
    | item segment record =>
      have pushed : Window.push s.masked.config.buffer s.masked.held record.masked = _ :=
        push_map Record.masked s.config.buffer s.held record
      simp only [List.map_cons, Scan.Entry.map]
      rw [pushed]
    | done | failed => rfl

theorem allows_masked {window : Option (List Record)} {order : List Record}
    (h : State.allows window order = true) :
    State.allows (window.map (List.map Record.masked)) (order.map Record.masked) = true := by
  cases window with
  | none => exact List.isEmpty_map.trans h
  | some window => exact List.isPerm_iff.mpr ((List.isPerm_iff.mp h).map Record.masked)

/-- The list of records in an event, which has to agree with the state. -/
def Event.order? : Event → Option (List Record)
  | .collect order | .flush order => some order
  | _ => none

theorem enabled_masked {e : Event} (plain : e.order? = none) :
    s.masked.Enabled e.masked ↔ s.Enabled e := by
  cases e with
  | read segment answer =>
    exact and_congr_right fun _ => and_congr_right fun _ =>
      Scan.enabled_map Record.masked s.scan (.read segment answer)
  | put segment =>
    exact and_congr_right fun _ => and_congr_right fun _ =>
      Scan.enabled_map Record.masked s.scan (.put segment)
  | collect | flush => cases plain
  | exhaust =>
    have held : s.masked.held.isEmpty = s.held.isEmpty := List.isEmpty_map
    show _ ∧ _ ∧ _ ∧ s.masked.held.isEmpty = true ↔ _
    rw [held]
    rfl
  | request =>
    have ready : s.masked.migration.isReady = s.migration.isReady :=
      Migration.isReady_masked s.migration
    show _ ∧ s.masked.migration.isReady = true ∧ _ ↔ _
    rw [ready]
    rfl
  | begin => exact and_congr_right fun _ => Dispatch.enabled_map Record.masked s.dispatch .begin
  | surrender =>
    exact and_congr_right fun _ => Dispatch.enabled_map Record.masked s.dispatch .surrender
  | conclude =>
    exact and_congr_right fun _ => Dispatch.enabled_map Record.masked s.dispatch .conclude
  | assign => exact and_congr_right fun _ => Migration.enabled_masked s.migration .assign
  | start number =>
    exact and_congr_right fun _ => Migration.enabled_masked s.migration (.start number)
  | answer number outcome fraction =>
    exact and_congr_right fun _ =>
      Migration.enabled_masked s.migration (.answer number outcome fraction)
  | wake number => exact and_congr_right fun _ => Migration.enabled_masked s.migration (.wake number)
  | finish now => exact and_congr_right fun _ => Migration.enabled_masked s.migration .finish
  | acquire | cancel => rfl

theorem take_enabled_masked : s.masked.scan.Enabled .take ↔ s.scan.Enabled .take :=
  Scan.enabled_map Record.masked s.scan .take

end Steps

theorem State.Enabled.masked {s : State} {e : Event} (h : s.Enabled e) :
    s.masked.Enabled e.masked := by
  cases e with
  | collect order =>
    obtain ⟨running, pulling, take, allowed⟩ := h
    refine ⟨running, pulling, (take_enabled_masked s).mpr take, ?_⟩
    rw [completes?_masked]
    exact allows_masked allowed
  | flush order =>
    obtain ⟨running, pulling, ended, held, perm⟩ := h
    refine ⟨running, pulling, ended, List.isEmpty_map.trans held, List.isPerm_iff.mpr ?_⟩
    rw [show s.masked.held = s.held.map Record.masked from rfl, ← List.map_reverse]
    exact (List.isPerm_iff.mp perm).map Record.masked
  | _ => exact (enabled_masked s rfl).mpr h

end Rekey.Run
