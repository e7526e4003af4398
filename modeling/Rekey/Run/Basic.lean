import Rekey.Config
import Rekey.Dispatch.Basic
import Rekey.Migration.Basic
import Rekey.Scan.Basic
import Rekey.Window.Assembly
/-! # A run

A run joins the stages: the scan's queue feeds the windows, the dispatcher pulls windows and
delivers their records, and the migration takes each record delivered and marks it done. Here the
stages are put side by side, and an event of the run is an event of one stage together with what
follows from it in the others.

The events of a run say all that is left open: which reader or task acts, what the store answers, in
which order a window comes out, which fraction a random delay uses, and what the clock shows. -/
namespace Rekey.Run

open Counter (Tally)

inductive Status where
  | running
  | completed (summary : Summary)
  | failed (failure : Failure)
  | cancelled
  deriving Repr

/-- The state of a run. `held` is the part of a window gathered so far, newest first. `baseline` is
what the run's counters showed before it, and `labelledDry` how they are labelled. -/
structure State where
  config : Config
  labelledDry : Value
  baseline : Tally
  startedAt : Float
  scanning : Bool
  scan : Scan.State Record
  held : List Record
  dispatch : Dispatch.State Record
  migration : Migration.State
  status : Status
  notices : List Notice
  deriving Repr

def start (config : Config) (labelledDry : Value) (baseline : Tally) (startedAt : Float) :
    State where
  config
  labelledDry
  baseline
  startedAt
  scanning := false
  scan := Scan.start config.segments config.queueCapacity
  held := []
  dispatch := Dispatch.start config.maxWindows
  migration := Migration.start config.isDry config.maxConcurrency config.retry
  status := .running
  notices := [.runStarted config.dryRun config.segments config.buffer config.maxConcurrency]

/-- The puller takes an entry of the queue by `collect`, and the last, shorter window by `flush`. The
records of a window come out in `order`. -/
inductive Event where
  | read (segment : Nat) (answer : Answer Record)
  | put (segment : Nat)
  | acquire
  | collect (order : List Record)
  | flush (order : List Record)
  | exhaust
  | request
  | begin
  | surrender
  | conclude
  | assign
  | start (number : Nat)
  | answer (number : Nat) (outcome : Except Failure Bool) (fraction : Float)
  | wake (number : Nat)
  | finish (now : Float)
  | cancel

namespace State

def isRunning (s : State) : Bool :=
  match s.status with
  | .running => true
  | _ => false

def scanEnded (s : State) : Bool :=
  match s.scan.status with
  | .ended => true
  | _ => false

/-- The window that the next entry of the queue completes. -/
def completes? (s : State) : Option (List Record) :=
  match s.scan.queue with
  | .item _ record :: _ => (Window.push s.config.buffer s.held record).1
  | _ => none

def allows (window : Option (List Record)) (order : List Record) : Bool :=
  match window with
  | some window => order.isPerm window
  | none => order.isEmpty

/-- Ends the run with the migration, when that has failed or was cancelled. Everything stops. -/
def close (s : State) : State :=
  let stop (status : Status) : State :=
    { s with
      status
      scan := if s.scan.isRunning then s.scan.shut .closed else s.scan
      dispatch := if s.dispatch.isRunning then s.dispatch.shut .closed else s.dispatch }
  match s.migration.status with
  | .failed failure => stop (.failed failure)
  | .cancelled => stop .cancelled
  | _ => s

/-- An event of the migration. Records that it settles are marked done. -/
def migrate (s : State) (e : Migration.Event) : State :=
  let migration := s.migration.next e
  let dispatch := (migration.settledSince s.migration).foldl
    (fun d t => d.next (.done t.number)) s.dispatch
  { s with migration, dispatch }.close

def deliver (s : State) (record : Option Record) (e : Dispatch.Event Record) : State :=
  let s := { s with dispatch := s.dispatch.next e }
  match record, s.dispatch.status with
  | some record, _ => { s with migration := s.migration.next (.inspect record) }
  | none, .failed failure => s.migrate (.streamFail failure)
  | none, _ => s

def collect (s : State) (order : List Record) : State :=
  let scan := s.scan.take
  match s.scan.queue with
  | .item _ record :: _ =>
    match Window.push s.config.buffer s.held record with
    | (some _, held) => { s with scan, held, dispatch := s.dispatch.next (.arrive order) }
    | (none, held) => { s with scan, held }
  | _ =>
    match scan.status with
    | .failed failure =>
      { s with scan, held := [], dispatch := s.dispatch.next (.sourceFail failure) }
    | _ => { s with scan }

def tally (s : State) : Tally := s.baseline.plus s.migration.tally

def summary (s : State) (now : Float) : Summary :=
  Counter.Metrics.summaryOf s.labelledDry s.tally (now - s.startedAt)

def Enabled (s : State) (e : Event) : Prop :=
  s.isRunning = true ∧
  match e with
  | .read segment reply => s.scanning = true ∧ s.scan.Enabled (.read segment reply)
  | .put segment => s.scanning = true ∧ s.scan.Enabled (.put segment)
  | .acquire => s.dispatch.Enabled .acquire
  | .collect order =>
    s.dispatch.isPulling = true ∧ s.scan.Enabled .take ∧ allows s.completes? order = true
  | .flush order =>
    s.dispatch.isPulling = true ∧ s.scanEnded = true ∧ s.held.isEmpty = false ∧
      order.isPerm s.held.reverse = true
  | .exhaust => s.dispatch.isPulling = true ∧ s.scanEnded = true ∧ s.held.isEmpty = true
  | .request => s.migration.isReady = true ∧ s.dispatch.Enabled .request
  | .begin => s.dispatch.Enabled .begin
  | .surrender => s.dispatch.Enabled .surrender
  | .conclude => s.dispatch.Enabled .conclude
  | .assign => s.migration.Enabled .assign
  | .start number => s.migration.Enabled (.start number)
  | .answer number outcome fraction => s.migration.Enabled (.answer number outcome fraction)
  | .wake number => s.migration.Enabled (.wake number)
  | .finish _ => s.migration.Enabled .finish
  | .cancel => True

instance (s : State) (e : Event) : Decidable (s.Enabled e) := by
  cases e <;> unfold Enabled <;> infer_instance

def next (s : State) : Event → State
  | .read segment reply => { s with scan := s.scan.next (.read segment reply) }
  | .put segment => { s with scan := s.scan.next (.put segment) }
  | .acquire => { s with scanning := true, dispatch := s.dispatch.next .acquire }
  | .collect order => s.collect order
  | .flush order => { s with held := [], dispatch := s.dispatch.next (.arrive order) }
  | .exhaust => { s with dispatch := s.dispatch.next .sourceEnd }
  | .request => s.deliver s.dispatch.current.head? .request
  | .begin => s.deliver (s.dispatch.ready.head?.bind (·.head?)) .begin
  | .surrender => s.deliver none .surrender
  | .conclude =>
    { s with
      dispatch := s.dispatch.next .conclude
      migration := s.migration.next .streamEnd }
  | .assign => { s with migration := s.migration.next .assign }
  | .start number => s.migrate (.start number)
  | .answer number outcome fraction => s.migrate (.answer number outcome fraction)
  | .wake number => s.migrate (.wake number)
  | .finish now =>
    { s with
      migration := s.migration.next .finish
      status := .completed (s.summary now)
      notices := .runCompleted (s.summary now) :: s.notices }
  | .cancel => s.migrate .cancel

def advance (s : State) (e : Event) : State := if s.Enabled e then s.next e else s

def log (s : State) : List Notice := s.notices ++ s.scan.notices ++ s.migration.notices

def produced (s : State) : List Record := s.scan.readers.flatMap (·.produced)

end State

def Event.Follows (source : Nat → Stream Record) (s : State) : Event → Prop
  | .read segment reply => Scan.Event.Follows source s.scan (.read segment reply)
  | _ => True

inductive Step (source : Nat → Stream Record) : State → Event → State → Prop where
  | intro {s : State} {e : Event} (enabled : s.Enabled e) (follows : e.Follows source s) :
    Step source s e (s.next e)

end Rekey.Run
