import Rekey.Counter.Registry
import Rekey.Record
import Rekey.Retry.Policy
/-! # Migrating records under a concurrency limit

Records are taken from a stream one at a time, counted as inspected, and migrated each in a task of
its own. A task needs one of a fixed number of slots and keeps it for its whole life, waits between
attempts included. A record that cannot be migrated is logged and counted as abandoned and never
stops the others. In a dry run the store is never called.

When the stream fails or the run is cancelled, tasks under way are cut off. A task that had not
started leaves no trace, and neither does a record that still waits for a slot. -/
namespace Rekey.Migration

open Counter (Tally)
open Retry (Policy)

inductive Stage where
  | created
  | calling
  | sleeping (delay : Float)
  deriving DecidableEq, Repr

/-- The migration of one record. Records are numbered in the order in which they were inspected. -/
structure Task where
  number : Nat
  record : Record
  retries : Nat
  stage : Stage
  deriving DecidableEq, Repr

/-- How a record has ended: skipped in a dry run, where nothing is tried, or cut off by a
cancellation, among others. -/
inductive Ending where
  | written
  | unchanged
  | skipped
  | abandoned (failure : Failure)
  | cutOff
  deriving Repr

inductive Supply where
  | flowing
  | ended
  deriving DecidableEq, Repr

inductive Status where
  | running
  | finished
  | failed (failure : Failure)
  | cancelled
  deriving Repr

structure Settled where
  number : Nat
  record : Record
  ending : Ending
  deriving Repr

/-- The state of the migrations. `tasks` holds the unfinished ones, those that acted last at the
end; the histories `calls`, `delays`, `settled` and `notices` are newest first. -/
structure State where
  dryRun : Bool
  limit : Nat
  policy : Policy Float
  free : Nat
  waiting : Option Task
  tasks : List Task
  supply : Supply
  status : Status
  tally : Tally
  calls : List Record
  delays : List Float
  settled : List Settled
  notices : List Notice
  deriving Repr

def start (dryRun : Bool) (limit : Nat) (policy : Policy Float) : State :=
  ⟨dryRun, limit, policy, limit, none, [], .flowing, .running, .zero, [], [], [], []⟩

/-- The store answers a task with an outcome; the fraction is for a random delay that may follow. -/
inductive Event where
  | inspect (record : Record)
  | assign
  | start (number : Nat)
  | answer (number : Nat) (outcome : Except Failure Bool) (fraction : Float)
  | wake (number : Nat)
  | streamEnd
  | streamFail (failure : Failure)
  | finish
  | cancel

namespace State

def isRunning (s : State) : Bool :=
  match s.status with
  | .running => true
  | _ => false

def isReady (s : State) : Bool := s.isRunning && s.waiting.isNone && s.supply == .flowing

def task? (s : State) (number : Nat) : Option Task := s.tasks.find? (·.number == number)

/-- Puts a task in a new stage, behind all others. -/
def put (s : State) (t : Task) : State :=
  { s with tasks := s.tasks.filter (·.number != t.number) ++ [t] }

def settle (s : State) (t : Task) (ending : Ending) : State :=
  { s with
    tasks := s.tasks.filter (·.number != t.number)
    free := s.free + 1
    settled := ⟨t.number, t.record, ending⟩ :: s.settled }

def abort (s : State) (status : Status) : State :=
  let underWay := s.tasks.filter (·.stage != .created)
  { s with
    tasks := []
    waiting := none
    free := s.free + s.tasks.length
    settled := (underWay.map fun t => ⟨t.number, t.record, .cutOff⟩).reverse ++ s.settled
    status }

def call (s : State) (t : Task) : State :=
  { s.put { t with stage := .calling } with calls := t.record :: s.calls }

def describe (record : Record) : String := "migration of " ++ record.key

def verdict (s : State) (t : Task) (failure : Failure) (fraction : Float) : Retry.Verdict Float :=
  s.policy.verdict Failure.isTransient t.retries failure fraction

def fail (s : State) (t : Task) (failure : Failure) (fraction : Float) : State :=
  if failure.isOrdinary then
    match s.verdict t failure fraction with
    | .pause delay _ =>
      { s.put { t with retries := t.retries + 1, stage := .sleeping delay } with
        delays := delay :: s.delays
        notices := .retrying (describe t.record) (t.retries + 2) s.policy.maxAttempts delay failure
          :: s.notices }
    | .surface failure =>
      { s.settle t (.abandoned failure) with
        tally := { s.tally with abandoned := s.tally.abandoned + 1 }
        notices := .recordAbandoned t.record.key failure :: s.notices }
  else
    let s := s.settle t .cutOff
    if s.supply = .ended then s.abort .cancelled else s

def answer (s : State) (t : Task) (outcome : Except Failure Bool) (fraction : Float) : State :=
  match outcome with
  | .ok true =>
    { s.settle t .written with tally := { s.tally with migrated := s.tally.migrated + 1 } }
  | .ok false => s.settle t .unchanged
  | .error failure => s.fail t failure fraction

def draws (s : State) (number : Nat) (outcome : Except Failure Bool) : Bool :=
  match s.task? number, outcome with
  | some t, .error failure =>
    match s.verdict t failure 0 with
    | .pause _ drew => drew
    | .surface _ => false
  | _, _ => false

def stageIs (s : State) (number : Nat) (p : Stage → Bool) : Bool :=
  match s.task? number with
  | some t => p t.stage
  | none => false

def Enabled (s : State) : Event → Prop
  | .inspect _ | .streamEnd | .streamFail _ => s.isReady = true
  | .assign => s.isRunning = true ∧ s.waiting.isSome = true ∧ 0 < s.free
  | .start number => s.isRunning = true ∧ s.stageIs number (· matches .created) = true
  | .answer number .. => s.isRunning = true ∧ s.stageIs number (· matches .calling) = true
  | .wake number => s.isRunning = true ∧ s.stageIs number (· matches .sleeping _) = true
  | .finish => s.isRunning = true ∧ s.supply = .ended ∧ s.tasks.isEmpty = true
  | .cancel => s.isRunning = true

instance (s : State) (e : Event) : Decidable (s.Enabled e) := by
  cases e <;> unfold Enabled <;> infer_instance

def next (s : State) : Event → State
  | .inspect record =>
    { s with
      waiting := some ⟨s.tally.inspected, record, 0, .created⟩
      tally := { s.tally with inspected := s.tally.inspected + 1 } }
  | .assign => match s.waiting with
    | some t => { s with waiting := none, free := s.free - 1, tasks := s.tasks ++ [t] }
    | none => s
  | .start number => match s.task? number with
    | some t => if s.dryRun then s.settle t .skipped else s.call t
    | none => s
  | .answer number outcome fraction => match s.task? number with
    | some t => s.answer t outcome fraction
    | none => s
  | .wake number => match s.task? number with
    | some t => s.call t
    | none => s
  | .streamEnd => { s with supply := .ended }
  | .streamFail failure => s.abort (.failed failure)
  | .finish => { s with status := .finished }
  | .cancel => s.abort .cancelled

def advance (s : State) (e : Event) : State := if s.Enabled e then s.next e else s

/-- The records that have been settled since an earlier state, oldest first. -/
def settledSince (s earlier : State) : List Settled :=
  (s.settled.take (s.settled.length - earlier.settled.length)).reverse

def calling (s : State) : List Task := s.tasks.filter (·.stage matches .calling)

def sleeping (s : State) : List (Task × Float) :=
  s.tasks.filterMap fun t => match t.stage with
    | .sleeping delay => some (t, delay)
    | _ => none

end State

inductive Step : State → Event → State → Prop where
  | intro {s : State} {e : Event} (enabled : s.Enabled e) : Step s e (s.next e)

/-- What comes of a pause that itself fails. The record is abandoned; a cancellation acts as one
out of the store. -/
def State.failPause (s : State) (t : Task) (failure : Failure) : State :=
  if failure.isOrdinary then
    { s.settle t (.abandoned failure) with
      tally := { s.tally with abandoned := s.tally.abandoned + 1 }
      notices := .recordAbandoned t.record.key failure :: s.notices }
  else s.fail t failure 0

inductive Act where
  | event (e : Event)
  | pauseFails (number : Nat) (failure : Failure)

/-- A step, or the failure of a pause. -/
inductive ActStep : State → Act → State → Prop where
  | event {s u : State} {e : Event} : Step s e u → ActStep s (.event e) u
  | pauseFails {s : State} {t : Task} {delay : Float} {failure : Failure} :
    s.isRunning = true → s.task? t.number = some t → t.stage = .sleeping delay →
    ActStep s (.pauseFails t.number failure) (s.failPause t failure)

def checkLimit (limit : Int) : Except Failure Nat :=
  if limit < 1 then .error (.invalid "max_concurrency" (.int limit) "must be >= 1")
  else .ok limit.toNat

end Rekey.Migration
