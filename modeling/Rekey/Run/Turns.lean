import Rekey.Run.Basic
import Rekey.Scripted.Chance
import Rekey.Store
/-! # Taking turns

One way to drive a run: its parts take turns in the order in which they become able to act, and
whoever has the turn acts until it has to wait. Every move is an event of the run and is made only
when its guard holds, so a driven run is a sequence of its steps.

Readers that need room stand in line, and each entry taken lets the first of them try again. A
consumer that waits for a window is told of it in two turns: one fetches the window, one signals.

A task that ends by a cancellation of its own is put away in a later turn. If the consumer comes to
the end of the windows before that, the cancellation ends the run. -/
namespace Rekey.Run

open Scripted (Chance readingAt)

variable {σ : Type}

/-- Whose turn it is. `fetch` gets the window that the consumer waits for, and `signal` wakes it in
its wait of a number. -/
inductive Turn where
  | reader (segment : Nat)
  | puller
  | fetch
  | signal (wait : Nat)
  | consumer
  | task (number : Nat)
  | putAway (number : Nat)
  | breakOff
  deriving DecidableEq, Repr

/-- Who waits for what. Readers wait for room in `line`, first come first. A window, or the end of
all, may have been fetched for the consumer, and its present wait, of number `wait`, signalled. -/
structure Waits where
  line : List Nat
  pullerForEntry : Bool
  pullerForSlot : Bool
  fetchForWindow : Bool
  fetched : Bool
  wait : Nat
  signalled : Bool
  consumerForSlot : Bool
  consumerForTasks : Bool
  deriving Repr

def Waits.none : Waits := ⟨[], false, false, false, false, 0, true, false, false⟩

/-- A run on its way, with what surrounds it. A gated store or sleep answers only from outside.
`cutOff` has the tasks that were cut off by a cancellation of their own and are not put away, each
with its cancellation, and `cancellation` the one that ends the run. -/
structure Drive (σ : Type) where
  run : State
  store : Store σ
  world : σ
  chance : Chance
  clock : List Float
  gatedStore : Bool
  gatedSleep : Bool
  turns : List Turn
  waits : Waits
  cutOff : List (Nat × Failure)
  cancellation : Option Failure

namespace Drive

def push (d : Drive σ) (turns : List Turn) : Drive σ := { d with turns := d.turns ++ turns }

def event (d : Drive σ) (e : Event) : Drive σ := { d with run := d.run.advance e }

def keep (d : Drive σ) (t : Turn) : Drive σ := { d with turns := t :: d.turns }

def wakePullerForEntry (d : Drive σ) : Drive σ :=
  if d.waits.pullerForEntry then
    { d with waits := { d.waits with pullerForEntry := false } }.push [.puller]
  else d

def wakePullerForSlot (d : Drive σ) : Drive σ :=
  if d.waits.pullerForSlot && 0 < d.run.dispatch.free then
    { d with waits := { d.waits with pullerForSlot := false } }.push [.puller]
  else d

def wakeFetch (d : Drive σ) : Drive σ :=
  if d.waits.fetchForWindow then
    { d with waits := { d.waits with fetchForWindow := false } }.push [.fetch]
  else d

def wakeConsumerForSlot (d : Drive σ) : Drive σ :=
  if d.waits.consumerForSlot && 0 < d.run.migration.free then
    { d with waits := { d.waits with consumerForSlot := false } }.push [.consumer]
  else d

def wakeConsumerForTasks (d : Drive σ) : Drive σ :=
  if d.waits.consumerForTasks && d.run.migration.tasks.isEmpty then
    { d with waits := { d.waits with consumerForTasks := false } }.push [.consumer]
  else d

def wakeReader (d : Drive σ) : Drive σ :=
  match d.waits.line with
  | [] => d
  | segment :: line => { d with waits := { d.waits with line } }.push [.reader segment]

def signal (d : Drive σ) : Drive σ := d.push [.signal d.waits.wait]

def reader (d : Drive σ) (segment : Nat) : Drive σ :=
  if d.run.scan.isReading segment then
    match d.store.read d.world segment d.run.scan.total with
    | (some answer, world) => ({ d with world }.event (.read segment answer)).keep (.reader segment)
    | (none, world) => { d with world }.keep (.reader segment)
  else if (d.run.scan.offered? segment).isSome then
    if d.run.scan.hasRoom then
      ((d.event (.put segment)).wakePullerForEntry).keep (.reader segment)
    else { d with waits := { d.waits with line := d.waits.line ++ [segment] } }
  else d

def arrange (d : Drive σ) (window : Option (List Record)) : List Record × Drive σ :=
  match window with
  | some window =>
    let (order, chance) := d.chance.reorder window
    (order, { d with chance })
  | none => ([], d)

def puller (d : Drive σ) : Drive σ :=
  if d.run.dispatch.isSeeking then
    if 0 < d.run.dispatch.free then
      let first := !d.run.scanning
      let d := (d.event .acquire).keep .puller
      if first then d.push ((List.range d.run.scan.total).map .reader) else d
    else { d with waits := { d.waits with pullerForSlot := true } }
  else if d.run.dispatch.isPulling then
    if d.run.scanEnded then
      if d.run.held.isEmpty then (d.event .exhaust).wakeFetch
      else
        let (order, d) := d.arrange (some d.run.held.reverse)
        (d.event (.flush order)).wakeFetch.keep .puller
    else if d.run.scan.queue.isEmpty then
      { d with waits := { d.waits with pullerForEntry := true } }
    else
      let (order, d) := d.arrange d.run.completes?
      let d := (d.event (.collect order)).wakeReader
      if d.run.dispatch.isPulling then d.keep .puller
      else if d.run.dispatch.isSeeking then d.wakeFetch.keep .puller
      else d.signal
  else d

def fetch (d : Drive σ) : Drive σ :=
  let ended := match d.run.dispatch.puller with
    | .ended => true
    | _ => false
  if ended || !d.run.dispatch.ready.isEmpty then
    { d with waits := { d.waits with fetched := true } }.signal
  else { d with waits := { d.waits with fetchForWindow := true } }

/-- The consumer has asked for a record. It acts on if it got one; else it waits for a window. When
the source has ended there is nothing to wait for. -/
def afterRequest (d : Drive σ) : Drive σ :=
  if d.run.isRunning && d.run.dispatch.consumer == .waiting then
    match d.run.dispatch.puller with
    | .ended => { d with waits := { d.waits with fetched := true } }.keep .consumer
    | _ =>
      { d with
        waits := { d.waits with
          fetched := false, fetchForWindow := false, signalled := false, wait := d.waits.wait + 1 }
      }.push [.fetch]
  else d.keep .consumer

def conclude (d : Drive σ) : Drive σ :=
  let d := d.event .conclude
  match d.cutOff with
  | [] => d
  | (_, failure) :: _ => { d with cancellation := some failure }.push [.breakOff]

def consumer (d : Drive σ) : Drive σ :=
  if !d.run.isRunning then d
  else if d.run.dispatch.consumer == .waiting then
    if d.waits.fetched then
      if d.run.dispatch.ready.isEmpty then d.conclude.keep .consumer
      else (d.event .begin).wakePullerForSlot.afterRequest
    else d.event .surrender
  else if d.run.migration.waiting.isSome then
    if 0 < d.run.migration.free then
      let number := (d.run.migration.waiting.map (·.number)).getD 0
      ((d.event .assign).push [.task number]).keep .consumer
    else { d with waits := { d.waits with consumerForSlot := true } }
  else if d.run.migration.isReady then
    let resting := match d.run.dispatch.puller with
      | .resting => true
      | _ => false
    let d := d.event .request
    (if resting then d.push [.puller] else d).afterRequest
  else if d.run.migration.tasks.isEmpty then d.event (.finish (readingAt d.clock 1))
  else { d with waits := { d.waits with consumerForTasks := true } }

def settled (d : Drive σ) : Drive σ :=
  d.wakeConsumerForSlot.wakePullerForSlot.wakeConsumerForTasks

/-- A task has ended with an outcome. If that is a cancellation, it has ended the run, or the task
remains to be put away. -/
def concluded (d : Drive σ) (number : Nat) (outcome : Except Failure Bool) : Drive σ :=
  match outcome with
  | .ok _ => d.settled
  | .error failure =>
    if failure.isOrdinary then d.settled
    else if d.run.isRunning then
      { d.settled with cutOff := d.cutOff ++ [(number, failure)] }.push [.putAway number]
    else { d with cancellation := d.cancellation.or (some failure) }

def answer (d : Drive σ) (number : Nat) (outcome : Except Failure Bool) : Drive σ :=
  let drew := d.run.migration.draws number outcome
  let d := d.event (.answer number outcome d.chance.fraction)
  let d := if drew then { d with chance := d.chance.drawn } else d
  if d.run.migration.stageIs number (· matches .sleeping _) then
    if d.gatedSleep then d else d.push [.task number]
  else d.concluded number outcome

def task (d : Drive σ) (number : Nat) : Drive σ :=
  let d := if d.run.migration.stageIs number (· matches .created) then
      d.event (.start number)
    else d.event (.wake number)
  if d.run.migration.stageIs number (· matches .calling) then
    if d.gatedStore then d
    else match (d.run.migration.task? number).map (·.record) with
      | some record =>
        let (outcome, world) := d.store.migrate d.world record
        { d with world }.answer number outcome
      | none => d
  else d.settled

def act (d : Drive σ) : Turn → Drive σ
  | .reader segment => d.reader segment
  | .puller => d.puller
  | .fetch => d.fetch
  | .signal wait =>
    if wait == d.waits.wait && !d.waits.signalled then
      { d with waits := { d.waits with signalled := true } }.push [.consumer]
    else d
  | .consumer => d.consumer
  | .task number => d.task number
  | .putAway number => { d with cutOff := d.cutOff.filter (·.1 != number) }
  | .breakOff => d.event .cancel

def settle (fuel : Nat) (d : Drive σ) : Drive σ :=
  match fuel, d.turns with
  | 0, _ | _, [] => d
  | fuel + 1, t :: turns => settle fuel ({ d with turns }.act t)

def patience : Nat := Nat.pow 10 15

def begin (run : State) (store : Store σ) (world : σ) (chance : Chance) (clock : List Float)
    (gatedStore gatedSleep : Bool) : Drive σ :=
  settle patience
    { run, store, world, chance, clock, gatedStore, gatedSleep
      turns := [.consumer]
      waits := .none
      cutOff := []
      cancellation := none }

def whole (config : Config) (labelledDry : Value) (baseline : Counter.Tally) (store : Store σ)
    (world : σ) (chance : Chance) (clock : List Float) : Drive σ :=
  begin (start config labelledDry baseline (readingAt clock 0)) store world chance clock false false

def finish? (d : Drive σ) (key : String) (outcome : Except Failure Bool) : Option (Drive σ) :=
  (d.run.migration.calling.find? (·.record.key == key)).map fun t =>
    settle patience (d.answer t.number outcome)

def wake? (d : Drive σ) (index : Nat) : Option (Drive σ) :=
  (d.run.migration.sleeping[index]?).map fun (t, _) =>
    settle patience (d.push [.task t.number])

def cancel (d : Drive σ) : Drive σ := d.event .cancel

def outcome? (d : Drive σ) : Option (Except Failure Summary) :=
  match d.run.status with
  | .running => none
  | .completed summary => some (.ok summary)
  | .failed failure => some (.error failure)
  | .cancelled => some (.error (d.cancellation.getD (.plain .cancelled "")))

end Drive
end Rekey.Run
