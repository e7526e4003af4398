import Rekey.Dispatch.Slot
import Rekey.Migration.Basic
import Rekey.Scripted.Chance
/-! # Taking turns in a migration

One way to drive the migration of records that are fed in windows: the consumer of the stream and
the tasks take turns in the order in which they become able to act, and each acts until it has to
wait. The store answers only from outside, and so does a gated sleep. Every move is an event of the
migration.

A task that ends by a cancellation of its own is put away in a later turn. If the consumer comes to
the end of the stream before that, the cancellation ends the whole.

Each fed window has a slot that counts its unresolved records. -/
namespace Rekey.Migration

open Dispatch (Slot)
open Scripted (Chance)

/-- Whose turn it is. A task that was cut off is put away, or it ends the whole. -/
inductive Turn where
  | consumer
  | task (number : Nat)
  | putAway (number : Nat)
  | breakOff
  deriving DecidableEq, Repr

inductive Supplied where
  | record (record : Record)
  | failure (failure : Failure)
  | ending
  deriving Repr

inductive Want where
  | nothing
  | supply
  | slot
  | tasks
  deriving DecidableEq, Repr

/-- A migration on its way. `owners` has the window of each record in the order of feeding, which is
the order in which records are inspected and numbered. `cutOff` has the tasks that were cut off by a
cancellation of their own and are not put away. -/
structure Drive where
  migration : State
  chance : Chance
  gatedSleep : Bool
  begun : Bool
  stream : List Supplied
  windows : List Slot
  owners : List Nat
  turns : List Turn
  want : Want
  cutOff : List Nat
  deriving Repr

namespace Drive

def new (migration : State) (chance : Chance) (gatedSleep : Bool) : Drive :=
  ⟨migration, chance, gatedSleep, false, [], [], [], [], .nothing, []⟩

def push (d : Drive) (t : Turn) : Drive := { d with turns := d.turns ++ [t] }

def keep (d : Drive) (t : Turn) : Drive := { d with turns := t :: d.turns }

def resolve (windows : List Slot) (window : Nat) : List Slot :=
  windows.modify window fun slot => match slot.recordDone with
    | .ok slot => slot
    | .error _ => slot

def event (d : Drive) (e : Event) : Drive :=
  let migration := d.migration.advance e
  let windows := (migration.settledSince d.migration).foldl
    (fun windows t => match d.owners[t.number]? with
      | some window => resolve windows window
      | none => windows) d.windows
  { d with migration, windows }

def wake (d : Drive) (want : Want) (there : Bool) : Drive :=
  if d.want == want && there then { d with want := .nothing }.push .consumer else d

def settled (d : Drive) : Drive :=
  (d.wake .slot (0 < d.migration.free)).wake .tasks d.migration.tasks.isEmpty

def consumer (d : Drive) : Drive :=
  if !d.migration.isRunning then d
  else match d.migration.waiting with
    | some t =>
      if 0 < d.migration.free then ((d.event .assign).push (.task t.number)).keep .consumer
      else { d with want := .slot }
    | none =>
      if d.migration.supply == .ended then
        if d.migration.tasks.isEmpty then d.event .finish else { d with want := .tasks }
      else match d.stream with
        | [] => { d with want := .supply }
        | .record record :: stream => ({ d with stream }.event (.inspect record)).keep .consumer
        | .failure failure :: stream => { d with stream }.event (.streamFail failure)
        | .ending :: stream =>
          let d := { d with stream }.event .streamEnd
          (if d.cutOff.isEmpty then d else d.push .breakOff).keep .consumer

def task (d : Drive) (number : Nat) : Drive :=
  let d := if d.migration.stageIs number (· matches .created) then d.event (.start number)
    else d.event (.wake number)
  if d.migration.stageIs number (· matches .calling) then d else d.settled

def act (d : Drive) : Turn → Drive
  | .consumer => d.consumer
  | .task number => d.task number
  | .putAway number => { d with cutOff := d.cutOff.filter (· != number) }
  | .breakOff => d.event .cancel

def settle (fuel : Nat) (d : Drive) : Drive :=
  match fuel, d.turns with
  | 0, _ | _, [] => d
  | fuel + 1, t :: turns => settle fuel ({ d with turns }.act t)

def patience : Nat := Nat.pow 10 15

def begin (d : Drive) : Drive :=
  if d.begun then d else ({ d with begun := true }.push .consumer).settle patience

def supply (d : Drive) (supplied : List Supplied) : Drive :=
  ({ d with stream := d.stream ++ supplied }.wake .supply (!supplied.isEmpty)).settle patience

def feed (d : Drive) (records : List Record) : Drive :=
  { d with
    windows := d.windows ++ [Slot.opened records.length]
    owners := d.owners ++ records.map fun _ => d.windows.length
  }.supply (records.map .record)

/-- A task has ended with an outcome. If that is a cancellation, the task remains to be put away. -/
def concluded (d : Drive) (number : Nat) (outcome : Except Failure Bool) : Drive :=
  match outcome with
  | .ok _ => d.settled
  | .error failure =>
    if failure.isOrdinary then d.settled
    else { d.settled with cutOff := d.cutOff ++ [number] }.push (.putAway number)

def answer (d : Drive) (number : Nat) (outcome : Except Failure Bool) : Drive :=
  let drew := d.migration.draws number outcome
  let d := d.event (.answer number outcome d.chance.fraction)
  let d := if drew then { d with chance := d.chance.drawn } else d
  if d.migration.stageIs number (· matches .sleeping _) then
    if d.gatedSleep then d else d.push (.task number)
  else d.concluded number outcome

def finish? (d : Drive) (key : String) (outcome : Except Failure Bool) : Option Drive :=
  (d.migration.calling.find? (·.record.key == key)).map fun t =>
    (d.answer t.number outcome).settle patience

def wake? (d : Drive) (index : Nat) : Option Drive :=
  (d.migration.sleeping[index]?).map fun (t, _) => (d.push (.task t.number)).settle patience

def cancel (d : Drive) : Drive := if d.begun then d.event .cancel else d

def released (d : Drive) : List Nat :=
  (d.windows.zipIdx.filter fun (slot, _) => 0 < slot.released).map (·.2)

end Drive
end Rekey.Migration
