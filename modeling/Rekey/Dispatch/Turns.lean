import Rekey.Dispatch.Basic
/-! # Driving a dispatcher over a prepared source

The source is a queue that may be filled while the dispatcher runs; when it is empty the source
waits. After each command the dispatcher goes as far as it can without another one. Pulling goes
before delivering, so that a failure of the source is known before a further window is begun. -/
namespace Rekey.Dispatch

variable {α : Type}

inductive Supply (α : Type) where
  | window (records : List α)
  | failure (failure : Failure)
  | ending
  deriving Repr

structure Drive (α : Type) where
  dispatch : State α
  source : List (Supply α)
  deriving Repr

namespace Drive

def event (d : Drive α) (e : Event α) : Drive α := { d with dispatch := d.dispatch.advance e }

def Supply.answer : Supply α → Event α
  | .window records => .arrive records
  | .failure failure => .sourceFail failure
  | .ending => .sourceEnd

def pull? (d : Drive α) : Option (Drive α) :=
  if d.dispatch.isSeeking && 0 < d.dispatch.free then some (d.event .acquire)
  else if d.dispatch.isPulling then
    match d.source with
    | [] => none
    | supply :: source => some ({ d with source }.event (Supply.answer supply))
  else none

def deliver? (d : Drive α) : Option (Drive α) :=
  if d.dispatch.consumer == .waiting then
    if !d.dispatch.ready.isEmpty then some (d.event .begin)
    else match d.dispatch.puller with
      | .failed _ => some (d.event .surrender)
      | .ended => some (d.event .conclude)
      | _ => none
  else none

def move? (d : Drive α) : Option (Drive α) := d.pull? <|> d.deliver?

def settle (fuel : Nat) (d : Drive α) : Drive α :=
  match fuel, d.move? with
  | 0, _ | _, none => d
  | fuel + 1, some d => settle fuel d

/-- A window takes at most three moves, and the end of the source two more. -/
def bound (d : Drive α) : Nat := 3 * (d.source.length + d.dispatch.ready.length) + 3

def settled (d : Drive α) : Drive α := d.settle d.bound

def isWaiting (d : Drive α) : Bool := d.dispatch.isRunning && d.dispatch.consumer == .waiting

def request (d : Drive α) : Drive α := (d.event .request).settled

def feed (d : Drive α) (supply : Supply α) : Drive α :=
  { d with source := d.source ++ [supply] }.settled

def done? (d : Drive α) (index : Nat) : Option (Except Failure (Drive α)) :=
  (d.dispatch.delivery? index).map fun _ =>
    (d.dispatch.done index).map fun _ => (d.event (.done index)).settled

def close (d : Drive α) : Drive α := d.event .close

inductive Reply (α : Type) where
  | record (record : α) (index : Nat)
  | ended
  | failed (failure : Failure)
  | waiting
  deriving Repr

/-- What the request comes to that was under way in `d` or was made since, if there was one. -/
def reply (earlier d : Drive α) : Reply α :=
  match d.dispatch.delivered with
  | delivery :: rest =>
    if earlier.dispatch.delivered.length ≤ rest.length then .record delivery.record rest.length
    else ending
  | [] => ending
where
  ending : Reply α :=
    match earlier.dispatch.isRunning, d.dispatch.status with
    | _, .running => .waiting
    | true, .failed failure => .failed failure
    | _, _ => .ended

end Drive
end Rekey.Dispatch
