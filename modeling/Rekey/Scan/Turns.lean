import Rekey.Scan.Basic
/-! # Taking turns in a scan

One way to drive a scan whose consumer asks for one item at a time: readers take turns in the order
in which they become able to act, and each acts until it needs room. Readers that need room stand in
line, and each entry taken lets the first of them try again. Every move is an event of the scan.

Nothing is read before the first request. -/
namespace Rekey.Scan

variable {α σ : Type}

inductive Turn where
  | reader (segment : Nat)
  | consumer
  deriving DecidableEq, Repr

structure Drive (α σ : Type) where
  scan : State α
  read : σ → (segment total : Nat) → Answer α × σ
  world : σ
  begun : Bool
  turns : List Turn
  line : List Nat
  waiting : Bool

namespace Drive

def new (segments capacity : Nat) (read : σ → Nat → Nat → Answer α × σ) (world : σ) : Drive α σ :=
  ⟨start segments capacity, read, world, false, [], [], false⟩

def push (d : Drive α σ) (turns : List Turn) : Drive α σ := { d with turns := d.turns ++ turns }

def keep (d : Drive α σ) (t : Turn) : Drive α σ := { d with turns := t :: d.turns }

def event (d : Drive α σ) (e : Event α) : Drive α σ := { d with scan := d.scan.advance e }

def wakeConsumer (d : Drive α σ) : Drive α σ :=
  if d.waiting then { d with waiting := false }.push [.consumer] else d

def wakeReader (d : Drive α σ) : Drive α σ :=
  match d.line with
  | [] => d
  | segment :: line => { d with line }.push [.reader segment]

def reader (d : Drive α σ) (segment : Nat) : Drive α σ :=
  if d.scan.isReading segment then
    let (answer, world) := d.read d.world segment d.scan.total
    ({ d with world }.event (.read segment answer)).keep (.reader segment)
  else if (d.scan.offered? segment).isSome then
    if d.scan.hasRoom then (d.event (.put segment)).wakeConsumer.keep (.reader segment)
    else { d with line := d.line ++ [segment] }
  else d

/-- The turn of the consumer. An end marker that is not the last is passed over. -/
def consumer (d : Drive α σ) : Drive α σ :=
  match d.scan.queue with
  | [] => { d with waiting := true }
  | .item .. :: _ => (d.event .take).wakeReader
  | _ :: _ =>
    let d := (d.event .take).wakeReader
    if d.scan.isRunning then d.keep .consumer else d

def act (d : Drive α σ) : Turn → Drive α σ
  | .reader segment => d.reader segment
  | .consumer => d.consumer

def settle (fuel : Nat) (d : Drive α σ) : Drive α σ :=
  match fuel, d.turns with
  | 0, _ | _, [] => d
  | fuel + 1, t :: turns => settle fuel ({ d with turns }.act t)

def patience : Nat := Nat.pow 10 15

/-- A request that is stuck waits for ever, since every reader has stopped without a marker. -/
inductive Reply (α : Type) where
  | item (item : α)
  | ended
  | failed (failure : Failure)
  | stuck
  deriving Repr

/-- The consumer asks for an item. A stream that has ended, of itself or not, stays ended. -/
def request (d : Drive α σ) : Reply α × Drive α σ :=
  if d.scan.isRunning then
    let before := d.scan.yielded.length
    let d :=
      if d.begun then d.push [.consumer]
      else { d with begun := true }.push (.consumer :: (List.range d.scan.total).map .reader)
    let d := d.settle patience
    let reply := match d.scan.yielded with
      | (_, item) :: rest => if before ≤ rest.length then some item else none
      | [] => none
    match reply, d.scan.status with
    | some item, _ => (.item item, d)
    | none, .failed failure => (.failed failure, d)
    | none, .running => (.stuck, d)
    | none, _ => (.ended, d)
  else (.ended, d)

def close (d : Drive α σ) : Drive α σ := d.event .close

def scanned (d : Drive α σ) : Nat := (d.scan.readers.flatMap (·.produced)).length

def live (d : Drive α σ) : Nat := if d.begun then d.scan.readers.countP (·.isLive) else 0

def drain (d : Drive α σ) (fuel : Nat) : List α × Option Failure × Drive α σ :=
  match fuel with
  | 0 => ([], none, d)
  | fuel + 1 =>
    match d.request with
    | (.item item, d) =>
      let (items, failure, d) := d.drain fuel
      (item :: items, failure, d)
    | (.failed failure, d) => ([], some failure, d)
    | (_, d) => ([], none, d)

end Drive
end Rekey.Scan
