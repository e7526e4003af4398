import Rekey.Run.Work
import Rekey.Store
/-! # Runs that share a store

Several runs work on one store, one after another or side by side. The call of a task is on its way
until the store carries it out, which may be at any time, even after the run has been broken off. It
is carried out at once, and the task is told later. What the readers of a run are told is laid down
in its plan. -/
namespace Rekey.Run

open Counter (Tally)

variable {ι σ : Type}

structure Call where
  number : Nat
  record : Record

/-- What a run is begun with. For each segment `answers` are the answers to its requests, in turn.
-/
structure Plan where
  config : Config
  labelledDry : Value
  baseline : Tally
  startedAt : Float
  answers : Nat → Nat → Answer Record

def Plan.start (plan : Plan) : State :=
  Run.start plan.config plan.labelledDry plan.baseline plan.startedAt

/-- The call that an event makes. -/
def State.call? (s : State) : Event → Option Call
  | .start number =>
    if s.migration.dryRun then none
    else (s.migration.task? number).map fun t => ⟨number, t.record⟩
  | .wake number => (s.migration.task? number).map fun t => ⟨number, t.record⟩
  | _ => none

/-- Whether neither the source nor the store has a part in an event. -/
def Event.isOwn : Event → Bool
  | .read .. | .answer .. => false
  | _ => true

/-- A run with its calls on their way and the outcomes on their way back. -/
structure Pass where
  run : State
  calls : List Call
  replies : List Reply

namespace Pass

def start (plan : Plan) : Pass := ⟨plan.start, [], []⟩

def answer? (p : Pass) (plan : Plan) (segment : Nat) : Option (Answer Record) :=
  (p.run.scan.readers[segment]?).map fun r => plan.answers segment r.produced.length

def call? (p : Pass) (number : Nat) : Option Call := p.calls.find? (·.number == number)

def reply? (p : Pass) (number : Nat) : Option Reply := p.replies.find? (·.number == number)

end Pass

/-- A store in the state `world`, and the runs that work on it. -/
structure Shared (ι σ : Type) where
  world : σ
  passes : ι → Pass

namespace Shared

/-- A reader is told what comes next, the store carries out the call of a task, the task is told of
its outcome, or a run goes on by itself. -/
inductive Event (ι : Type) where
  | read (pass : ι) (segment : Nat)
  | carryOut (pass : ι) (number : Nat)
  | answer (pass : ι) (number : Nat) (fraction : Float)
  | inner (pass : ι) (e : Run.Event)

def Event.pass : Event ι → ι
  | .read pass _ | .carryOut pass _ | .answer pass .. | .inner pass _ => pass

def start (plans : ι → Plan) (world : σ) : Shared ι σ := ⟨world, fun i => .start (plans i)⟩

def Enabled (plans : ι → Plan) (w : Shared ι σ) : Event ι → Prop
  | .read i segment =>
    (((w.passes i).answer? (plans i) segment).any fun answer =>
      (w.passes i).run.Enabled (.read segment answer)) = true
  | .carryOut i number => ((w.passes i).call? number).isSome = true
  | .answer i number fraction =>
    (((w.passes i).reply? number).any fun reply =>
      (w.passes i).run.Enabled (.answer number reply.outcome fraction)) = true
  | .inner i e => e.isOwn = true ∧ (w.passes i).run.Enabled e

instance (plans : ι → Plan) (w : Shared ι σ) (e : Event ι) : Decidable (w.Enabled plans e) := by
  cases e <;> unfold Enabled <;> infer_instance

variable [DecidableEq ι]

def put (w : Shared ι σ) (i : ι) (p : Pass) : Shared ι σ :=
  { w with passes := fun j => if j = i then p else w.passes j }

def next (store : Store σ) (plans : ι → Plan) (w : Shared ι σ) : Event ι → Shared ι σ
  | .read i segment => match (w.passes i).answer? (plans i) segment with
    | some answer =>
      w.put i { w.passes i with run := (w.passes i).run.next (.read segment answer) }
    | none => w
  | .carryOut i number => match (w.passes i).call? number with
    | some call =>
      let (outcome, world) := store.migrate w.world call.record
      { w.put i { w.passes i with
          calls := (w.passes i).calls.filter (·.number != number)
          replies := ⟨number, call.record, outcome⟩ :: (w.passes i).replies } with world }
    | none => w
  | .answer i number fraction => match (w.passes i).reply? number with
    | some reply =>
      w.put i { w.passes i with
        run := (w.passes i).run.next (.answer number reply.outcome fraction)
        replies := (w.passes i).replies.filter (·.number != number) }
    | none => w
  | .inner i e =>
    w.put i { w.passes i with
      run := (w.passes i).run.next e
      calls := ((w.passes i).run.call? e).toList ++ (w.passes i).calls }

inductive Step (store : Store σ) (plans : ι → Plan) :
    Shared ι σ → Event ι → Shared ι σ → Prop where
  | intro {w : Shared ι σ} {e : Event ι} (enabled : w.Enabled plans e) :
    Step store plans w e (w.next store plans e)

end Shared

end Rekey.Run
