import Rekey.Run.Basic
import Rekey.Service.Repository
/-! # A run at work

A run together with the session on which it works. The service returns the pages of a segment, and
carries out the calls of the tasks, at any time; a reader or a task is told later. So the tables may
change long before the run knows of it, and the calls under way may be carried out in any order. -/
namespace Rekey.Run

open Service (Client Repository Session)

variable {μ : Type} [Client μ]

/-- The outcome of a call that was carried out and of which its task has not been told. -/
structure Reply where
  number : Nat
  record : Record
  outcome : Except Failure Bool

structure Work (μ : Type) where
  run : State
  session : Session μ
  replies : List Reply

/-- The service returns a page or carries out the call of a task. A reader is told what comes next,
or a task the outcome of its call. Or the run goes on by itself. -/
inductive Work.Event where
  | page (segment : Nat)
  | read (segment : Nat)
  | carryOut (number : Nat)
  | answer (number : Nat) (fraction : Float)
  | inner (e : Run.Event)

/-- Whether the store has no part in an event, and neither has a cancellation from outside. -/
def Event.isInner : Event → Bool
  | .read .. | .answer .. | .cancel => false
  | _ => true

namespace Work

def start (config : Config) (labelledDry : Value) (baseline : Counter.Tally) (startedAt : Float)
    (repository : Repository μ) : Work μ :=
  ⟨Run.start config labelledDry baseline startedAt, .new repository, []⟩

def advance (w : Work μ) (segment : Nat) : Option (Answer Record) × Session μ :=
  w.session.advance segment w.run.scan.total

def reply? (w : Work μ) (number : Nat) : Option (Except Failure Bool) :=
  (w.replies.find? (·.number == number)).map (·.outcome)

def Enabled (w : Work μ) : Event → Prop
  | .page segment =>
    w.run.isRunning = true ∧ w.run.scanning = true ∧ w.run.scan.isReading segment = true ∧
      (w.advance segment).1.isNone = true
  | .read segment =>
    ((w.advance segment).1.any fun answer => w.run.Enabled (.read segment answer)) = true
  | .carryOut number =>
    w.run.migration.stageIs number (· matches .calling) = true ∧ (w.reply? number).isNone = true
  | .answer number fraction =>
    ((w.reply? number).any fun outcome => w.run.Enabled (.answer number outcome fraction)) = true
  | .inner e => e.isInner = true ∧ w.run.Enabled e

instance (w : Work μ) (e : Event) : Decidable (w.Enabled e) := by
  cases e <;> unfold Enabled <;> infer_instance

def next (w : Work μ) : Event → Work μ
  | .page segment => { w with session := (w.advance segment).2 }
  | .read segment => match w.advance segment with
    | (some answer, session) => { w with run := w.run.next (.read segment answer), session }
    | (none, _) => w
  | .carryOut number => match w.run.migration.task? number with
    | some t =>
      let (outcome, session) := w.session.migrate t.record
      { w with session, replies := ⟨number, t.record, outcome⟩ :: w.replies }
    | none => w
  | .answer number fraction => match w.reply? number with
    | some outcome =>
      { w with
        run := w.run.next (.answer number outcome fraction)
        replies := w.replies.filter (·.number != number) }
    | none => w
  | .inner e => { w with run := w.run.next e }

inductive Step : Work μ → Event → Work μ → Prop where
  | intro {w : Work μ} {e : Event} (enabled : w.Enabled e) : Step w e (w.next e)

end Work
end Rekey.Run
