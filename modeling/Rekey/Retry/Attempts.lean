import Rekey.Notice
import Rekey.Retry.Policy
/-! # Attempts under a policy

An operation is attempted until it succeeds, fails in a way that is not retried, or has used up its
attempts. The attempts share a world that the operation may change, and so may the sleep between two
attempts. The transcript lists what happened in order. -/
namespace Rekey.Retry

variable {α β σ : Type}

/-- A wait between two attempts: the number of the attempt after it, the delay asked for, and the
failure before it. -/
structure Wait (α : Type) where
  attempt : Nat
  delay : α
  failure : Failure
  deriving Repr

structure Transcript (α β σ : Type) where
  outcome : Except Failure β
  calls : Nat
  waits : List (Wait α)
  draws : Nat
  world : σ

def Transcript.cons (w : Wait α) (t : Transcript α β σ) : Transcript α β σ :=
  { t with calls := t.calls + 1, waits := w :: t.waits }

/-- The attempts that remain after `retries` retries and `draws` random draws, `left` retries being
allowed. -/
def attempts [Duration α] (p : Policy α) (retryable : Failure → Bool)
    (operation : σ → Except Failure β × σ) (sleep : σ → α → σ) (fraction : Nat → α)
    (left retries draws : Nat) (world : σ) : Transcript α β σ :=
  let (outcome, world) := operation world
  match outcome with
  | .ok value => ⟨.ok value, 1, [], draws, world⟩
  | .error failure =>
    match p.verdict retryable retries failure (fraction draws), left with
    | .surface failure, _ => ⟨.error failure, 1, [], draws, world⟩
    | .pause .., 0 => ⟨.error failure, 1, [], draws, world⟩
    | .pause delay drew, left + 1 =>
      (attempts p retryable operation sleep fraction left (retries + 1)
        (if drew then draws + 1 else draws) (sleep world delay)).cons
        ⟨retries + 2, delay, failure⟩

def run [Duration α] (p : Policy α) (retryable : Failure → Bool)
    (operation : σ → Except Failure β × σ) (sleep : σ → α → σ) (fraction : Nat → α) (world : σ) :
    Transcript α β σ :=
  attempts p retryable operation sleep fraction p.maxRetries 0 0 world

def runOutcomes [Duration α] (p : Policy α) (retryable : Failure → Bool)
    (outcome : Nat → Except Failure β) (fraction : Nat → α) : Transcript α β Nat :=
  run p retryable (fun n => (outcome n, n + 1)) (fun n _ => n) fraction 0

def Transcript.delays (t : Transcript α β σ) : List α := t.waits.map (·.delay)

def Transcript.notices (t : Transcript Float β σ) (p : Policy Float) (description : String) :
    List Notice :=
  t.waits.map fun w => .retrying description w.attempt p.maxAttempts w.delay w.failure

end Rekey.Retry
