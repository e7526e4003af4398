import Rekey.Retry.Duration
/-! # Backoff policies

Before retry `n`, counted from zero, the delay is the base delay times the `n`-th power of the
multiplier, cut at the greatest delay, and then moved by a random part of at most `jitter` of itself
in either direction. -/
namespace Rekey.Retry

variable {α : Type}

structure Settings (α : Type) where
  maxRetries : Int
  baseDelay : α
  multiplier : α
  maxDelay : Option α
  jitter : α
  deriving DecidableEq, Repr

/-- A policy. The first attempt comes on top of the retries. -/
structure Policy (α : Type) where
  maxRetries : Nat
  baseDelay : α
  multiplier : α
  maxDelay : Option α
  jitter : α
  deriving DecidableEq, Repr

def Settings.standard : Settings Float := ⟨3, 1, 2, none, 0.5⟩

def Policy.standard : Policy Float := ⟨3, 1, 2, none, 0.5⟩

inductive Refusal where
  | maxRetries
  | baseDelay
  | multiplier
  | maxDelay
  | jitter
  deriving DecidableEq, Repr

section Checks
variable [Duration α]

/-- The first setting that is out of range. -/
def Settings.refusal? (s : Settings α) : Option Refusal :=
  if s.maxRetries < 0 then some .maxRetries
  else if Duration.lt s.baseDelay Duration.zero then some .baseDelay
  else if Duration.lt s.multiplier Duration.one then some .multiplier
  else if (s.maxDelay.map fun m => Duration.lt m Duration.zero).getD false then some .maxDelay
  else if !(Duration.le Duration.zero s.jitter && Duration.le s.jitter Duration.one) then
    some .jitter
  else none

def Settings.policy (s : Settings α) : Policy α :=
  ⟨s.maxRetries.toNat, s.baseDelay, s.multiplier, s.maxDelay, s.jitter⟩

def Settings.accept (s : Settings α) : Except Refusal (Policy α) :=
  match s.refusal? with
  | some refusal => .error refusal
  | none => .ok s.policy

def Policy.settings (p : Policy α) : Settings α :=
  ⟨p.maxRetries, p.baseDelay, p.multiplier, p.maxDelay, p.jitter⟩

/-- A policy whose settings are in range. -/
def Policy.Accepted (p : Policy α) : Prop := p.settings.refusal? = none

instance (p : Policy α) : Decidable p.Accepted :=
  inferInstanceAs (Decidable (_ = none))

end Checks

def Settings.failure (s : Settings Float) : Refusal → Failure
  | .maxRetries => .invalid "max_retries" (.int s.maxRetries) "must be >= 0"
  | .baseDelay => .invalid "base_delay" (.real s.baseDelay) "must be >= 0"
  | .multiplier => .invalid "multiplier" (.real s.multiplier) "must be >= 1"
  | .maxDelay =>
    .invalid "max_delay" ((s.maxDelay.map Value.real).getD .null) "must be >= 0"
  | .jitter => .invalid "jitter" (.real s.jitter) "must be between 0 and 1"

def Settings.toPolicy (s : Settings Float) : Except Failure (Policy Float) :=
  match s.accept with
  | .ok p => .ok p
  | .error refusal => .error (s.failure refusal)

namespace Policy
variable [Duration α]

def maxAttempts (p : Policy α) : Nat := p.maxRetries + 1

def plainDelay (p : Policy α) (retry : Int) : Except Failure α :=
  (Duration.power p.multiplier retry).map fun factor =>
    let delay := p.baseDelay * factor
    match p.maxDelay with
    | none => delay
    | some most => if Duration.lt most delay then most else delay

def between (low high fraction : α) : α := low + (high - low) * fraction

def clamp (delay : α) : α := if Duration.lt delay Duration.zero then Duration.zero else delay

def jitters (p : Policy α) (delay : α) : Bool :=
  !Duration.isZero p.jitter && !Duration.isZero delay

/-- The delay before a retry, and whether the random fraction was used for it. -/
def delay (p : Policy α) (retry : Int) (fraction : α) : Except Failure (α × Bool) :=
  (p.plainDelay retry).map fun delay =>
    if p.jitters delay then
      let spread := delay * p.jitter
      (clamp (delay + between (-spread) spread fraction), true)
    else (clamp delay, false)

end Policy

/-- The operation has failed for good, or is tried again after a delay; `drew` says that a random
fraction was used. -/
inductive Verdict (α : Type) where
  | surface (failure : Failure)
  | pause (delay : α) (drew : Bool)

/-- What follows after `retries` retries when the last attempt failed. A failure to compute the
delay takes the place of the failure that would have been retried. -/
def Policy.verdict [Duration α] (p : Policy α) (retryable : Failure → Bool) (retries : Nat)
    (failure : Failure) (fraction : α) : Verdict α :=
  if retryable failure && retries < p.maxRetries then
    match p.delay retries fraction with
    | .ok (delay, drew) => .pause delay drew
    | .error trouble => .surface (.because trouble failure)
  else .surface failure

end Rekey.Retry
