import Rekey.Retry.Policy
/-! # Run configuration

The sizes of a run arrive as values of any shape and are checked in a fixed order: each must be a
whole number of at least one. A yes or no is not a number. Whether a run is a dry run may be said by
any value. -/
namespace Rekey

open Retry (Policy Settings)

structure Config where
  dryRun : Value
  maxConcurrency : Nat
  segments : Nat
  buffer : Nat
  maxWindows : Nat
  retry : Policy Float
  deriving Repr

namespace Config

def standard : Config := ⟨.bool true, 16, 1, 16384, 2, .standard⟩

structure Request where
  dryRun : Value
  maxConcurrency : Value
  segments : Value
  buffer : Value
  maxWindows : Value
  retry : Settings Float
  deriving Repr

def Request.standard : Request :=
  ⟨.bool true, .int 16, .int 1, .int 16384, .int 2, .standard⟩

def size (field : String) (value : Value) : Except Failure Nat :=
  match value with
  | .int n => if n < 1 then .error (refusal value) else .ok n.toNat
  | _ => .error (refusal value)
where
  refusal (value : Value) : Failure := .invalid field value "must be an integer >= 1"

/-- The configuration that a request describes. The policy is checked first. -/
def Request.accept (r : Request) : Except Failure Config := do
  let retry ← r.retry.toPolicy
  let maxConcurrency ← size "max_concurrency" r.maxConcurrency
  let segments ← size "segments" r.segments
  let buffer ← size "buffer_size" r.buffer
  let maxWindows ← size "max_windows_in_flight" r.maxWindows
  return ⟨r.dryRun, maxConcurrency, segments, buffer, maxWindows, retry⟩

/-- The sizes of a configuration are at least one and its policy is in range. -/
structure Accepted (c : Config) : Prop where
  maxConcurrency : 1 ≤ c.maxConcurrency
  segments : 1 ≤ c.segments
  buffer : 1 ≤ c.buffer
  maxWindows : 1 ≤ c.maxWindows
  retry : c.retry.Accepted

def isDry (c : Config) : Bool := c.dryRun.truthy

def isStandard (c : Config) : Bool :=
  c.dryRun.isOne && c.maxConcurrency == standard.maxConcurrency &&
    c.segments == standard.segments && c.buffer == standard.buffer &&
    c.maxWindows == standard.maxWindows && c.retry == standard.retry

def queueCapacity (c : Config) : Nat := min c.buffer 1024

end Config
end Rekey
