import Rekey.Failure
/-! # Streams

A stream gives its items one at a time and then ends, of itself or by a failure. -/
namespace Rekey

variable {α : Type}

structure Stream (α : Type) where
  items : List α
  failure : Option Failure
  deriving Repr

inductive Answer (α : Type) where
  | item (item : α)
  | exhausted
  | failed (failure : Failure)
  deriving Repr

/-- The answer to request number `n`, counted from zero. -/
def Stream.answer (s : Stream α) (n : Nat) : Answer α :=
  match s.items[n]?, s.failure with
  | some item, _ => .item item
  | none, some failure => .failed failure
  | none, none => .exhausted

end Rekey
