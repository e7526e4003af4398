/-! # Sharing a client

The operations of a repository share one client, which is opened at the first need. Opening takes
time, and meanwhile another operation may find no client and open one too; the client opened last is
the one that is kept. Closing exits the client that is kept. Clients are numbered in the order in
which they were opened. -/
namespace Rekey.Service

structure Connection where
  current : Option Nat
  opened : Nat
  exited : List Nat
  deriving DecidableEq, Repr

namespace Connection

def none : Connection := ⟨Option.none, 0, []⟩

def isOpen (c : Connection) : Bool := c.current.isSome

def opening (c : Connection) : Connection :=
  { c with current := some c.opened, opened := c.opened + 1 }

def closing (c : Connection) : Connection :=
  match c.current with
  | some client => { c with current := Option.none, exited := client :: c.exited }
  | Option.none => c

end Connection

/-- Concurrent operations over one connection: those that are opening a client, and for each that
has got one, which. -/
structure Sharing where
  connection : Connection
  opening : List Nat
  holding : List (Nat × Nat)
  deriving DecidableEq, Repr

inductive Sharing.Event where
  | demand (operation : Nat)
  | opened (operation : Nat)
  | close
  deriving DecidableEq, Repr

namespace Sharing

def start : Sharing := ⟨.none, [], []⟩

def Enabled (s : Sharing) : Event → Prop
  | .demand operation => operation ∉ s.opening ∧ s.holding.lookup operation = none
  | .opened operation => operation ∈ s.opening
  | .close => s.opening = []

instance (s : Sharing) (e : Event) : Decidable (s.Enabled e) := by
  cases e <;> unfold Enabled <;> infer_instance

def next (s : Sharing) : Event → Sharing
  | .demand operation =>
    match s.connection.current with
    | some client => { s with holding := (operation, client) :: s.holding }
    | none => { s with opening := s.opening ++ [operation] }
  | .opened operation =>
    { connection := s.connection.opening
      opening := s.opening.filter (· != operation)
      holding := (operation, s.connection.opened) :: s.holding }
  | .close => { s with connection := s.connection.closing }

inductive Reachable : Sharing → Prop where
  | start : Reachable start
  | step {s : Sharing} {e : Event} : Reachable s → s.Enabled e → Reachable (s.next e)

end Sharing
end Rekey.Service
