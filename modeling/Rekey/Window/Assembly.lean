import Rekey.Stream
/-! # Windows

Items are gathered into windows of a fixed size. The last window may be shorter, none is empty, and
when the items break off the part gathered so far is dropped. -/
namespace Rekey.Window

variable {α : Type}

/-- Adds an item to the part gathered so far, newest first. A full window comes out oldest first. -/
def push (size : Nat) (held : List α) (item : α) : Option (List α) × List α :=
  if (item :: held).length < size then (none, item :: held)
  else (some (item :: held).reverse, [])

def flush (held : List α) : Option (List α) :=
  if held.isEmpty then none else some held.reverse

structure Yield (α : Type) where
  window : List α
  consumed : Nat
  deriving Repr

/-- The full windows of a list of items, and the part left over. `taken` items came before. -/
def gather (size : Nat) (held : List α) (taken : Nat) : List α → List (Yield α) × List α
  | [] => ([], held)
  | item :: rest =>
    match push size held item with
    | (some window, held) =>
      let (yields, left) := gather size held (taken + 1) rest
      (⟨window, taken + 1⟩ :: yields, left)
    | (none, held) => gather size held (taken + 1) rest

def windows (size : Nat) (s : Stream α) : List (Yield α) × Option Failure :=
  let (yields, left) := gather size [] 0 s.items
  match s.failure, flush left with
  | none, some window => (yields ++ [⟨window, s.items.length⟩], none)
  | none, none => (yields, none)
  | some failure, _ => (yields, some failure)

/-- Windows whose items are put into another order, each in its turn. What decides the order lives
on from window to window. -/
def shuffled {γ : Type} (reorder : γ → List α → List α × γ) (chance : γ) :
    List (Yield α) → List (Yield α) × γ
  | [] => ([], chance)
  | y :: rest =>
    let (window, chance) := reorder chance y.window
    let (rest, chance) := shuffled reorder chance rest
    (⟨window, y.consumed⟩ :: rest, chance)

def checkSize (size : Int) : Except Failure Nat :=
  if size < 1 then .error (.invalid "window_size" (.int size) "must be >= 1")
  else .ok size.toNat

/-- What a reader sees that pulls at most `limit` windows: the windows, the failure it runs into,
and the number of items taken in all. -/
def pull (size : Int) (s : Stream α) (limit : Option Nat) :
    List (Yield α) × Option Failure × Nat :=
  match checkSize size with
  | .error failure => if limit = some 0 then ([], none, 0) else ([], some failure, 0)
  | .ok size =>
    let (yields, failure) := windows size s
    match limit with
    | none => (yields, failure, s.items.length)
    | some n =>
      if n ≤ yields.length then
        let pulled := yields.take n
        (pulled, none, ((pulled.getLast?).map (·.consumed)).getD 0)
      else (yields, failure, s.items.length)

end Rekey.Window
