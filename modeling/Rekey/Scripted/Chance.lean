/-! # Scripted chance

A source of randomness whose answers are fixed in advance: a way to reorder lists, and a cycle of
fractions for random draws. -/
namespace Rekey.Scripted

variable {α : Type}

/-- How lists are put in order. In the congruential way each item from the last to the second changes
places with one picked by a linear congruential generator, whose state lives on from list to list. -/
inductive Shuffle where
  | keep
  | reverse
  | rotate
  | congruential
  deriving DecidableEq, Repr

structure Chance where
  shuffle : Shuffle
  state : UInt64
  fractions : List Float
  draws : Nat
  deriving Repr

namespace Chance

def standard : Chance := ⟨.keep, 0, [0.5], 0⟩

def fractionAt (c : Chance) (n : Nat) : Float :=
  (c.fractions[n % c.fractions.length]?).getD 0.5

def fraction (c : Chance) : Float := c.fractionAt c.draws

def drawn (c : Chance) : Chance := { c with draws := c.draws + 1 }

def advance (state : UInt64) : UInt64 := state * 6364136223846793005 + 1442695040888963407

/-- Swaps item `i` with a picked item at or before it, for `i` from `last` down to 1. -/
def swaps (items : Array α) (state : UInt64) : Nat → Array α × UInt64
  | 0 => (items, state)
  | last + 1 =>
    let state := advance state
    let picked := (state >>> 33).toNat % (last + 2)
    swaps (items.swapIfInBounds (last + 1) picked) state last

def reorder (c : Chance) (items : List α) : List α × Chance :=
  match c.shuffle with
  | .keep => (items, c)
  | .reverse => (items.reverse, c)
  | .rotate => (items.drop 1 ++ items.take 1, c)
  | .congruential =>
    let (items, state) := swaps items.toArray c.state (items.length - 1)
    (items.toList, { c with state })

theorem swaps_perm (items : Array α) (state : UInt64) (last : Nat) :
    (swaps items state last).1.toList.Perm items.toList := by
  induction last generalizing items state with
  | zero => exact .refl _
  | succ last ih =>
    refine (ih _ _).trans ?_
    unfold Array.swapIfInBounds
    split
    · split
      · exact (Array.swap_perm _ _).toList
      · exact .refl _
    · exact .refl _

/-- Reordering neither loses nor repeats an item. -/
theorem reorder_perm (c : Chance) (items : List α) : (c.reorder items).1.Perm items := by
  unfold reorder
  split
  · exact .refl _
  · exact List.reverse_perm items
  · cases items with
    | nil => exact .refl _
    | cons a rest => simp
  · simpa using swaps_perm items.toArray c.state (items.length - 1)

end Chance

/-- The reading of number `n` of a clock that is given by its readings; the last one repeats. -/
def readingAt (readings : List Float) (n : Nat) : Float :=
  match readings[n]? with
  | some t => t
  | none => readings.getLast?.getD 0

end Rekey.Scripted
