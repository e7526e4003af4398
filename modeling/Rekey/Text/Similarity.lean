/-! # Similar words

Two words are similar when they share much. What they share is their longest common block (of
several the one that comes first), and what the parts before it and the parts behind it share. -/
namespace Rekey.Text

def sharedStart : List Char → List Char → Nat
  | a :: as, b :: bs => if a = b then sharedStart as bs + 1 else 0
  | _, _ => 0

/-- A block that two words have in common: where it begins in each, and its length. -/
structure Block where
  left : Nat
  right : Nat
  length : Nat
  deriving DecidableEq, Repr

def Block.longer (a b : Block) : Block := if a.length < b.length then b else a

def blockFrom (left : Nat) (a : List Char) (right : Nat) : List Char → Block
  | [] => ⟨left, right, 0⟩
  | b :: bs => Block.longer ⟨left, right, sharedStart a (b :: bs)⟩ (blockFrom left a (right + 1) bs)

def longestBlock (left : Nat) (b : List Char) : List Char → Block
  | [] => ⟨left, 0, 0⟩
  | a :: as => Block.longer (blockFrom left (a :: as) 0 b) (longestBlock (left + 1) b as)

/-- The number of characters that two words share, blocks being looked for to a depth of `fuel`. -/
def sharedWithin (fuel : Nat) (a b : List Char) : Nat :=
  match fuel with
  | 0 => 0
  | fuel + 1 =>
    let block := longestBlock 0 b a
    if block.length = 0 then 0
    else
      sharedWithin fuel (a.take block.left) (b.take block.right) + block.length +
        sharedWithin fuel (a.drop (block.left + block.length)) (b.drop (block.right + block.length))

def shared (a b : List Char) : Nat := sharedWithin (a.length + 1) a b

structure Similarity where
  shared : Nat
  length : Nat
  deriving DecidableEq, Repr

def similarity (a b : String) : Similarity :=
  ⟨2 * shared a.toList b.toList, a.length + b.length⟩

def Similarity.isClose (s : Similarity) : Bool := 3 * s.length ≤ 5 * s.shared

def Similarity.atLeast (s t : Similarity) : Bool := t.shared * s.length ≤ s.shared * t.length

/-- The words of a list that are close to a given one, at most three, in alphabetical order. -/
def closest (word : String) (words : List String) : List String :=
  let close := (words.map fun w => (similarity w word, w)).filter (·.1.isClose)
  let best := (close.mergeSort fun (s, v) (t, w) =>
    if t.atLeast s && s.atLeast t then decide (w ≤ v) else s.atLeast t).take 3
  (best.map (·.2)).mergeSort fun v w => decide (v ≤ w)

example : similarity "--segment" "--segments" = ⟨18, 19⟩ := by decide +kernel

end Rekey.Text
