/-! # Doubles as exact numbers

A finite double is a whole number times a power of two. Going back, a ratio of whole numbers is
given the nearest double, and of two equally near ones the one whose last bit is zero. -/
namespace Rekey.Decimal

/-- A double taken apart: `finite negative m q` has the magnitude `m * 2 ^ q`. -/
inductive Binary64 where
  | nan
  | infinite (negative : Bool)
  | finite (negative : Bool) (m : Nat) (q : Int)
  deriving DecidableEq, Repr

def Binary64.ofFloat (x : Float) : Binary64 :=
  let bits := x.toBits.toNat
  let negative := decide (Nat.pow 2 63 ≤ bits)
  let exponent : Nat := bits / Nat.pow 2 52 % Nat.pow 2 11
  let fraction : Nat := bits % Nat.pow 2 52
  if exponent = 2047 then if fraction = 0 then .infinite negative else .nan
  else if exponent = 0 then .finite negative fraction (-1074)
  else .finite negative (Nat.pow 2 52 + fraction) ((exponent : Int) - 1075)

/-- The whole number nearest to `num / den`; of two equally near ones the even one. -/
def roundRatio (num den : Nat) : Nat :=
  let q := num / den
  let r := num % den
  if 2 * r < den then q
  else if den < 2 * r then q + 1
  else if q % 2 = 0 then q else q + 1

def scaleRatio (num den : Nat) (e : Int) : Nat × Nat :=
  if 0 ≤ e then (num * Nat.pow 2 e.toNat, den) else (num, den * Nat.pow 2 (-e).toNat)

/-- The exponent of the highest power of two that `num / den` reaches, for positive arguments. -/
def binaryExponent (num den : Nat) : Int :=
  let e : Int := (num.log2 : Int) - (den.log2 : Int)
  let (n, d) := scaleRatio num den (-e)
  if n < d then e - 1 else e

/-- The fields of the magnitude of the double nearest to `num / den`, as one number. -/
def nearestBits (num den : Nat) : Nat :=
  if num = 0 then 0
  else
    let q := max (binaryExponent num den - 52) (-1074)
    let (n, d) := scaleRatio num den (-q)
    let m := roundRatio n d
    let hidden := Nat.pow 2 52
    let bits := if m < hidden then m else (q + 1075).toNat * hidden + (m - hidden)
    min bits (2047 * hidden)

def nearest (negative : Bool) (num den : Nat) : Float :=
  .ofBits (.ofNat (nearestBits num den + if negative then Nat.pow 2 63 else 0))

def nearestInt (n : Int) : Float := nearest (n < 0) n.natAbs 1

def truncate (x : Float) : Int :=
  match Binary64.ofFloat x with
  | .finite negative m q =>
    let (num, den) := scaleRatio m 1 q
    if negative then -((num / den : Nat) : Int) else (num / den : Nat)
  | _ => 0

example : Binary64.ofFloat 0.5 = .finite false (2 ^ 52) (-53) := by decide +kernel
example : nearest false 1 10 = 0.1 := by decide +kernel
example : nearest true 0 1 = -0.0 := by decide +kernel

end Rekey.Decimal
