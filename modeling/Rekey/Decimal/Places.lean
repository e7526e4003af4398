import Rekey.Decimal.Binary64
/-! # A fixed number of decimal places

The exact value of a double is rounded to a whole number of units of the last place; a value half
way between two goes to the even one. The sign of zero is kept. -/
namespace Rekey.Decimal

/-- `m * 2 ^ q` in units of `10 ^ -places`, rounded. -/
def inUnits (places m : Nat) (q : Int) : Nat :=
  let (num, den) := scaleRatio (m * Nat.pow 10 places) 1 q
  roundRatio num den

/-- A magnitude given in units of the last place, written with a point before that many digits. -/
def placesText (places units : Nat) : String :=
  if places = 0 then toString units
  else
    let fraction := toString (units % Nat.pow 10 places)
    toString (units / Nat.pow 10 places) ++ "." ++
      String.ofList (List.replicate (places - fraction.length) '0') ++ fraction

def fixed (places : Nat) (x : Float) : String :=
  match Binary64.ofFloat x with
  | .nan => "nan"
  | .infinite negative => (if negative then "-" else "") ++ "inf"
  | .finite negative m q =>
    (if negative then "-" else "") ++ placesText places (inUnits places m q)

def roundTo (places : Nat) (x : Float) : Float :=
  match Binary64.ofFloat x with
  | .finite negative m q => nearest negative (inUnits places m q) (Nat.pow 10 places)
  | _ => x

example : fixed 2 0.125 = "0.12" := by decide +kernel
example : fixed 1 (-0.0) = "-0.0" := by decide +kernel
example : roundTo 3 2.3450000000000006 = 2.345 := by decide +kernel

end Rekey.Decimal
