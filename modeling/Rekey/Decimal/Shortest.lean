import Rekey.Decimal.Binary64
/-! # The shortest decimal that reads back

Among the decimals that lie closer to a double than to its neighbours, those with the fewest digits
are kept and of them the nearest is chosen. It is written positionally when its leading digit stands
between the fifth place after the point and the sixteenth before it, else with an exponent. -/
namespace Rekey.Decimal

/-- The digits of a decimal and the place of the first: `0.d₁d₂… * 10 ^ point`. -/
structure Digits where
  digits : List Char
  point : Int
  deriving DecidableEq, Repr

def digitCount (n : Nat) : Nat := (toString n).length

def leadingPlace (num den : Nat) : Int :=
  if den ≤ num then digitCount (num / den)
  else
    let d := digitCount (den / num)
    if den ≤ num * Nat.pow 10 (d - 1) then 2 - (d : Int) else 1 - (d : Int)

/-- The numbers that round to a given double, as a closed or open interval around its value; all
three are numerators over one denominator. -/
structure Interval where
  low : Nat
  value : Nat
  high : Nat
  den : Nat
  closed : Bool

/-- The interval of `m * 2 ^ q`. Below a power of two the neighbour is half as far. -/
def Interval.of (m : Nat) (q : Int) : Interval :=
  let below := if m = Nat.pow 2 52 && -1074 < q then 1 else 2
  let (unit, den) := scaleRatio 1 1 (q - 2)
  ⟨(4 * m - below) * unit, 4 * m * unit, (4 * m + 2) * unit, den, m % 2 = 0⟩

def Interval.holds (i : Interval) (c : Nat) (e : Int) : Bool :=
  let (n, d) := if 0 ≤ e then (c * Nat.pow 10 e.toNat, 1) else (c, Nat.pow 10 (-e).toNat)
  if i.closed then i.low * d ≤ n * i.den && n * i.den ≤ i.high * d
  else i.low * d < n * i.den && n * i.den < i.high * d

/-- The better neighbour of the value in the interval, on the grid of multiples of `10 ^ e`. -/
def Interval.onGrid? (i : Interval) (e : Int) : Option Nat :=
  let (n, d) :=
    if 0 ≤ e then (i.value, i.den * Nat.pow 10 e.toNat)
    else (i.value * Nat.pow 10 (-e).toNat, i.den)
  let down := n / d
  let near := roundRatio n d
  let far := if near = down then down + 1 else down
  if i.holds near e then some near
  else if i.holds far e then some far
  else none

def trimZeros (digits : List Char) : List Char :=
  (digits.reverse.dropWhile (· == '0')).reverse

/-- The digits of the positive double `m * 2 ^ q`. Seventeen always suffice. -/
def shortestDigits (m : Nat) (q : Int) : Digits :=
  let i := Interval.of m q
  let place := leadingPlace i.value i.den
  let pick := (List.range 17).findSome? fun (k : Nat) =>
    (i.onGrid? (place - 1 - (k : Int))).map fun c => (c, place - 1 - (k : Int))
  let (c, e) := pick.getD (m, 0)
  let text := (toString c).toList
  ⟨trimZeros text, e + text.length⟩

def Digits.text (d : Digits) : String :=
  let n := d.digits.length
  if -4 < d.point && d.point ≤ 16 then
    if d.point ≤ 0 then
      "0." ++ String.ofList (List.replicate (-d.point).toNat '0' ++ d.digits)
    else if d.point.toNat < n then
      String.ofList (d.digits.take d.point.toNat ++ '.' :: d.digits.drop d.point.toNat)
    else String.ofList (d.digits ++ List.replicate (d.point.toNat - n) '0') ++ ".0"
  else
    let exponent := d.point - 1
    let magnitude := toString exponent.natAbs
    let mantissa := match d.digits with
      | first :: [] => [first]
      | first :: rest => first :: '.' :: rest
      | [] => []
    String.ofList mantissa ++ "e" ++ (if exponent < 0 then "-" else "+") ++
      (if magnitude.length < 2 then "0" else "") ++ magnitude

def shortest (x : Float) : String :=
  match Binary64.ofFloat x with
  | .nan => "nan"
  | .infinite negative => (if negative then "-" else "") ++ "inf"
  | .finite negative m q =>
    (if negative then "-" else "") ++
      if m = 0 then "0.0" else (shortestDigits m q).text

example : shortest 0.1 = "0.1" := by decide +kernel
example : shortest 1e16 = "1e+16" := by decide +kernel
example : shortest 1.5e-7 = "1.5e-07" := by decide +kernel

end Rekey.Decimal
