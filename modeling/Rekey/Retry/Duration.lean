import Rekey.Decimal.Binary64
import Rekey.Failure
/-! # Durations

Backoff is computed with doubles when the program runs and with rationals when its envelope is
stated, so the operations it needs are a class. Powers may fail: a double has a largest value. -/
namespace Rekey.Retry

/-- The arithmetic that a backoff policy needs. -/
class Duration (α : Type) extends Add α, Sub α, Mul α, Neg α where
  zero : α
  one : α
  lt : α → α → Bool
  le : α → α → Bool
  isZero : α → Bool
  power : α → Int → Except Failure α

/-- A power of a double. The exponent is first made a double, and a finite base must not have an
infinite power. `pow` is the routine for the powers of finite doubles. -/
def powerFloat (pow : Float → Float → Float) (base : Float) (exponent : Int) :
    Except Failure Float :=
  let e := Decimal.nearestInt exponent
  if e.isInf then .error .integerTooLarge
  else if exponent = 0 || base == 1 then .ok 1
  else if base.isInf then .ok (if exponent < 0 then 0 else base)
  else
    let r := pow base e
    if r.isInf then .error .powerTooLarge else .ok r

def powerRat (base : Rat) (exponent : Int) : Rat :=
  if exponent < 0 then (base ^ exponent.natAbs)⁻¹ else base ^ exponent.natAbs

/-- The arithmetic of doubles, with a routine for the powers of finite ones. -/
@[reducible] def Duration.float (pow : Float → Float → Float) : Duration Float where
  zero := 0
  one := 1
  lt x y := decide (x < y)
  le x y := decide (x ≤ y)
  isZero x := x == 0
  power := powerFloat pow

instance : Duration Float := Duration.float Float.pow

instance : Duration Rat where
  zero := 0
  one := 1
  lt x y := decide (x < y)
  le x y := decide (x ≤ y)
  isZero x := decide (x = 0)
  power base exponent := .ok (powerRat base exponent)

end Rekey.Retry
