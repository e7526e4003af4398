import Rekey.Text.Digit
import Rekey.Text.Quoted
/-! # Reading and writing whole numbers

A numeral is a run of decimal digits of any script with at most one underscore between two digits,
an optional sign in front, and blanks around the whole. At most 4300 digits are read, and no more are
written. -/
namespace Rekey.Text

def maxDigits : Nat := 4300

/-- The digit values of a numeral's digits: `some` when an underscore stands only between two
digits. `afterDigit` says that a digit has just been read. -/
def digitRun (afterDigit : Bool) : List Char → Option (List Nat)
  | [] => if afterDigit then some [] else none
  | c :: rest =>
    if c = '_' then if afterDigit then digitRun false rest else none
    else match digitValue? c with
      | some d => (digitRun true rest).map (d :: ·)
      | none => none

def isNumeralBlank (c : Char) : Bool := isPlainBlank c || isWideBlank c

def trimNumeral (s : List Char) : List Char :=
  ((s.dropWhile isNumeralBlank).reverse.dropWhile isNumeralBlank).reverse

def ofDigits (digits : List Nat) : Nat := digits.foldl (fun n d => 10 * n + d) 0

def readNatural? (s : List Char) : Option Nat :=
  match digitRun false s with
  | some digits => if digits.length ≤ maxDigits then some (ofDigits digits) else none
  | none => none

def unsigned : List Char → List Char
  | '-' :: s | '+' :: s => s
  | s => s

def isNumeralPart (c : Char) : Bool := c = '_' || (digitValue? c).isSome

/-- The reason why a text is not read as a whole number. Too many digits are found before anything
that may stand behind them. -/
def integerRefusal (s : String) : String :=
  match digitRun false ((unsigned (trimNumeral s.toList)).takeWhile isNumeralPart) with
  | some digits =>
    if maxDigits < digits.length then
      "Exceeds the limit (4300 digits) for integer string conversion: value has " ++
        toString digits.length ++ " digits; use sys.set_int_max_str_digits() to increase the limit"
    else literalRefusal s
  | none => literalRefusal s
where
  literalRefusal (s : String) : String :=
    "invalid literal for int() with base 10: " ++ String.ofList ((quoted s).toList.take 200)

def readInteger? (s : String) : Option Int :=
  match trimNumeral s.toList with
  | '-' :: digits => (readNatural? digits).map fun (n : Nat) => -(n : Int)
  | '+' :: digits => (readNatural? digits).map Int.ofNat
  | digits => (readNatural? digits).map Int.ofNat

/-- Whether a whole number has more digits than are written. -/
def isTooLong (n : Int) : Bool := maxDigits < (Nat.toDigits 10 n.natAbs).length

def writingRefusal : String :=
  "Exceeds the limit (4300 digits) for integer string conversion; use " ++
    "sys.set_int_max_str_digits() to increase the limit"

example : readInteger? " +1_000\n" = some 1000 := by decide +kernel
example : readInteger? "1__0" = none := by decide +kernel
example : readInteger? "- 5" = none := by decide +kernel

end Rekey.Text
