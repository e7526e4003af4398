import Rekey.Decimal.Shortest
import Rekey.Text.Quoted
/-! # Untyped values

Settings and table payloads arrive as values of any shape. Their two texts differ only on texts:
the literal form quotes them, the plain form does not. -/
namespace Rekey

/-- A value as it arrives from outside, before anything is known about its type. -/
inductive Value where
  | null
  | bool (b : Bool)
  | int (n : Int)
  | real (x : Float)
  | text (s : String)
  | list (items : List Value)
  | map (entries : List (String × Value))
  deriving Repr

namespace Value

mutual
def literal : Value → String
  | null => "None"
  | bool b => if b then "True" else "False"
  | int n => toString n
  | real x => Decimal.shortest x
  | text s => Text.quoted s
  | list items => "[" ++ ", ".intercalate (literals items) ++ "]"
  | map entries => "\x7b" ++ ", ".intercalate (entryLiterals entries) ++ "\x7d"

def literals : List Value → List String
  | [] => []
  | v :: rest => v.literal :: literals rest

def entryLiterals : List (String × Value) → List String
  | [] => []
  | (key, v) :: rest => (Text.quoted key ++ ": " ++ v.literal) :: entryLiterals rest
end

/-- The form of a value on its own: a text stands for itself. -/
def plain : Value → String
  | text s => s
  | v => v.literal

def truthy : Value → Bool
  | null => false
  | bool b => b
  | int n => n != 0
  | real x => x != 0
  | text s => s != ""
  | list items => !items.isEmpty
  | map entries => !entries.isEmpty

/-- Whether a value counts as the number one, as a yes does. -/
def isOne : Value → Bool
  | bool b => b
  | int n => n == 1
  | real x => x == 1
  | _ => false

/-- What a value is called that has parts, and so cannot be looked up in a set. -/
def compound? : Value → Option String
  | list _ => some "list"
  | map _ => some "dict"
  | _ => none

def text? : Value → Option String
  | text s => some s
  | _ => none

example : literal (list [int 1, text "a", null]) = "[1, 'a', None]" := by decide +kernel

end Value
end Rekey
