import Rekey.Record
import Rekey.Text.Numeral
import Rekey.KeySpace
import Rekey.Failure
/-! # Items

An item of a table is a map from attribute names to typed attributes, and a typed attribute a map
from type tags to payloads: `S` for texts, `N` for the decimal text of a number. The two tables hold
records in different items; this module has both encodings and their readers. -/
namespace Rekey.Service

abbrev Attribute := List (String × Value)

abbrev Item := List (String × Attribute)

mutual
def sameValue : Value → Value → Bool
  | .null, .null => true
  | .bool a, .bool b => a == b
  | .int a, .int b => a == b
  | .real a, .real b => a == b
  | .text a, .text b => a == b
  | .list as, .list bs => sameValues as bs
  | .map as, .map bs => sameEntries as bs
  | _, _ => false

def sameValues : List Value → List Value → Bool
  | [], [] => true
  | a :: as, b :: bs => sameValue a b && sameValues as bs
  | _, _ => false

/-- Whether two maps hold the same entries in the same order. -/
def sameEntries : List (String × Value) → List (String × Value) → Bool
  | [], [] => true
  | (k, a) :: as, (l, b) :: bs => k == l && sameValue a b && sameEntries as bs
  | _, _ => false
end

def sameAttribute : Option Attribute → Option Attribute → Bool
  | none, none => true
  | some a, some b => sameEntries a b
  | _, _ => false

namespace Attribute

def ofText (s : String) : Attribute := [("S", .text s)]

def ofInt (n : Int) : Attribute := [("N", .text (toString n))]

def text? (a : Attribute) (tag : String) : Option String := (a.lookup tag).bind Value.text?

def toValue (a : Attribute) : Value := .map a

end Attribute

namespace Item

def text? (item : Item) (name tag : String) : Option String :=
  (item.lookup name).bind (·.text? tag)

def partitionKey (item : Item) : String := (item.text? "PK" "S").getD ""

def sameKey (a b : Item) : Bool :=
  sameAttribute (a.lookup "PK") (b.lookup "PK") && sameAttribute (a.lookup "SK") (b.lookup "SK")

def toValue (item : Item) : Value := .map (item.map fun (name, a) => (name, a.toValue))

def ofSource (r : Record) : Item :=
  [("PK", .ofText (KeySpace.legacy r.key)), ("hash", .ofText r.secret.hash),
    ("salt", .ofText r.secret.salt), ("expires_at", .ofInt r.expiresAt)]

def destinationKey (key : String) : Item :=
  [("PK", .ofText (KeySpace.migrated key)), ("SK", .ofText KeySpace.sortKey)]

def ofMigrated (r : Record) (migratedAt : Int) : Item :=
  destinationKey r.key ++
    [("hash", .ofText r.secret.hash), ("salt", .ofText r.secret.salt),
      ("expires_at", .ofInt r.expiresAt), ("migrated_at", .ofInt migratedAt)]

/-- The failure to build the item of a record, if its time of expiry has too many digits. -/
def refusal? (r : Record) : Option Failure :=
  if Text.isTooLong r.expiresAt then some (.plain .value Text.writingRefusal) else none

/-- Looks a text up, or fails with the name of what is missing. -/
def require (item : Item) (name tag : String) : Except Failure String :=
  match item.lookup name with
  | none => .error (.missingEntry name)
  | some a => match a.text? tag with
    | none => .error (.missingEntry tag)
    | some s => .ok s

def requireInt (item : Item) (name : String) : Except Failure Int := do
  let s ← item.require name "N"
  match Text.readInteger? s with
  | some n => return n
  | none => .error (.plain .value (Text.integerRefusal s))

def record (item : Item) (key : String) : Except Failure Record := do
  let hash ← item.require "hash" "S"
  let salt ← item.require "salt" "S"
  let expiresAt ← item.requireInt "expires_at"
  return ⟨key, ⟨hash, salt⟩, expiresAt⟩

end Item

/-- A malformed item has the key of a legacy record and not its content. -/
inductive Reading where
  | record (record : Record)
  | foreign
  | malformed (partitionKey : String)
  deriving Repr

def Item.readSource (item : Item) : Reading :=
  match KeySpace.parseLegacy? item.partitionKey with
  | none => .foreign
  | some key => match item.record key with
    | .ok record => .record record
    | .error _ => .malformed item.partitionKey

end Rekey.Service
