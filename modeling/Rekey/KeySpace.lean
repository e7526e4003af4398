import Rekey.Value
/-! # Keys of the two tables

A record stands in the source table under its key with the legacy prefix, and in the destination
table under its key with the migrated prefix and one sort key for all. -/
namespace Rekey.KeySpace

def legacyPrefix : String := "E164#"

def migratedPrefix : String := "RRP#"

def sortKey : String := "#PASSWORD"

def legacy (key : String) : String := legacyPrefix ++ key

def migrated (key : String) : String := migratedPrefix ++ key

def dropPrefix? : List Char → List Char → Option (List Char)
  | [], s => some s
  | _ :: _, [] => none
  | c :: p, d :: s => if c = d then dropPrefix? p s else none

/-- The key inside a source table's partition key; nothing for one of another kind. -/
def parseLegacy? (partitionKey : String) : Option String :=
  (dropPrefix? legacyPrefix.toList partitionKey.toList).map String.ofList

theorem dropPrefix?_append (p s : List Char) : dropPrefix? p (p ++ s) = some s := by
  induction p with
  | nil => rfl
  | cons c p ih => simp [dropPrefix?, ih]

theorem dropPrefix?_eq_some_iff {p s t : List Char} : dropPrefix? p s = some t ↔ s = p ++ t := by
  constructor
  · intro h
    induction p generalizing s with
    | nil => simpa [dropPrefix?] using h
    | cons c p ih =>
      cases s with
      | nil => simp [dropPrefix?] at h
      | cons d s =>
        simp only [dropPrefix?] at h
        split at h
        · next hc => subst hc; simp [ih h]
        · simp at h
  · rintro rfl
    exact dropPrefix?_append p t

inductive Role where
  | hash
  | range
  deriving DecidableEq, Repr

structure Definition where
  name : String
  keys : List (String × Role)
  deriving DecidableEq, Repr

def sourceTable (name : String) : Definition := ⟨name, [("PK", .hash)]⟩

def destinationTable (name : String) : Definition := ⟨name, [("PK", .hash), ("SK", .range)]⟩

def Definition.parameters (d : Definition) : List (String × Value) :=
  [("TableName", .text d.name),
    ("BillingMode", .text "PAY_PER_REQUEST"),
    ("AttributeDefinitions", .list (d.keys.map fun (name, _) =>
      .map [("AttributeName", .text name), ("AttributeType", .text "S")])),
    ("KeySchema", .list (d.keys.map fun (name, role) =>
      .map [("AttributeName", .text name),
        ("KeyType", .text (match role with | .hash => "HASH" | .range => "RANGE"))]))]

end Rekey.KeySpace
