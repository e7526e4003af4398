import Rekey.Store
/-! # A store over a list

The records of a list are dealt out to the segments in turn. A call for a key gives the next
scripted outcome for it, and when there is none writes the record unless its key has been written
before. -/
namespace Rekey.Scripted

inductive Script where
  | always (failure : Failure)
  | each (outcomes : List (Except Failure Bool))

structure Break where
  segment : Int
  after : Int
  failure : Failure
  deriving Repr

/-- A store over a list. What was written before the start has no content. `calls` is newest
first. -/
structure ListStore where
  records : Array Record
  broken : Option Break
  cursors : List (Nat × Nat)
  scripts : List (String × Script)
  written : List (String × Option (Secret × Int))
  calls : List Record

namespace ListStore

def new (records : List Record) (broken : Option Break) (scripts : List (String × Script))
    (existing : List String) : ListStore :=
  ⟨records.toArray, broken, [], scripts, existing.map (·, none), []⟩

/-- The number of records that a segment gives before it fails. -/
def breakAt? (s : ListStore) (segment : Nat) : Option (Int × Failure) :=
  match s.broken with
  | some b => if b.segment = segment then some (b.after, b.failure) else none
  | none => none

/-- The next answer for a segment: its record number `n` stands at `segment + n * total`. -/
def read (s : ListStore) (segment total : Nat) : Answer Record × ListStore :=
  let n := (s.cursors.lookup segment).getD 0
  let failed (s : ListStore) : Answer Record × ListStore :=
    match s.breakAt? segment with
    | some (_, failure) => (.failed failure, s)
    | none => (.exhausted, s)
  let broken : Bool := match s.breakAt? segment with
    | some (after, _) => after ≤ n
    | none => false
  if broken then failed s
  else match s.records[segment + n * total]? with
    | some record =>
      let rest := s.cursors.filter (·.1 != segment)
      (.item record, { s with cursors := (segment, n + 1) :: rest })
    | none => failed s

def rewound (s : ListStore) : ListStore := { s with cursors := [], calls := [] }

def nextScripted (key : String) :
    List (String × Script) → Option (Except Failure Bool) × List (String × Script)
  | [] => (none, [])
  | (k, script) :: rest =>
    if k = key then
      match script with
      | .always failure => (some (.error failure), (k, script) :: rest)
      | .each (outcome :: outcomes) => (some outcome, (k, .each outcomes) :: rest)
      | .each [] => (none, (k, script) :: rest)
    else
      let (outcome, rest) := nextScripted key rest
      (outcome, (k, script) :: rest)

def migrate (s : ListStore) (record : Record) : Except Failure Bool × ListStore :=
  let s := { s with calls := record :: s.calls }
  let (scripted, scripts) := nextScripted record.key s.scripts
  match scripted with
  | some outcome => (outcome, { s with scripts })
  | none =>
    if (s.written.lookup record.key).isSome then (.ok false, s)
    else
      (.ok true, { s with
        written := (record.key, some (record.secret, record.expiresAt)) :: s.written })

def store : Store ListStore :=
  ⟨fun s segment total => (s.read segment total).map some id, migrate⟩

end ListStore
end Rekey.Scripted
