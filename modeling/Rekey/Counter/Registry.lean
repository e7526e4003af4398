import Rekey.Notice
/-! # Counters

A registry holds counters in the order of their creation. A counter is named by its name and its
tags as a map, so the order in which tags are given does not matter, and asking twice gives the
same counter. Two names are taken and cannot be those of tags. A counter only grows. -/
namespace Rekey.Counter

/-- Puts a tag in its place, in front of the first with a greater name; one of the same name is
replaced. -/
def insertTag (name value : String) : List (String × String) → List (String × String)
  | [] => [(name, value)]
  | (n, v) :: rest =>
    if name < n then (name, value) :: (n, v) :: rest
    else if name = n then (name, value) :: rest
    else (n, v) :: insertTag name value rest

/-- Tags sorted by name, each name once; of two tags of one name the later counts. -/
def sortTags (tags : List (String × String)) : List (String × String) :=
  tags.foldl (fun sorted (name, value) => insertTag name value sorted) []

structure Label where
  name : String
  tags : List (String × String)
  deriving DecidableEq, Repr

def Label.of (name : String) (tags : List (String × String)) : Label := ⟨name, sortTags tags⟩

def reservedTags : List String := ["self", "name"]

def Label.checked (name : String) (tags : List (String × String)) : Except Failure Label :=
  match tags.find? fun tag => reservedTags.contains tag.1 with
  | some (tag, _) => .error (.tagReserved tag)
  | none => .ok (.of name tags)

/-- The counters created so far, each at its number, with their values. -/
structure Registry where
  counters : List (Label × Nat)
  deriving DecidableEq, Repr

namespace Registry

def empty : Registry := ⟨[]⟩

def counter (r : Registry) (label : Label) : Nat × Registry :=
  match r.counters.findIdx? (fun c => c.1 == label) with
  | some i => (i, r)
  | none => (r.counters.length, ⟨r.counters ++ [(label, 0)]⟩)

def value (r : Registry) (i : Nat) : Nat := ((r.counters[i]?).map (·.2)).getD 0

def add (r : Registry) (i amount : Nat) : Registry :=
  ⟨r.counters.modify i fun (label, n) => (label, n + amount)⟩

def increment (r : Registry) (i : Nat) (amount : Int) : Except Failure Registry :=
  if amount < 0 then .error (.plain .value "counters can only be incremented")
  else .ok (r.add i amount.toNat)

end Registry

/-- The amounts by which a run has raised its three counters. -/
structure Tally where
  inspected : Nat
  migrated : Nat
  abandoned : Nat
  deriving DecidableEq, Repr

def Tally.zero : Tally := ⟨0, 0, 0⟩

def Tally.plus (a b : Tally) : Tally :=
  ⟨a.inspected + b.inspected, a.migrated + b.migrated, a.abandoned + b.abandoned⟩

structure Metrics where
  dryRun : Value
  inspected : Nat
  migrated : Nat
  abandoned : Nat
  deriving Repr

namespace Metrics

/-- The tag that keeps dry runs and live runs apart, in small letters. Of a mode that is a text only
the letters of ASCII are made small. -/
def tagFor (dryRun : Value) : List (String × String) := [("dry_run", dryRun.plain.toLower)]

example : tagFor (.bool true) = [("dry_run", "true")] := by decide +kernel

def create (dryRun : Value) (r : Registry) : Metrics × Registry :=
  let tags := tagFor dryRun
  let (inspected, r) := r.counter (.of "records_inspected" tags)
  let (migrated, r) := r.counter (.of "records_migrated" tags)
  let (abandoned, r) := r.counter (.of "records_abandoned" tags)
  (⟨dryRun, inspected, migrated, abandoned⟩, r)

def tally (m : Metrics) (r : Registry) : Tally :=
  ⟨r.value m.inspected, r.value m.migrated, r.value m.abandoned⟩

def record (m : Metrics) (t : Tally) (r : Registry) : Registry :=
  ((r.add m.inspected t.inspected).add m.migrated t.migrated).add m.abandoned t.abandoned

def summaryOf (dryRun : Value) (t : Tally) (elapsed : Float) : Summary :=
  ⟨dryRun, t.inspected, t.migrated, t.abandoned, elapsed⟩

def summary (m : Metrics) (r : Registry) (elapsed : Float) : Summary :=
  summaryOf m.dryRun (m.tally r) elapsed

end Metrics
end Rekey.Counter
