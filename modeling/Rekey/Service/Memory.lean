import Rekey.Service.Client
/-! # Tables in memory

A table service that keeps its tables in memory and logs every request. Requests can be made to fail
by a list of faults for each operation, one taken per request, and for writes by a list for each
partition key. -/
namespace Rekey.Service

inductive Fault where
  | refused (response : Response)
  | notReady (reason : String)
  | link (fault : LinkFault) (url : String)
  deriving Repr

def Fault.failure (title : String) : Fault → Failure
  | refused response => .service response title
  | notReady reason => .notReady reason
  | link fault url => .link fault url

/-- Faults by name, each list to be used up from the front; an entry may be no fault. -/
abbrev Faults := List (String × List (Option Fault))

def Faults.take (name : String) : Faults → Option Fault × Faults
  | [] => (none, [])
  | (n, faults) :: rest =>
    if n = name then
      match faults with
      | [] => (none, (n, []) :: rest)
      | fault :: faults => (fault, (n, faults) :: rest)
    else
      let (fault, rest) := take name rest
      (fault, (n, faults) :: rest)

/-- The service. Scans are answered from `pages` if any are prepared. `log` is newest first. -/
structure Memory where
  tables : List (String × List Item)
  pageSize : Option Nat
  pages : Option (List Page)
  faults : Faults
  keyFaults : Faults
  log : List Request
  deriving Repr

namespace Memory

def empty : Memory := ⟨[], none, none, [], [], []⟩

def table? (m : Memory) (name : String) : Option (List Item) := m.tables.lookup name

def setTable (m : Memory) (name : String) (items : List Item) : Memory :=
  { m with tables := m.tables.map fun (n, old) => (n, if n = name then items else old) }

def refusal (r : Request) (code message : String) : Failure :=
  .service (.ofCode code message) r.title

def missing (r : Request) : Failure :=
  refusal r "ResourceNotFoundException" "Requested resource not found"

def receive (m : Memory) (r : Request) : Except Failure Unit × Memory :=
  let (fault, faults) := m.faults.take r.operation
  let m := { m with log := r :: m.log, faults }
  match fault with
  | some fault => (.error (fault.failure r.title), m)
  | none => (.ok (), m)

def receiveKey (m : Memory) (r : Request) (item : Item) : Except Failure Unit × Memory :=
  let (fault, keyFaults) := m.keyFaults.take item.partitionKey
  let m := { m with keyFaults }
  match fault with
  | some fault => (.error (fault.failure r.title), m)
  | none => (.ok (), m)

def note (m : Memory) (r : Request) : Memory := { m with log := r :: m.log }

def createTable (m : Memory) (definition : KeySpace.Definition) : Except Failure Unit × Memory :=
  let r := Request.createTable definition
  match m.receive r with
  | (.error failure, m) => (.error failure, m)
  | (.ok (), m) =>
    if (m.table? definition.name).isSome then
      (.error (refusal r "ResourceInUseException" "Table already exists"), m)
    else (.ok (), { m with tables := m.tables ++ [(definition.name, [])] })

def waitFor (m : Memory) (name : String) : Except Failure Unit × Memory :=
  (m.note .getWaiter).receive (.wait name)

def deleteTable (m : Memory) (name : String) : Except Failure Unit × Memory :=
  let r := Request.deleteTable name
  match m.receive r with
  | (.error failure, m) => (.error failure, m)
  | (.ok (), m) =>
    if (m.table? name).isSome then
      (.ok (), { m with tables := m.tables.filter (·.1 != name) })
    else (.error (missing r), m)

/-- Items with one written: in place of the one with the same key, else at the end. -/
def writeItem (item : Item) : List Item → List Item
  | [] => [item]
  | i :: rest => if i.sameKey item then item :: rest else i :: writeItem item rest

def putItem (m : Memory) (name : String) (item : Item) (onlyIfAbsent : Bool) :
    Except Failure Unit × Memory :=
  let r := Request.putItem name item onlyIfAbsent
  match m.receive r with
  | (.error failure, m) => (.error failure, m)
  | (.ok (), m) =>
    match m.receiveKey r item with
    | (.error failure, m) => (.error failure, m)
    | (.ok (), m) =>
      match m.table? name with
      | none => (.error (missing r), m)
      | some items =>
        if onlyIfAbsent && items.any (·.sameKey item) then
          (.error (refusal r "ConditionalCheckFailedException" "The conditional request failed"), m)
        else (.ok (), m.setTable name (writeItem item items))

def getItem (m : Memory) (name : String) (key : Item) : Except Failure (Option Item) × Memory :=
  let r := Request.getItem name key
  match m.receive r with
  | (.error failure, m) => (.error failure, m)
  | (.ok (), m) =>
    match m.table? name with
    | none => (.error (missing r), m)
    | some items => (.ok (items.find? (·.sameKey key)), m)

/-- Every `total`-th item, beginning with item `segment`. A negative one counts from the end. -/
def segmentItems (items : List Item) (segment : Int) (total : Nat) : List Item :=
  let first := (if segment < 0 then items.length + segment else segment).toNat
  (items.zipIdx.filter fun (_, i) => first ≤ i && (i - first) % total = 0).map (·.1)

/-- The items behind the one at which a page ended. -/
def itemsAfter (items : List Item) (startKey : Option Value) : List Item :=
  match startKey with
  | none => items
  | some key =>
    match items.dropWhile fun item => !sameValue (pageKey item) key with
    | [] => items
    | _ :: rest => rest
where
  pageKey (item : Item) : Value :=
    .map [("PK", ((item.lookup "PK").map Attribute.toValue).getD .null)]

def firstPage (items : List Item) (pageSize : Option Nat) : Page :=
  match pageSize with
  | none => ⟨items, none⟩
  | some n =>
    let page := items.take n
    if n < items.length then ⟨page, page.getLast?.map itemsAfter.pageKey⟩ else ⟨page, none⟩

def scan (m : Memory) (name : String) (part : Option (Int × Int)) (startKey : Option Value) :
    Except Failure Page × Memory :=
  let r := Request.scan name part startKey
  match m.receive r with
  | (.error failure, m) => (.error failure, m)
  | (.ok (), m) =>
    match m.pages with
    | some [] => (.ok ⟨[], none⟩, m)
    | some (page :: pages) => (.ok page, { m with pages := some pages })
    | none =>
      match m.table? name with
      | none => (.error (missing r), m)
      | some items =>
        let items := match part with
          | some (segment, total) => segmentItems items segment total.toNat
          | none => items
        (.ok (firstPage (itemsAfter items startKey) m.pageSize), m)

instance : Client Memory :=
  ⟨note, createTable, waitFor, deleteTable, putItem, getItem, scan⟩

end Memory
end Rekey.Service
