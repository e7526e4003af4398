import Rekey.Notice
import Rekey.Service.Connection
import Rekey.Service.Memory
import Rekey.Store
import Rekey.TableName
/-! # The repository

Records of the two tables, by way of the table service. A scan skips what is no legacy record, and
logs what looks like one and cannot be read. A migration writes a record only if it has not expired
and the destination has none under its key; failures that may pass are marked as transient. -/
namespace Rekey.Service

structure Address where
  source : Option String
  destination : Option String
  region : Option String
  endpoint : Option String
  deriving DecidableEq, Repr

/-- A repository. `now` is the reading of the wall clock; `notices` is newest first. -/
structure Repository (μ : Type := Memory) where
  source : String
  destination : String
  region : Option String
  endpoint : Option String
  connection : Connection
  now : Float
  service : μ
  notices : List Notice
  deriving Repr

section
variable {μ : Type} [Client μ]

namespace Repository

def create (address : Address) (env : TableName.Environment) (now : Float) (service : μ) :
    Except Failure (Repository μ) := do
  let source ← TableName.resolveSource address.source env
  let destination ← TableName.resolveDestination address.destination env
  return ⟨source, destination, address.region, address.endpoint, .none, now, service, []⟩

/-- The time in whole seconds. A clock that shows no finite number has none. -/
def nowSeconds (r : Repository μ) : Except Failure Int :=
  if r.now.isNaN then .error (.plain .value "cannot convert float NaN to integer")
  else if r.now.isInf then .error (.plain .overflow "cannot convert float infinity to integer")
  else .ok (Decimal.truncate r.now)

def connect (r : Repository μ) : Repository μ :=
  if r.connection.isOpen then r
  else
    { r with
      connection := r.connection.opening
      service := Client.note r.service (.openClient r.region r.endpoint) }

def close (r : Repository μ) : Repository μ :=
  if r.connection.isOpen then
    { r with connection := r.connection.closing, service := Client.note r.service .closeClient }
  else r

def answered {β : Type} (r : Repository μ) (answer : Except Failure β × μ) :
    Except Failure β × Repository μ :=
  (answer.1, { r with service := answer.2 })

def codeOf (response : Response) (failure : Failure) : Except Failure Value :=
  match response.error with
  | none => .error (.because (.missingEntry "Error") failure)
  | some entry => match entry.code with
    | none => .error (.because (.missingEntry "Code") failure)
    | some code => .ok code

def tolerate (allowed : String) : Except Failure Unit → Except Failure Unit
  | .error failure =>
    match failure with
    | .service response _ =>
      match codeOf response failure with
      | .error missing => .error missing
      | .ok code => if code.text? == some allowed then .ok () else .error failure
    | _ => .error failure
  | outcome => outcome

def createTable (r : Repository μ) (definition : KeySpace.Definition) :
    Except Failure Unit × Repository μ :=
  let (outcome, service) := match Client.createTable r.service definition with
    | (.ok (), service) => Client.waitFor service definition.name
    | (.error failure, service) => (.error failure, service)
  (tolerate "ResourceInUseException" outcome, { r with service })

def deleteTable (r : Repository μ) (name : String) : Except Failure Unit × Repository μ :=
  let (outcome, service) := Client.deleteTable r.service name
  (tolerate "ResourceNotFoundException" outcome, { r with service })

def eachOf {β : Type} (step : Repository μ → β → Except Failure Unit × Repository μ)
    (r : Repository μ) :
    List β → Except Failure Unit × Repository μ
  | [] => (.ok (), r)
  | b :: rest => match step r b with
    | (.ok (), r) => eachOf step r rest
    | failed => failed

def createTables (r : Repository μ) : Except Failure Unit × Repository μ :=
  eachOf createTable r.connect
    [KeySpace.sourceTable r.source, KeySpace.destinationTable r.destination]

def deleteTables (r : Repository μ) : Except Failure Unit × Repository μ :=
  eachOf deleteTable r.connect [r.source, r.destination]

def putSource (r : Repository μ) (record : Record) : Except Failure Unit × Repository μ :=
  let r := r.connect
  match Item.refusal? record with
  | some failure => (.error failure, r)
  | none => r.answered (Client.putItem r.service r.source (.ofSource record) false)

/-- Whether the refused request may succeed later. A code with parts cannot be looked up among the
codes of which this is known. -/
def mayPass (response : Response) : Except Failure Bool :=
  match response.code?.bind Value.compound? with
  | some called => .error (.unhashable called)
  | none => .ok response.isTransient

/-- What a failed write of the record with a key amounts to. -/
def writeFailure (key : String) (failure : Failure) : Except Failure Bool :=
  let told (text : String) : String := "Write for " ++ key ++ " failed: " ++ text
  match failure with
  | .service response _ =>
    match codeOf response failure with
    | .error missing => .error missing
    | .ok code =>
      if code.text? == some "ConditionalCheckFailedException" then .ok false
      else match mayPass response with
        | .error mismatch => .error (.because mismatch failure)
        | .ok true => .error (.because (.transient (told code.plain) code.text?) failure)
        | .ok false => .error failure
  | .link fault _ =>
    if fault.isDropped then .error (.because (.transient (told failure.message) none) failure)
    else .error failure
  | _ => .error failure

def migrate (r : Repository μ) (record : Record) : Except Failure Bool × Repository μ :=
  match r.nowSeconds with
  | .error failure => (.error failure, r)
  | .ok now =>
    if record.expiresAt ≤ now then (.ok false, r)
    else
      let r := r.connect
      match Item.refusal? record with
      | some failure => (.error failure, r)
      | none => match Client.putItem r.service r.destination (.ofMigrated record now) true with
        | (.ok (), service) => (.ok true, { r with service })
        | (.error failure, service) => (writeFailure record.key failure, { r with service })

def get (r : Repository μ) (key : String) : Except Failure (Option Record) × Repository μ :=
  let r := r.connect
  match Client.getItem r.service r.destination (Item.destinationKey key) with
  | (.error failure, service) => (.error failure, { r with service })
  | (.ok item, service) =>
    let found := match item with
      | none | some [] => .ok none
      | some item => (item.record key).map some
    (found, { r with service })

inductive Position where
  | unopened
  | page (items : List Item) (next : Option Value)
  deriving Repr

/-- The first record of a page, the items behind it, and what is logged about those before it. -/
def firstRecord : List Item → List Notice → Option (Record × List Item) × List Notice
  | [], notices => (none, notices)
  | item :: rest, notices =>
    match item.readSource with
    | .record record => (some (record, rest), notices)
    | .foreign => firstRecord rest notices
    | .malformed partitionKey => firstRecord rest (.recordSkipped partitionKey :: notices)

def fetch (r : Repository μ) (segment total : Int) (startKey : Option Value) :
    Except Failure Page × Repository μ :=
  let part := if 1 < total then some (segment, total) else none
  r.answered (Client.scan r.service r.source part startKey)

def turnPage (r : Repository μ) (segment total : Int) (startKey : Option Value) :
    Option (Answer Record) × Position × Repository μ :=
  match r.fetch segment total startKey with
  | (.ok page, r) => (none, .page page.items page.next?, r)
  | (.error failure, r) => (some (.failed failure), .page [] none, r)

/-- One step of the scan of a segment: its next answer, or none yet and a new page. -/
def advance (r : Repository μ) (segment total : Int) (position : Position) :
    Option (Answer Record) × Position × Repository μ :=
  match position with
  | .unopened => r.connect.turnPage segment total none
  | .page items next =>
    match firstRecord items r.notices, next with
    | (some (record, rest), notices), next =>
      (some (.item record), .page rest next, { r with notices })
    | (none, notices), some key => { r with notices }.turnPage segment total (some key)
    | (none, notices), none => (some .exhausted, .page [] none, { r with notices })

end Repository

structure Session (μ : Type := Memory) where
  repository : Repository μ
  positions : List (Int × Repository.Position)
  deriving Repr

namespace Session

def new (r : Repository μ) : Session μ := ⟨r, []⟩

def position (s : Session μ) (segment : Int) : Repository.Position :=
  (s.positions.lookup segment).getD .unopened

def advance (s : Session μ) (segment total : Int) : Option (Answer Record) × Session μ :=
  let (answer, position, repository) := s.repository.advance segment total (s.position segment)
  (answer, ⟨repository, (segment, position) :: s.positions.filter (·.1 != segment)⟩)

/-- The next answer for a segment, or none if so many pages bring none. -/
def readWithin (pages : Nat) (s : Session μ) (segment total : Int) :
    Option (Answer Record) × Session μ :=
  match pages with
  | 0 => (none, s)
  | pages + 1 =>
    match s.advance segment total with
    | (some answer, s) => (some answer, s)
    | (none, s) => s.readWithin pages segment total

def patience : Nat := Nat.pow 10 15

/-- The records of a segment, at most `limit` of them and as far as there is patience, and the
failure that the scan ran into. -/
def collect (s : Session μ) (segment total : Int) (limit : Nat) :
    List Record × Option Failure × Session μ :=
  match limit with
  | 0 => ([], none, s)
  | limit + 1 =>
    match s.readWithin patience segment total with
    | (some (.item record), s) =>
      let (records, failure, s) := s.collect segment total limit
      (record :: records, failure, s)
    | (some (.failed failure), s) => ([], some failure, s)
    | (some .exhausted, s) | (none, s) => ([], none, s)

def migrate (s : Session μ) (record : Record) : Except Failure Bool × Session μ :=
  let (outcome, repository) := s.repository.migrate record
  (outcome, { s with repository })

def store : Store (Session μ) := ⟨fun s segment total => s.advance segment total, migrate⟩

end Session

def Repository.scanSegment (r : Repository μ) (segment total : Int) (limit : Option Nat) :
    List Record × Option Failure × Repository μ :=
  let (records, failure, s) :=
    (Session.new r).collect segment total (limit.getD Session.patience)
  (records, failure, s.repository)

end
end Rekey.Service
