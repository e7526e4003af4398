import Rekey.Proofs.Service.Memory
import Rekey.Proofs.Service.Refusals

/-! # Clients whose answers get lost

A request may fail after the service has carried it out, as one does that takes too long. So a
conditional write of which no success is known may have stored its item. -/
namespace Rekey.Service

/-- From `before` to `after` an item was stored at a place that was free. -/
def Stored (item : Item) (before after : List Item) : Prop :=
  before.any (·.sameKey item) = false ∧ after.Perm (before ++ [item])

/-- A client that may fail at any request, and where nobody else writes. A conditional write that
succeeds has stored its item; one that fails may have done so. `sound` is what is true of the states
of the service, and `items` what its destination holds. -/
structure Lossy {μ : Type} [Client μ] (sound : μ → Prop) (items : μ → List Item)
    (destination : String) : Prop where
  noted : ∀ m request, sound m →
    sound (Client.note m request) ∧ items (Client.note m request) = items m
  scanned : ∀ m name part startKey, sound m →
    sound (Client.scan m name part startKey).2 ∧
      items (Client.scan m name part startKey).2 = items m
  put : ∀ m record now, sound m →
    sound (Client.putItem m destination (.ofMigrated record now) true).2 ∧
      (items (Client.putItem m destination (.ofMigrated record now) true).2 = items m ∨
        Stored (.ofMigrated record now) (items m)
          (items (Client.putItem m destination (.ofMigrated record now) true).2))
  acknowledged : ∀ m record now, sound m →
    (Client.putItem m destination (.ofMigrated record now) true).1 = .ok () →
    Stored (.ofMigrated record now) (items m)
      (items (Client.putItem m destination (.ofMigrated record now) true).2)

section Repository
variable {μ : Type} [Client μ] {sound : μ → Prop} {items : μ → List Item} {destination : String}
  {r : Repository μ}

theorem Lossy.connect (lossy : Lossy sound items destination) (h : sound r.service) :
    sound r.connect.service ∧ items r.connect.service = items r.service ∧
      r.connect.destination = r.destination := by
  unfold Repository.connect
  split
  · exact ⟨h, rfl, rfl⟩
  · obtain ⟨kept, same⟩ := lossy.noted r.service (.openClient r.region r.endpoint) h
    exact ⟨kept, same, rfl⟩

theorem Lossy.turnPage (lossy : Lossy sound items destination) (h : sound r.service)
    (segment total : Int) (startKey : Option Value) :
    sound (r.turnPage segment total startKey).2.2.service ∧
      items (r.turnPage segment total startKey).2.2.service = items r.service ∧
      (r.turnPage segment total startKey).2.2.destination = r.destination := by
  obtain ⟨kept, same⟩ := lossy.scanned r.service r.source
    (if 1 < total then some (segment, total) else none) startKey h
  unfold Repository.turnPage Repository.fetch Repository.answered
  dsimp only
  cases (Client.scan r.service r.source (if 1 < total then some (segment, total) else none)
    startKey).1 <;> exact ⟨kept, same, rfl⟩

theorem Lossy.advance (lossy : Lossy sound items destination) (h : sound r.service)
    (segment total : Int) (position : Repository.Position) :
    sound (r.advance segment total position).2.2.service ∧
      items (r.advance segment total position).2.2.service = items r.service ∧
      (r.advance segment total position).2.2.destination = r.destination := by
  unfold Repository.advance
  cases position with
  | unopened =>
    obtain ⟨kept, same, destined⟩ := lossy.connect h
    obtain ⟨kept', same', destined'⟩ := lossy.turnPage kept segment total none
    exact ⟨kept', same'.trans same, destined'.trans destined⟩
  | page page next =>
    rcases hf : Repository.firstRecord page r.notices with ⟨_ | ⟨record, rest⟩, notices⟩
    · cases next with
      | none =>
        simp only [hf]
        exact ⟨h, trivial, trivial⟩
      | some key =>
        simp only [hf]
        have kept : sound { r with notices }.service := h
        exact lossy.turnPage kept segment total (some key)
    · simp only [hf]
      exact ⟨h, trivial, trivial⟩

/-- A migration stores the item of its record or changes nothing. It tells of a write only if it has
stored the item, but not always then. -/
theorem Lossy.migrate (lossy : Lossy sound items destination) (h : sound r.service)
    (destined : r.destination = destination) (record : Record) :
    sound (r.migrate record).2.service ∧ (r.migrate record).2.destination = destination ∧
      ((items (r.migrate record).2.service = items r.service ∧ (r.migrate record).1 ≠ .ok true) ∨
        ∃ now, Stored (.ofMigrated record now) (items r.service)
          (items (r.migrate record).2.service)) := by
  unfold Repository.migrate
  cases r.nowSeconds with
  | error failure => exact ⟨h, destined, .inl ⟨rfl, by simp⟩⟩
  | ok now =>
    dsimp only
    by_cases expired : record.expiresAt ≤ now
    · rw [if_pos expired]
      exact ⟨h, destined, .inl ⟨rfl, by simp⟩⟩
    · obtain ⟨connected, same, destined'⟩ := lossy.connect h
      rw [if_neg expired, destined', destined]
      cases Item.refusal? record with
      | some failure => exact ⟨connected, destined'.trans destined, .inl ⟨same, by simp⟩⟩
      | none =>
        have hput := lossy.put r.connect.service record now connected
        have hacknowledged := lossy.acknowledged r.connect.service record now connected
        rw [same] at hput hacknowledged
        generalize Client.putItem r.connect.service destination (.ofMigrated record now) true =
          put at *
        obtain ⟨_ | ⟨⟩, service⟩ := put
        · obtain ⟨kept, unchanged | stored⟩ := hput
          · exact ⟨kept, rfl, .inl ⟨unchanged, writeFailure_ne_written record.key _⟩⟩
          · exact ⟨kept, rfl, .inr ⟨now, stored⟩⟩
        · exact ⟨hput.1, rfl, .inr ⟨now, hacknowledged rfl⟩⟩

end Repository

/-- Tables in memory behind a connection that loses the answers to some writes, one flag for each
write to come. -/
structure Flaky where
  memory : Memory
  losing : List Bool

namespace Flaky

def endpoint : String := "http://db"

def putItem (m : Flaky) (name : String) (item : Item) (onlyIfAbsent : Bool) :
    Except Failure Unit × Flaky :=
  let (outcome, memory) := m.memory.putItem name item onlyIfAbsent
  let outcome := if m.losing.head? = some true then .error (.link .readTimeout endpoint) else outcome
  (outcome, ⟨memory, m.losing.tail⟩)

/-- An operation in which no answer is lost. -/
def through {β : Type} (m : Flaky) (answer : β × Memory) : β × Flaky :=
  (answer.1, { m with memory := answer.2 })

instance : Client Flaky where
  note m request := { m with memory := m.memory.note request }
  createTable m definition := m.through (m.memory.createTable definition)
  waitFor m name := m.through (m.memory.waitFor name)
  deleteTable m name := m.through (m.memory.deleteTable name)
  putItem := putItem
  getItem m name key := m.through (m.memory.getItem name key)
  scan m name part startKey := m.through (m.memory.scan name part startKey)

def items (destination : String) (m : Flaky) : List Item :=
  (m.memory.table? destination).getD []

end Flaky

section Tables
variable {m : Memory} {request : Request} {name : String} {item : Item}

theorem receive_tables (m : Memory) (request : Request) :
    (m.receive request).2.tables = m.tables := by
  unfold Memory.receive
  rcases m.faults.take request.operation with ⟨_ | fault, faults⟩ <;> rfl

theorem receiveKey_tables (m : Memory) (request : Request) (item : Item) :
    (m.receiveKey request item).2.tables = m.tables := by
  unfold Memory.receiveKey
  rcases m.keyFaults.take item.partitionKey with ⟨_ | fault, faults⟩ <;> rfl

theorem scan_tables (m : Memory) (name : String) (part : Option (Int × Int))
    (startKey : Option Value) : (m.scan name part startKey).2.tables = m.tables := by
  have tables := receive_tables m (.scan name part startKey)
  unfold Memory.scan
  rcases hreceive : m.receive (.scan name part startKey) with ⟨_ | ⟨⟩, m'⟩ <;>
    rw [hreceive] at tables
  · simp only [hreceive]
    exact tables
  · simp only [hreceive]
    repeat' split
    all_goals exact tables

/-- A conditional write stores its item, or it fails and changes nothing. -/
theorem putItem_cases (m : Memory) (name : String) (item : Item) :
    ((m.putItem name item true).2.tables = m.tables ∧ (m.putItem name item true).1 ≠ .ok ()) ∨
      Stored item ((m.table? name).getD [])
        (((m.putItem name item true).2.table? name).getD []) := by
  have received := receive_tables m (.putItem name item true)
  unfold Memory.putItem
  rcases hreceive : m.receive (.putItem name item true) with ⟨_ | ⟨⟩, m'⟩ <;>
    rw [hreceive] at received
  · simp only [hreceive]
    exact .inl ⟨received, by simp⟩
  have receivedKey := receiveKey_tables m' (.putItem name item true) item
  rcases hreceiveKey : m'.receiveKey (.putItem name item true) item with ⟨_ | ⟨⟩, m''⟩ <;>
    rw [hreceiveKey] at receivedKey
  · simp only [hreceive, hreceiveKey]
    exact .inl ⟨receivedKey.trans received, by simp⟩
  have tables : m''.tables = m.tables := receivedKey.trans received
  have table : m''.table? name = m.table? name := by rw [Memory.table?, Memory.table?, tables]
  simp only [hreceive, hreceiveKey, Bool.true_and]
  cases hitems : m''.table? name with
  | none => exact .inl ⟨tables, by simp⟩
  | some items =>
    rw [← table, hitems]
    dsimp only
    cases present : items.any (·.sameKey item) with
    | true => exact .inl ⟨tables, by simp⟩
    | false =>
      refine .inr ⟨present, .of_eq ?_⟩
      rw [Memory.writeItem_absent present]
      simp [Memory.table?_setTable, hitems]

end Tables

theorem Flaky.lossy (destination : String) :
    Lossy (fun _ : Flaky => True) (Flaky.items destination) destination := by
  have same : ∀ {m : Flaky} {memory : Memory} {losing : List Bool},
      memory.tables = m.memory.tables → items destination ⟨memory, losing⟩ =
        items destination m := by
    intro m memory losing tables
    rw [items, items, Memory.table?, Memory.table?, tables]
  constructor
  · exact fun m request _ => ⟨trivial, same rfl⟩
  · exact fun m name part startKey _ => ⟨trivial, same (scan_tables m.memory name part startKey)⟩
  · intro m record now _
    refine ⟨trivial, ?_⟩
    rcases putItem_cases m.memory destination (.ofMigrated record now) with ⟨tables, -⟩ | stored
    · exact .inl (same tables)
    · exact .inr stored
  · intro m record now _ success
    rcases putItem_cases m.memory destination (.ofMigrated record now) with ⟨-, failed⟩ | stored
    · refine absurd ?_ failed
      simp only [Client.putItem, putItem] at success
      split at success
      · cases success
      · exact success
    · exact stored

end Rekey.Service
