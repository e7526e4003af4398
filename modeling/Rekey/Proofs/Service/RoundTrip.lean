import Rekey.Proofs.Service.Faulty

/-! # Both encodings give back the record

The item of a record in the source is read as that record, and so is the item that a migration of it
writes to the destination. The keys of neither table confuse two records, and no item of the
destination is read as one of the source. -/
namespace Rekey.Service

namespace Item
variable {record : Record}

theorem refusal?_eq_none_of_short
    (short : (Nat.toDigits 10 record.expiresAt.natAbs).length ≤ 4300) : refusal? record = none := by
  rw [refusal?_eq_none_iff]
  exact decide_eq_false (Nat.not_lt.mpr short)

/-- The item that is put for a record holds that record. -/
theorem readSource_ofSource (writable : refusal? record = none) :
    (ofSource record).readSource = .record record := by
  have number := Text.readInteger?_toString (refusal?_eq_none_iff.mp writable)
  exact readSource_eq_record_iff.mpr (legacyRecord?_eq_some_iff.mpr ⟨rfl, rfl, rfl, number⟩)

/-! ## Keys of the two tables -/

theorem legacy_inj {key key' : String} :
    KeySpace.legacy key = KeySpace.legacy key' ↔ key = key' :=
  String.append_right_inj KeySpace.legacyPrefix

/-- The two prefixes differ in their first character. -/
theorem parseLegacy?_migrated (key : String) :
    KeySpace.parseLegacy? (KeySpace.migrated key) = none := by
  unfold KeySpace.parseLegacy? KeySpace.migrated
  rw [String.toList_append]
  rfl

/-- An item with a migrated key is no legacy item, whatever key is in it. -/
theorem readSource_of_migrated {item : Item} {key : String}
    (migrated : item.text? "PK" "S" = some (KeySpace.migrated key)) : item.readSource = .foreign := by
  have partitionKey_eq : item.partitionKey = KeySpace.migrated key := by
    rw [partitionKey, migrated]
    rfl
  unfold readSource
  rw [partitionKey_eq, parseLegacy?_migrated]

theorem partitionKey_ofSource (record : Record) :
    (ofSource record).partitionKey = KeySpace.legacy record.key := rfl

theorem text?_ofMigrated (record : Record) (migratedAt : Int) :
    (ofMigrated record migratedAt).text? "PK" "S" = some (KeySpace.migrated record.key) := rfl

theorem partitionKey_ofMigrated (record : Record) (migratedAt : Int) :
    (ofMigrated record migratedAt).partitionKey = KeySpace.migrated record.key := rfl

end Item

section RoundTrip
variable {μ : Type} [Client μ] {sound : μ → Prop} {items : μ → List Item} {destination : String}
  {record : Record} {r : Repository μ} {now : Int}

theorem putSource_eq (writable : Item.refusal? record = none) : r.putSource record =
    r.connect.answered (Client.putItem r.connect.service r.connect.source (.ofSource record) false) := by
  unfold Repository.putSource
  rw [writable]

/-- The write of a migration is refused by its condition or not at all, and the record is found by
the request that reads it. -/
structure Undisturbed (r : Repository μ) (record : Record) (now : Int) : Prop where
  write : ∀ failure,
    (Client.putItem r.connect.service r.destination (.ofMigrated record now) true).1 =
      .error failure → IsConditionFailed failure
  read : (r.migrate record).2.Readable record.key

/-- The condition does not refuse a write to a free place. -/
theorem Guarded.put_free (guarded : Guarded sound items destination) (h : sound r.service)
    (destined : r.destination = destination)
    (free : occupied (items r.service) record.key = false)
    (undisturbed : Undisturbed r record now) :
    (Client.putItem r.connect.service r.destination (.ofMigrated record now) true).1 = .ok () := by
  rcases put : Client.putItem r.connect.service r.destination (.ofMigrated record now) true with
    ⟨failure | ⟨⟩, service⟩
  · have refused := undisturbed.write failure (by rw [put])
    have taken := (guarded.failed h destined put).2 refused
    rw [free] at taken
    cases taken
  · rfl

/-- What is migrated to a free place is read back. -/
theorem Guarded.read_back (guarded : Guarded sound items destination) (h : sound r.service)
    (destined : r.destination = destination) (clock : r.nowSeconds = .ok now)
    (unexpired : now < record.expiresAt) (writable : Item.refusal? record = none)
    (free : occupied (items r.service) record.key = false)
    (undisturbed : Undisturbed r record now) :
    (r.migrate record).1 = .ok true ∧
      ((r.migrate record).2.get record.key).1 = .ok (some record) := by
  have contract := guarded.contract h destined record
  have put := guarded.put_free h destined free undisturbed
  have written := contract.written_iff.mpr ⟨now, clock, unexpired, free, writable, put⟩
  exact ⟨written, contract.read_back written undisturbed.read⟩

/-- **Encodings round-trip.** For each record whose time of expiry has no more digits than are
written, the item that is put for it is read as that record, and if it has not expired, the record
that was read is migrated to a free place and read back from there. Records with different keys have
different keys in both tables, and no item with a migrated key is read as a legacy item. -/
theorem encodings_round_trip (guarded : Guarded sound items destination) (record : Record)
    (short : (Nat.toDigits 10 record.expiresAt.natAbs).length ≤ 4300) :
    (∀ r : Repository μ, r.putSource record =
      r.connect.answered
        (Client.putItem r.connect.service r.connect.source (.ofSource record) false)) ∧
    (Item.ofSource record).readSource = .record record ∧
    (∀ (r : Repository μ) (now : Int) (decoded : Record),
      (Item.ofSource record).readSource = .record decoded → sound r.service →
      r.destination = destination → r.nowSeconds = .ok now → now < decoded.expiresAt →
      occupied (items r.service) decoded.key = false → Undisturbed r decoded now →
      (r.migrate decoded).1 = .ok true ∧
        ((r.migrate decoded).2.get record.key).1 = .ok (some record)) ∧
    (∀ other : Record, other.key ≠ record.key →
      (Item.ofSource other).partitionKey ≠ (Item.ofSource record).partitionKey ∧
      ∀ migratedAt migratedAt', (Item.ofMigrated other migratedAt').partitionKey ≠
        (Item.ofMigrated record migratedAt).partitionKey) ∧
    ∀ (migrated : Record) (migratedAt : Int),
      (Item.ofMigrated migrated migratedAt).readSource = .foreign := by
  have writable := Item.refusal?_eq_none_of_short short
  have source := Item.readSource_ofSource writable
  refine ⟨fun r => putSource_eq writable, source, ?_, ?_, ?_⟩
  · intro r now decoded read h destined clock unexpired free undisturbed
    obtain rfl : record = decoded := Reading.record.inj (source.symm.trans read)
    exact guarded.read_back h destined clock unexpired writable free undisturbed
  · intro other apart
    refine ⟨?_, fun migratedAt migratedAt' => ?_⟩
    · rw [Item.partitionKey_ofSource, Item.partitionKey_ofSource]
      exact mt Item.legacy_inj.mp apart
    · rw [Item.partitionKey_ofMigrated, Item.partitionKey_ofMigrated]
      exact mt Item.migrated_inj.mp apart
  · intro migrated migratedAt
    exact Item.readSource_of_migrated (Item.text?_ofMigrated migrated migratedAt)

end RoundTrip

/-! ## A key with both prefixes -/

def ivo : Record := ⟨"E164#RRP#ivo", ⟨"", "salt"⟩, 20⟩

def vacant : Repository :=
  ⟨"old", "new", none, none, .none, 10, { Memory.empty with tables := [("old", []), ("new", [])] }, []⟩

theorem vacant_honest : Memory.Honest "new" vacant.service where
  faults _ mem := by cases mem
  keyFaults _ mem := by cases mem
  keyed _ := Nat.zero_le 1

theorem prefixed_key_round_trips :
    (Nat.toDigits 10 ivo.expiresAt.natAbs).length ≤ 4300 ∧
    (Item.ofSource ivo).readSource = .record ivo ∧
    vacant.nowSeconds = .ok 10 ∧ (10 : Int) < ivo.expiresAt ∧
    (vacant.migrate ivo).1 = .ok true ∧
    ((vacant.migrate ivo).2.get "E164#RRP#ivo").1 = .ok (some ivo) := by
  have short : (Nat.toDigits 10 ivo.expiresAt.natAbs).length ≤ 4300 := by decide
  have unexpired : (10 : Int) < ivo.expiresAt := by decide
  have undisturbed : Undisturbed vacant ivo 10 := ⟨nofun, ⟨_, rfl⟩⟩
  obtain ⟨-, source, migrated, -⟩ := encodings_round_trip (Memory.guarded "new") ivo short
  obtain ⟨written, read⟩ :=
    migrated vacant 10 ivo source vacant_honest rfl rfl unexpired rfl undisturbed
  exact ⟨short, source, rfl, unexpired, written, read⟩

end Rekey.Service
