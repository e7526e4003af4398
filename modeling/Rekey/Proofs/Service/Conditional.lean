import Rekey.Proofs.Service.Item
import Rekey.Proofs.Service.Refusals

/-! # Migrations by conditional writes

Where nobody else writes to the destination, a migration adds the item of its record or changes
nothing, and tells which unless it fails. What is read under a key afterwards is the record that was
written, and under any other key what was read before. -/
namespace Rekey.Service

/-! ## What is read from the items of a destination -/

/-- Whether an item stands at the place of a key. -/
def occupied (items : List Item) (key : String) : Bool :=
  items.any (·.sameKey (.destinationKey key))

/-- No two items stand at one place. -/
def Keyed (items : List Item) : Prop :=
  ∀ key, items.countP (·.sameKey (.destinationKey key)) ≤ 1

def recordAt (items : List Item) (key : String) : Except Failure (Option Record) :=
  match items.find? (·.sameKey (.destinationKey key)) with
  | none | some [] => .ok none
  | some item => (item.record key).map some

section Contents
variable {items items' : List Item} {record : Record} {now : Int} {key : String}

theorem find?_eq_of_perm {α : Type} {p : α → Bool} {l l' : List α} (perm : l.Perm l')
    (one : l.countP p ≤ 1) : l.find? p = l'.find? p := by
  rw [← List.head?_filter, ← List.head?_filter]
  have same := perm.filter p
  rw [List.countP_eq_length_filter] at one
  match h : l.filter p with
  | [] =>
    rw [h] at same
    rw [List.nil_perm.mp same]
  | [a] =>
    rw [h] at same
    rw [List.singleton_perm.mp same]
  | a :: b :: rest =>
    rw [h] at one
    simp at one

theorem recordAt_perm (perm : items.Perm items') (keyed : Keyed items) (key : String) :
    recordAt items' key = recordAt items key := by
  unfold recordAt
  rw [find?_eq_of_perm perm (keyed key)]

theorem record_ofMigrated (writable : Item.refusal? record = none) :
    (Item.ofMigrated record now).record record.key = .ok record := by
  have read := Text.readInteger?_toString (Item.refusal?_eq_none_iff.mp writable)
  exact Item.record_eq_ok_iff.mpr ⟨rfl, rfl, rfl, read⟩

/-- The record of an item that has been migrated is read under its key. -/
theorem recordAt_migrated (keyed : Keyed items) (mem : Item.ofMigrated record now ∈ items)
    (writable : Item.refusal? record = none) : recordAt items record.key = .ok (some record) := by
  have here : (Item.ofMigrated record now).sameKey (.destinationKey record.key) = true :=
    Item.ofMigrated_sameKey_iff.mpr rfl
  obtain ⟨before, after, rfl⟩ := List.append_of_mem mem
  have found : (before ++ Item.ofMigrated record now :: after).find?
      (·.sameKey (.destinationKey record.key)) = some (.ofMigrated record now) := by
    rw [find?_eq_of_perm List.perm_middle (keyed record.key)]
    exact List.find?_cons_of_pos here
  unfold recordAt
  rw [found]
  show ((Item.ofMigrated record now).record record.key).map some = _
  rw [record_ofMigrated writable]
  rfl

/-- Items that are added at other places change nothing. -/
theorem recordAt_append {added : List Item}
    (others : ∀ item ∈ added, item.sameKey (.destinationKey key) = false) :
    recordAt (items ++ added) key = recordAt items key := by
  have none : added.find? (·.sameKey (.destinationKey key)) = none := by
    rw [List.find?_eq_none]
    exact fun item mem => by simp [others item mem]
  unfold recordAt
  rw [List.find?_append, none, Option.or_none]

theorem ofMigrated_elsewhere (other : record.key ≠ key) :
    (Item.ofMigrated record now).sameKey (.destinationKey key) = false := by
  rw [Bool.eq_false_iff]
  exact mt Item.ofMigrated_sameKey_iff.mp other

/-- An item that is added to a free place leaves no two at one. -/
theorem Keyed.added (keyed : Keyed items)
    (free : items.any (·.sameKey (.ofMigrated record now)) = false) :
    Keyed (items ++ [.ofMigrated record now]) := by
  intro key
  rw [List.countP_append, List.countP_singleton]
  split
  · next here =>
    obtain rfl := Item.ofMigrated_sameKey_iff.mp here
    have none : items.countP (·.sameKey (.destinationKey record.key)) = 0 :=
      List.countP_eq_zero.mpr (List.any_eq_false.mp free)
    omega
  · exact keyed key

theorem occupied_perm (perm : items.Perm items') (key : String) :
    occupied items' key = occupied items key := (perm.any_eq).symm

end Contents

/-! ## A single migration -/

/-- What may come of the conditional write of an item, and the items after it. -/
inductive Conditional (item : Item) (before : List Item) :
    Except Failure Unit → List Item → Prop where
  | stored {after : List Item} : before.any (·.sameKey item) = false →
    after.Perm (before ++ [item]) → Conditional item before (.ok ()) after
  | present {failure : Failure} : before.any (·.sameKey item) = true →
    IsConditionFailed failure → Conditional item before (.error failure) before
  | failed {failure : Failure} : ¬ IsConditionFailed failure →
    Conditional item before (.error failure) before

/-- A client to whose destination nobody else writes. A conditional write stores its item if its
place is free and is refused by the condition if not, but either may also fail, and then nothing is
stored. `sound` is what is true of the states of the service, and `items` what its destination
holds. -/
structure Guarded {μ : Type} [Client μ] (sound : μ → Prop) (items : μ → List Item)
    (destination : String) : Prop where
  keyed : ∀ m, sound m → Keyed (items m)
  noted : ∀ m request, sound m →
    sound (Client.note m request) ∧ items (Client.note m request) = items m
  put : ∀ m record now, sound m →
    sound (Client.putItem m destination (.ofMigrated record now) true).2 ∧
      Conditional (.ofMigrated record now) (items m)
        (Client.putItem m destination (.ofMigrated record now) true).1
        (items (Client.putItem m destination (.ofMigrated record now) true).2)
  got : ∀ m key item, sound m →
    (Client.getItem m destination (.destinationKey key)).1 = .ok item →
    item = (items m).find? (·.sameKey (.destinationKey key))

theorem moment_unique {μ : Type} {r : Repository μ} {now now' : Int} (clock : r.nowSeconds = .ok now)
    (clock' : r.nowSeconds = .ok now') : now' = now := by
  rw [clock] at clock'
  exact (Except.ok.inj clock').symm

section Migrate
variable {μ : Type} [Client μ]

/-- The request that reads the record under a key is answered. -/
def Repository.Readable (r : Repository μ) (key : String) : Prop :=
  ∃ item, (Client.getItem r.connect.service r.destination (.destinationKey key)).1 = .ok item

/-- How a migration may go. -/
inductive Course (r : Repository μ) (record : Record) :
    Except Failure Bool → Repository μ → Prop where
  | timeless {failure : Failure} : r.nowSeconds = .error failure →
    Course r record (.error failure) r
  | expired {now : Int} : r.nowSeconds = .ok now → record.expiresAt ≤ now →
    Course r record (.ok false) r
  | unwritable {now : Int} {failure : Failure} : r.nowSeconds = .ok now →
    now < record.expiresAt → Item.refusal? record = some failure →
    Course r record (.error failure) r.connect
  | written {now : Int} {service : μ} : r.nowSeconds = .ok now → now < record.expiresAt →
    Item.refusal? record = none →
    Client.putItem r.connect.service r.destination (.ofMigrated record now) true =
      (.ok (), service) →
    Course r record (.ok true) { r.connect with service }
  | failed {now : Int} {failure : Failure} {service : μ} : r.nowSeconds = .ok now →
    now < record.expiresAt → Item.refusal? record = none →
    Client.putItem r.connect.service r.destination (.ofMigrated record now) true =
      (.error failure, service) →
    Course r record (Repository.writeFailure record.key failure) { r.connect with service }

theorem migrate_course (r : Repository μ) (record : Record) :
    Course r record (r.migrate record).1 (r.migrate record).2 := by
  unfold Repository.migrate
  cases clock : r.nowSeconds with
  | error failure => exact .timeless clock
  | ok now =>
    dsimp only
    by_cases expired : record.expiresAt ≤ now
    · rw [if_pos expired]
      exact .expired clock expired
    · rw [if_neg expired]
      have unexpired := Int.not_le.mp expired
      cases writable : Item.refusal? record with
      | some failure => exact .unwritable clock unexpired writable
      | none =>
        rcases put : Client.putItem r.connect.service r.connect.destination
            (.ofMigrated record now) true with ⟨_ | ⟨⟩, service⟩
        · exact .failed clock unexpired writable (r.connect_destination ▸ put)
        · exact .written clock unexpired writable (r.connect_destination ▸ put)

/-- What a migration tells of the destination, and what it does to it. -/
structure Contract (items : μ → List Item) (r : Repository μ) (record : Record)
    (outcome : Except Failure Bool) (r' : Repository μ) : Prop where
  written_iff : outcome = .ok true ↔ ∃ now, r.nowSeconds = .ok now ∧ now < record.expiresAt ∧
    occupied (items r.service) record.key = false ∧ Item.refusal? record = none ∧
    (Client.putItem r.connect.service r.destination (.ofMigrated record now) true).1 = .ok ()
  gained : outcome = .ok true → ∀ now, r.nowSeconds = .ok now →
    (items r'.service).Perm (items r.service ++ [.ofMigrated record now])
  read_back : outcome = .ok true → r'.Readable record.key →
    (r'.get record.key).1 = .ok (some record)
  others_read : outcome = .ok true → ∀ key, key ≠ record.key → r.Readable key → r'.Readable key →
    (r'.get key).1 = (r.get key).1
  unchanged : outcome ≠ .ok true → items r'.service = items r.service
  passed_over_iff : outcome = .ok false ↔ ∃ now, r.nowSeconds = .ok now ∧
    (record.expiresAt ≤ now ∨ now < record.expiresAt ∧
      occupied (items r.service) record.key = true ∧ Item.refusal? record = none ∧
      ∃ failure, IsConditionFailed failure ∧
        (Client.putItem r.connect.service r.destination (.ofMigrated record now) true).1 =
          .error failure)
  expired : ∀ now, r.nowSeconds = .ok now → record.expiresAt ≤ now → outcome = .ok false ∧ r' = r

section Guarded
variable {sound : μ → Prop} {items : μ → List Item} {destination : String} {r : Repository μ}
  {record : Record} {outcome : Except Failure Bool} {r' : Repository μ}

theorem Guarded.connect (guarded : Guarded sound items destination) (h : sound r.service) :
    sound r.connect.service ∧ items r.connect.service = items r.service := by
  unfold Repository.connect
  split
  · exact ⟨h, rfl⟩
  · exact guarded.noted _ _ h

theorem Guarded.get_eq (guarded : Guarded sound items destination) (h : sound r.service)
    (destined : r.destination = destination) {key : String} (readable : r.Readable key) :
    (r.get key).1 = recordAt (items r.service) key := by
  obtain ⟨item, answered⟩ := readable
  obtain ⟨connected, same⟩ := guarded.connect h
  have found := guarded.got r.connect.service key item connected (destined ▸ answered)
  rw [same] at found
  unfold Repository.get
  dsimp only
  rw [r.connect_destination]
  rcases get : Client.getItem r.connect.service r.destination (.destinationKey key) with
    ⟨_ | item', service⟩
  · rw [get] at answered
    cases answered
  · rw [get] at answered
    cases answered
    subst found
    rfl

/-- The place of a record that is written was free, and its item is added. -/
theorem Guarded.written (guarded : Guarded sound items destination) (h : sound r.service)
    (destined : r.destination = destination) {now : Int} {service : μ}
    (put : Client.putItem r.connect.service r.destination (.ofMigrated record now) true =
      (.ok (), service)) :
    occupied (items r.service) record.key = false ∧
      (items service).Perm (items r.service ++ [.ofMigrated record now]) := by
  obtain ⟨connected, same⟩ := guarded.connect h
  obtain ⟨-, conditional⟩ := guarded.put r.connect.service record now connected
  rw [← destined, put, same] at conditional
  cases conditional with
  | stored free perm => exact ⟨free, perm⟩

/-- A write that fails stores nothing, and the condition fails only if the place is taken. -/
theorem Guarded.failed (guarded : Guarded sound items destination) (h : sound r.service)
    (destined : r.destination = destination) {now : Int} {failure : Failure} {service : μ}
    (put : Client.putItem r.connect.service r.destination (.ofMigrated record now) true =
      (.error failure, service)) :
    items service = items r.service ∧
      (IsConditionFailed failure → occupied (items r.service) record.key = true) := by
  obtain ⟨connected, same⟩ := guarded.connect h
  obtain ⟨-, conditional⟩ := guarded.put r.connect.service record now connected
  rw [← destined, put, same] at conditional
  generalize items service = after at conditional
  cases conditional with
  | present taken => exact ⟨rfl, fun _ => taken⟩
  | failed other => exact ⟨rfl, fun refused => absurd refused other⟩

theorem Guarded.kept (guarded : Guarded sound items destination) (h : sound r.service)
    (destined : r.destination = destination) (course : Course r record outcome r') :
    sound r'.service ∧ r'.destination = destination := by
  obtain ⟨connected, -⟩ := guarded.connect h
  have destined' := r.connect_destination.trans destined
  cases course with
  | timeless | expired => exact ⟨h, destined⟩
  | unwritable => exact ⟨connected, destined'⟩
  | @written now service _ _ _ put =>
    have kept := (guarded.put r.connect.service record now connected).1
    rw [← destined, put] at kept
    exact ⟨kept, destined'⟩
  | @failed now failure service _ _ _ put =>
    have kept := (guarded.put r.connect.service record now connected).1
    rw [← destined, put] at kept
    exact ⟨kept, destined'⟩

theorem Guarded.contract_of_written (guarded : Guarded sound items destination)
    (h : sound r.service) (destined : r.destination = destination) {now : Int} {service : μ}
    (clock : r.nowSeconds = .ok now) (unexpired : now < record.expiresAt)
    (writable : Item.refusal? record = none)
    (put : Client.putItem r.connect.service r.destination (.ofMigrated record now) true =
      (.ok (), service)) :
    Contract items r record (.ok true) { r.connect with service } := by
  obtain ⟨free, perm⟩ := guarded.written h destined put
  obtain ⟨kept, destined'⟩ := guarded.kept h destined (.written clock unexpired writable put)
  have keyed : Keyed (items service) := guarded.keyed _ kept
  have added : Item.ofMigrated record now ∈ items service :=
    perm.mem_iff.mpr (List.mem_append_right _ List.mem_cons_self)
  constructor
  case written_iff =>
    exact ⟨fun _ => ⟨now, clock, unexpired, free, writable, by rw [put]⟩, fun _ => rfl⟩
  case gained =>
    intro _ now' clock'
    rw [moment_unique clock clock']
    exact perm
  case read_back =>
    intro _ readable
    rw [guarded.get_eq kept destined' readable]
    exact recordAt_migrated keyed added writable
  case others_read =>
    intro _ key other before after
    rw [guarded.get_eq kept destined' after, guarded.get_eq h destined before]
    refine (recordAt_perm perm keyed key).symm.trans (recordAt_append ?_)
    rintro item (_ | ⟨_, ⟨⟩⟩)
    exact ofMigrated_elsewhere (Ne.symm other)
  case unchanged => exact fun silent => absurd rfl silent
  case passed_over_iff =>
    refine ⟨nofun, ?_⟩
    rintro ⟨now', clock', expired | ⟨-, taken, -⟩⟩
    · rw [moment_unique clock clock'] at expired
      exact absurd unexpired (Int.not_lt.mpr expired)
    · rw [free] at taken
      cases taken
  case expired =>
    intro now' clock' expired
    rw [moment_unique clock clock'] at expired
    exact absurd unexpired (Int.not_lt.mpr expired)

theorem Guarded.contract_of_failed (guarded : Guarded sound items destination)
    (h : sound r.service) (destined : r.destination = destination) {now : Int} {failure : Failure}
    {service : μ} (clock : r.nowSeconds = .ok now) (unexpired : now < record.expiresAt)
    (writable : Item.refusal? record = none)
    (put : Client.putItem r.connect.service r.destination (.ofMigrated record now) true =
      (.error failure, service)) :
    Contract items r record (Repository.writeFailure record.key failure)
      { r.connect with service } := by
  obtain ⟨unchanged, refused⟩ := guarded.failed h destined put
  have silent := writeFailure_ne_written record.key failure
  have passed_over := @writeFailure_eq_ok_iff record.key failure false
  constructor
  case written_iff =>
    refine ⟨fun written => absurd written silent, ?_⟩
    rintro ⟨now', clock', -, -, -, stored⟩
    rw [moment_unique clock clock', put] at stored
    cases stored
  case gained | read_back | others_read => exact fun written => absurd written silent
  case unchanged => exact fun _ => unchanged
  case passed_over_iff =>
    rw [passed_over]
    constructor
    · rintro ⟨-, condition⟩
      exact ⟨now, clock,
        .inr ⟨unexpired, refused condition, writable, failure, condition, by rw [put]⟩⟩
    · rintro ⟨now', clock', expired | ⟨-, -, -, failure', condition, told⟩⟩
      · rw [moment_unique clock clock'] at expired
        exact absurd unexpired (Int.not_lt.mpr expired)
      · rw [moment_unique clock clock', put] at told
        cases told
        exact ⟨rfl, condition⟩
  case expired =>
    intro now' clock' expired
    rw [moment_unique clock clock'] at expired
    exact absurd unexpired (Int.not_lt.mpr expired)

/-- A migration keeps the contract, however it goes. -/
theorem Guarded.contract (guarded : Guarded sound items destination) (h : sound r.service)
    (destined : r.destination = destination) (record : Record) :
    Contract items r record (r.migrate record).1 (r.migrate record).2 := by
  have course := migrate_course r record
  generalize (r.migrate record).1 = outcome, (r.migrate record).2 = r' at course ⊢
  cases course with
  | timeless clock => constructor <;> simp [clock]
  | expired clock expired => constructor <;> simp [clock, expired, Int.not_lt.mpr expired]
  | unwritable clock unexpired refusal =>
    obtain ⟨-, same⟩ := guarded.connect h
    constructor <;> simp [clock, refusal, same, unexpired, Int.not_le.mpr unexpired]
  | written clock unexpired writable put =>
    exact guarded.contract_of_written h destined clock unexpired writable put
  | failed clock unexpired writable put =>
    exact guarded.contract_of_failed h destined clock unexpired writable put

end Guarded

end Migrate

end Rekey.Service
