import Rekey.Proofs.Text.Numeral
import Rekey.Service.Item
import Mathlib.Data.List.Nodup

/-! # The items of the two tables

Which items of the source are well-formed legacy items, and of which records, and when two items of
the destination stand at the same place. -/
namespace Rekey.Service.Item

/-- Whether an item stands under a legacy partition key. This is what the filter of a scan asks. -/
def isLegacy (item : Item) : Bool := (KeySpace.parseLegacy? item.partitionKey).isSome

/-- The record of a well-formed legacy item: its partition key is a text with the legacy prefix, its
hash and salt are texts, and its time of expiry is a whole number. -/
def legacyRecord? (item : Item) : Option Record := do
  let key ← (item.text? "PK" "S").bind KeySpace.parseLegacy?
  let hash ← item.text? "hash" "S"
  let salt ← item.text? "salt" "S"
  let expiresAt ← (item.text? "expires_at" "N").bind Text.readInteger?
  return ⟨key, ⟨hash, salt⟩, expiresAt⟩

theorem parseLegacy?_eq_some_iff {partitionKey key : String} :
    KeySpace.parseLegacy? partitionKey = some key ↔ partitionKey = KeySpace.legacy key := by
  unfold KeySpace.parseLegacy? KeySpace.legacy
  rw [Option.map_eq_some_iff]
  constructor
  · rintro ⟨s, hs, rfl⟩
    apply String.toList_inj.mp
    simp [KeySpace.dropPrefix?_eq_some_iff.mp hs]
  · rintro rfl
    exact ⟨key.toList, by rw [String.toList_append, KeySpace.dropPrefix?_append], by simp⟩

theorem legacyRecord?_eq_some_iff {item : Item} {r : Record} :
    item.legacyRecord? = some r ↔
      item.text? "PK" "S" = some (KeySpace.legacy r.key) ∧
      item.text? "hash" "S" = some r.secret.hash ∧ item.text? "salt" "S" = some r.secret.salt ∧
      (item.text? "expires_at" "N").bind Text.readInteger? = some r.expiresAt := by
  obtain ⟨key, ⟨hash, salt⟩, expiresAt⟩ := r
  simp only [legacyRecord?, Option.bind_eq_bind, Option.pure_def, Option.bind_eq_some_iff,
    parseLegacy?_eq_some_iff, Option.some.injEq, Record.mk.injEq, Secret.mk.injEq]
  constructor
  · rintro ⟨_, ⟨_, hk, rfl⟩, _, hh, _, hs, n, ⟨text, ht, hn⟩, rfl, ⟨rfl, rfl⟩, rfl⟩
    exact ⟨hk, hh, hs, text, ht, hn⟩
  · rintro ⟨hk, hh, hs, text, ht, hn⟩
    exact ⟨key, ⟨_, hk, rfl⟩, hash, hh, salt, hs, expiresAt, ⟨text, ht, hn⟩, rfl, ⟨rfl, rfl⟩, rfl⟩

theorem partitionKey_of_legacyRecord? {item : Item} {r : Record}
    (h : item.legacyRecord? = some r) : item.partitionKey = KeySpace.legacy r.key := by
  rw [partitionKey, (legacyRecord?_eq_some_iff.mp h).1]
  rfl

theorem isLegacy_of_legacyRecord? {item : Item} {r : Record} (h : item.legacyRecord? = some r) :
    item.isLegacy = true := by
  rw [isLegacy, partitionKey_of_legacyRecord? h, parseLegacy?_eq_some_iff.mpr rfl]
  rfl

theorem refusal?_eq_none_iff {r : Record} :
    refusal? r = none ↔ Text.isTooLong r.expiresAt = false := by
  unfold refusal?
  cases Text.isTooLong r.expiresAt <;> simp

/-- What was read can be written. -/
theorem refusal?_of_legacyRecord? {item : Item} {r : Record} (h : item.legacyRecord? = some r) :
    refusal? r = none := by
  obtain ⟨-, -, -, number⟩ := legacyRecord?_eq_some_iff.mp h
  obtain ⟨text, -, read⟩ := Option.bind_eq_some_iff.mp number
  exact refusal?_eq_none_iff.mpr (Text.isTooLong_of_readInteger? read)

theorem require_eq_ok_iff {item : Item} {name tag text : String} :
    item.require name tag = .ok text ↔ item.text? name tag = some text := by
  unfold require text?
  cases item.lookup name with
  | none => simp
  | some a => cases ha : a.text? tag <;> simp [ha]

theorem requireInt_eq_ok_iff {item : Item} {name : String} {n : Int} :
    item.requireInt name = .ok n ↔ (item.text? name "N").bind Text.readInteger? = some n := by
  unfold requireInt
  cases hr : item.require name "N" with
  | ok text =>
    rw [require_eq_ok_iff.mp hr]
    cases hn : Text.readInteger? text <;>
      simp [bind, Except.bind, pure, Except.pure, hn]
  | error failure =>
    have hnone : item.text? name "N" = none := by
      cases ht : item.text? name "N" with
      | none => rfl
      | some text => rw [require_eq_ok_iff.mpr ht] at hr; cases hr
    simp [bind, Except.bind, hnone]

theorem record_eq_ok_iff {item : Item} {key : String} {r : Record} :
    item.record key = .ok r ↔ r.key = key ∧
      item.text? "hash" "S" = some r.secret.hash ∧ item.text? "salt" "S" = some r.secret.salt ∧
      (item.text? "expires_at" "N").bind Text.readInteger? = some r.expiresAt := by
  rw [← require_eq_ok_iff, ← require_eq_ok_iff, ← requireInt_eq_ok_iff]
  obtain ⟨key', ⟨hash, salt⟩, expiresAt⟩ := r
  unfold record
  rcases item.require "hash" "S" with _ | hash' <;>
    rcases item.require "salt" "S" with _ | salt' <;>
    rcases item.requireInt "expires_at" with _ | expiresAt' <;>
    simp [bind, Except.bind, pure, Except.pure]
  grind

theorem partitionKey_eq_legacy_iff {item : Item} {key : String} :
    item.partitionKey = KeySpace.legacy key ↔ item.text? "PK" "S" = some (KeySpace.legacy key) := by
  unfold partitionKey
  cases item.text? "PK" "S" with
  | some text => simp
  | none =>
    have hne : "" ≠ KeySpace.legacy key := by
      intro h
      have hlist := congrArg String.toList h
      simp [KeySpace.legacy, KeySpace.legacyPrefix] at hlist
    simp [hne]

/-- The reader of the source finds the records of the well-formed legacy items and no others. -/
theorem readSource_eq_record_iff {item : Item} {r : Record} :
    item.readSource = .record r ↔ item.legacyRecord? = some r := by
  rw [legacyRecord?_eq_some_iff, ← partitionKey_eq_legacy_iff, ← parseLegacy?_eq_some_iff]
  unfold readSource
  cases hkey : KeySpace.parseLegacy? item.partitionKey with
  | none => simp
  | some key =>
    have hiff := @record_eq_ok_iff item key r
    cases hrecord : item.record key with
    | error failure =>
      rw [hrecord] at hiff
      simp only [hrecord, reduceCtorEq, false_iff, Option.some.injEq] at hiff ⊢
      rintro ⟨hk, rest⟩
      exact hiff ⟨hk.symm, rest⟩
    | ok r' =>
      rw [hrecord] at hiff
      simp only [hrecord, Reading.record.injEq, Except.ok.injEq, Option.some.injEq] at hiff ⊢
      rw [hiff, eq_comm]

/-- The items that a scan may leave out are no records. -/
theorem filterMap_legacyRecord? (items : List Item) :
    (items.filter isLegacy).filterMap legacyRecord? = items.filterMap legacyRecord? := by
  rw [List.filterMap_filter]
  apply List.filterMap_congr
  intro item _
  by_cases h : item.isLegacy = true
  · rw [if_pos h]
  · rw [if_neg h]
    cases hr : item.legacyRecord? with
    | none => rfl
    | some r => exact absurd (isLegacy_of_legacyRecord? hr) h

/-- Legacy items that differ in their partition keys have records that differ in their keys. -/
theorem keys_nodup {items : List Item}
    (nodup : ((items.filter isLegacy).map partitionKey).Nodup) :
    ((items.filterMap legacyRecord?).map (·.key)).Nodup := by
  rw [← filterMap_legacyRecord?]
  unfold List.Nodup at nodup ⊢
  rw [List.pairwise_map] at nodup ⊢
  rw [List.pairwise_filterMap]
  refine nodup.imp ?_
  intro a b differ r hr r' hr' same
  apply differ
  rw [partitionKey_of_legacyRecord? hr, partitionKey_of_legacyRecord? hr', same]

/-! ## Places in the destination -/

theorem migrated_inj {key key' : String} :
    KeySpace.migrated key = KeySpace.migrated key' ↔ key = key' :=
  String.append_right_inj KeySpace.migratedPrefix

theorem sameKey_ofMigrated (item : Item) (r : Record) (migratedAt : Int) :
    item.sameKey (ofMigrated r migratedAt) = item.sameKey (destinationKey r.key) := rfl

theorem ofMigrated_sameKey_iff {r : Record} {migratedAt : Int} {key : String} :
    (ofMigrated r migratedAt).sameKey (destinationKey key) = true ↔ r.key = key := by
  have hpk : (ofMigrated r migratedAt).lookup "PK" = some (.ofText (KeySpace.migrated r.key)) := rfl
  have hsk : (ofMigrated r migratedAt).lookup "SK" = some (.ofText KeySpace.sortKey) := rfl
  have hpk' : (destinationKey key).lookup "PK" = some (.ofText (KeySpace.migrated key)) := rfl
  have hsk' : (destinationKey key).lookup "SK" = some (.ofText KeySpace.sortKey) := rfl
  unfold sameKey
  rw [hpk, hsk, hpk', hsk', ← @migrated_inj r.key key]
  simp [sameAttribute, Attribute.ofText, sameEntries, sameValue]

end Rekey.Service.Item
