import Rekey.Proofs.Service.Conditional
import Rekey.Proofs.Service.Lossy

/-! # Faulty tables in memory

Tables in memory keep what is asked of a client to whose destination nobody else writes, whatever
faults are prepared for them, as long as none of these passes for a condition that does not hold. -/
namespace Rekey.Service.Memory

/-- No fault of the list is a refusal by a condition. -/
def Plain (faults : Faults) : Prop :=
  ∀ entry ∈ faults, ∀ fault, some fault ∈ entry.2 → ∀ title, ¬ IsConditionFailed (fault.failure title)

def contents (destination : String) (m : Memory) : List Item := (m.table? destination).getD []

structure Honest (destination : String) (m : Memory) : Prop where
  faults : Plain m.faults
  keyFaults : Plain m.keyFaults
  keyed : Keyed (m.contents destination)

theorem Plain.take {faults : Faults} (plain : Plain faults) (name : String) :
    (∀ fault ∈ (faults.take name).1, ∀ title, ¬ IsConditionFailed (fault.failure title)) ∧
      Plain (faults.take name).2 := by
  induction faults with
  | nil => exact ⟨by simp [Faults.take], plain⟩
  | cons entry rest ih =>
    obtain ⟨n, list⟩ := entry
    have first := plain (n, list) List.mem_cons_self
    have others : Plain rest := fun entry mem => plain entry (List.mem_cons_of_mem _ mem)
    unfold Faults.take
    by_cases named : n = name
    · rw [if_pos named]
      cases list with
      | nil => exact ⟨by simp, plain⟩
      | cons fault list =>
        refine ⟨fun fault' same => first fault' (by simp [← Option.mem_def.mp same]), ?_⟩
        rintro entry (_ | ⟨_, mem⟩)
        · exact fun fault' mem => first fault' (List.mem_cons_of_mem _ mem)
        · exact others entry mem
    · rw [if_neg named]
      obtain ⟨taken, left⟩ := ih others
      refine ⟨taken, ?_⟩
      rintro entry (_ | ⟨_, mem⟩)
      · exact first
      · exact left entry mem

section Requests
variable {destination : String} {m : Memory}

theorem Honest.receive (h : Honest destination m) (request : Request) :
    Honest destination (m.receive request).2 ∧
      (m.receive request).2.contents destination = m.contents destination ∧
      ∀ failure, (m.receive request).1 = .error failure → ¬ IsConditionFailed failure := by
  have same : (m.receive request).2.contents destination = m.contents destination := by
    rw [contents, contents, table?, table?, receive_tables]
  have keyed : Keyed ((m.receive request).2.contents destination) := same ▸ h.keyed
  obtain ⟨taken, left⟩ := h.faults.take request.operation
  refine ⟨?_, same, ?_⟩
  all_goals
    unfold Memory.receive at keyed ⊢
    rcases htake : m.faults.take request.operation with ⟨_ | fault, faults⟩
    all_goals rw [htake] at taken left keyed
  · exact ⟨left, h.keyFaults, keyed⟩
  · exact ⟨left, h.keyFaults, keyed⟩
  · simp
  · rintro failure ⟨⟩
    exact taken fault rfl request.title

theorem Honest.receiveKey (h : Honest destination m) (request : Request) (item : Item) :
    Honest destination (m.receiveKey request item).2 ∧
      (m.receiveKey request item).2.contents destination = m.contents destination ∧
      ∀ failure, (m.receiveKey request item).1 = .error failure → ¬ IsConditionFailed failure := by
  have same : (m.receiveKey request item).2.contents destination = m.contents destination := by
    rw [contents, contents, table?, table?, receiveKey_tables]
  have keyed : Keyed ((m.receiveKey request item).2.contents destination) := same ▸ h.keyed
  obtain ⟨taken, left⟩ := h.keyFaults.take item.partitionKey
  refine ⟨?_, same, ?_⟩
  all_goals
    unfold Memory.receiveKey at keyed ⊢
    rcases htake : m.keyFaults.take item.partitionKey with ⟨_ | fault, faults⟩
    all_goals rw [htake] at taken left keyed
  · exact ⟨h.faults, left, keyed⟩
  · exact ⟨h.faults, left, keyed⟩
  · simp
  · rintro failure ⟨⟩
    exact taken fault rfl request.title

/-- A conditional write over faulty tables. -/
theorem Honest.putItem (h : Honest destination m) (record : Record) (now : Int) :
    Honest destination (m.putItem destination (.ofMigrated record now) true).2 ∧
      Conditional (.ofMigrated record now) (m.contents destination)
        (m.putItem destination (.ofMigrated record now) true).1
        ((m.putItem destination (.ofMigrated record now) true).2.contents destination) := by
  obtain ⟨honest, same, told⟩ := h.receive (.putItem destination (.ofMigrated record now) true)
  unfold Memory.putItem
  rcases hreceive : m.receive (.putItem destination (.ofMigrated record now) true) with
    ⟨failure | ⟨⟩, m'⟩ <;> rw [hreceive] at honest same told
  · simp only [hreceive]
    rw [same]
    exact ⟨honest, .failed (told failure rfl)⟩
  obtain ⟨honest', same', told'⟩ :=
    honest.receiveKey (.putItem destination (.ofMigrated record now) true) (.ofMigrated record now)
  rcases hreceiveKey : m'.receiveKey (.putItem destination (.ofMigrated record now) true)
    (.ofMigrated record now) with ⟨failure | ⟨⟩, m''⟩ <;> rw [hreceiveKey] at honest' same' told'
  · simp only [hreceive, hreceiveKey]
    rw [same', same]
    exact ⟨honest', .failed (told' failure rfl)⟩
  simp only [hreceive, hreceiveKey, Bool.true_and]
  have held : m''.contents destination = m.contents destination := same'.trans same
  have keyed := honest'.keyed
  cases table : m''.table? destination with
  | none =>
    have other : ¬ IsConditionFailed
        (Memory.missing (.putItem destination (.ofMigrated record now) true)) := by
      simp [Memory.missing, refusal, IsConditionFailed, Response.ofCode, Response.code?,
        conditionFailed]
    dsimp only
    rw [held]
    exact ⟨honest', .failed other⟩
  | some items =>
    have items_eq : m''.contents destination = items := by rw [contents, table, Option.getD_some]
    rw [← held, items_eq]
    dsimp only
    cases taken : items.any (·.sameKey (.ofMigrated record now)) with
    | true =>
      rw [if_pos rfl, items_eq]
      exact ⟨honest', .present taken rfl⟩
    | false =>
      have stored : (m''.setTable destination (writeItem (.ofMigrated record now) items)).contents
          destination = items ++ [.ofMigrated record now] := by
        rw [contents, table?_setTable, if_pos rfl, table, writeItem_absent taken]
        rfl
      rw [if_neg Bool.false_ne_true]
      rw [items_eq] at keyed
      exact ⟨⟨honest'.faults, honest'.keyFaults, stored ▸ keyed.added taken⟩,
        .stored taken (.of_eq stored)⟩

theorem getItem_found {key : Item} {item : Option Item}
    (answered : (m.getItem destination key).1 = .ok item) :
    item = (m.contents destination).find? (·.sameKey key) := by
  have same := receive_tables m (.getItem destination key)
  unfold Memory.getItem at answered
  rcases hreceive : m.receive (.getItem destination key) with ⟨failure | ⟨⟩, m'⟩ <;>
    rw [hreceive] at same <;> simp only [hreceive] at answered
  · cases answered
  have held : m'.table? destination = m.table? destination := by rw [table?, table?, same]
  rw [contents, ← held]
  cases table : m'.table? destination with
  | none =>
    rw [table] at answered
    cases answered
  | some items =>
    rw [table] at answered
    exact (Except.ok.inj answered).symm

/-- Tables in memory are guarded, whatever else fails. -/
theorem guarded (destination : String) :
    Guarded (Honest destination) (contents destination) destination where
  keyed _ h := h.keyed
  noted _ _ h := ⟨⟨h.faults, h.keyFaults, h.keyed⟩, rfl⟩
  put _ record now h := h.putItem record now
  got _ _ _ _ answered := getItem_found answered

end Requests

end Rekey.Service.Memory
