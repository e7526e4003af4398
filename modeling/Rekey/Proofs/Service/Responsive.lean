import Rekey.Service.Repository

/-! # Clients that answer or fail in an ordinary way

A cancellation is no answer of a service. Over a client that raises none, a scan and a migration
fail in an ordinary way too, whatever the answers are: what the repository makes of a failure, and
what it raises of its own, is ordinary. -/
namespace Rekey.Service

/-- Writes and scans are answered, or fail in an ordinary way. -/
structure Responsive (μ : Type) [Client μ] : Prop where
  put : ∀ (m : μ) name item onlyIfAbsent failure,
    (Client.putItem m name item onlyIfAbsent).1 = .error failure → failure.isOrdinary = true
  scan : ∀ (m : μ) name part startKey failure,
    (Client.scan m name part startKey).1 = .error failure → failure.isOrdinary = true

section Repository
variable {μ : Type} [Client μ] {r : Repository μ} {failure : Failure}

theorem writeFailure_ordinary {key : String} {cause : Failure} (ordinary : cause.isOrdinary = true)
    (raised : Repository.writeFailure key cause = .error failure) : failure.isOrdinary = true := by
  unfold Repository.writeFailure at raised
  split at raised
  · next response title =>
    dsimp only at raised
    split at raised
    · next missing code =>
      cases raised
      unfold Repository.codeOf at code
      split at code
      · cases code; rfl
      · split at code <;> cases code
        rfl
    · split at raised
      · cases raised
      · split at raised <;> cases raised
        · next mismatch passes =>
          unfold Repository.mayPass at passes
          split at passes <;> cases passes
          rfl
        · rfl
        · rfl
  · dsimp only at raised
    split at raised <;> cases raised
    · rfl
    · exact ordinary
  · cases raised
    exact ordinary

theorem Responsive.migrate (h : Responsive μ) {record : Record}
    (raised : (r.migrate record).1 = .error failure) : failure.isOrdinary = true := by
  unfold Repository.migrate at raised
  split at raised
  · next unread clock =>
    cases raised
    unfold Repository.nowSeconds at clock
    repeat' split at clock
    all_goals cases clock
    all_goals rfl
  · split at raised
    · cases raised
    · dsimp only at raised
      split at raised
      · next refusal refused =>
        cases raised
        unfold Item.refusal? at refused
        split at refused <;> cases refused
        rfl
      · split at raised
        · cases raised
        · next cause service put =>
          exact writeFailure_ordinary (h.put _ _ _ _ cause (by rw [put])) raised

theorem connect_source (r : Repository μ) : r.connect.source = r.source := by
  unfold Repository.connect
  split <;> rfl

theorem raised_of_turnPage {segment total : Int} {startKey : Option Value}
    (told : (r.turnPage segment total startKey).1 = some (.failed failure)) :
    ∃ part, (Client.scan r.service r.source part startKey).1 = .error failure := by
  unfold Repository.turnPage Repository.fetch Repository.answered at told
  dsimp only at told
  split at told
  · cases told
  · next cause r' answered =>
    cases told
    exact ⟨_, congrArg Prod.fst answered⟩

/-- A reader is told of a failure only where a request for a page of the source has failed so. -/
theorem raised_of_advance {segment total : Int} {position : Repository.Position}
    (told : (r.advance segment total position).1 = some (.failed failure)) :
    ∃ (m : μ) (part : Option (Int × Int)) (startKey : Option Value),
      (Client.scan m r.source part startKey).1 = .error failure := by
  unfold Repository.advance at told
  split at told
  · obtain ⟨part, raised⟩ := raised_of_turnPage told
    rw [connect_source] at raised
    exact ⟨_, part, _, raised⟩
  · split at told
    · cases told
    · obtain ⟨part, raised⟩ := raised_of_turnPage told
      exact ⟨_, part, _, raised⟩
    · cases told

theorem Responsive.advance (h : Responsive μ) {segment total : Int}
    {position : Repository.Position}
    (told : (r.advance segment total position).1 = some (.failed failure)) :
    failure.isOrdinary = true := by
  obtain ⟨m, part, startKey, raised⟩ := raised_of_advance told
  exact h.scan m _ part startKey failure raised

end Repository

/-! ## Tables in memory -/

namespace Memory

theorem fault_ordinary (fault : Fault) (title : String) :
    (fault.failure title).isOrdinary = true := by
  cases fault with
  | refused | notReady => rfl
  | link fault => cases fault <;> rfl

theorem receive_ordinary {m : Memory} {request : Request} {failure : Failure}
    (raised : (m.receive request).1 = .error failure) : failure.isOrdinary = true := by
  unfold receive at raised
  dsimp only at raised
  split at raised
  · cases raised
    exact fault_ordinary _ _
  · cases raised

theorem receiveKey_ordinary {m : Memory} {request : Request} {item : Item} {failure : Failure}
    (raised : (m.receiveKey request item).1 = .error failure) : failure.isOrdinary = true := by
  unfold receiveKey at raised
  dsimp only at raised
  split at raised
  · cases raised
    exact fault_ordinary _ _
  · cases raised

/-- Whatever faults are prepared for tables in memory. -/
theorem responsive : Responsive Memory where
  put m name item onlyIfAbsent failure raised := by
    change (m.putItem name item onlyIfAbsent).1 = _ at raised
    unfold putItem at raised
    dsimp only at raised
    split at raised
    · next cause m' received =>
      cases raised
      exact receive_ordinary (congrArg Prod.fst received)
    · split at raised
      · next cause m'' received =>
        cases raised
        exact receiveKey_ordinary (congrArg Prod.fst received)
      · split at raised
        · cases raised; rfl
        · split at raised <;> cases raised
          rfl
  scan m name part startKey failure raised := by
    change (m.scan name part startKey).1 = _ at raised
    unfold scan at raised
    dsimp only at raised
    split at raised
    · next cause m' received =>
      cases raised
      exact receive_ordinary (congrArg Prod.fst received)
    · repeat' split at raised
      all_goals cases raised
      rfl

end Memory
end Rekey.Service
