import Rekey.Proofs.Service.Item
import Rekey.Service.Repository

/-! # Clients without failures

What a repository does over a client whose requests do not fail: its scans give the records of the
well-formed legacy items page by page, and a migration writes an item exactly when the record has not
expired and the destination has no item at its place. -/
namespace Rekey.Service

open Repository (Position)

/-- What there is to know of a service: which of its states are sound, the items of its tables, the
keys with which pages of a segment of the source end, and which items the scan of a segment has still
to return after such a key. -/
structure View (μ : Type) where
  sound : μ → Prop
  items : μ → (table : String) → List Item
  issued : (segment : Nat) → (key : Value) → Prop
  rest : (segment : Nat) → (startKey : Option Value) → List Item

/-- A client without failures. A scan returns pages of any sizes, of which the filter lets through
what the segment has to return; a conditional write stores its item exactly when there is none with
the same key. -/
structure Reliable {μ : Type} [Client μ] (v : View μ) (source destination : String)
    (segments : Nat) : Prop where
  noted : ∀ m request, v.sound m →
    v.sound (Client.note m request) ∧ v.items (Client.note m request) = v.items m
  scanned : ∀ m i startKey, v.sound m → i < segments → (∀ key ∈ startKey, v.issued i key) →
    ∃ page m', Client.scan m source
      (if 1 < (segments : Int) then some ((i : Int), (segments : Int)) else none) startKey =
        (.ok page, m') ∧
    v.sound m' ∧ v.items m' = v.items m ∧ (∀ key ∈ page.next?, v.issued i key) ∧
    page.items.filter Item.isLegacy ++ (page.next?.elim [] fun key => v.rest i (some key)) =
      v.rest i startKey
  stored : ∀ m record now, v.sound m →
    (v.items m destination).any (·.sameKey (.ofMigrated record now)) = false → ∃ m',
      Client.putItem m destination (.ofMigrated record now) true = (.ok (), m') ∧ v.sound m' ∧
      (v.items m' destination).Perm (v.items m destination ++ [.ofMigrated record now]) ∧
      ∀ table, table ≠ destination → v.items m' table = v.items m table
  refused : ∀ m record now, v.sound m →
    (v.items m destination).any (·.sameKey (.ofMigrated record now)) = true →
    ∃ response title m', Client.putItem m destination (.ofMigrated record now) true =
        (.error (.service response title), m') ∧
      response.code? = some (.text "ConditionalCheckFailedException") ∧
      v.sound m' ∧ v.items m' = v.items m

/-- The records that the scan of a segment has still to give. -/
def View.left {μ : Type} (v : View μ) (segment : Nat) : Position → List Record
  | .unopened => (v.rest segment none).filterMap Item.legacyRecord?
  | .page items next =>
    items.filterMap Item.legacyRecord? ++
      (next.elim [] fun key => v.rest segment (some key)).filterMap Item.legacyRecord?

def View.CanGoOn {μ : Type} (v : View μ) (segment : Nat) : Position → Prop
  | .unopened => True
  | .page _ next => ∀ key ∈ next, v.issued segment key

theorem View.left_page {μ : Type} (v : View μ) (segment : Nat) (items : List Item)
    (next : Option Value) : v.left segment (.page items next) =
      items.filterMap Item.legacyRecord? ++
        (next.elim [] fun key => v.rest segment (some key)).filterMap Item.legacyRecord? := rfl

/-- What an answer says of the records to come before and after it. -/
def Tells (before after : List Record) : Option (Answer Record) → Prop
  | none => before = after
  | some (.item record) => before = record :: after
  | some .exhausted => before = [] ∧ after = []
  | some (.failed _) => False

section Repository
variable {μ : Type} [Client μ] {v : View μ} {source destination : String} {segments : Nat}
  {now : Int} {r : Repository μ}

structure Serving (v : View μ) (source destination : String) (now : Int) (r : Repository μ) :
    Prop where
  source_eq : r.source = source
  destination_eq : r.destination = destination
  clock : r.nowSeconds = .ok now
  sound : v.sound r.service

theorem Serving.connect (h : Serving v source destination now r)
    (reliable : Reliable v source destination segments) :
    Serving v source destination now r.connect ∧
      v.items r.connect.service = v.items r.service := by
  unfold Repository.connect
  by_cases hopen : r.connection.isOpen = true
  · rw [if_pos hopen]
    exact ⟨h, rfl⟩
  · rw [if_neg hopen]
    obtain ⟨sound, items⟩ := reliable.noted r.service (.openClient r.region r.endpoint) h.sound
    exact ⟨⟨h.source_eq, h.destination_eq, h.clock, sound⟩, items⟩

theorem Serving.turnPage (h : Serving v source destination now r)
    (reliable : Reliable v source destination segments) {i : Nat} (hi : i < segments)
    (startKey : Option Value) (issued : ∀ key ∈ startKey, v.issued i key) :
    ∃ position r', r.turnPage i segments startKey = (none, position, r') ∧
      Serving v source destination now r' ∧ v.items r'.service = v.items r.service ∧
      v.CanGoOn i position ∧
      v.left i position = (v.rest i startKey).filterMap Item.legacyRecord? := by
  obtain ⟨page, m', hscan, sound, items, next, hrest⟩ :=
    reliable.scanned r.service i startKey h.sound hi issued
  refine ⟨.page page.items page.next?, { r with service := m' }, ?_,
    ⟨h.source_eq, h.destination_eq, h.clock, sound⟩, items, next, ?_⟩
  · unfold Repository.turnPage Repository.fetch Repository.answered
    dsimp only
    rw [h.source_eq, hscan]
  · rw [← hrest, List.filterMap_append, Item.filterMap_legacyRecord?]
    rfl

theorem filterMap_firstRecord (items : List Item) (notices : List Notice) :
    items.filterMap Item.legacyRecord? = match (Repository.firstRecord items notices).1 with
      | some (record, rest) => record :: rest.filterMap Item.legacyRecord?
      | none => [] := by
  induction items generalizing notices with
  | nil => rfl
  | cons item items ih =>
    have hiff := @Item.readSource_eq_record_iff item
    unfold Repository.firstRecord
    cases hread : item.readSource with
    | record record => simp [hiff.mp hread]
    | foreign | malformed =>
      have hnone : item.legacyRecord? = none := by
        cases hr : item.legacyRecord? with
        | none => rfl
        | some record => rw [hiff.mpr hr] at hread; cases hread
      rw [List.filterMap_cons_none hnone]
      exact ih _

theorem Serving.advance (h : Serving v source destination now r)
    (reliable : Reliable v source destination segments) {i : Nat} (hi : i < segments)
    {position : Position} (goesOn : v.CanGoOn i position) : ∃ answer? position' r',
      r.advance i segments position = (answer?, position', r') ∧
      Serving v source destination now r' ∧ v.items r'.service = v.items r.service ∧
      v.CanGoOn i position' ∧ Tells (v.left i position) (v.left i position') answer? := by
  cases position with
  | unopened =>
    obtain ⟨hconnect, hitems⟩ := h.connect reliable
    obtain ⟨position, r', hturn, serving, items, goes, left⟩ :=
      hconnect.turnPage reliable hi none (by simp)
    exact ⟨none, position, r', hturn, serving, items.trans hitems, goes, left.symm⟩
  | page items next =>
    have hfirst := filterMap_firstRecord items r.notices
    rcases hf : Repository.firstRecord items r.notices with ⟨_ | ⟨record, rest⟩, notices⟩
    · rw [hf] at hfirst
      have hnotices : Serving v source destination now { r with notices } :=
        ⟨h.source_eq, h.destination_eq, h.clock, h.sound⟩
      cases next with
      | none =>
        refine ⟨some .exhausted, .page [] none, { r with notices }, ?_, hnotices, rfl,
          fun _ => nofun, ?_, rfl⟩
        · simp only [Repository.advance, hf]
        · rw [View.left_page, hfirst]
          rfl
      | some key =>
        obtain ⟨position, r', hturn, serving, items, goes, left⟩ :=
          hnotices.turnPage reliable hi (some key) goesOn
        refine ⟨none, position, r', ?_, serving, items, goes, ?_⟩
        · simp only [Repository.advance, hf]
          exact hturn
        · rw [View.left_page, hfirst, left]
          rfl
    · rw [hf] at hfirst
      refine ⟨some (.item record), .page rest next, { r with notices }, ?_,
        ⟨h.source_eq, h.destination_eq, h.clock, h.sound⟩, rfl, goesOn, ?_⟩
      · simp only [Repository.advance, hf]
      · rw [View.left_page, View.left_page, hfirst]
        rfl

theorem writeFailure_of_refused {response : Response} {title key : String}
    (code : response.code? = some (.text "ConditionalCheckFailedException")) :
    Repository.writeFailure key (.service response title) = .ok false := by
  obtain ⟨error, metadata⟩ := response
  cases error with
  | none => cases code
  | some entry =>
    obtain ⟨code', message⟩ := entry
    obtain rfl : code' = some (.text "ConditionalCheckFailedException") := code
    rfl

/-- Whether a record is due: it has not expired, and nothing stands at its place. -/
def due (now : Int) (items : List Item) (record : Record) : Bool :=
  decide (now < record.expiresAt) && !items.any (·.sameKey (Item.destinationKey record.key))

/-- A migration writes the item of its record if that is due, and else changes nothing. The item is
one that can be built. -/
theorem Serving.migrate (h : Serving v source destination now r)
    (reliable : Reliable v source destination segments) {record : Record}
    (writable : Item.refusal? record = none) : ∃ r',
      r.migrate record = (.ok (due now (v.items r.service destination) record), r') ∧
      Serving v source destination now r' ∧
      (v.items r'.service destination).Perm (v.items r.service destination ++
        if due now (v.items r.service destination) record then [.ofMigrated record now] else []) ∧
      ∀ table, table ≠ destination → v.items r'.service table = v.items r.service table := by
  unfold Repository.migrate
  rw [h.clock]
  dsimp only
  by_cases hexpired : record.expiresAt ≤ now
  · have hdue : due now (v.items r.service destination) record = false := by
      simp [due, Int.not_lt.mpr hexpired]
    rw [if_pos hexpired, hdue]
    exact ⟨r, rfl, h, by simp, fun _ _ => rfl⟩
  · obtain ⟨hconnect, hitems⟩ := h.connect reliable
    have hdue : due now (v.items r.service destination) record =
        !(v.items r.connect.service destination).any (·.sameKey (.ofMigrated record now)) := by
      simp only [due, Int.not_le.mp hexpired, decide_true, Bool.true_and, hitems,
        Item.sameKey_ofMigrated]
    rw [if_neg hexpired, writable, hconnect.destination_eq]
    dsimp only
    cases hany : (v.items r.connect.service destination).any
        (·.sameKey (.ofMigrated record now)) with
    | true =>
      obtain ⟨response, title, m', hput, code, sound, items⟩ :=
        reliable.refused _ _ _ hconnect.sound hany
      rw [hput, hdue, hany]
      dsimp only
      rw [writeFailure_of_refused code]
      refine ⟨_, rfl, ⟨hconnect.source_eq, rfl, hconnect.clock, sound⟩, ?_, fun _ _ => ?_⟩
      · simp [items, hitems]
      · rw [items, hitems]
    | false =>
      obtain ⟨m', hput, sound, perm, others⟩ := reliable.stored _ _ _ hconnect.sound hany
      rw [hput, hdue, hany]
      refine ⟨_, rfl, ⟨hconnect.source_eq, rfl, hconnect.clock, sound⟩, ?_, fun table ht => ?_⟩
      · rw [hitems] at perm
        exact perm
      · rw [others table ht, hitems]

end Repository

section Session
variable {μ : Type} [Client μ] {v : View μ} {source destination : String} {segments : Nat}
  {now : Int} {s : Session μ}

theorem lookup_filter_ne {α β : Type} [BEq α] [LawfulBEq α] {a b : α} (l : List (α × β))
    (ne : b ≠ a) : (l.filter (·.1 != a)).lookup b = l.lookup b := by
  induction l with
  | nil => rfl
  | cons x l ih =>
    by_cases hx : x.1 = a
    · have hb : (b == x.1) = false := by simpa [hx] using ne
      rw [List.filter_cons_of_neg (by simpa using hx), List.lookup_cons, hb, ih]
    · rw [List.filter_cons_of_pos (by simpa using hx), List.lookup_cons, List.lookup_cons, ih]

theorem Serving.step (h : Serving v source destination now s.repository)
    (reliable : Reliable v source destination segments) {i : Nat} (hi : i < segments)
    (goesOn : v.CanGoOn i (s.position i)) : ∃ answer? s', s.advance i segments = (answer?, s') ∧
      Serving v source destination now s'.repository ∧
      v.items s'.repository.service = v.items s.repository.service ∧
      v.CanGoOn i (s'.position i) ∧
      Tells (v.left i (s.position i)) (v.left i (s'.position i)) answer? ∧
      ∀ j : Nat, j ≠ i → s'.position j = s.position j := by
  obtain ⟨answer?, position, r', hadvance, serving, items, goes, tells⟩ :=
    h.advance reliable hi goesOn
  unfold Session.advance
  rw [hadvance]
  refine ⟨answer?, _, rfl, serving, items, ?_, ?_, fun j hj => ?_⟩
  · simpa [Session.position] using goes
  · simpa [Session.position] using tells
  · have hne : (j : Int) ≠ i := fun h => hj (Int.ofNat_inj.mp h)
    have hbeq : ((j : Int) == i) = false := by simpa using hne
    simp only [Session.position, List.lookup_cons, hbeq]
    rw [lookup_filter_ne _ hne]

end Session

end Rekey.Service
