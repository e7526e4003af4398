import Rekey.Proofs.Scan.Mapped
import Rekey.Proofs.Service.Client

/-! # Scans of a segment do not look into the secrets

Two services may differ in the hashes and salts of their items and be the same otherwise. The scan of
a segment then goes the same way over both: it gives the same records but for the secrets, logs the
same and fails the same. -/
namespace Rekey.Service

open Repository (Position)

theorem lookup_map_snd {β γ : Type} (f : String → β → γ) (entries : List (String × β))
    (name : String) :
    (entries.map fun e => (e.1, f e.1 e.2)).lookup name = (entries.lookup name).map (f name) := by
  induction entries with
  | nil => rfl
  | cons e rest ih =>
    rw [List.map_cons, List.lookup_cons, List.lookup_cons, ih]
    cases hname : name == e.1 with
    | true => rw [eq_of_beq hname]; rfl
    | false => rfl

section Items

/-- The payload under a type tag, a text struck out. -/
def blankText (tag : String) (v : Value) : Value :=
  if tag = "S" ∧ v.text?.isSome = true then .text "" else v

def Attribute.masked (a : Attribute) : Attribute := a.map fun e => (e.1, blankText e.1 e.2)

def maskedUnder (name : String) (a : Attribute) : Attribute :=
  if name = "hash" ∨ name = "salt" then a.masked else a

/-- The item with the texts of its hash and its salt struck out. -/
def Item.masked (item : Item) : Item := item.map fun e => (e.1, maskedUnder e.1 e.2)

def Page.masked (p : Page) : Page := { p with items := p.items.map Item.masked }

def Reading.masked : Reading → Reading
  | .record r => .record r.masked
  | .foreign => .foreign
  | .malformed partitionKey => .malformed partitionKey

theorem Attribute.text?_masked (a : Attribute) :
    a.masked.text? "S" = (a.text? "S").map fun _ => "" := by
  unfold Attribute.text? Attribute.masked
  rw [lookup_map_snd]
  cases a.lookup "S" with
  | none => rfl
  | some v => cases v <;> rfl

namespace Item
variable (item : Item)

theorem lookup_masked (name : String) :
    item.masked.lookup name = (item.lookup name).map (maskedUnder name) :=
  lookup_map_snd maskedUnder item name

theorem lookup_masked_of_public {name : String} (h : ¬(name = "hash" ∨ name = "salt")) :
    item.masked.lookup name = item.lookup name := by
  have same : maskedUnder name = id := funext fun _ => if_neg h
  rw [lookup_masked, same, Option.map_id, id]

theorem partitionKey_masked : item.masked.partitionKey = item.partitionKey := by
  unfold partitionKey text?
  rw [lookup_masked_of_public item (by decide)]

theorem require_masked_of_public {name : String} (h : ¬(name = "hash" ∨ name = "salt"))
    (tag : String) : item.masked.require name tag = item.require name tag := by
  unfold require
  rw [lookup_masked_of_public item h]

theorem require_masked_of_secret {name : String} (h : name = "hash" ∨ name = "salt") :
    item.masked.require name "S" = (item.require name "S").map fun _ => "" := by
  have masked : maskedUnder name = Attribute.masked := funext fun _ => if_pos h
  unfold require
  rw [lookup_masked, masked]
  cases item.lookup name with
  | none => rfl
  | some a =>
    dsimp only [Option.map_some]
    rw [Attribute.text?_masked]
    cases a.text? "S" <;> rfl

theorem record_masked (key : String) :
    item.masked.record key = (item.record key).map Record.masked := by
  have expiresAt : item.masked.requireInt "expires_at" = item.requireInt "expires_at" := by
    unfold requireInt
    rw [require_masked_of_public item (by decide)]
  unfold record
  rw [require_masked_of_secret item (.inl rfl), require_masked_of_secret item (.inr rfl), expiresAt]
  cases item.require "hash" "S" with
  | error => rfl
  | ok hash =>
    cases item.require "salt" "S" with
    | error => rfl
    | ok salt => cases item.requireInt "expires_at" <;> rfl

/-- An item that cannot be read is reported by its partition key, which is no secret. -/
theorem readSource_masked : item.masked.readSource = item.readSource.masked := by
  unfold readSource
  rw [partitionKey_masked]
  cases KeySpace.parseLegacy? item.partitionKey with
  | none => rfl
  | some key =>
    dsimp only
    rw [record_masked]
    cases item.record key <;> rfl

end Item

theorem firstRecord_masked (items : List Item) (notices : List Notice) :
    Repository.firstRecord (items.map Item.masked) notices =
      ((Repository.firstRecord items notices).1.map fun found =>
        (found.1.masked, found.2.map Item.masked), (Repository.firstRecord items notices).2) := by
  induction items generalizing notices with
  | nil => rfl
  | cons item rest ih =>
    rw [List.map_cons, Repository.firstRecord, Repository.firstRecord, Item.readSource_masked]
    cases item.readSource with
    | record record => rfl
    | foreign => exact ih notices
    | malformed partitionKey => exact ih _

end Items

section Scans
variable {μ μ' : Type} [Client μ] [Client μ'] {rel : μ → μ' → Prop}

/-- Services whose scans return the same but for the secrets, whatever is asked of them in turn. -/
structure Alike (rel : μ → μ' → Prop) : Prop where
  noted : ∀ m m' request, rel m m' → rel (Client.note m request) (Client.note m' request)
  scanned : ∀ m m' name part startKey, rel m m' →
    (Client.scan m' name part startKey).1.map Page.masked =
        (Client.scan m name part startKey).1.map Page.masked ∧
      rel (Client.scan m name part startKey).2 (Client.scan m' name part startKey).2

/-- Repositories with the same settings and the same log, over services that are alike. -/
structure Repository.Alike (rel : μ → μ' → Prop) (r : Repository μ) (r' : Repository μ') : Prop where
  source : r'.source = r.source
  region : r'.region = r.region
  endpoint : r'.endpoint = r.endpoint
  connection : r'.connection = r.connection
  notices : r'.notices = r.notices
  service : rel r.service r'.service

def Repository.Position.masked : Position → Position
  | .unopened => .unopened
  | .page items next => .page (items.map Item.masked) next

structure Session.Alike (rel : μ → μ' → Prop) (s : Session μ) (s' : Session μ') : Prop where
  repository : s.repository.Alike rel s'.repository
  positions : ∀ segment, (s'.position segment).masked = (s.position segment).masked

namespace Repository.Alike
variable {r : Repository μ} {r' : Repository μ'}

theorem connect (h : r.Alike rel r') (alike : Service.Alike rel) : r.connect.Alike rel r'.connect := by
  have isOpen : r'.connection.isOpen = r.connection.isOpen := by rw [h.connection]
  unfold Repository.connect
  rw [isOpen]
  split
  · exact h
  · refine ⟨h.source, h.region, h.endpoint, ?_, h.notices, ?_⟩
    · rw [h.connection]
    · rw [h.region, h.endpoint]
      exact alike.noted _ _ _ h.service

theorem fetch (h : r.Alike rel r') (alike : Service.Alike rel) (segment total : Int)
    (startKey : Option Value) :
    (r'.fetch segment total startKey).1.map Page.masked =
        (r.fetch segment total startKey).1.map Page.masked ∧
      (r.fetch segment total startKey).2.Alike rel (r'.fetch segment total startKey).2 := by
  obtain ⟨pages, services⟩ := alike.scanned r.service r'.service r.source
    (if 1 < total then some (segment, total) else none) startKey h.service
  unfold Repository.fetch Repository.answered
  dsimp only
  rw [h.source]
  exact ⟨pages, rfl, h.region, h.endpoint, h.connection, h.notices, services⟩

theorem turnPage (h : r.Alike rel r') (alike : Service.Alike rel) (segment total : Int)
    (startKey : Option Value) :
    (r'.turnPage segment total startKey).1 = (r.turnPage segment total startKey).1 ∧
      (r'.turnPage segment total startKey).2.1.masked =
        (r.turnPage segment total startKey).2.1.masked ∧
      (r.turnPage segment total startKey).2.2.Alike rel
        (r'.turnPage segment total startKey).2.2 := by
  obtain ⟨pages, repositories⟩ := h.fetch alike segment total startKey
  unfold Repository.turnPage
  generalize r.fetch segment total startKey = reply at pages repositories
  generalize r'.fetch segment total startKey = reply' at pages repositories
  obtain ⟨answer, t⟩ := reply
  obtain ⟨answer', t'⟩ := reply'
  cases answer with
  | error failure =>
    cases answer' with
    | error failure' =>
      obtain rfl := Except.error.inj pages
      exact ⟨rfl, rfl, repositories⟩
    | ok => cases pages
  | ok page =>
    cases answer' with
    | error => cases pages
    | ok page' =>
      obtain ⟨items, lastKey⟩ := Page.mk.inj (Except.ok.inj pages)
      have next : page'.next? = page.next? := congrArg (Option.filter Value.truthy) lastKey
      exact ⟨rfl, congrArg₂ Position.page items next, repositories⟩

theorem advance (h : r.Alike rel r') (alike : Service.Alike rel) (segment total : Int)
    {position position' : Position} (same : position'.masked = position.masked) :
    (r'.advance segment total position').1.map (Answer.map Record.masked) =
        (r.advance segment total position).1.map (Answer.map Record.masked) ∧
      (r'.advance segment total position').2.1.masked =
        (r.advance segment total position).2.1.masked ∧
      (r.advance segment total position).2.2.Alike rel
        (r'.advance segment total position').2.2 := by
  cases position with
  | unopened =>
    cases position' with
    | unopened =>
      obtain ⟨answer, position, repository⟩ := (h.connect alike).turnPage alike segment total none
      exact ⟨congrArg _ answer, position, repository⟩
    | page => cases same
  | page items next =>
    cases position' with
    | unopened => cases same
    | page items' next' =>
      obtain ⟨hitems, rfl⟩ := Position.page.inj same
      have first := firstRecord_masked items r.notices
      rw [← hitems, firstRecord_masked items' r.notices] at first
      unfold Repository.advance
      dsimp only
      rw [h.notices]
      generalize Repository.firstRecord items r.notices = scanned at first
      generalize Repository.firstRecord items' r.notices = scanned' at first
      obtain ⟨found, notices⟩ := scanned
      obtain ⟨found', notices'⟩ := scanned'
      obtain ⟨hfound, rfl⟩ := Prod.mk.inj first
      have logged : Repository.Alike rel { r with notices := notices' }
          { r' with notices := notices' } :=
        ⟨h.source, h.region, h.endpoint, h.connection, rfl, h.service⟩
      cases found with
      | none =>
        cases found' with
        | some => cases hfound
        | none =>
          cases next' with
          | none => exact ⟨rfl, rfl, logged⟩
          | some key =>
            obtain ⟨answer, position, repository⟩ :=
              logged.turnPage alike segment total (some key)
            exact ⟨congrArg _ answer, position, repository⟩
      | some found =>
        cases found' with
        | none => cases hfound
        | some found' =>
          obtain ⟨record, rest⟩ := Prod.mk.inj (Option.some.inj hfound)
          exact ⟨congrArg (fun record => some (Answer.item record)) record,
            congrArg (Position.page · next') rest, logged⟩

end Repository.Alike

namespace Session.Alike
variable {s : Session μ} {s' : Session μ'}

theorem advance (h : s.Alike rel s') (alike : Service.Alike rel) (segment total : Int) :
    (s'.advance segment total).1.map (Answer.map Record.masked) =
        (s.advance segment total).1.map (Answer.map Record.masked) ∧
      (s.advance segment total).2.Alike rel (s'.advance segment total).2 := by
  obtain ⟨answer, position, repository⟩ :=
    h.repository.advance alike segment total (h.positions segment)
  refine ⟨answer, repository, fun other => ?_⟩
  unfold Session.advance Session.position
  dsimp only
  by_cases hother : other = segment
  · rw [hother, List.lookup_cons_self, List.lookup_cons_self]
    exact position
  · have hne : (other == segment) = false := beq_eq_false_iff_ne.mpr hother
    rw [List.lookup_cons, List.lookup_cons, hne]
    dsimp only
    rw [lookup_filter_ne _ hother, lookup_filter_ne _ hother]
    exact h.positions other

theorem readWithin (h : s.Alike rel s') (alike : Service.Alike rel) (segment total : Int)
    (pages : Nat) :
    (s'.readWithin pages segment total).1.map (Answer.map Record.masked) =
        (s.readWithin pages segment total).1.map (Answer.map Record.masked) ∧
      (s.readWithin pages segment total).2.Alike rel (s'.readWithin pages segment total).2 := by
  induction pages generalizing s s' with
  | zero => exact ⟨rfl, h⟩
  | succ pages ih =>
    obtain ⟨answers, sessions⟩ := h.advance alike segment total
    unfold Session.readWithin
    generalize s.advance segment total = step at answers sessions
    generalize s'.advance segment total = step' at answers sessions
    obtain ⟨answer, t⟩ := step
    obtain ⟨answer', t'⟩ := step'
    cases answer with
    | none =>
      cases answer' with
      | none => exact ih sessions
      | some => cases answers
    | some answer =>
      cases answer' with
      | none => cases answers
      | some answer' => exact ⟨answers, sessions⟩

theorem collect (h : s.Alike rel s') (alike : Service.Alike rel) (segment total : Int)
    (limit : Nat) :
    (s'.collect segment total limit).1.map Record.masked =
        (s.collect segment total limit).1.map Record.masked ∧
      (s'.collect segment total limit).2.1 = (s.collect segment total limit).2.1 ∧
      (s.collect segment total limit).2.2.Alike rel (s'.collect segment total limit).2.2 := by
  induction limit generalizing s s' with
  | zero => exact ⟨rfl, rfl, h⟩
  | succ limit ih =>
    obtain ⟨answers, sessions⟩ := h.readWithin alike segment total Session.patience
    unfold Session.collect
    generalize s.readWithin Session.patience segment total = step at answers sessions
    generalize s'.readWithin Session.patience segment total = step' at answers sessions
    obtain ⟨answer, t⟩ := step
    obtain ⟨answer', t'⟩ := step'
    cases answer with
    | none =>
      cases answer' with
      | none => exact ⟨rfl, rfl, sessions⟩
      | some => cases answers
    | some answer =>
      cases answer' with
      | none => cases answers
      | some answer' =>
        have same : answer'.map Record.masked = answer.map Record.masked := Option.some.inj answers
        cases answer with
        | item record =>
          cases answer' with
          | item record' =>
            obtain ⟨records, failure, sessions⟩ := ih sessions
            exact ⟨congrArg₂ List.cons (Answer.item.inj same) records, failure, sessions⟩
          | exhausted | failed => cases same
        | exhausted =>
          cases answer' with
          | exhausted => exact ⟨rfl, rfl, sessions⟩
          | item | failed => cases same
        | failed failure =>
          cases answer' with
          | failed failure' => exact ⟨rfl, congrArg some (Answer.failed.inj same), sessions⟩
          | item | exhausted => cases same

end Session.Alike

/-- The scan of a segment gives the same records but for their secrets, fails with the same failure
and logs the same. -/
theorem Repository.Alike.scanSegment {r : Repository μ} {r' : Repository μ'}
    (h : r.Alike rel r') (alike : Service.Alike rel) (segment total : Int) (limit : Option Nat) :
    (r'.scanSegment segment total limit).1.map Record.masked =
        (r.scanSegment segment total limit).1.map Record.masked ∧
      (r'.scanSegment segment total limit).2.1 = (r.scanSegment segment total limit).2.1 ∧
      (r.scanSegment segment total limit).2.2.Alike rel
        (r'.scanSegment segment total limit).2.2 := by
  have start : (Session.new r).Alike rel (Session.new r') := ⟨h, fun _ => rfl⟩
  obtain ⟨records, failure, sessions⟩ :=
    start.collect alike segment total (limit.getD Session.patience)
  exact ⟨records, failure, sessions.repository⟩

end Scans

def Request.masked : Request → Request
  | .putItem table item onlyIfAbsent => .putItem table item.masked onlyIfAbsent
  | request => request

namespace Memory

/-- The service with the hashes and salts of its items struck out, those in its log included. -/
def masked (m : Memory) : Memory :=
  { m with
    tables := m.tables.map fun t => (t.1, t.2.map Item.masked)
    pages := m.pages.map (List.map Page.masked)
    log := m.log.map Request.masked }

theorem pageKey_masked (item : Item) : itemsAfter.pageKey item.masked = itemsAfter.pageKey item := by
  unfold itemsAfter.pageKey
  rw [Item.lookup_masked_of_public item (by decide)]

theorem segmentItems_masked (items : List Item) (segment : Int) (total : Nat) :
    segmentItems (items.map Item.masked) segment total =
      (segmentItems items segment total).map Item.masked := by
  unfold segmentItems
  dsimp only
  rw [List.length_map, List.zipIdx_map, List.filter_map, List.map_map, List.map_map]
  rfl

theorem itemsAfter_masked (items : List Item) (startKey : Option Value) :
    itemsAfter (items.map Item.masked) startKey = (itemsAfter items startKey).map Item.masked := by
  cases startKey with
  | none => rfl
  | some key =>
    have same : (fun item => !sameValue (itemsAfter.pageKey item) key) ∘ Item.masked =
        fun item => !sameValue (itemsAfter.pageKey item) key :=
      funext fun item => by rw [Function.comp_apply, pageKey_masked]
    unfold itemsAfter
    dsimp only
    rw [List.dropWhile_map, same]
    cases items.dropWhile fun item => !sameValue (itemsAfter.pageKey item) key <;> rfl

theorem firstPage_masked (items : List Item) (pageSize : Option Nat) :
    firstPage (items.map Item.masked) pageSize = (firstPage items pageSize).masked := by
  cases pageSize with
  | none => rfl
  | some n =>
    have last : ((items.map Item.masked).take n).getLast?.map itemsAfter.pageKey =
        (items.take n).getLast?.map itemsAfter.pageKey := by
      rw [← List.map_take, List.getLast?_map, Option.map_map]
      exact congrArg (Option.map · _) (funext pageKey_masked)
    unfold firstPage
    dsimp only
    rw [last, List.length_map, ← List.map_take]
    split <;> rfl

theorem table?_masked (m : Memory) (name : String) :
    m.masked.table? name = (m.table? name).map (List.map Item.masked) :=
  lookup_map_snd (fun _ (items : List Item) => items.map Item.masked) m.tables name

theorem scan_masked (m : Memory) (name : String) (part : Option (Int × Int))
    (startKey : Option Value) :
    m.masked.scan name part startKey =
      ((m.scan name part startKey).1.map Page.masked, (m.scan name part startKey).2.masked) := by
  have pages : m.masked.pages = m.pages.map (List.map Page.masked) := rfl
  have faults : m.masked.faults = m.faults := rfl
  have table := table?_masked m name
  unfold table? at table
  unfold scan receive table?
  dsimp only
  rw [pages, faults]
  generalize m.faults.take _ = taken
  obtain ⟨fault, faults⟩ := taken
  cases fault with
  | some fault => rfl
  | none =>
    dsimp only
    cases m.pages with
    | some prepared => cases prepared <;> rfl
    | none =>
      dsimp only [Option.map_none]
      rw [table]
      cases m.tables.lookup name with
      | none => rfl
      | some items =>
        cases part with
        | none =>
          dsimp only [Option.map_some]
          rw [itemsAfter_masked, firstPage_masked]
          rfl
        | some part =>
          dsimp only [Option.map_some]
          rw [segmentItems_masked, itemsAfter_masked, firstPage_masked]
          rfl

/-- Services in memory are alike that are the same once their secrets are struck out. -/
theorem alike : Alike fun m m' : Memory => m'.masked = m.masked where
  noted m m' request same := congrArg (note · request.masked) same
  scanned m m' name part startKey same := by
    have scans := (scan_masked m' name part startKey).symm
    rw [same, scan_masked] at scans
    exact Prod.mk.inj scans

end Memory

end Rekey.Service
