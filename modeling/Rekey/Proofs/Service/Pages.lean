import Rekey.Proofs.Service.Client

/-! # Scans page by page

A scan of a segment asks for page after page, each from the key with which the one before it ends, and
is over after the first page without such a key. It gives the records of the well-formed legacy items
in the order of the pages, and logs one warning for each item that has a legacy partition key and no
record. No item makes it fail. -/
namespace Rekey.Service

open Repository (Position)

/-- Whether an item has a legacy partition key and yet holds no record. -/
def Item.isMalformed (item : Item) : Bool := item.isLegacy && item.legacyRecord?.isNone

def warningsOf (items : List Item) : List Notice :=
  (items.filter Item.isMalformed).map fun item => .recordSkipped item.partitionKey

def itemsOf (pages : List Page) : List Item := pages.flatMap (·.items)

theorem itemsOf_cons (page : Page) (pages : List Page) :
    itemsOf (page :: pages) = page.items ++ itemsOf pages := rfl

theorem itemsOf_singleton (page : Page) : itemsOf [page] = page.items := List.append_nil _

def recordsOf (pages : List Page) : List Record := (itemsOf pages).filterMap Item.legacyRecord?

theorem recordsOf_cons (page : Page) (pages : List Page) :
    recordsOf (page :: pages) = page.items.filterMap Item.legacyRecord? ++ recordsOf pages := by
  simp only [recordsOf, itemsOf, List.flatMap_cons, List.filterMap_append]

theorem warningsOf_append (items items' : List Item) :
    warningsOf (items ++ items') = warningsOf items ++ warningsOf items' := by
  simp only [warningsOf, List.filter_append, List.map_append]

theorem level_of_mem_warningsOf {items : List Item} {notice : Notice}
    (mem : notice ∈ warningsOf items) : notice.level = .warning := by
  obtain ⟨item, -, rfl⟩ := List.mem_map.mp mem
  rfl

/-- The reader of the source told by what there is to read. -/
theorem Item.readSource_eq (item : Item) : item.readSource = match item.legacyRecord? with
    | some record => .record record
    | none => if item.isLegacy then .malformed item.partitionKey else .foreign := by
  cases hrecord : item.legacyRecord? with
  | some record => exact readSource_eq_record_iff.mpr hrecord
  | none =>
    have notRecord : ∀ record, item.readSource ≠ .record record := by
      intro record read
      rw [readSource_eq_record_iff.mp read] at hrecord
      cases hrecord
    cases hkey : KeySpace.parseLegacy? item.partitionKey with
    | none => simp [readSource, isLegacy, hkey]
    | some key =>
      cases hread : item.record key with
      | ok record => exact absurd (by simp [readSource, hkey, hread]) (notRecord record)
      | error failure => simp [readSource, isLegacy, hkey, hread]

section Steps
variable {μ : Type} [Client μ] {segment total : Int} {r r' : Repository μ} {position : Position}
  {item : Item} {rest items : List Item} {next : Option Value}

theorem advance_of_record {record : Record} (read : item.legacyRecord? = some record) :
    r.advance segment total (.page (item :: rest) next) =
      (some (.item record), .page rest next, r) := by
  simp only [Repository.advance, Repository.firstRecord, Item.readSource_eq, read]

/-- An item without a record is passed over, with a warning if it is malformed. -/
theorem advance_of_skipped (none_read : item.legacyRecord? = none) :
    r.advance segment total (.page (item :: rest) next) =
      { r with notices := (warningsOf [item]).reverse ++ r.notices }.advance segment total
        (.page rest next) := by
  cases legacy : item.isLegacy <;>
    simp [Repository.advance, Repository.firstRecord, Item.readSource_eq, none_read, legacy,
      warningsOf, Item.isMalformed]

/-- The course of a scan from a position to its end: how many pages it turns to, and which records it
gives. There is no course on which it fails. -/
inductive Scans (segment total : Int) :
    Repository μ → Position → Nat → List Record → Repository μ → Prop where
  | ends {r r' : Repository μ} {position position' : Position}
      (step : r.advance segment total position = (some .exhausted, position', r')) :
      Scans segment total r position 0 [] r'
  | turns {r r' last : Repository μ} {position position' : Position} {count : Nat}
      {records : List Record} (step : r.advance segment total position = (none, position', r'))
      (later : Scans segment total r' position' count records last) :
      Scans segment total r position (count + 1) records last
  | gives {r r' last : Repository μ} {position position' : Position} {count : Nat}
      {record : Record} {records : List Record}
      (step : r.advance segment total position = (some (.item record), position', r'))
      (later : Scans segment total r' position' count records last) :
      Scans segment total r position count (record :: records) last

theorem Scans.unique {count count' : Nat} {records records' : List Record} {last last' : Repository μ}
    (h : Scans segment total r position count records last)
    (h' : Scans segment total r position count' records' last') :
    count' = count ∧ records' = records ∧ last' = last := by
  induction h generalizing count' records' last' with
  | ends step =>
    cases h' with
    | ends step' =>
      rw [step] at step'
      cases step'
      exact ⟨rfl, rfl, rfl⟩
    | turns step' | gives step' => rw [step] at step'; cases step'
  | turns step later ih =>
    cases h' with
    | turns step' later' =>
      rw [step] at step'
      cases step'
      obtain ⟨rfl, rfl, rfl⟩ := ih later'
      exact ⟨rfl, rfl, rfl⟩
    | ends step' | gives step' => rw [step] at step'; cases step'
  | gives step later ih =>
    cases h' with
    | gives step' later' =>
      rw [step] at step'
      cases step'
      obtain ⟨rfl, rfl, rfl⟩ := ih later'
      exact ⟨rfl, rfl, rfl⟩
    | ends step' | turns step' => rw [step] at step'; cases step'

/-- Two positions with the same next step have the same course. -/
theorem Scans.of_advance_eq {r₀ last : Repository μ} {position₀ : Position} {count : Nat}
    {records : List Record}
    (same : r₀.advance segment total position₀ = r.advance segment total position)
    (h : Scans segment total r position count records last) :
    Scans segment total r₀ position₀ count records last := by
  cases h with
  | ends step => exact .ends (same.trans step)
  | turns step later => exact .turns (same.trans step) later
  | gives step later => exact .gives (same.trans step) later

/-- A page is read to its end before the next one is asked for. -/
theorem Scans.through_page {last : Repository μ} {count : Nat} {records : List Record}
    (h : Scans segment total { r with notices := (warningsOf items).reverse ++ r.notices }
      (.page [] next) count records last) :
    Scans segment total r (.page items next) count
      (items.filterMap Item.legacyRecord? ++ records) last := by
  induction items generalizing r with
  | nil => exact h
  | cons item rest ih =>
    rw [← List.singleton_append, warningsOf_append, List.reverse_append, List.append_assoc] at h
    cases read : item.legacyRecord? with
    | none =>
      rw [List.filterMap_cons_none read]
      exact .of_advance_eq (advance_of_skipped read) (ih h)
    | some record =>
      rw [List.filterMap_cons_some read]
      have silent : warningsOf [item] = [] := by simp [warningsOf, Item.isMalformed, read]
      rw [silent] at h
      exact .gives (advance_of_record read) (ih h)

end Steps

section Serves
variable {μ : Type} [Client μ] {segment total : Int} {table : String} {part : Option (Int × Int)}
  {m m' : μ} {startKey : Option Value} {pages : List Page} {r r' : Repository μ}

/-- The client answers the requests of a scan with pages in turn. The last page is the first one
without a key; each other one is followed by what is answered to a request from its key. -/
inductive Serves (table : String) (part : Option (Int × Int)) :
    μ → Option Value → List Page → μ → Prop where
  | last {m m' : μ} {startKey : Option Value} {page : Page}
      (answer : Client.scan m table part startKey = (.ok page, m')) (final : page.next? = none) :
      Serves table part m startKey [page] m'
  | more {m m' m'' : μ} {startKey : Option Value} {page : Page} {key : Value} {pages : List Page}
      (answer : Client.scan m table part startKey = (.ok page, m'))
      (goesOn : page.next? = some key) (later : Serves table part m' (some key) pages m'') :
      Serves table part m startKey (page :: pages) m''

def partOf (segment total : Int) : Option (Int × Int) :=
  if 1 < total then some (segment, total) else none

theorem turnPage_eq {page : Page}
    (answer : Client.scan r.service r.source (partOf segment total) startKey = (.ok page, m')) :
    r.turnPage segment total startKey =
      (none, .page page.items page.next?, { r with service := m' }) := by
  unfold partOf at answer
  simp only [Repository.turnPage, Repository.fetch, Repository.answered, answer]

/-- A scan whose next step turns to the first of the pages that the client serves goes through them
all. -/
theorem Serves.scans {position : Position} {r₀ : Repository μ}
    (serves : Serves r.source (partOf segment total) r.service startKey pages m')
    (turn : r₀.advance segment total position = r.turnPage segment total startKey) :
    Scans segment total r₀ position pages.length (recordsOf pages)
      { r with service := m', notices := (warningsOf (itemsOf pages)).reverse ++ r.notices } := by
  generalize table_eq : r.source = table, service_eq : r.service = m at serves
  induction serves generalizing r r₀ position with
  | last answer final =>
    subst table_eq service_eq
    rw [turnPage_eq answer, final] at turn
    rw [recordsOf_cons, itemsOf_singleton]
    exact .turns turn (.through_page (.ends rfl))
  | @more m m' m'' startKey page key pages answer goesOn later ih =>
    subst table_eq service_eq
    rw [turnPage_eq answer, goesOn] at turn
    rw [recordsOf_cons, itemsOf_cons, warningsOf_append, List.reverse_append, List.append_assoc]
    refine .turns turn (.through_page ?_)
    exact ih (r := { r with service := m', notices := (warningsOf page.items).reverse ++ r.notices })
      rfl rfl rfl

/-- The client keeps a log of the scans that are asked of it, newest first. -/
def LogsScans (log : μ → List Request) : Prop :=
  ∀ m table part startKey,
    log (Client.scan m table part startKey).2 = .scan table part startKey :: log m

theorem Serves.nonempty (serves : Serves table part m startKey pages m') : pages ≠ [] := by
  cases serves <;> exact List.cons_ne_nil _ _

/-- The keys from which the pages after the first are asked for. -/
def keysBetween (pages : List Page) : List (Option Value) := pages.dropLast.map (·.lastKey)

theorem keysBetween_cons {page : Page} (nonempty : pages ≠ []) :
    keysBetween (page :: pages) = page.lastKey :: keysBetween pages := by
  rw [keysBetween, List.dropLast_cons_of_ne_nil nonempty, List.map_cons]
  rfl

theorem Serves.logged {log : μ → List Request} (logs : LogsScans log)
    (serves : Serves table part m startKey pages m') :
    log m' = ((startKey :: keysBetween pages).map (Request.scan table part)).reverse ++ log m := by
  induction serves with
  | @last m m' startKey page answer final =>
    have logged := logs m table part startKey
    rw [answer] at logged
    exact logged
  | @more m m' m'' startKey page key pages answer goesOn later ih =>
    have logged := logs m table part startKey
    rw [answer] at logged
    have lastKey : page.lastKey = some key := (Option.filter_eq_some_iff.mp goesOn).1
    rw [ih, logged, keysBetween_cons later.nonempty, lastKey]
    simp

/-! ## Requests -/

def Request.parameter? (request : Request) (name : String) : Option Value :=
  match request.parameters with
  | .map parameters => parameters.lookup name
  | _ => none

/-- What is sent to have a page of a segment: the segment only if there are several, and the key to go
on from only if there is one. -/
structure AsksForPage (table : String) (segment total : Int) (startKey : Option Value)
    (request : Request) : Prop where
  operation_eq : request.operation = "scan"
  table_eq : request.parameter? "TableName" = some (.text table)
  segment_eq : request.parameter? "Segment" = if 1 < total then some (.int segment) else none
  total_eq : request.parameter? "TotalSegments" = if 1 < total then some (.int total) else none
  startKey_eq : request.parameter? "ExclusiveStartKey" = startKey

theorem asksForPage_scan (table : String) (segment total : Int) (startKey : Option Value) :
    AsksForPage table segment total startKey (.scan table (partOf segment total) startKey) := by
  unfold partOf
  constructor <;> by_cases several : 1 < total <;> cases startKey <;> simp only [several] <;> rfl

/-! ## The scan of a segment as it runs -/

section Session
variable {s : Session μ} {last : Repository μ} {position' : Position} {count : Nat}
  {records : List Record} {answer? : Option (Answer Record)}

theorem Session.advance_eq
    (step : s.repository.advance segment total (s.position segment) = (answer?, position', r')) :
    ∃ s', s.advance segment total = (answer?, s') ∧ s'.repository = r' ∧
      s'.position segment = position' := by
  refine ⟨⟨r', (segment, position') :: s.positions.filter (·.1 != segment)⟩, ?_, rfl, ?_⟩
  · simp only [Session.advance, step]
  · simp only [Session.position, List.lookup_cons_self, Option.getD_some]

/-- The next answer of a scan, if it may turn to as many pages as there are. -/
theorem Scans.readWithin {pages : Nat}
    (h : Scans segment total s.repository (s.position segment) count records last)
    (patient : count < pages) : ∃ answer s', s.readWithin pages segment total = (some answer, s') ∧
      match records with
      | [] => answer = .exhausted ∧ s'.repository = last
      | record :: rest => answer = .item record ∧ ∃ later ≤ count,
          Scans segment total s'.repository (s'.position segment) later rest last := by
  induction pages generalizing s count with
  | zero => exact absurd patient (Nat.not_lt_zero _)
  | succ pages ih =>
    rw [Session.readWithin]
    cases h with
    | ends step =>
      obtain ⟨s', advance, rfl, -⟩ := Session.advance_eq step
      rw [advance]
      exact ⟨_, s', rfl, rfl, rfl⟩
    | turns step later =>
      obtain ⟨s', advance, rfl, rfl⟩ := Session.advance_eq step
      obtain ⟨answer, s'', read, told⟩ := ih later (Nat.lt_of_succ_lt_succ patient)
      rw [advance]
      refine ⟨answer, s'', read, ?_⟩
      cases records with
      | nil => exact told
      | cons record rest =>
        obtain ⟨answered, count', le, rest_given⟩ := told
        exact ⟨answered, count', Nat.le_succ_of_le le, rest_given⟩
    | gives step later =>
      obtain ⟨s', advance, rfl, rfl⟩ := Session.advance_eq step
      rw [advance]
      exact ⟨_, s', rfl, rfl, count, le_rfl, later⟩

theorem Scans.collect {limit : Nat}
    (h : Scans segment total s.repository (s.position segment) count records last)
    (patient : count < Session.patience) (enough : records.length < limit) :
    ∃ s', s.collect segment total limit = (records, none, s') ∧ s'.repository = last := by
  induction limit generalizing s count records with
  | zero => exact absurd enough (Nat.not_lt_zero _)
  | succ limit ih =>
    obtain ⟨answer, s', read, told⟩ := h.readWithin patient
    rw [Session.collect, read]
    cases records with
    | nil =>
      obtain ⟨rfl, rfl⟩ := told
      exact ⟨s', rfl, rfl⟩
    | cons record rest =>
      obtain ⟨rfl, count', le, later⟩ := told
      obtain ⟨s'', collected, last_eq⟩ :=
        ih later (Nat.lt_of_le_of_lt le patient) (Nat.lt_of_succ_lt_succ enough)
      exact ⟨s'', by simp only [collected], last_eq⟩

theorem Scans.scanSegment (h : Scans segment total r .unopened count records last)
    (patient : count < Session.patience) (enough : records.length < Session.patience) :
    r.scanSegment segment total none = (records, none, last) := by
  obtain ⟨s', collected, rfl⟩ := Scans.collect (s := Session.new r) h patient enough
  simp only [Repository.scanSegment, Option.getD_none, collected]

end Session

/-! ## Scans of all segments -/

theorem Repository.connect_frame (r : Repository μ) :
    r.connect.source = r.source ∧ r.connect.notices = r.notices := by
  unfold Repository.connect
  split <;> exact ⟨rfl, rfl⟩

/-- A scan from its beginning goes through all the pages that it is answered with. -/
theorem Serves.scans_unopened
    (serves : Serves r.source (partOf segment total) r.connect.service none pages m') :
    Scans segment total r .unopened pages.length (recordsOf pages) { r.connect with
      service := m', notices := (warningsOf (itemsOf pages)).reverse ++ r.notices } := by
  obtain ⟨source, notices⟩ := r.connect_frame
  rw [← source] at serves
  rw [← notices]
  exact serves.scans rfl

/-- The scan of a segment is answered with pages, comes to its end and gives records. -/
def Scanned (r : Repository μ) (segment total : Int) (pages : List Page) (records : List Record) :
    Prop :=
  ∃ service count last, Serves r.source (partOf segment total) r.connect.service none pages service ∧
    Scans segment total r .unopened count records last

theorem Scanned.records_eq {records : List Record} (h : Scanned r segment total pages records) :
    records = recordsOf pages := by
  obtain ⟨service, count, last, serves, scans⟩ := h
  exact (serves.scans_unopened.unique scans).2.1

theorem filterMap_filter_itemsOf (pages : List Page) :
    ((itemsOf pages).filter Item.isLegacy).filterMap Item.legacyRecord? = recordsOf pages :=
  Item.filterMap_legacyRecord? _

/-- **Scans in pages.** For each sequence of pages that a client answers with, the scan of a segment
sends one request for each page, from the key with which the page before it ends, and comes to its
end. It gives the records of the well-formed legacy items in the order of the pages, and leaves one
warning for each item that has a legacy key and no record. Hence, in whatever pages the items of a
table are returned for all its segments and for the whole, the records given are the same. -/
theorem scan_of_pages {log : μ → List Request} (logs : LogsScans log) :
    (∀ (r : Repository μ) (segment total : Int) (pages : List Page) (service : μ),
      Serves r.source (partOf segment total) r.connect.service none pages service →
      ∃ requests last,
        Scans segment total r .unopened pages.length (recordsOf pages) last ∧
        requests.length = pages.length ∧
        List.Forall₂ (AsksForPage r.source segment total) (none :: keysBetween pages) requests ∧
        log last.service = requests.reverse ++ log r.connect.service ∧
        last = { r.connect with
          service, notices := (warningsOf (itemsOf pages)).reverse ++ r.notices } ∧
        (∀ notice ∈ warningsOf (itemsOf pages), notice.level = .warning) ∧
        (pages.length < Session.patience → (recordsOf pages).length < Session.patience →
          r.scanSegment segment total none = (recordsOf pages, none, last))) ∧
    ∀ (segments : Nat) (r : Repository μ) (s : Nat → Repository μ) (whole : List Page)
      (split : Nat → List Page) (records : List Record) (parts : Nat → List Record),
      Scanned r 0 1 whole records →
      (∀ i < segments, Scanned (s i) i segments (split i) (parts i)) →
      ((List.range segments).flatMap fun i => (itemsOf (split i)).filter Item.isLegacy).Perm
        ((itemsOf whole).filter Item.isLegacy) →
      ((List.range segments).flatMap parts).Perm records := by
  constructor
  · intro r segment total pages service serves
    refine ⟨(none :: keysBetween pages).map (Request.scan r.source (partOf segment total)), _,
      serves.scans_unopened, ?_, ?_, serves.logged logs, rfl, fun _ => level_of_mem_warningsOf,
      serves.scans_unopened.scanSegment⟩
    · have positive := List.length_pos_of_ne_nil serves.nonempty
      simp only [keysBetween, List.length_map, List.length_cons, List.length_dropLast]
      omega
    · rw [List.forall₂_map_right_iff, List.forall₂_same]
      intro startKey _
      exact asksForPage_scan r.source segment total startKey
  · intro segments r s whole split records parts scanned each perm
    have parts_eq : ∀ i ∈ List.range segments,
        parts i = ((itemsOf (split i)).filter Item.isLegacy).filterMap Item.legacyRecord? := by
      intro i mem
      rw [filterMap_filter_itemsOf]
      exact (each i (List.mem_range.mp mem)).records_eq
    rw [List.flatMap_congr parts_eq, scanned.records_eq, ← filterMap_filter_itemsOf,
      ← List.filterMap_flatMap]
    exact perm.filterMap _

end Serves

/-! ## Prepared pages -/

theorem Memory.receive_log (m : Memory) (request : Request) :
    (m.receive request).2.log = request :: m.log := by
  unfold Memory.receive
  rcases m.faults.take request.operation with ⟨_ | fault, faults⟩ <;> rfl

theorem Memory.logsScans : LogsScans Memory.log := by
  intro m table part startKey
  have logged := m.receive_log (.scan table part startKey)
  show (Memory.scan m table part startKey).2.log = _
  unfold Memory.scan
  rcases received : m.receive (.scan table part startKey) with ⟨failure | ⟨⟩, m'⟩ <;>
    rw [received] at logged
  · simpa only [received] using logged
  · simp only [received]
    rcases m'.pages with _ | _ | ⟨page, pages⟩
    · cases m'.table? table <;> exact logged
    · exact logged
    · exact logged

/-- A repository whose scans are answered with prepared pages. -/
def preparedWith (pages : List Page) : Repository :=
  ⟨"old", "new", none, none, .none, 10, { Memory.empty with pages := some pages }, []⟩

def gina : Record := ⟨"gina", ⟨"hash", "salt"⟩, 20⟩

/-- An item with nothing but a partition key. -/
def bareItem (partitionKey : String) : Item := [("PK", .ofText partitionKey)]

def pageKey : Value := .map [("PK", .map [("S", .text "E164#gina")])]

/-- An empty page, one with a record and a malformed item, and one with an item of another kind. -/
def wholeScan : List Page :=
  [⟨[], some pageKey⟩, ⟨[.ofSource gina, bareItem "E164#hugo"], some pageKey⟩,
    ⟨[bareItem "RRP#gina"], none⟩]

/-- The same items in two segments. -/
def segmentScan : Nat → List Page
  | 0 => [⟨[bareItem "E164#hugo"], none⟩]
  | _ => [⟨[.ofSource gina], some pageKey⟩, ⟨[bareItem "RRP#gina"], none⟩]

theorem wholeScan_served : ∃ service,
    Serves "old" (partOf 0 1) (preparedWith wholeScan).connect.service none wholeScan service :=
  ⟨_, .more rfl rfl (.more rfl rfl (.last rfl rfl))⟩

theorem segmentScan_served : ∀ i : Nat, i < 2 → ∃ service,
    Serves "old" (partOf i 2) (preparedWith (segmentScan i)).connect.service none (segmentScan i)
      service
  | 0, _ => ⟨_, .last rfl rfl⟩
  | 1, _ => ⟨_, .more rfl rfl (.last rfl rfl)⟩

theorem prepared_pages_scanned :
    (∃ requests last, Scans 0 1 (preparedWith wholeScan) .unopened 3 [gina] last ∧
      List.Forall₂ (AsksForPage "old" 0 1) [none, some pageKey, some pageKey] requests ∧
      last.service.log = requests.reverse ++ [.openClient none none] ∧
      last.notices = [.recordSkipped "E164#hugo"] ∧
      (preparedWith wholeScan).scanSegment 0 1 none = ([gina], none, last)) ∧
    ((List.range 2).flatMap fun i => recordsOf (segmentScan i)).Perm [gina] := by
  have theory := scan_of_pages Memory.logsScans
  have whole_records : recordsOf wholeScan = [gina] := by decide +kernel
  obtain ⟨service, serves⟩ := wholeScan_served
  obtain ⟨requests, last, scans, -, asked, log, last_eq, -, run⟩ :=
    theory.1 (preparedWith wholeScan) 0 1 wholeScan service serves
  constructor
  · rw [whole_records] at scans run
    refine ⟨requests, last, scans, asked, log, ?_, run (by decide) (by decide)⟩
    rw [last_eq]
    rfl
  · refine theory.2 2 (preparedWith wholeScan) (fun i => preparedWith (segmentScan i)) wholeScan
      segmentScan [gina] _ ⟨service, _, last, serves, whole_records ▸ scans⟩ (fun i le => ?_) ?_
    · obtain ⟨service, serves⟩ := segmentScan_served i le
      exact ⟨service, _, _, serves, Serves.scans_unopened (r := preparedWith _) serves⟩
    · exact List.Perm.swap (.ofSource gina) (bareItem "E164#hugo") []

end Rekey.Service
