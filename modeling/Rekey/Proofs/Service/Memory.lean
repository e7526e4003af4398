import Rekey.Proofs.Service.Client

/-! # Tables in memory are a client without failures

Unless faults are prepared, tables in memory answer every request: the scan of a segment returns its
items in pages of a fixed size, and a conditional write appends its item when there is none with the
same key. -/
namespace Rekey.Service.Memory

def segmentOf (all : List Item) (segments i : Nat) : List Item :=
  if 1 < (segments : Int) then segmentItems all i segments else all

/-- A service for which no faults are prepared, with the items `all` in the source table, a
destination table, and pages of a fixed size. -/
structure Healthy (source destination : String) (all : List Item) (size : Nat) (m : Memory) :
    Prop where
  faults : m.faults = []
  keyFaults : m.keyFaults = []
  pages : m.pages = none
  pageSize : m.pageSize = some size
  source_eq : m.table? source = some all
  destination_some : (m.table? destination).isSome = true

/-- Tables in memory as they are seen from outside. -/
def view (source destination : String) (all : List Item) (size segments : Nat) : View Memory where
  sound := Healthy source destination all size
  items m table := (m.table? table).getD []
  issued i key := ∃ item ∈ segmentOf all segments i, key = itemsAfter.pageKey item
  rest i startKey := (itemsAfter (segmentOf all segments i) startKey).filter Item.isLegacy

theorem segmentOf_sublist (all : List Item) (segments i : Nat) :
    (segmentOf all segments i).Sublist all := by
  unfold segmentOf
  split
  · unfold segmentItems
    exact (List.filter_sublist.map _).trans (by simp)
  · exact List.Sublist.refl _

section Pages
variable {items rest : List Item} {item : Item}

theorem sameValue_pageKey {a b : Item} (ha : a.lookup "PK" = some (.ofText a.partitionKey))
    (hb : b.lookup "PK" = some (.ofText b.partitionKey)) :
    sameValue (itemsAfter.pageKey a) (itemsAfter.pageKey b) =
      (a.partitionKey == b.partitionKey) := by
  unfold itemsAfter.pageKey
  rw [ha, hb]
  simp [Attribute.toValue, Attribute.ofText, sameValue, sameEntries]

/-- The items after the last one of a page are those behind it. -/
theorem itemsAfter_pageKey {init : List Item} (split : items = init ++ item :: rest)
    (texts : ∀ a ∈ items, a.lookup "PK" = some (.ofText a.partitionKey))
    (keyed : (items.map Item.partitionKey).Nodup) :
    itemsAfter items (some (itemsAfter.pageKey item)) = rest := by
  have mem : item ∈ items := by simp [split]
  have hself : sameValue (itemsAfter.pageKey item) (itemsAfter.pageKey item) = true := by
    rw [sameValue_pageKey (texts item mem) (texts item mem), beq_self_eq_true]
  -- The key of a page stands for one item only, since partition keys are distinct.
  have hinit : ∀ a ∈ init,
      (!sameValue (itemsAfter.pageKey a) (itemsAfter.pageKey item)) = true := by
    intro a ha
    have hmem : a ∈ items := by simp [split, ha]
    rw [split, List.map_append, List.map_cons] at keyed
    have hne := (List.nodup_append.mp keyed).2.2 _ (List.mem_map_of_mem ha) _ List.mem_cons_self
    rw [sameValue_pageKey (texts a hmem) (texts item mem), Bool.not_eq_true', beq_eq_false_iff_ne]
    exact hne
  have hdrop : items.dropWhile (fun a => !sameValue (itemsAfter.pageKey a)
      (itemsAfter.pageKey item)) = item :: rest := by
    rw [split, List.dropWhile_append_of_pos hinit, List.dropWhile_cons_of_neg (by simp [hself])]
  simp only [itemsAfter, hdrop]

theorem itemsAfter_suffix (items : List Item) (startKey : Option Value) :
    itemsAfter items startKey <:+ items := by
  unfold itemsAfter
  cases startKey with
  | none => exact List.suffix_refl _
  | some key =>
    dsimp only
    split
    · exact List.suffix_refl _
    · next _ rest hdrop =>
      exact (List.suffix_cons _ _).trans (hdrop ▸ List.dropWhile_suffix _)

/-- A page holds what comes next, and its key stands for what comes after it. -/
theorem firstPage_spec {size : Nat} (positive : 0 < size) (suffix : rest <:+ items)
    (texts : ∀ a ∈ items, a.lookup "PK" = some (.ofText a.partitionKey))
    (keyed : (items.map Item.partitionKey).Nodup) :
    (∀ key ∈ (firstPage rest (some size)).next?, ∃ a ∈ items, key = itemsAfter.pageKey a) ∧
      (firstPage rest (some size)).items ++
        ((firstPage rest (some size)).next?.elim [] fun key => itemsAfter items (some key)) =
          rest := by
  by_cases hsize : size < rest.length
  · obtain ⟨before, rfl⟩ := suffix
    have nonempty : rest.take size ≠ [] := by
      intro hnil
      have hlength := List.length_take_of_le (Nat.le_of_lt hsize)
      rw [hnil, List.length_nil] at hlength
      omega
    obtain ⟨init, last, hinit⟩ := List.eq_nil_or_concat (rest.take size) |>.resolve_left nonempty
    rw [List.concat_eq_append] at hinit
    have hlast : (rest.take size).getLast? = some last := by rw [hinit, List.getLast?_concat]
    have hsplit : before ++ rest = (before ++ init) ++ last :: rest.drop size := by
      rw [List.append_assoc, ← List.singleton_append, ← List.append_assoc init, ← hinit,
        List.take_append_drop]
    have hnext : (firstPage rest (some size)).next? = some (itemsAfter.pageKey last) := by
      simp [firstPage, hsize, hlast, Page.next?, itemsAfter.pageKey, Value.truthy]
    rw [hnext]
    constructor
    · rintro key ⟨⟩
      exact ⟨last, by rw [hsplit]; simp, rfl⟩
    · rw [Option.elim_some, itemsAfter_pageKey hsplit texts keyed]
      simp [firstPage, hsize]
  · have hpage : firstPage rest (some size) = ⟨rest, none⟩ := by
      simp only [firstPage, if_neg hsize, List.take_of_length_le (Nat.le_of_not_lt hsize)]
    rw [hpage]
    exact ⟨by simp [Page.next?], by simp [Page.next?]⟩

end Pages

section Requests
variable {source destination : String} {all : List Item} {size segments : Nat} {m : Memory}

theorem Healthy.note (h : Healthy source destination all size m) (request : Request) :
    Healthy source destination all size (m.note request) :=
  ⟨h.faults, h.keyFaults, h.pages, h.pageSize, h.source_eq, h.destination_some⟩

theorem Healthy.receive (h : Healthy source destination all size m) (request : Request) :
    ∃ m', m.receive request = (.ok (), m') ∧ Healthy source destination all size m' ∧
      m'.tables = m.tables := by
  refine ⟨{ m with log := request :: m.log, faults := [] }, ?_,
    ⟨rfl, h.keyFaults, h.pages, h.pageSize, h.source_eq, h.destination_some⟩, rfl⟩
  simp [Memory.receive, h.faults, Faults.take]

theorem Healthy.receiveKey (h : Healthy source destination all size m) (request : Request)
    (item : Item) : ∃ m', m.receiveKey request item = (.ok (), m') ∧
      Healthy source destination all size m' ∧ m'.tables = m.tables := by
  refine ⟨{ m with keyFaults := [] }, ?_,
    ⟨h.faults, rfl, h.pages, h.pageSize, h.source_eq, h.destination_some⟩, rfl⟩
  simp [Memory.receiveKey, h.keyFaults, Faults.take]

theorem table?_setTable (m : Memory) (name : String) (items : List Item) (table : String) :
    (m.setTable name items).table? table =
      if table = name then (m.table? table).map fun _ => items else m.table? table := by
  unfold table? setTable
  dsimp only
  induction m.tables with
  | nil => simp
  | cons x tables ih =>
    obtain ⟨n, old⟩ := x
    rw [List.map_cons, List.lookup_cons, List.lookup_cons]
    by_cases hn : table = n
    · subst hn
      by_cases hname : table = name <;> simp [hname]
    · rw [show (table == n) = false by simpa using hn]
      exact ih

theorem writeItem_absent {item : Item} {items : List Item}
    (absent : items.any (·.sameKey item) = false) : writeItem item items = items ++ [item] := by
  induction items with
  | nil => rfl
  | cons i items ih =>
    obtain ⟨hi, hitems⟩ := Bool.or_eq_false_iff.mp absent
    rw [writeItem, if_neg (by simpa using hi), ih hitems]
    rfl

theorem Healthy.putItem (h : Healthy source destination all size m) (item : Item) :
    ∃ m' items, Healthy source destination all size m' ∧ m'.tables = m.tables ∧
      m.table? destination = some items ∧
      m.putItem destination item true = if items.any (·.sameKey item) = true then
          (.error (.service (.ofCode "ConditionalCheckFailedException"
            "The conditional request failed") "PutItem"), m')
        else (.ok (), m'.setTable destination (writeItem item items)) := by
  obtain ⟨m₁, hreceive, h₁, htables₁⟩ := h.receive (.putItem destination item true)
  obtain ⟨m₂, hreceiveKey, h₂, htables₂⟩ := h₁.receiveKey (.putItem destination item true) item
  have htables := htables₂.trans htables₁
  obtain ⟨items, hitems⟩ := Option.isSome_iff_exists.mp h₂.destination_some
  refine ⟨m₂, items, h₂, htables, by rw [table?, ← htables]; exact hitems, ?_⟩
  unfold Memory.putItem
  simp only [hreceive, hreceiveKey, hitems, Bool.true_and]
  rfl

/-- Tables in memory with text partition keys, all different, are a client without failures. -/
theorem reliable (positive : 0 < size) (apart : source ≠ destination)
    (texts : ∀ a ∈ all, a.lookup "PK" = some (.ofText a.partitionKey))
    (keyed : (all.map Item.partitionKey).Nodup) :
    Reliable (view source destination all size segments) source destination segments where
  noted m request h := ⟨Healthy.note h request, rfl⟩
  scanned m i startKey h hi issued := by
    obtain ⟨m', hreceive, healthy, htables⟩ := h.receive (.scan source
      (if 1 < (segments : Int) then some ((i : Int), (segments : Int)) else none) startKey)
    have hsub := segmentOf_sublist all segments i
    obtain ⟨next, rest⟩ := firstPage_spec positive (itemsAfter_suffix _ startKey)
      (fun a ha => texts a (hsub.subset ha)) (keyed.sublist (hsub.map _))
    refine ⟨firstPage (itemsAfter (segmentOf all segments i) startKey) (some size), m', ?_,
      healthy, ?_, next, ?_⟩
    · show Memory.scan m source _ startKey = _
      unfold Memory.scan
      simp only [hreceive, healthy.pages, healthy.source_eq, healthy.pageSize, segmentOf]
      by_cases hone : 1 < (segments : Int) <;> simp [hone]
    · simp only [view, table?, htables]
    · generalize (firstPage (itemsAfter (segmentOf all segments i) startKey) (some size)).next? =
        next? at rest ⊢
      have hrest := congrArg (List.filter Item.isLegacy) rest
      rw [List.filter_append] at hrest
      cases next? <;> exact hrest
  stored m record now h absent := by
    obtain ⟨m', items, healthy, htables, hitems, hput⟩ := h.putItem (.ofMigrated record now)
    have hitems' : m'.table? destination = some items := by rw [table?, htables]; exact hitems
    simp only [view, hitems, Option.getD_some] at absent ⊢
    rw [absent, writeItem_absent absent] at hput
    refine ⟨_, hput, ⟨healthy.faults, healthy.keyFaults, healthy.pages, healthy.pageSize, ?_, ?_⟩,
      ?_, fun table ht => ?_⟩
    · rw [table?_setTable, if_neg apart, healthy.source_eq]
    · rw [table?_setTable, if_pos rfl, hitems']
      rfl
    · rw [table?_setTable, if_pos rfl, hitems']
      rfl
    · rw [table?_setTable, if_neg ht, table?, table?, htables]
  refused m record now h present := by
    obtain ⟨m', items, healthy, htables, hitems, hput⟩ := h.putItem (.ofMigrated record now)
    simp only [view, hitems, Option.getD_some] at present
    rw [present] at hput
    refine ⟨_, _, m', hput, rfl, healthy, ?_⟩
    funext table
    simp only [view, table?, htables]

end Requests

end Rekey.Service.Memory
