import Rekey.Proofs.Counter.Tags

/-! # What is asked of a registry

Counters are asked for, by themselves or three at a time, raised and summed up. A registry lists the
counters that it has been asked for, and an operation raises one of them or none. -/
namespace Rekey.Counter

/-! ## One counter -/

namespace Registry

def labels (r : Registry) : List Label := r.counters.map (·.1)

/-- A counter is found, or else made behind the others. -/
theorem counter_cases (r : Registry) (label : Label) :
    (label ∈ r.labels ∧ (r.counter label).2 = r ∧ r.labels[(r.counter label).1]? = some label) ∨
    (label ∉ r.labels ∧
      r.counter label = (r.counters.length, ⟨r.counters ++ [(label, 0)]⟩)) := by
  unfold counter
  generalize found : r.counters.findIdx? (fun c => c.1 == label) = place
  rcases place with _ | i
  · have absent := List.findIdx?_eq_none_iff.mp found
    refine .inr ⟨fun mem => ?_, rfl⟩
    obtain ⟨c, hc, rfl⟩ := List.mem_map.mp mem
    simpa using absent c hc
  · obtain ⟨bound, same, -⟩ := List.findIdx?_eq_some_iff_getElem.mp found
    have placed : r.labels[i]? = some label := by
      simp [labels, bound, eq_of_beq same]
    exact .inl ⟨List.mem_of_getElem? placed, rfl, placed⟩

theorem labels_counter (r : Registry) (label : Label) : (r.counter label).2.labels =
    if label ∈ r.labels then r.labels else r.labels ++ [label] := by
  rcases r.counter_cases label with ⟨known, same, -⟩ | ⟨fresh, made⟩
  · rw [if_pos known, same]
  · rw [if_neg fresh, made]
    simp [labels]

theorem counter_placed (r : Registry) (label : Label) :
    (r.counter label).2.labels[(r.counter label).1]? = some label := by
  rcases r.counter_cases label with ⟨-, same, placed⟩ | ⟨-, made⟩
  · rw [same, placed]
  · simp [made, labels]

theorem value_counter (r : Registry) (label : Label) (i : Nat) :
    (r.counter label).2.value i = r.value i := by
  rcases r.counter_cases label with ⟨-, same, -⟩ | ⟨-, made⟩
  · rw [same]
  · rw [made, value, value, List.getElem?_append]
    split_ifs with bound
    · rfl
    · rw [List.getElem?_eq_none (not_lt.mp bound)]
      rcases i - r.counters.length with _ | _ <;> rfl

theorem labels_add (r : Registry) (i amount : Nat) : (r.add i amount).labels = r.labels := by
  refine List.ext_getElem? fun j => ?_
  simp only [labels, add, List.getElem?_map, List.getElem?_modify]
  split_ifs <;> simp [Function.comp_def]

theorem value_add (r : Registry) (i amount j : Nat) : (r.add i amount).value j =
    r.value j + if i = j ∧ j < r.labels.length then amount else 0 := by
  simp only [value, add, labels, List.getElem?_modify, List.length_map]
  rcases lt_or_ge j r.counters.length with bound | beyond
  · by_cases same : i = j <;> simp [bound, same]
  · simp [beyond.not_gt]

end Registry

/-! ## Operations -/

/-- What is asked of a registry, by those who have its handles. -/
inductive Operation where
  | counter (name : String) (tags : List (String × String))
  | create (dryRun : Value)
  | increment (handle : Nat) (amount : Int)
  | summary (metrics : Metrics) (elapsed : Float)

inductive Answer where
  | handle (i : Nat)
  | metrics (m : Metrics)
  | raised
  | refused (failure : Failure)
  | summary (s : Summary)

def Registry.perform (r : Registry) : Operation → Answer × Registry
  | .counter name tags =>
    match Label.checked name tags with
    | .error failure => (.refused failure, r)
    | .ok label => (.handle (r.counter label).1, (r.counter label).2)
  | .create dryRun => (.metrics (Metrics.create dryRun r).1, (Metrics.create dryRun r).2)
  | .increment i amount =>
    match r.increment i amount with
    | .error failure => (.refused failure, r)
    | .ok raised => (.raised, raised)
  | .summary m elapsed => (.summary (m.summary r elapsed), r)

def Metrics.handles (m : Metrics) : List Nat := [m.inspected, m.migrated, m.abandoned]

/-- The handles that an answer gives out. -/
def Answer.handles : Answer → List Nat
  | .handle i => [i]
  | .metrics m => m.handles
  | _ => []

/-- The handles that are needed to ask for an operation. -/
def Operation.uses : Operation → List Nat
  | .increment i _ => [i]
  | .summary m _ => m.handles
  | _ => []

/-- By how much an operation is to raise a counter. -/
def Operation.amount? (i : Nat) : Operation → Option Int
  | .increment j amount => if j = i ∧ 0 ≤ amount then some amount else none
  | _ => none

/-- A request for a counter, with the handle it was answered with. -/
structure Grant where
  name : String
  tags : List (String × String)
  handle : Nat

def Grant.label (g : Grant) : Label := .of g.name g.tags

def Metrics.grants (dryRun : Value) (m : Metrics) : List Grant :=
  [⟨"records_inspected", tagFor dryRun, m.inspected⟩,
    ⟨"records_migrated", tagFor dryRun, m.migrated⟩,
    ⟨"records_abandoned", tagFor dryRun, m.abandoned⟩]

def grants : Operation → Answer → List Grant
  | .counter name tags, .handle i => [⟨name, tags, i⟩]
  | .create dryRun, .metrics m => m.grants dryRun
  | _, _ => []

/-! ## Counters and requests -/

/-- The counters are those of the requests, each listed once, in the order in which they were first
asked for. -/
structure Registry.Lists (r : Registry) (granted : List Grant) : Prop where
  labels_eq : r.labels = (granted.map Grant.label).eraseDups
  once : r.labels.Nodup
  placed : ∀ g ∈ granted, r.labels[g.handle]? = some g.label

theorem eraseDups_concat {α : Type} [DecidableEq α] (as : List α) (a : α) :
    (as ++ [a]).eraseDups = if a ∈ as then as.eraseDups else as.eraseDups ++ [a] := by
  rw [List.eraseDups_append]
  split_ifs with known <;> simp [List.removeAll, known, List.eraseDups_cons]

namespace Registry.Lists
variable {r : Registry} {granted : List Grant}

theorem counter (h : r.Lists granted) (name : String) (tags : List (String × String)) :
    (r.counter (.of name tags)).2.Lists
      (granted ++ [⟨name, tags, (r.counter (.of name tags)).1⟩]) where
  labels_eq := by
    have known_iff : Label.of name tags ∈ r.labels ↔ .of name tags ∈ granted.map Grant.label := by
      rw [h.labels_eq, List.mem_eraseDups]
    rw [List.map_append, List.map_singleton, eraseDups_concat, labels_counter, ← h.labels_eq]
    exact if_congr known_iff rfl rfl
  once := by
    rw [labels_counter]
    split_ifs with known
    · exact h.once
    · exact h.once.append (List.nodup_singleton _) (by simpa using known)
  placed g mem := by
    rcases List.mem_append.mp mem with mem | mem
    · rw [labels_counter]
      split_ifs
      · exact h.placed g mem
      · have bound := (List.getElem?_eq_some_iff.mp (h.placed g mem)).1
        rw [List.getElem?_append_left bound, h.placed g mem]
    · rw [List.mem_singleton.mp mem]
      exact r.counter_placed _

theorem add (h : r.Lists granted) (i amount : Nat) : (r.add i amount).Lists granted := by
  have same := r.labels_add i amount
  exact ⟨by rw [same, h.labels_eq], by rw [same]; exact h.once, by rw [same]; exact h.placed⟩

theorem entry (h : r.Lists granted) {g : Grant} (mem : g ∈ granted) :
    r.counters[g.handle]? = some (g.label, r.value g.handle) := by
  have placed := h.placed g mem
  rw [Registry.labels, List.getElem?_map] at placed
  obtain ⟨c, found, same⟩ := Option.map_eq_some_iff.mp placed
  rw [Registry.value, found, ← same]
  rfl

/-- Two requests have one counter exactly if they name it alike. -/
theorem same_handle (h : r.Lists granted) {a b : Grant} (ha : a ∈ granted) (hb : b ∈ granted) :
    a.handle = b.handle ↔ a.name = b.name ∧ SameTags a.tags b.tags := by
  have bound := (List.getElem?_eq_some_iff.mp (h.placed a ha)).1
  rw [← List.getElem?_inj bound h.once, h.placed a ha, h.placed b hb, Option.some_inj]
  exact Label.of_eq_iff

/-- Whatever is asked for next is listed. -/
theorem perform (h : r.Lists granted) (o : Operation) :
    (r.perform o).2.Lists (granted ++ grants o (r.perform o).1) := by
  cases o with
  | counter name tags =>
    rcases Label.checked_cases name tags with ⟨ok, -⟩ | ⟨tag, -, -, error⟩
    · simpa only [Registry.perform, ok, grants] using h.counter name tags
    · simpa only [Registry.perform, error, grants, List.append_nil] using h
  | create dryRun =>
    have three := ((h.counter "records_inspected" (Metrics.tagFor dryRun)).counter
      "records_migrated" (Metrics.tagFor dryRun)).counter
      "records_abandoned" (Metrics.tagFor dryRun)
    simpa only [Registry.perform, grants, Metrics.grants, Metrics.create, List.append_assoc,
      List.cons_append, List.nil_append] using three
  | increment i amount =>
    simp only [Registry.perform, Registry.increment]
    split_ifs
    · simpa [grants] using h
    · simpa [grants] using h.add i amount.toNat
  | summary m elapsed => simpa [Registry.perform, grants] using h

end Registry.Lists

theorem Registry.value_perform (r : Registry) (o : Operation) (i : Nat)
    (held : ∀ j ∈ o.uses, j < r.labels.length) :
    ((r.perform o).2.value i : Int) = r.value i + (o.amount? i).getD 0 := by
  cases o with
  | counter name tags =>
    rcases Label.checked_cases name tags with ⟨ok, -⟩ | ⟨tag, -, -, error⟩
    · simp [Registry.perform, ok, value_counter, Operation.amount?]
    · simp [Registry.perform, error, Operation.amount?]
  | create dryRun => simp [Registry.perform, Metrics.create, value_counter, Operation.amount?]
  | increment j amount =>
    have bound : j < r.labels.length := held j (by simp [Operation.uses])
    simp only [Registry.perform, Registry.increment, Operation.amount?]
    split_ifs with negative counted counted
    · omega
    · simp
    · simp [value_add, counted.1, counted.1 ▸ bound, counted.2]
    · have other : j ≠ i := fun same => counted ⟨same, not_lt.mp negative⟩
      simp [value_add, other]
  | summary m elapsed => simp [Registry.perform, Operation.amount?]

end Rekey.Counter
