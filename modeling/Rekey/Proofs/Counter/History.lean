import Mathlib.Algebra.Ring.Int.Defs
import Rekey.Proofs.Counter.Requests
import Rekey.Proofs.Trace

/-! # Histories of a registry

Whatever is asked of a registry, in any order: its history says which requests have one counter,
what each counter has come to and what is listed and summed up. -/
namespace Rekey.Counter

/-- A registry and the handles that it has given out. -/
structure Desk where
  registry : Registry
  given : List Nat

namespace Desk

def opened : Desk := ⟨.empty, []⟩

def answer (s : Desk) (o : Operation) : Answer := (s.registry.perform o).1

def after (s : Desk) (o : Operation) : Desk :=
  ⟨(s.registry.perform o).2, (s.answer o).handles ++ s.given⟩

end Desk

/-- Any operation, with handles that have been given out. -/
inductive DeskStep : Desk → Operation → Desk → Prop where
  | intro {s : Desk} {o : Operation} (held : ∀ i ∈ o.uses, i ∈ s.given) : DeskStep s o (s.after o)

def makes : Operation → Answer → Option (Value × Metrics)
  | .create dryRun, .metrics m => some (dryRun, m)
  | _, _ => none

section
variable (moves : List (Desk × Operation))

/-- All requests that have been answered with a handle, the first in front. -/
def granted : List Grant := moves.reverse.flatMap fun m => grants m.2 (m.1.answer m.2)

/-- The amounts by which a counter has been raised, through any handle of it. -/
def amounts (i : Nat) : List Int := moves.filterMap fun m => m.2.amount? i

/-- The metrics that have been made, each with the run mode it was made for. -/
def made : List (Value × Metrics) := moves.filterMap fun m => makes m.2 (m.1.answer m.2)

end

/-! ## One operation more -/

theorem Desk.handles_answer (s : Desk) (o : Operation) :
    (s.answer o).handles = (grants o (s.answer o)).map Grant.handle := by
  cases o with
  | counter name tags =>
    rcases Label.checked_cases name tags with ⟨ok, -⟩ | ⟨tag, -, -, error⟩
    · simp [answer, Registry.perform, ok, Answer.handles, grants]
    · simp [answer, Registry.perform, error, Answer.handles, grants]
  | create dryRun => rfl
  | increment i amount =>
    simp only [answer, Registry.perform, Registry.increment]
    split_ifs <;> rfl
  | summary m elapsed => rfl

/-- Metrics are of the mode they are made for, and made of three requests. -/
theorem Desk.makes_answer {s : Desk} {o : Operation} {p : Value × Metrics}
    (h : makes o (s.answer o) = some p) :
    p.2.dryRun = p.1 ∧ p.2.grants p.1 = grants o (s.answer o) := by
  cases o with
  | create dryRun =>
    obtain rfl := Option.some.inj h
    exact ⟨rfl, rfl⟩
  | _ => simp [makes] at h

theorem Operation.amount?_nonneg (o : Operation) (i : Nat) : 0 ≤ (o.amount? i).getD 0 := by
  cases o with
  | increment j amount =>
    rw [Operation.amount?]
    split_ifs with counted
    · exact counted.2
    · exact le_rfl
  | _ => exact le_rfl

theorem granted_cons (m : Desk × Operation) (moves) :
    granted (m :: moves) = granted moves ++ grants m.2 (m.1.answer m.2) := by
  simp [granted]

theorem sum_amounts_cons (m : Desk × Operation) (moves) (i : Nat) :
    (amounts (m :: moves) i).sum = (amounts moves i).sum + (m.2.amount? i).getD 0 := by
  rw [amounts, List.filterMap_cons]
  rcases m.2.amount? i with _ | amount
  · simp [amounts]
  · rw [List.sum_cons, Int.add_comm]
    rfl

theorem mem_made_cons {m : Desk × Operation} {moves} {p : Value × Metrics}
    (h : p ∈ made (m :: moves)) : makes m.2 (m.1.answer m.2) = some p ∨ p ∈ made moves := by
  rw [made, List.mem_filterMap] at h
  obtain ⟨m', mem, makes⟩ := h
  rcases List.mem_cons.mp mem with rfl | earlier
  · exact .inl makes
  · exact .inr (List.mem_filterMap.mpr ⟨m', earlier, makes⟩)

/-! ## Where a history has led -/

structure Standing (moves : List (Desk × Operation)) (t : Desk) : Prop where
  lists : t.registry.Lists (granted moves)
  given : ∀ i ∈ t.given, ∃ g ∈ granted moves, g.handle = i
  values : ∀ i, (t.registry.value i : Int) = (amounts moves i).sum
  grown : ∀ m ∈ moves, ∀ i, m.1.registry.value i ≤ t.registry.value i
  made : ∀ p ∈ made moves, p.2.dryRun = p.1 ∧ ∀ g ∈ p.2.grants p.1, g ∈ granted moves

namespace Standing
variable {moves : List (Desk × Operation)} {t u : Desk} {o : Operation}

theorem opened : Standing [] .opened where
  lists := ⟨rfl, List.nodup_nil, by simp [granted]⟩
  given := by simp [Desk.opened]
  values := by simp [Desk.opened, Registry.empty, Registry.value, amounts]
  grown := by simp
  made := by simp [Counter.made]

theorem bound (h : Standing moves t) {i : Nat} (given : i ∈ t.given) :
    i < t.registry.labels.length := by
  obtain ⟨g, mem, rfl⟩ := h.given i given
  exact (List.getElem?_eq_some_iff.mp (h.lists.placed g mem)).1

theorem step (h : Standing moves t) (one : DeskStep t o u) : Standing ((t, o) :: moves) u := by
  obtain ⟨held⟩ := one
  have value := fun i => t.registry.value_perform o i fun j used => h.bound (held j used)
  have grows (i : Nat) : t.registry.value i ≤ (t.after o).registry.value i := by
    have := o.amount?_nonneg i
    exact Int.ofNat_le.mp (by rw [Desk.after, value i]; omega)
  refine ⟨?lists, ?given, ?values, ?grown, ?made⟩
  case lists =>
    rw [granted_cons]
    exact h.lists.perform o
  case given =>
    intro i mem
    rw [granted_cons]
    rcases List.mem_append.mp mem with fresh | old
    · rw [t.handles_answer o] at fresh
      obtain ⟨g, hg, rfl⟩ := List.mem_map.mp fresh
      exact ⟨g, List.mem_append_right _ hg, rfl⟩
    · obtain ⟨g, hg, rfl⟩ := h.given i old
      exact ⟨g, List.mem_append_left _ hg, rfl⟩
  case values =>
    intro i
    rw [Desk.after, value i, h.values i, sum_amounts_cons]
  case grown =>
    intro m mem i
    rcases List.mem_cons.mp mem with rfl | earlier
    · exact grows i
    · exact (h.grown m earlier i).trans (grows i)
  case made =>
    intro p mem
    rw [granted_cons]
    rcases mem_made_cons mem with now | earlier
    · obtain ⟨mode, same⟩ := Desk.makes_answer now
      exact ⟨mode, fun g hg => List.mem_append_right _ (same ▸ hg)⟩
    · obtain ⟨mode, listed⟩ := h.made p earlier
      exact ⟨mode, fun g hg => List.mem_append_left _ (listed g hg)⟩

end Standing

theorem standing {moves} {t : Desk} (h : Trace DeskStep .opened moves t) : Standing moves t :=
  h.preserves .opened fun _ _ _ _ _ known one => known.step one

/-! ## Metrics of one registry -/

theorem Metrics.sameTags_tagFor {d d' : Value} :
    SameTags (tagFor d) (tagFor d') ↔ tagFor d = tagFor d' := by
  constructor
  · intro same
    simpa [tagFor] using same "dry_run"
  · intro same
    rw [same]
    exact fun _ => rfl

theorem Metrics.tagFor_dry_ne_live : tagFor (.bool true) ≠ tagFor (.bool false) := by
  decide +kernel

theorem Metrics.mem_handles {m : Metrics} {i : Nat} (h : i ∈ m.handles) (d : Value) :
    ∃ g ∈ m.grants d, g.tags = tagFor d ∧ g.handle = i := by
  simpa [handles, grants, eq_comm] using h

namespace Standing
variable {moves : List (Desk × Operation)} {t : Desk} {p q : Value × Metrics}

/-- Metrics of modes that are tagged alike have the same counters. -/
theorem handles_eq (h : Standing moves t) (hp : p ∈ Counter.made moves)
    (hq : q ∈ Counter.made moves) (same : Metrics.tagFor p.1 = Metrics.tagFor q.1) :
    p.2.handles = q.2.handles := by
  have listed := (h.made p hp).2
  have listed' := (h.made q hq).2
  simp only [Metrics.grants, List.forall_mem_cons] at listed listed'
  obtain ⟨inspected, migrated, abandoned, -⟩ := listed
  obtain ⟨inspected', migrated', abandoned', -⟩ := listed'
  have alike := Metrics.sameTags_tagFor.mpr same
  have first : p.2.inspected = q.2.inspected :=
    (h.lists.same_handle inspected inspected').mpr ⟨rfl, alike⟩
  have second : p.2.migrated = q.2.migrated :=
    (h.lists.same_handle migrated migrated').mpr ⟨rfl, alike⟩
  have third : p.2.abandoned = q.2.abandoned :=
    (h.lists.same_handle abandoned abandoned').mpr ⟨rfl, alike⟩
  rw [Metrics.handles, first, second, third, Metrics.handles]

/-- Metrics of modes that are tagged otherwise have no counter in common. -/
theorem handles_disjoint (h : Standing moves t) (hp : p ∈ Counter.made moves)
    (hq : q ∈ Counter.made moves) (apart : Metrics.tagFor p.1 ≠ Metrics.tagFor q.1) :
    p.2.handles.Disjoint q.2.handles := by
  intro i mem mem'
  obtain ⟨g, hg, tags, rfl⟩ := Metrics.mem_handles mem p.1
  obtain ⟨g', hg', tags', same⟩ := Metrics.mem_handles mem' q.1
  have alike := (h.lists.same_handle ((h.made q hq).2 g' hg') ((h.made p hp).2 g hg)).mp same
  rw [tags, tags', Metrics.sameTags_tagFor] at alike
  exact apart alike.2.symm

/-- Metrics of one mode report what they have counted together. -/
theorem summary_eq (h : Standing moves t) {d : Value} {m m' : Metrics}
    (hm : (d, m) ∈ Counter.made moves) (hm' : (d, m') ∈ Counter.made moves) (elapsed : Float) :
    m.summary t.registry elapsed = ⟨d, (amounts moves m'.inspected).sum,
      (amounts moves m'.migrated).sum, (amounts moves m'.abandoned).sum, elapsed⟩ := by
  have same := h.handles_eq hm hm' rfl
  simp only [Metrics.handles, List.cons.injEq] at same
  obtain ⟨first, second, third, -⟩ := same
  have mode : m.dryRun = d := (h.made _ hm).1
  rw [Metrics.summary, Metrics.summaryOf, Metrics.tally, mode, first, second, third, h.values,
    h.values, h.values]

end Standing

/-- What a registry owes to those who have its handles. A counter is known by its name and its tags
as a map, and shows what it was raised by, through whichever of its handles. -/
structure Faithful (moves : List (Desk × Operation)) (t : Desk) : Prop where
  same_counter : ∀ a ∈ granted moves, ∀ b ∈ granted moves,
    a.handle = b.handle ↔ a.name = b.name ∧ SameTags a.tags b.tags
  any_order : ∀ a ∈ granted moves, ∀ b ∈ granted moves, (a.tags.map (·.1)).Nodup →
    (b.tags.map (·.1)).Nodup → (a.handle = b.handle ↔ a.name = b.name ∧ a.tags.Perm b.tags)
  answered : ∀ name tags, (∀ tag ∈ tags, tag.1 ∉ reservedTags) →
    ∃ i, t.answer (.counter name tags) = .handle i
  refused : ∀ name tags, (∃ tag ∈ tags, tag.1 ∈ reservedTags) →
    ∃ tag ∈ reservedTags, t.registry.perform (.counter name tags) =
      (.refused (.tagReserved tag), t.registry)
  total : ∀ i, (t.registry.value i : Int) = (amounts moves i).sum
  raised : ∀ i amount, 0 ≤ amount → t.answer (.increment i amount) = .raised
  never_lowered : ∀ i, ∀ amount < 0, t.registry.perform (.increment i amount) =
    (.refused (.plain .value "counters can only be incremented"), t.registry)
  never_decreased : ∀ m ∈ moves, ∀ i, m.1.registry.value i ≤ t.registry.value i
  listed : t.registry.labels = ((granted moves).map Grant.label).eraseDups
  listed_once : t.registry.labels.Nodup
  listed_with : ∀ g ∈ granted moves, ∃ tags,
    t.registry.counters[g.handle]? = some (⟨g.name, tags⟩, t.registry.value g.handle) ∧
      ∀ k, tags.lookup k = g.tags.reverse.lookup k
  kept_apart : ∀ dry live, (.bool true, dry) ∈ made moves → (.bool false, live) ∈ made moves →
    dry.handles.Disjoint live.handles
  shared : ∀ d m m', (d, m) ∈ made moves → (d, m') ∈ made moves → m.handles = m'.handles
  reported : ∀ d m m', (d, m) ∈ made moves → (d, m') ∈ made moves → ∀ elapsed,
    t.registry.perform (.summary m elapsed) =
      (.summary ⟨d, (amounts moves m'.inspected).sum, (amounts moves m'.migrated).sum,
        (amounts moves m'.abandoned).sum, elapsed⟩, t.registry)

theorem Desk.counter_answered (s : Desk) {name : String} {tags : List (String × String)}
    (free : ∀ tag ∈ tags, tag.1 ∉ reservedTags) :
    ∃ i, s.answer (.counter name tags) = .handle i := by
  rcases Label.checked_cases name tags with ⟨ok, -⟩ | ⟨tag, mem, taken, -⟩
  · exact ⟨(s.registry.counter (.of name tags)).1, by simp only [Desk.answer, Registry.perform, ok]⟩
  · exact absurd taken (free tag mem)

theorem Registry.counter_refused (r : Registry) {name : String} {tags : List (String × String)}
    (taken : ∃ tag ∈ tags, tag.1 ∈ reservedTags) : ∃ tag ∈ reservedTags,
      r.perform (.counter name tags) = (.refused (.tagReserved tag), r) := by
  rcases Label.checked_cases name tags with ⟨-, free⟩ | ⟨tag, -, taken, error⟩
  · obtain ⟨tag, mem, taken⟩ := taken
    exact absurd taken (free tag mem)
  · exact ⟨tag.1, taken, by simp only [Registry.perform, error]⟩

/-- Whatever is asked of a registry, its counters are those asked for, none is lost or made twice,
and nothing that is counted is lost or taken back. -/
theorem registry_faithful {moves} {t : Desk} (h : Trace DeskStep .opened moves t) :
    Faithful moves t where
  same_counter _ ha _ hb := (standing h).lists.same_handle ha hb
  any_order _ ha _ hb distinct distinct' := by
    rw [(standing h).lists.same_handle ha hb, sameTags_iff_perm distinct distinct']
  answered _ _ free := t.counter_answered free
  refused _ _ taken := t.registry.counter_refused taken
  total := (standing h).values
  raised i amount up := by
    simp only [Desk.answer, Registry.perform, Registry.increment, if_neg (not_lt.mpr up)]
  never_lowered i amount down := by
    simp only [Registry.perform, Registry.increment, if_pos down]
  never_decreased := (standing h).grown
  listed := (standing h).lists.labels_eq
  listed_once := (standing h).lists.once
  listed_with g hg := ⟨_, (standing h).lists.entry hg, lookup_sortTags g.tags⟩
  kept_apart _ _ hd hl := (standing h).handles_disjoint hd hl Metrics.tagFor_dry_ne_live
  shared _ _ _ hm hm' := (standing h).handles_eq hm hm' rfl
  reported d m m' hm hm' elapsed := by
    rw [Registry.perform, (standing h).summary_eq hm hm']

/-- One counter asked for with its tags in two orders, raised and not lowered, and two metrics. -/
def smallOperations : List Operation :=
  [.create (.bool false), .create (.bool true), .increment 0 (-2), .increment 0 3,
    .counter "c" [("b", "2"), ("a", "1")], .counter "c" [("a", "1"), ("b", "2")]]

theorem small_registry_faithful :
    let t := Trace.reached Desk.after .opened smallOperations
    let moves := Trace.replay Desk.after .opened smallOperations
    t.registry.counters.head? = some (⟨"c", [("a", "1"), ("b", "2")]⟩, 3) ∧
      t.registry.counters.length = 7 ∧ (granted moves).map Grant.handle = [0, 0, 1, 2, 3, 4, 5, 6] ∧
      Faithful moves t :=
  have runs : Trace.Runs Desk.after (fun s o => ∀ i ∈ o.uses, i ∈ s.given) .opened
      smallOperations := by
    decide +kernel
  ⟨by decide +kernel, by decide +kernel, by decide +kernel,
    registry_faithful (Trace.of_runs Desk.after (fun _ _ => .intro) runs)⟩

end Rekey.Counter
