import Mathlib.Data.List.Induction
import Rekey.Proofs.Dispatch.Accounts

/-! # Records marked more than once

The slot of a window counts marks and not the records marked. A mark of a record that is marked
already stands in for the mark of another record of its window, so a window can be given back while
some of its records are not delivered or not marked. It keeps its slot exactly as long as it has more
such records than repeated marks. -/
namespace Rekey.Dispatch

variable {α : Type} {cap : Nat} {s t : State α} {moves : List (State α × Event α)}

def Event.marks (index : Nat) : Event α → Bool
  | .done i => i == index
  | _ => false

/-- The marks of the record delivered as number `index`. -/
def marksOf (index : Nat) (moves : List (State α × Event α)) : Nat :=
  moves.countP fun m => m.2.marks index

namespace State

/-- The numbers under which records of the window `k` were delivered. -/
def deliveriesFrom (s : State α) (k : Nat) : List Nat :=
  (List.range s.delivered.length).filter fun index => (s.delivery? index).any (·.window == k)

/-- The window `k` was pulled, and its slot has not been given back. -/
def Keeps (s : State α) (k : Nat) : Prop :=
  k < s.pulled.length ∧ ∀ slot ∈ s.slots[k]?, slot.released = 0

instance (s : State α) (k : Nat) : Decidable (s.Keeps k) := by
  unfold Keeps
  infer_instance

end State

/-- The records delivered from the window `k` that are not marked. -/
def unmarked (k : Nat) (moves : List (State α × Event α)) (s : State α) : Nat :=
  (s.deliveriesFrom k).countP fun index => marksOf index moves = 0

/-- The marks of records of the window `k` that were marked already. -/
def repeats (k : Nat) (moves : List (State α × Event α)) (s : State α) : Nat :=
  ((s.deliveriesFrom k).map fun index => marksOf index moves - 1).sum

/-- The records of a window, the one with number `k`, that are not delivered or not marked. -/
def unfinished (k : Nat) (window : List α) (moves : List (State α × Event α)) (s : State α) : Nat :=
  window.length - (s.deliveriesFrom k).length + unmarked k moves s

section Lists
variable {β : Type}

theorem countP_range_getElem? (l : List β) (p : β → Bool) :
    (List.range l.length).countP (fun i => l[i]?.any p) = l.countP p := by
  induction l using List.reverseRecOn with
  | nil => rfl
  | append_singleton l b ih =>
    have before : (List.range l.length).countP (fun i => (l ++ [b])[i]?.any p) =
        (List.range l.length).countP fun i => l[i]?.any p := by
      apply List.countP_congr
      intro i hi
      rw [List.getElem?_append_left (List.mem_range.mp hi)]
    rw [List.length_append, List.length_singleton, List.range_succ, List.countP_append, before, ih,
      List.countP_append, List.countP_singleton, List.countP_singleton]
    simp

/-- As many as are counted at all are counted once, not at all, or beyond once. -/
theorem sum_add_countP_zero (l : List β) (f : β → Nat) :
    (l.map f).sum + l.countP (fun b => f b = 0) = l.length + (l.map fun b => f b - 1).sum := by
  induction l with
  | nil => rfl
  | cons b l ih =>
    rw [List.map_cons, List.sum_cons, List.map_cons, List.sum_cons, List.countP_cons,
      List.length_cons]
    by_cases none : f b = 0
    · simp only [none, decide_true, if_true]
      omega
    · simp only [none, decide_false, Bool.false_eq_true, if_false]
      omega

theorem sum_map_add_if [DecidableEq β] {l : List β} (nodup : l.Nodup) (f : β → Nat) (a : β) :
    (l.map fun b => f b + if a = b then 1 else 0).sum =
      (l.map f).sum + if a ∈ l then 1 else 0 := by
  induction l with
  | nil => rfl
  | cons b l ih =>
    obtain ⟨fresh, nodup⟩ := List.nodup_cons.mp nodup
    rw [List.map_cons, List.sum_cons, ih nodup, List.map_cons, List.sum_cons]
    by_cases hb : a = b
    · subst hb
      simp [fresh]
      omega
    · simp [hb]
      omega

end Lists

section Marks

theorem marksOf_cons (index : Nat) (s : State α) (e : Event α)
    (moves : List (State α × Event α)) :
    marksOf index ((s, e) :: moves) = marksOf index moves + if e.marks index then 1 else 0 := by
  simp [marksOf, List.countP_cons]

theorem deliveriesFrom_nodup (s : State α) (k : Nat) : (s.deliveriesFrom k).Nodup :=
  List.nodup_range.filter _

theorem mem_deliveriesFrom {index k : Nat} : index ∈ s.deliveriesFrom k ↔
    ∃ d, s.delivery? index = some d ∧ d.window = k := by
  unfold State.deliveriesFrom
  rw [List.mem_filter, List.mem_range, Option.any_eq_true]
  constructor
  · rintro ⟨-, d, hd, hk⟩
    exact ⟨d, hd, by simpa using hk⟩
  · rintro ⟨d, hd, rfl⟩
    refine ⟨?_, d, hd, by simp⟩
    rw [State.delivery?_eq] at hd
    obtain ⟨lt, -⟩ := List.getElem?_eq_some_iff.mp hd
    rwa [State.deliveries, List.length_reverse] at lt

/-- Deliveries keep their numbers. -/
theorem deliveriesFrom_append (k : Nat) {more : List (Delivery α)}
    (delivered : t.delivered = more ++ s.delivered) : t.deliveriesFrom k = s.deliveriesFrom k ++
      ((List.range more.length).map (s.delivered.length + ·)).filter
        fun index => (t.delivery? index).any (·.window == k) := by
  unfold State.deliveriesFrom
  rw [delivered, List.length_append, Nat.add_comm, List.range_add, List.filter_append]
  congr 1
  apply List.filter_congr
  intro index hi
  have lt := List.mem_range.mp hi
  rw [State.delivery?_eq, State.delivery?_eq, State.deliveries, delivered, List.reverse_append,
    List.getElem?_append_left (by simpa using lt), State.deliveries]

theorem next_delivered (s : State α) (e : Event α) :
    ∃ more, (s.next e).delivered = more ++ s.delivered := by
  have delivering : ∀ s : State α, ∃ more, s.deliver.delivered = more ++ s.delivered := by
    intro s
    unfold State.deliver
    split
    · exact ⟨[], rfl⟩
    · exact ⟨[_], rfl⟩
  have awaiting : ∀ s : State α, s.await.delivered = s.delivered := by
    intro s
    obtain ⟨puller, consumer, status, heq⟩ := await_frame s
    rw [heq]
  cases e with
  | request =>
    simp only [State.next]
    split
    · exact ⟨[], awaiting s⟩
    · exact delivering s
  | begin =>
    simp only [State.next, State.begin]
    split
    · exact ⟨[], rfl⟩
    · split
      · exact ⟨[], awaiting _⟩
      · exact delivering _
  | surrender => exact ⟨[], awaiting s⟩
  | done index =>
    obtain ⟨free, inFlight, slots, heq, -⟩ := done_frame s index
    exact ⟨[], by rw [heq]; rfl⟩
  | conclude | acquire | arrive | sourceEnd | sourceFail | close => exact ⟨[], rfl⟩

/-- The marks of a window are those of its records, and no record is marked before it is
delivered. -/
structure Marked (moves : List (State α × Event α)) (s : State α) : Prop where
  marks_eq : ∀ k, marks k moves = ((s.deliveriesFrom k).map fun index => marksOf index moves).sum
  later : ∀ index, s.delivered.length ≤ index → marksOf index moves = 0

theorem start_marked (cap : Nat) : Marked [] (start cap : State α) := by
  constructor
  · intro k
    rfl
  · intro index _
    rfl

theorem Marked.unmarking (h : Marked moves s) {e : Event α} (unmarked : s.marked? e = none)
    (silent : ∀ index, e.marks index = false) : Marked ((s, e) :: moves) (s.next e) := by
  obtain ⟨more, delivered⟩ := next_delivered s e
  have same : ∀ index, marksOf index ((s, e) :: moves) = marksOf index moves := by
    intro index
    rw [marksOf_cons, silent]
    rfl
  constructor
  · intro k
    have added : ((((List.range more.length).map (s.delivered.length + ·)).filter
        fun index => ((s.next e).delivery? index).any (·.window == k)).map
          fun index => marksOf index moves).sum = 0 := by
      apply List.sum_eq_zero_iff_forall_eq_nat.mpr
      intro n hn
      obtain ⟨index, hindex, rfl⟩ := List.mem_map.mp hn
      obtain ⟨j, -, rfl⟩ := List.mem_map.mp (List.mem_filter.mp hindex).1
      exact h.later _ (Nat.le_add_right _ _)
    simp only [same]
    rw [marks_cons, unmarked, if_neg (by simp), deliveriesFrom_append k delivered, List.map_append,
      List.sum_append, added, h.marks_eq]
  · intro index le
    rw [same]
    apply h.later
    rw [delivered, List.length_append] at le
    omega

theorem Marked.mark (h : Marked moves s) {index : Nat} (lt : index < s.delivered.length) :
    Marked ((s, .done index) :: moves) (s.next (.done index)) := by
  obtain ⟨free, inFlight, slots, heq, -⟩ := done_frame s index
  have from_eq : ∀ k, (s.next (.done index)).deliveriesFrom k = s.deliveriesFrom k := by
    intro k
    rw [heq]
    rfl
  have marked : ∀ k, s.marked? (.done index) = some k ↔ index ∈ s.deliveriesFrom k := by
    intro k
    rw [mem_deliveriesFrom, State.marked?, Option.map_eq_some_iff]
  have counts : ∀ i, marksOf i ((s, .done index) :: moves) =
      marksOf i moves + if index = i then 1 else 0 := by
    intro i
    simp [marksOf_cons, Event.marks]
  constructor
  · intro k
    rw [marks_cons, from_eq, h.marks_eq]
    simp only [counts, marked]
    rw [sum_map_add_if (deliveriesFrom_nodup s k)]
  · intro i le
    have le' : s.delivered.length ≤ i := by rwa [heq] at le
    rw [counts, h.later i le', if_neg (by omega)]

theorem step_preserves_marked (h : Marked moves s) {e : Event α} (step : Step s e t) :
    Marked ((s, e) :: moves) t := by
  obtain ⟨enabled⟩ := step
  cases e with
  | done index => exact h.mark enabled
  | request | begin | surrender | conclude | acquire | arrive | sourceEnd | sourceFail | close =>
    exact h.unmarking rfl fun _ => rfl

theorem trace_marked (trace : Trace Step (start cap) moves s) : Marked moves s :=
  trace.preserves (P := Marked) (start_marked cap)
    fun _ _ _ _ _ h step => step_preserves_marked h step

/-- Marks that are taken for the window and records left without one make up for each other. -/
theorem Marked.marks_add_unmarked (h : Marked moves s) (k : Nat) :
    marks k moves + unmarked k moves s = (s.deliveriesFrom k).length + repeats k moves s := by
  rw [h.marks_eq]
  exact sum_add_countP_zero _ _

end Marks

section Kept

theorem countP_numbered {windows : List (List α)} {k : Nat} {window : List α}
    (hk : windows[k]? = some window) :
    (numbered windows).countP (fun x => x.2 == k) = window.length := by
  induction windows using List.reverseRecOn with
  | nil => cases hk
  | append_singleton windows last ih =>
    rw [numbered_append_singleton, List.countP_append, List.countP_map]
    rcases Nat.lt_trichotomy k windows.length with lt | rfl | gt
    · rw [List.getElem?_append_left lt] at hk
      have other : windows.length ≠ k := by omega
      rw [ih hk]
      simp [Function.comp_def, other]
    · obtain rfl : last = window := by simpa using hk
      have none : (numbered windows).countP (fun x => x.2 == windows.length) = 0 := by
        apply List.countP_eq_zero.mpr
        intro x hx
        have := snd_lt_of_mem_numbered hx
        simp
        omega
      rw [none]
      simp [Function.comp_def]
    · rw [List.getElem?_eq_none (by simp; omega)] at hk
      cases hk

/-- No more records are delivered from a window than it has. -/
theorem Invariant.deliveriesFrom_length_le (h : Invariant cap s) {k : Nat} {window : List α}
    (hk : s.pulled.reverse[k]? = some window) : (s.deliveriesFrom k).length ≤ window.length := by
  have count : (s.deliveriesFrom k).length = s.deliveries.countP (·.window == k) := by
    rw [← countP_range_getElem?, State.deliveriesFrom, ← List.countP_eq_length_filter,
      State.deliveries, List.length_reverse]
    apply List.countP_congr
    intro index _
    rw [State.delivery?_eq, State.deliveries]
  rw [count, ← countP_numbered hk]
  have le := h.delivered_prefix.sublist.countP_le (p := fun x => x.2 == k)
  rwa [List.countP_map] at le

/-- The windows in flight are those that keep their slots. -/
theorem Invariant.inFlight_eq_countP (h : Invariant cap s) :
    s.inFlight = (List.range s.pulled.length).countP fun k => s.Keeps k := by
  have split : s.pulled.length = s.slots.length + s.ready.length := by
    have ready := congrArg List.length h.ready_eq
    have begun := h.begun_le
    rw [List.length_drop, List.length_reverse] at ready
    unfold State.begun at ready begun
    omega
  have held : (List.range s.slots.length).countP (fun k => s.Keeps k) = s.held := by
    rw [State.held, ← countP_range_getElem? s.slots]
    apply List.countP_congr
    intro k hk
    have lt := List.mem_range.mp hk
    have pulled : k < s.pulled.length := by omega
    simp [State.Keeps, pulled, List.getElem?_eq_getElem lt]
  have waiting : ((List.range s.ready.length).map (s.slots.length + ·)).countP (fun k => s.Keeps k) =
      s.ready.length := by
    rw [List.countP_eq_length.mpr, List.length_map, List.length_range]
    intro k hk
    obtain ⟨i, hi, rfl⟩ := List.mem_map.mp hk
    have pulled : s.slots.length + i < s.pulled.length := by
      have := List.mem_range.mp hi
      omega
    simp [State.Keeps, pulled]
  rw [h.inFlight_eq, split, List.range_add, List.countP_append, held, waiting, Nat.add_comm]

/-- A window that has been begun keeps its slot until it has been marked for each record. -/
theorem Recorded.keeps_iff (h : Recorded cap moves s) {k : Nat} {window : List α}
    (hk : s.pulled.reverse[k]? = some window) :
    s.Keeps k ↔ s.begun ≤ k ∨ marks k moves < window.length := by
  obtain ⟨lt, -⟩ := List.getElem?_eq_some_iff.mp hk
  rw [List.length_reverse] at lt
  by_cases begun : s.begun ≤ k
  · simp [State.Keeps, lt, begun, List.getElem?_eq_none (show s.slots.length ≤ k from begun)]
  · have taken : s.begunWindows[k]? = some window := by
      rw [State.begunWindows, List.getElem?_take_of_lt (Nat.not_le.mp begun), hk]
    simp [State.Keeps, lt, begun, h.counted, taken, Slot.after]

end Kept

/-- What keeps the slots of windows, after the events `moves`. -/
structure KeptUnlessRemarked (moves : List (State α × Event α)) (s : State α) : Prop where
  in_flight : s.inFlight = (List.range s.pulled.length).countP fun k => s.Keeps k
  kept_iff : ∀ k window, s.pulled.reverse[k]? = some window →
    (s.Keeps k ↔ s.begun ≤ k ∨ repeats k moves s < unfinished k window moves s)
  unfinished_iff : ∀ k window, s.pulled.reverse[k]? = some window →
    (0 < unfinished k window moves s ↔ (s.deliveriesFrom k).length < window.length ∨
      ∃ index d, s.delivery? index = some d ∧ d.window = k ∧ marksOf index moves = 0)
  kept : ∀ k window, s.pulled.reverse[k]? = some window →
    (∀ index d, s.delivery? index = some d → d.window = k → marksOf index moves ≤ 1) →
    0 < unfinished k window moves s → s.Keeps k

section KeptUnlessRemarked

theorem unmarked_pos_iff (k : Nat) : 0 < unmarked k moves s ↔
    ∃ index d, s.delivery? index = some d ∧ d.window = k ∧ marksOf index moves = 0 := by
  unfold unmarked
  rw [List.countP_pos_iff]
  constructor
  · rintro ⟨index, mem, none⟩
    obtain ⟨d, hd, hk⟩ := mem_deliveriesFrom.mp mem
    exact ⟨index, d, hd, hk, by simpa using none⟩
  · rintro ⟨index, d, hd, hk, none⟩
    exact ⟨index, mem_deliveriesFrom.mpr ⟨d, hd, hk⟩, by simpa using none⟩

theorem repeats_eq_zero {k : Nat} (once : ∀ index d, s.delivery? index = some d → d.window = k →
    marksOf index moves ≤ 1) : repeats k moves s = 0 := by
  apply List.sum_eq_zero_iff_forall_eq_nat.mpr
  intro n hn
  obtain ⟨index, mem, rfl⟩ := List.mem_map.mp hn
  obtain ⟨d, hd, hk⟩ := mem_deliveriesFrom.mp mem
  have := once index d hd hk
  omega

theorem windows_kept_unless_remarked (trace : Trace Step (start cap) moves s) :
    KeptUnlessRemarked moves s := by
  have recorded := trace_recorded trace
  have marked := trace_marked trace
  have kept_iff : ∀ k window, s.pulled.reverse[k]? = some window →
      (s.Keeps k ↔ s.begun ≤ k ∨ repeats k moves s < unfinished k window moves s) := by
    intro k window hk
    have balance := marked.marks_add_unmarked k
    have le := recorded.deliveriesFrom_length_le hk
    rw [recorded.keeps_iff hk]
    unfold unfinished
    refine or_congr_right ?_
    omega
  constructor
  · exact recorded.inFlight_eq_countP
  · exact kept_iff
  · intro k window hk
    rw [← unmarked_pos_iff]
    unfold unfinished
    omega
  · intro k window hk once left
    rw [kept_iff k window hk, repeats_eq_zero once]
    exact .inr left

/-- The first record of a window of three is marked twice, and the third is not delivered. -/
def repeatedEvents : List (Event Nat) :=
  [.done 0, .request, .done 0, .begin, .arrive [1, 2, 3], .acquire, .request]

def repeated : State Nat := Trace.reached State.next (start 1) repeatedEvents

theorem repeated_kept : ∃ moves, Trace Step (start 1) moves repeated ∧
    repeats 0 moves repeated = 1 ∧ unfinished 0 [1, 2, 3] moves repeated = 2 ∧
    repeated.Keeps 0 ∧ KeptUnlessRemarked moves repeated := by
  have trace : Trace Step (start 1) (Trace.replay State.next (start 1) repeatedEvents) repeated := by
    apply Trace.of_replays State.next
    refine ⟨⟨?_⟩, ⟨?_⟩, ⟨?_⟩, ⟨?_⟩, ⟨?_⟩, ⟨?_⟩, ⟨?_⟩, trivial⟩
    all_goals decide +kernel
  exact ⟨_, trace, by decide +kernel, by decide +kernel, by decide +kernel,
    windows_kept_unless_remarked trace⟩

/-- The first record of a window of two is marked twice before the second is asked for. -/
def twiceMarkedEvents : List (Event String) :=
  [.done 0, .done 0, .begin, .arrive ["w0-r0", "w0-r1"], .acquire, .request]

def twiceMarked : State String := Trace.reached State.next (start 1) twiceMarkedEvents

/-- A window is given back and is no longer in flight, though its second record has not even been
delivered. -/
theorem unfinished_window_given_back : ∃ moves, Trace Step (start 1) moves twiceMarked ∧
    twiceMarked.pulled = [["w0-r0", "w0-r1"]] ∧
    twiceMarked.deliveries.map (·.record) = ["w0-r0"] ∧
    0 < unfinished 0 ["w0-r0", "w0-r1"] moves twiceMarked ∧
    ¬ twiceMarked.Keeps 0 ∧ twiceMarked.inFlight = 0 := by
  have trace : Trace Step (start 1) (Trace.replay State.next (start 1) twiceMarkedEvents)
      twiceMarked := by
    apply Trace.of_replays State.next
    refine ⟨⟨?_⟩, ⟨?_⟩, ⟨?_⟩, ⟨?_⟩, ⟨?_⟩, ⟨?_⟩, trivial⟩
    all_goals decide +kernel
  exact ⟨_, trace, by decide +kernel, by decide +kernel, by decide +kernel, by decide +kernel,
    by decide +kernel⟩

end KeptUnlessRemarked

end Rekey.Dispatch
