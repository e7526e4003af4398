import Rekey.Scan.Basic
import Mathlib.Data.List.Basic
import Mathlib.Data.List.Count
import Mathlib.Data.List.Flatten

/-! # Nothing is lost between the readers and the consumer

For each segment the entries that its reader puts are fixed by its stream: the items, and then a
marker. At any time of a running scan they split into those taken by the consumer and the rest, which
is what stands in the queue and what the reader has ahead. Reading and putting leave the rest alone;
taking removes its first entry. All else follows from this. -/
namespace Rekey.Scan

variable {α : Type}

def Entry.segment : Entry α → Nat
  | .item segment _ => segment
  | .done segment => segment
  | .failed segment _ => segment

def Entry.item? : Entry α → Option α
  | .item _ a => some a
  | .done _ | .failed .. => none

/-- The entries that the reader of `segment` puts for a stream from item number `n` on. -/
def entriesFrom (segment : Nat) (stream : Stream α) (n : Nat) : List (Entry α) :=
  (stream.items.drop n).map (Entry.item segment) ++
    (Entry.ofAnswer? segment (stream.answer stream.items.length)).toList

/-- The entries that a reader has not put yet. -/
def Reader.ahead (segment : Nat) (stream : Stream α) (r : Reader α) : List (Entry α) :=
  match r.phase with
  | .reading => entriesFrom segment stream r.produced.length
  | .offering entry =>
    entry :: if entry.isMarker then [] else entriesFrom segment stream r.produced.length
  | .finished | .stopped => []

/-- The streams fail in no other way than by an ordinary failure. -/
def Ordinary (source : Nat → Stream α) (segments : Nat) : Prop :=
  ∀ i < segments, ∀ failure, (source i).failure = some failure → failure.isOrdinary = true

namespace State

def queued (s : State α) (segment : Nat) : List (Entry α) :=
  s.queue.filter fun entry => entry.segment = segment

def ahead (source : Nat → Stream α) (s : State α) (segment : Nat) : List (Entry α) :=
  match s.readers[segment]? with
  | some r => r.ahead segment (source segment)
  | none => []

/-- The entries of a segment that the consumer has not taken yet. -/
def rest (source : Nat → Stream α) (s : State α) (segment : Nat) : List (Entry α) :=
  s.queued segment ++ s.ahead source segment

def yieldedOf (s : State α) (segment : Nat) : List α :=
  (s.yielded.reverse.filter fun y => y.1 = segment).map (·.2)

end State

section Entries
variable {segment : Nat} {stream : Stream α}

theorem answer_of_lt {n : Nat} (h : n < stream.items.length) :
    stream.answer n = .item stream.items[n] := by
  simp [Stream.answer, List.getElem?_eq_getElem h]

theorem answer_length_eq (stream : Stream α) :
    stream.answer stream.items.length =
      match stream.failure with
      | some failure => .failed failure
      | none => .exhausted := by
  unfold Stream.answer
  rw [List.getElem?_eq_none (Nat.le_refl _)]
  cases stream.failure <;> rfl

theorem entry_segment {answer : Answer α} {entry : Entry α}
    (h : Entry.ofAnswer? segment answer = some entry) : entry.segment = segment := by
  cases answer with
  | item a => simp only [Entry.ofAnswer?, Option.some.injEq] at h; subst h; rfl
  | exhausted => simp only [Entry.ofAnswer?, Option.some.injEq] at h; subst h; rfl
  | failed failure =>
    simp only [Entry.ofAnswer?, Option.ite_none_right_eq_some, Option.some.injEq] at h
    obtain ⟨-, rfl⟩ := h
    rfl

theorem segment_of_mem_entriesFrom {n : Nat} {entry : Entry α}
    (h : entry ∈ entriesFrom segment stream n) : entry.segment = segment := by
  rcases List.mem_append.mp h with h | h
  · obtain ⟨a, -, rfl⟩ := List.mem_map.mp h; rfl
  · exact entry_segment (by simpa using h)

theorem entriesFrom_eq {n : Nat} (hn : n ≤ stream.items.length) :
    entriesFrom segment stream n =
      match Entry.ofAnswer? segment (stream.answer n) with
      | some entry => entry :: if entry.isMarker then [] else entriesFrom segment stream (n + 1)
      | none => [] := by
  rcases Nat.lt_or_eq_of_le hn with h | rfl
  · rw [answer_of_lt h]
    simp only [entriesFrom, Entry.ofAnswer?, Entry.isMarker, List.drop_eq_getElem_cons h,
      List.map_cons, List.cons_append, Bool.false_eq_true, ↓reduceIte]
  · rw [answer_length_eq]
    simp only [entriesFrom, List.drop_length, List.map_nil, List.nil_append, answer_length_eq]
    cases stream.failure with
    | none => simp [Entry.ofAnswer?, Entry.isMarker]
    | some failure => cases h : failure.isOrdinary <;> simp [Entry.ofAnswer?, Entry.isMarker, h]

def marker (segment : Nat) (stream : Stream α) : Entry α :=
  match stream.failure with
  | some failure => .failed segment failure
  | none => .done segment

theorem marker_isMarker : (marker segment stream).isMarker = true := by
  unfold marker; cases stream.failure <;> rfl

theorem filterMap_item?_items (items : List α) :
    (items.map (Entry.item segment)).filterMap Entry.item? = items := by
  induction items with
  | nil => rfl
  | cons a items ih => simpa [Entry.item?] using ih

theorem filterMap_item?_entries (items : List α) :
    (items.map (Entry.item segment) ++ [marker segment stream]).filterMap Entry.item? = items := by
  have hmarker : (marker segment stream).item? = none := by
    unfold marker; cases stream.failure <;> rfl
  rw [List.filterMap_append, filterMap_item?_items]
  simp [hmarker]

theorem ofAnswer?_ending
    (ordinary : ∀ failure, stream.failure = some failure → failure.isOrdinary = true) :
    Entry.ofAnswer? segment (stream.answer stream.items.length) =
      some (marker segment stream) := by
  rw [answer_length_eq, marker]
  cases h : stream.failure with
  | none => rfl
  | some failure => simp [Entry.ofAnswer?, ordinary failure h]

theorem entriesFrom_zero
    (ordinary : ∀ failure, stream.failure = some failure → failure.isOrdinary = true) :
    entriesFrom segment stream 0 =
      stream.items.map (Entry.item segment) ++ [marker segment stream] := by
  simp [entriesFrom, ofAnswer?_ending ordinary]

/-- Whatever is left of a stream's entries ends with the marker, unless nothing is left. -/
theorem rest_of_split
    (ordinary : ∀ failure, stream.failure = some failure → failure.isOrdinary = true)
    {taken rest : List (Entry α)} (split : entriesFrom segment stream 0 = taken ++ rest) :
    (rest = [] ∧ taken = stream.items.map (Entry.item segment) ++ [marker segment stream]) ∨
      ∃ items : List α,
        taken ++ items.map (Entry.item segment) = stream.items.map (Entry.item segment) ∧
        rest = items.map (Entry.item segment) ++ [marker segment stream] := by
  rw [entriesFrom_zero ordinary] at split
  rcases List.eq_nil_or_concat rest with rfl | ⟨init, last, rfl⟩
  · exact .inl ⟨rfl, by simpa using split.symm⟩
  · right
    rw [List.concat_eq_append, ← List.append_assoc] at split
    obtain ⟨h, hlast⟩ := List.append_inj' split rfl
    obtain rfl : marker segment stream = last := by simpa using hlast
    have hinit : init = (stream.items.drop taken.length).map (Entry.item segment) := by
      rw [List.map_drop, h, List.drop_left]
    exact ⟨stream.items.drop taken.length, by rw [← hinit, ← h], by simp [hinit]⟩

end Entries

structure Bounded (source : Nat → Stream α) (segments capacity : Nat) (s : State α) : Prop where
  total : s.readers.length = segments
  capacity_eq : s.capacity = capacity
  queue_le : s.queue.length ≤ capacity
  segment_lt : ∀ entry ∈ s.queue, entry.segment < segments
  yielded_lt : ∀ y ∈ s.yielded, y.1 < segments
  produced : ∀ i r, s.readers[i]? = some r → r.produced.reverse <+: (source i).items

/-- What holds of a scan of given streams at any time. -/
structure Invariant (source : Nat → Stream α) (segments capacity : Nat) (s : State α) : Prop
    extends Bounded source segments capacity s where
  split : s.status = .running → ∀ i < segments, ∃ taken,
    entriesFrom i (source i) 0 = taken ++ s.rest source i ∧
    taken.filterMap Entry.item? = s.yieldedOf i ∧ ∀ failure, .failed i failure ∉ taken
  remaining_eq : s.status = .running →
    s.remaining = (List.range segments).countP fun i => !(s.rest source i).isEmpty
  remaining_pos : s.status = .running → 0 < s.remaining
  ended : s.status = .ended → ∀ i < segments,
    s.yieldedOf i = (source i).items ∧ (source i).failure = none
  failed : ∀ failure, s.status = .failed failure → ∃ i < segments, ∃ cause,
    (source i).failure = some cause ∧ failure = .because (.scan i segments cause) cause

namespace State

theorem isRunning_iff {s : State α} : s.isRunning = true ↔ s.status = .running := by
  unfold isRunning; cases s.status <;> simp

theorem isReading_iff {s : State α} {i : Nat} :
    s.isReading i = true ↔ ∃ r, s.readers[i]? = some r ∧ r.phase = .reading := by
  unfold isReading
  split
  · next produced h => simp [h]
  · next h =>
    simp only [Bool.false_eq_true, false_iff, not_exists, not_and]
    rintro ⟨phase, produced⟩ hr rfl
    exact h produced hr

theorem offered?_eq_some_iff {s : State α} {i : Nat} {entry : Entry α} :
    s.offered? i = some entry ↔ ∃ r, s.readers[i]? = some r ∧ r.phase = .offering entry := by
  unfold offered?
  split
  · next e produced h => simp [h]
  · next h =>
    simp only [reduceCtorEq, false_iff, not_exists, not_and]
    rintro ⟨phase, produced⟩ hr rfl
    exact h entry produced hr

section Frame
variable (s : State α) (i : Nat) (answer : Answer α)

@[simp] theorem read_queue : (s.read i answer).queue = s.queue := by
  unfold read; split <;> rfl

@[simp] theorem read_status : (s.read i answer).status = s.status := by
  unfold read; split <;> rfl

@[simp] theorem read_remaining : (s.read i answer).remaining = s.remaining := by
  unfold read; split <;> rfl

@[simp] theorem read_yielded : (s.read i answer).yielded = s.yielded := by
  unfold read; split <;> rfl

@[simp] theorem read_capacity : (s.read i answer).capacity = s.capacity := by
  unfold read; split <;> rfl

@[simp] theorem read_readers_length : (s.read i answer).readers.length = s.readers.length := by
  unfold read; split <;> simp

@[simp] theorem put_status : (s.put i).status = s.status := by
  unfold put; split <;> rfl

@[simp] theorem put_remaining : (s.put i).remaining = s.remaining := by
  unfold put; split <;> rfl

@[simp] theorem put_yielded : (s.put i).yielded = s.yielded := by
  unfold put; split <;> rfl

@[simp] theorem put_capacity : (s.put i).capacity = s.capacity := by
  unfold put; split <;> rfl

@[simp] theorem put_readers_length : (s.put i).readers.length = s.readers.length := by
  unfold put; split <;> simp

theorem shut_produced (status : Status) :
    (s.shut status).readers.map (·.produced) = s.readers.map (·.produced) := by
  simp only [shut, List.map_map]
  apply List.map_congr_left
  intro r _
  simp only [Function.comp_apply, Reader.stop]
  split <;> rfl

theorem put_produced :
    (s.put i).readers.map (·.produced) = s.readers.map (·.produced) := by
  unfold put
  split
  · next r entry hr offered =>
    obtain ⟨hi, rfl⟩ := List.getElem?_eq_some_iff.mp hr
    apply List.ext_getElem?
    intro j
    rw [List.map_set, List.getElem?_set, List.length_map]
    by_cases hj : i = j
    · subst hj
      simp [hi]
    · rw [if_neg hj]
  · rfl

theorem take_produced :
    s.take.readers.map (·.produced) = s.readers.map (·.produced) := by
  unfold take
  split
  · rfl
  · rfl
  · dsimp only
    split
    · exact shut_produced _ _
    · rfl
  · exact shut_produced _ _

end Frame

section Moves
variable {source : Nat → Stream α} {s : State α} {i : Nat} {r : Reader α}

theorem reader_of_set {readers : List (Reader α)} {r' r'' : Reader α} {j : Nat}
    (hr : readers[i]? = some r) (hset : (readers.set i r')[j]? = some r'') :
    (j = i ∧ r'' = r') ∨ (j ≠ i ∧ readers[j]? = some r'') := by
  by_cases hj : j = i
  · subst hj
    rw [List.getElem?_set_self (List.getElem?_eq_some_iff.mp hr).1] at hset
    exact .inl ⟨rfl, (Option.some.inj hset).symm⟩
  · rw [List.getElem?_set_ne (Ne.symm hj)] at hset
    exact .inr ⟨hj, hset⟩

theorem ahead_set {r' : Reader α} (hr : s.readers[i]? = some r)
    (same : r'.ahead i (source i) = r.ahead i (source i)) (j : Nat) :
    ahead source { s with readers := s.readers.set i r' } j = s.ahead source j := by
  unfold ahead
  by_cases hj : j = i
  · subst hj
    have hi : j < s.readers.length := (List.getElem?_eq_some_iff.mp hr).1
    simp only [hr, List.getElem?_set_self hi]
    exact same
  · simp [List.getElem?_set_ne (Ne.symm hj)]

/-- An answer moves nothing between what is taken and what is left. -/
theorem rest_read (hr : s.readers[i]? = some r) (reading : r.phase = .reading)
    (hn : r.produced.length ≤ (source i).items.length) (j : Nat) :
    (s.read i ((source i).answer r.produced.length)).rest source j = s.rest source j := by
  have hahead := @entriesFrom_eq _ i _ _ hn
  -- The queue stays as it is, so all depends on what the one reader has ahead.
  unfold rest queued read
  simp only [hr]
  congr 1
  refine ahead_set hr ?_ j
  unfold Reader.ahead
  rw [reading]
  dsimp only
  rw [hahead]
  cases (source i).answer r.produced.length with
  | item a => rfl
  | exhausted => rfl
  | failed failure => cases h : failure.isOrdinary <;> simp [Entry.ofAnswer?, Entry.isMarker, h]

/-- Putting an entry moves it from its reader to the queue. -/
theorem rest_put {entry : Entry α} (hr : s.readers[i]? = some r)
    (offering : r.phase = .offering entry) (hi : entry.segment = i) (j : Nat) :
    (s.put i).rest source j = s.rest source j := by
  have hoff : s.offered? i = some entry := offered?_eq_some_iff.mpr ⟨r, hr, offering⟩
  unfold rest queued put
  simp only [hr, hoff, List.filter_append]
  by_cases hj : j = i
  · subst hj
    have hlt : j < s.readers.length := (List.getElem?_eq_some_iff.mp hr).1
    simp only [ahead, hr, List.getElem?_set_self hlt, Reader.ahead, offering]
    cases entry.isMarker <;> simp [hi]
  · have hne : ¬ entry.segment = j := fun h => hj (h.symm.trans hi)
    simp [ahead, List.getElem?_set_ne (Ne.symm hj), hne]

theorem rest_of_pop {t : State α} {entry : Entry α} (hq : s.queue = entry :: t.queue)
    (hr : t.readers = s.readers) (j : Nat) :
    s.rest source j =
      if entry.segment = j then entry :: t.rest source j else t.rest source j := by
  unfold rest queued ahead
  rw [hq, hr]
  by_cases hj : entry.segment = j <;> simp [hj]

end Moves

end State

section Preservation
variable {source : Nat → Stream α} {segments capacity : Nat} {s : State α}

theorem start_invariant (hs : 0 < segments) (ordinary : Ordinary source segments) :
    Invariant source segments capacity (start segments capacity) := by
  have hrest : ∀ i < segments,
      (start segments capacity).rest source i = entriesFrom i (source i) 0 := by
    intro i hi
    simp [start, State.rest, State.queued, State.ahead, Reader.ahead, hi]
  refine ⟨⟨by simp [start], rfl, by simp [start], by simp [start], by simp [start], ?_⟩,
    ?_, ?_, ?_, ?_, ?_⟩
  · intro i r hr
    obtain ⟨-, rfl⟩ : i < segments ∧ (⟨.reading, []⟩ : Reader α) = r := by
      simpa [start, List.getElem?_replicate] using hr
    exact List.nil_prefix
  · intro _ i hi
    exact ⟨[], by simp [hrest i hi], by simp [start, State.yieldedOf], by simp⟩
  · intro _
    have hall : ∀ i ∈ List.range segments,
        (!((start segments capacity).rest source i).isEmpty) = true := by
      intro i hi
      rw [hrest i (List.mem_range.mp hi), entriesFrom_zero (ordinary i (List.mem_range.mp hi))]
      simp
    rw [List.countP_eq_length.mpr hall, List.length_range]
    rfl
  · intro _; exact hs
  · intro h; simp [start] at h
  · intro f h; simp [start] at h

theorem Invariant.reader_lt (h : Invariant source segments capacity s) {i : Nat} {r : Reader α}
    (hr : s.readers[i]? = some r) : i < segments :=
  h.total ▸ (List.getElem?_eq_some_iff.mp hr).1

theorem yieldedOf_congr {t : State α} (same : t.yielded = s.yielded) (i : Nat) :
    t.yieldedOf i = s.yieldedOf i := by
  unfold State.yieldedOf; rw [same]

/-- What only moves entries between readers and queue keeps all that is said of the rest. -/
theorem Invariant.of_same_rest (h : Invariant source segments capacity s) {t : State α}
    (running : s.status = .running) (status : t.status = s.status)
    (yielded : t.yielded = s.yielded) (remaining : t.remaining = s.remaining)
    (rest : ∀ i, t.rest source i = s.rest source i) (bounded : Bounded source segments capacity t) :
    Invariant source segments capacity t := by
  refine ⟨bounded, ?_, ?_, ?_, ?_, ?_⟩
  · intro _ i hi
    obtain ⟨taken, hsplit, hitems, hfail⟩ := h.split running i hi
    exact ⟨taken, by rw [rest, hsplit], by rw [hitems, yieldedOf_congr yielded], hfail⟩
  · intro _
    rw [remaining, h.remaining_eq running]
    simp only [rest]
  · intro _; rw [remaining]; exact h.remaining_pos running
  · intro hend; rw [status, running] at hend; cases hend
  · intro f hf; rw [status, running] at hf; cases hf

theorem Invariant.read (h : Invariant source segments capacity s) {i : Nat} {r : Reader α}
    (running : s.status = .running) (hr : s.readers[i]? = some r) (reading : r.phase = .reading) :
    Invariant source segments capacity (s.read i ((source i).answer r.produced.length)) := by
  have hpre := h.produced i r hr
  have hn : r.produced.length ≤ (source i).items.length := by
    simpa using hpre.length_le
  refine h.of_same_rest running (by simp) (by simp) (by simp) (State.rest_read hr reading hn)
    ⟨by simpa using h.total, by simpa using h.capacity_eq, by simpa using h.queue_le,
      by simpa using h.segment_lt, by simpa using h.yielded_lt, ?_⟩
  intro j r' hr'
  simp only [State.read, hr] at hr'
  rcases State.reader_of_set hr hr' with ⟨rfl, rfl⟩ | ⟨-, hr'⟩
  · rcases Nat.lt_or_eq_of_le hn with hlt | heq
    · rw [answer_of_lt hlt]
      obtain ⟨later, hitems⟩ := hpre
      cases later with
      | nil => simp [← hitems] at hlt
      | cons a later => exact ⟨later, by simp [← hitems]⟩
    · rw [heq, answer_length_eq]
      cases (source j).failure <;> exact hpre
  · exact h.produced j r' hr'

theorem Invariant.put (h : Invariant source segments capacity s) {i : Nat} {entry : Entry α}
    (running : s.status = .running) (offered : s.offered? i = some entry)
    (room : s.hasRoom = true) : Invariant source segments capacity (s.put i) := by
  obtain ⟨r, hr, offering⟩ := State.offered?_eq_some_iff.mp offered
  have hi := h.reader_lt hr
  have hsegment : entry.segment = i := by
    obtain ⟨taken, hsplit, -, -⟩ := h.split running i hi
    have hmem : entry ∈ entriesFrom i (source i) 0 := ?_
    · exact segment_of_mem_entriesFrom hmem
    simp [hsplit, State.rest, State.ahead, hr, Reader.ahead, offering]
  have hroom : s.queue.length < capacity := by
    simpa [State.hasRoom, h.capacity_eq] using room
  have hqueue : (s.put i).queue = s.queue ++ [entry] := by simp [State.put, hr, offered]
  refine h.of_same_rest running (by simp) (by simp) (by simp) (State.rest_put hr offering hsegment)
    ⟨by simpa using h.total, by simpa using h.capacity_eq, by simp [hqueue]; omega, ?_,
      by simpa using h.yielded_lt, ?_⟩
  · intro e he
    rw [hqueue] at he
    rcases List.mem_append.mp he with he | he
    · exact h.segment_lt e he
    · obtain rfl : e = entry := by simpa using he
      omega
  · intro j r' hr'
    simp only [State.put, hr, offered] at hr'
    rcases State.reader_of_set hr hr' with ⟨rfl, rfl⟩ | ⟨-, hr'⟩
    · exact h.produced j r hr
    · exact h.produced j r' hr'

theorem Bounded.shut (h : Bounded source segments capacity s) {status : Status}
    (stopped : status ≠ .running)
    (ended : status = .ended → ∀ i < segments,
      s.yieldedOf i = (source i).items ∧ (source i).failure = none)
    (failed : ∀ failure, status = .failed failure → ∃ i < segments, ∃ cause,
      (source i).failure = some cause ∧ failure = .because (.scan i segments cause) cause) :
    Invariant source segments capacity (s.shut status) := by
  refine ⟨⟨by simpa [State.shut] using h.total, h.capacity_eq, h.queue_le, h.segment_lt,
      h.yielded_lt, ?_⟩,
    fun hr => absurd hr stopped, fun hr => absurd hr stopped, fun hr => absurd hr stopped,
    ended, failed⟩
  intro i r hr
  simp only [State.shut, List.getElem?_map, Option.map_eq_some_iff] at hr
  obtain ⟨r', hr', rfl⟩ := hr
  have hsame : r'.stop.produced = r'.produced := by
    unfold Reader.stop; split <;> rfl
  rw [hsame]
  exact h.produced i r' hr'

/-- A state after the first entry of the queue has been taken and, if it holds one, its item given
to the consumer. -/
structure Popped (s : State α) (entry : Entry α) (t : State α) : Prop where
  queue : s.queue = entry :: t.queue
  readers : t.readers = s.readers
  capacity : t.capacity = s.capacity
  status : t.status = s.status
  yielded : t.yielded = (entry.item?.map (entry.segment, ·)).toList ++ s.yielded

/-- What comes of taking the first entry of the queue. -/
inductive Taken (s : State α) : State α → Prop where
  | going {entry : Entry α} {t : State α} (pop : Popped s entry t)
    (sound : ∀ failure, entry ≠ .failed entry.segment failure)
    (remaining : t.remaining = s.remaining - if entry.isMarker then 1 else 0)
    (more : entry.isMarker = true → 0 < t.remaining) (notices : t.notices = s.notices) : Taken s t
  | last {i : Nat} {t : State α} (pop : Popped s (.done i) t) (none_left : s.remaining - 1 = 0)
    (notices : t.notices = s.notices) : Taken s (t.shut .ended)
  | failed {i : Nat} {failure : Failure} {t : State α} (pop : Popped s (.failed i failure) t) :
    Taken s (t.shut (.failed (.because (.scan i s.total failure) failure)))

theorem taken_of_take (nonempty : s.queue.isEmpty = false) : Taken s s.take := by
  cases hq : s.queue with
  | nil => simp [hq] at nonempty
  | cons entry queue =>
    unfold State.take
    rw [hq]
    cases entry with
    | item i a => exact .going ⟨hq, rfl, rfl, rfl, rfl⟩ (by simp) rfl (by simp [Entry.isMarker]) rfl
    | done i =>
      dsimp only
      split
      · next none_left => exact .last ⟨hq, rfl, rfl, rfl, rfl⟩ none_left rfl
      · next more =>
        exact .going ⟨hq, rfl, rfl, rfl, rfl⟩ (by simp) rfl (fun _ => Nat.pos_of_ne_zero more) rfl
    | failed i failure => exact .failed ⟨hq, rfl, rfl, rfl, rfl⟩

variable {t : State α} {entry : Entry α}

theorem Bounded.of_pop (h : Bounded source segments capacity s) (pop : Popped s entry t) :
    Bounded source segments capacity t := by
  refine ⟨by rw [pop.readers, h.total], pop.capacity.trans h.capacity_eq, ?_, ?_, ?_, ?_⟩
  · have := h.queue_le
    rw [pop.queue, List.length_cons] at this
    omega
  · intro e he
    exact h.segment_lt e (by rw [pop.queue]; exact List.mem_cons_of_mem _ he)
  · intro y hy
    rw [pop.yielded] at hy
    rcases List.mem_append.mp hy with hy | hy
    · obtain ⟨-, -, rfl⟩ : ∃ a, entry.item? = some a ∧ (entry.segment, a) = y := by simpa using hy
      exact h.segment_lt entry (by simp [pop.queue])
    · exact h.yielded_lt y hy
  · rw [pop.readers]; exact h.produced

theorem Invariant.first (h : Invariant source segments capacity s) (running : s.status = .running)
    (pop : Popped s entry t) : entry.segment < segments ∧ ∃ taken,
      entriesFrom entry.segment (source entry.segment) 0 =
        taken ++ entry :: t.rest source entry.segment ∧
      taken.filterMap Entry.item? = s.yieldedOf entry.segment ∧
      ∀ failure, .failed entry.segment failure ∉ taken := by
  have hi : entry.segment < segments := h.segment_lt entry (by simp [pop.queue])
  obtain ⟨taken, hsplit, hitems, hfail⟩ := h.split running _ hi
  rw [State.rest_of_pop pop.queue pop.readers, if_pos rfl] at hsplit
  exact ⟨hi, taken, hsplit, hitems, hfail⟩

/-- Nothing is left of a segment exactly when its marker has been taken. -/
theorem Invariant.rest_isEmpty (h : Invariant source segments capacity s)
    (ordinary : Ordinary source segments) (running : s.status = .running) (pop : Popped s entry t) :
    (t.rest source entry.segment).isEmpty = entry.isMarker := by
  obtain ⟨hi, taken, hsplit, -, -⟩ := h.first running pop
  rcases rest_of_split (ordinary _ hi) hsplit with ⟨h', -⟩ | ⟨items, -, h'⟩
  · cases h'
  · cases items with
    | nil =>
      obtain ⟨hentry, hrest⟩ : entry = marker _ _ ∧ t.rest source entry.segment = [] := by
        simpa using h'
      rw [hrest, hentry, marker_isMarker]
      rfl
    | cons a items =>
      obtain ⟨hentry, hrest⟩ := List.cons.inj h'
      rw [hrest, hentry]
      simp [Entry.isMarker]

theorem Invariant.split_of_pop (h : Invariant source segments capacity s)
    (running : s.status = .running) (pop : Popped s entry t)
    (sound : ∀ failure, entry ≠ .failed entry.segment failure) :
    ∀ i < segments, ∃ taken, entriesFrom i (source i) 0 = taken ++ t.rest source i ∧
      taken.filterMap Entry.item? = t.yieldedOf i ∧ ∀ failure, .failed i failure ∉ taken := by
  intro i hi
  by_cases hseg : entry.segment = i
  · subst hseg
    obtain ⟨-, taken, hsplit, hitems, hfail⟩ := h.first running pop
    refine ⟨taken ++ [entry], by simpa using hsplit, ?_, ?_⟩
    · simp only [State.yieldedOf, pop.yielded, List.filterMap_append, hitems]
      cases hitem : entry.item? <;> simp [hitem]
    · intro failure hmem
      rcases List.mem_append.mp hmem with hmem | hmem
      · exact hfail failure hmem
      · exact sound failure (List.mem_singleton.mp hmem).symm
  · obtain ⟨taken, hsplit, hitems, hfail⟩ := h.split running i hi
    rw [State.rest_of_pop pop.queue pop.readers, if_neg hseg] at hsplit
    refine ⟨taken, hsplit, ?_, hfail⟩
    simp only [State.yieldedOf, pop.yielded, hitems]
    cases entry.item? <;> simp [hseg]

theorem countP_range_add {n i : Nat} (hi : i < n) {p q : Nat → Bool}
    (same : ∀ j, j ≠ i → p j = q j) (hp : p i = true) (hq : q i = false) :
    (List.range n).countP p = (List.range n).countP q + 1 := by
  induction n with
  | zero => omega
  | succ n ih =>
    simp only [List.range_succ, List.countP_append, List.countP_singleton]
    by_cases hn : i = n
    · subst hn
      have hrest : (List.range i).countP p = (List.range i).countP q :=
        List.countP_congr fun j hj => by
          rw [same j (by have := List.mem_range.mp hj; omega)]
      simp [hrest, hp, hq]
    · rw [ih (by omega), same n (fun e => hn e.symm)]
      omega

theorem Invariant.remaining_of_pop (h : Invariant source segments capacity s)
    (ordinary : Ordinary source segments) (running : s.status = .running) (pop : Popped s entry t) :
    s.remaining = ((List.range segments).countP fun i => !(t.rest source i).isEmpty) +
      if entry.isMarker then 1 else 0 := by
  have hrest (j : Nat) : s.rest source j =
      if entry.segment = j then entry :: t.rest source j else t.rest source j :=
    State.rest_of_pop pop.queue pop.readers j
  have hlast := h.rest_isEmpty ordinary running pop
  have hfirst : (s.rest source entry.segment).isEmpty = false := by
    rw [hrest, if_pos rfl]; rfl
  have hother : ∀ j, j ≠ entry.segment → s.rest source j = t.rest source j := by
    intro j hj
    rw [hrest, if_neg (Ne.symm hj)]
  -- Only a marker empties the rest of its segment.
  rw [h.remaining_eq running]
  cases hm : entry.isMarker with
  | true =>
    rw [hm] at hlast
    exact countP_range_add (h.first running pop).1 (fun j hj => by rw [hother j hj])
      (by simp [hfirst]) (by simp [hlast])
  | false =>
    rw [hm] at hlast
    apply List.countP_congr
    intro j _
    by_cases hj : j = entry.segment
    · subst hj; simp [hfirst, hlast]
    · rw [hother j hj]

theorem Invariant.of_pop (h : Invariant source segments capacity s)
    (ordinary : Ordinary source segments) (running : s.status = .running) (pop : Popped s entry t)
    (sound : ∀ failure, entry ≠ .failed entry.segment failure)
    (remaining : t.remaining = s.remaining - if entry.isMarker then 1 else 0)
    (more : 0 < t.remaining) : Invariant source segments capacity t := by
  have hstatus : t.status = .running := pop.status.trans running
  refine ⟨h.toBounded.of_pop pop, fun _ => h.split_of_pop running pop sound, ?_, fun _ => more,
    ?_, ?_⟩
  · intro _
    rw [remaining, h.remaining_of_pop ordinary running pop]
    omega
  · intro hend; rw [hstatus] at hend; cases hend
  · intro f hf; rw [hstatus] at hf; cases hf

/-- When the last marker has been taken, nothing is left of any segment. -/
theorem Invariant.rest_of_last (h : Invariant source segments capacity s)
    (ordinary : Ordinary source segments) (running : s.status = .running) (pop : Popped s entry t)
    (none_left : s.remaining = if entry.isMarker then 1 else 0) :
    ∀ i < segments, t.rest source i = [] := by
  intro i hi
  have hcount := h.remaining_of_pop ordinary running pop
  have hzero : ((List.range segments).countP fun i => !(t.rest source i).isEmpty) = 0 := by omega
  simpa using List.countP_eq_zero.mp hzero i (List.mem_range.mpr hi)

/-- When nothing is left of any segment, the consumer has got every item of every stream. -/
theorem Invariant.all_yielded (h : Invariant source segments capacity s)
    (ordinary : Ordinary source segments) (running : s.status = .running) (pop : Popped s entry t)
    (sound : ∀ failure, entry ≠ .failed entry.segment failure)
    (none_left : s.remaining = if entry.isMarker then 1 else 0) :
    ∀ i < segments, t.yieldedOf i = (source i).items ∧ (source i).failure = none := by
  intro i hi
  have hempty := h.rest_of_last ordinary running pop none_left i hi
  obtain ⟨taken, hsplit, hitems, hfail⟩ := h.split_of_pop running pop sound i hi
  rcases rest_of_split (ordinary i hi) hsplit with ⟨-, htaken⟩ | ⟨items, -, hrest⟩
  · subst htaken
    refine ⟨by rw [← hitems, filterMap_item?_entries], ?_⟩
    cases hf : (source i).failure with
    | none => rfl
    | some failure => exact absurd (by simp [marker, hf]) (hfail failure)
  · rw [hrest] at hempty
    simp at hempty

/-- A failure marker stands behind all items of its segment. -/
theorem Invariant.of_failed (h : Invariant source segments capacity s)
    (ordinary : Ordinary source segments) (running : s.status = .running) {i : Nat}
    {failure : Failure} (pop : Popped s (.failed i failure) t) :
    i < segments ∧ (source i).failure = some failure ∧ t.yieldedOf i = (source i).items := by
  obtain ⟨hi, taken, hsplit, hitems, -⟩ := h.first running pop
  simp only [Entry.segment] at hi hsplit hitems
  refine ⟨hi, ?_⟩
  rcases rest_of_split (ordinary _ hi) hsplit with ⟨hnone, -⟩ | ⟨items, htaken, hrest⟩
  · cases hnone
  · cases items with
    | cons a items => cases hrest
    | nil =>
      obtain ⟨hmarker, -⟩ := List.cons.inj hrest
      rw [List.map_nil, List.append_nil] at htaken
      constructor
      · unfold marker at hmarker
        split at hmarker
        · next cause hf =>
          cases hmarker
          exact hf
        · cases hmarker
      · rw [yieldedOf_congr pop.yielded, ← hitems, htaken, filterMap_item?_items]

theorem Invariant.take (h : Invariant source segments capacity s)
    (ordinary : Ordinary source segments) (running : s.status = .running)
    (nonempty : s.queue.isEmpty = false) : Invariant source segments capacity s.take := by
  have hpos := h.remaining_pos running
  have taken := taken_of_take nonempty
  generalize s.take = t at taken
  cases taken with
  | @going entry _ pop sound remaining more =>
    refine h.of_pop ordinary running pop sound remaining ?_
    cases hm : entry.isMarker with
    | true => exact more hm
    | false =>
      rw [remaining, hm]
      exact hpos
  | last pop none_left =>
    refine (h.toBounded.of_pop pop).shut (by simp) (fun _ => ?_) (fun f hf => by cases hf)
    refine h.all_yielded ordinary running pop (by simp) ?_
    simp only [Entry.isMarker, if_true]
    omega
  | failed pop =>
    refine (h.toBounded.of_pop pop).shut (by simp) (fun hend => by cases hend) ?_
    rintro _ ⟨⟩
    obtain ⟨hi, hcause, -⟩ := h.of_failed ordinary running pop
    exact ⟨_, hi, _, hcause, by rw [State.total, h.total]⟩

theorem step_preserves_invariant (ordinary : Ordinary source segments) {e : Event α} {t : State α}
    (h : Invariant source segments capacity s) (step : Step source s e t) :
    Invariant source segments capacity t := by
  obtain ⟨enabled, follows⟩ := step
  cases e with
  | read i answer =>
    obtain ⟨r, hr, reading⟩ := State.isReading_iff.mp enabled.2
    rw [State.next, follows r hr]
    exact h.read (State.isRunning_iff.mp enabled.1) hr reading
  | put i =>
    obtain ⟨entry, offered⟩ := Option.isSome_iff_exists.mp enabled.2.1
    exact h.put (State.isRunning_iff.mp enabled.1) offered enabled.2.2
  | take => exact h.take ordinary (State.isRunning_iff.mp enabled.1) enabled.2
  | close =>
    exact h.toBounded.shut (by simp) (fun hend => by cases hend) (fun f hf => by cases hf)

theorem perm_flatMap_segments {n : Nat} {yielded : List (Nat × α)} (lt : ∀ y ∈ yielded, y.1 < n) :
    (yielded.map (·.2)).Perm
      ((List.range n).flatMap fun i => (yielded.filter fun y => y.1 = i).map (·.2)) := by
  induction n generalizing yielded with
  | zero =>
    cases yielded with
    | nil => rfl
    | cons y yielded => exact absurd (lt y (by simp)) (Nat.not_lt_zero _)
  | succ n ih =>
    have hlt : ∀ y ∈ yielded.filter fun y => !decide (y.1 = n), y.1 < n := by
      intro y hy
      obtain ⟨hmem, hne⟩ := List.mem_filter.mp hy
      have := lt y hmem
      simp only [Bool.not_eq_true', decide_eq_false_iff_not] at hne
      omega
    have hlow := ih hlt
    have hsame : ∀ i ∈ List.range n,
        ((yielded.filter fun y => !decide (y.1 = n)).filter fun y => y.1 = i) =
          yielded.filter fun y => y.1 = i := by
      intro i hi
      have := List.mem_range.mp hi
      rw [List.filter_filter]
      apply List.filter_congr
      intro y _
      by_cases hy : y.1 = i
      · simp only [hy, decide_true, Bool.true_and, Bool.not_eq_true', decide_eq_false_iff_not]
        omega
      · simp [hy]
    rw [List.range_succ, List.flatMap_append, List.flatMap_singleton]
    refine ((List.filter_append_perm (fun y => decide (y.1 = n)) yielded).map (·.2)).symm.trans ?_
    rw [List.map_append]
    refine List.perm_append_comm.trans (List.Perm.append_right _ (hlow.trans ?_))
    rw [List.flatMap_congr fun i hi => by rw [hsame i hi]]

theorem Bounded.yielded_segments (h : Bounded source segments capacity s) :
    (s.yielded.map (·.2)).Perm ((List.range segments).flatMap fun i => s.yieldedOf i) := by
  have hlt : ∀ y ∈ s.yielded.reverse, y.1 < segments :=
    fun y hy => h.yielded_lt y (List.mem_reverse.mp hy)
  have hperm := perm_flatMap_segments hlt
  rw [List.map_reverse] at hperm
  exact (List.reverse_perm _).symm.trans hperm

theorem Invariant.yielded_perm (h : Invariant source segments capacity s)
    (ended : s.status = .ended) :
    (s.yielded.map (·.2)).Perm ((List.range segments).flatMap fun i => (source i).items) := by
  have hall := List.flatMap_congr fun i hi => (h.ended ended i (List.mem_range.mp hi)).1
  exact h.yielded_segments.trans (.of_eq hall)

theorem Invariant.yieldedOf_prefix (h : Invariant source segments capacity s)
    (ordinary : Ordinary source segments) (running : s.status = .running) {i : Nat}
    (hi : i < segments) : s.yieldedOf i <+: (source i).items := by
  obtain ⟨taken, hsplit, hitems, -⟩ := h.split running i hi
  have hall := congrArg (List.filterMap Entry.item?) hsplit
  rw [entriesFrom_zero (ordinary i hi), filterMap_item?_entries, List.filterMap_append,
    hitems] at hall
  rw [hall]
  exact List.prefix_append _ _

/-- Until the scan has ended, the consumer has got some of the items and no other. -/
theorem Invariant.yielded_subperm (h : Invariant source segments capacity s)
    (ordinary : Ordinary source segments) (going : s.status = .running ∨ s.status = .ended) :
    (s.yielded.map (·.2)).Subperm ((List.range segments).flatMap fun i => (source i).items) := by
  refine h.yielded_segments.subperm_right.mpr (List.Sublist.subperm ?_)
  refine List.Sublist.flatMap_right _ ?_
  intro i hi
  have hi := List.mem_range.mp hi
  rcases going with running | ended
  · exact (h.yieldedOf_prefix ordinary running hi).sublist
  · rw [(h.ended ended i hi).1]

/-- A running scan whose queue is empty has a reader at work. -/
theorem Invariant.reader_at_work (h : Invariant source segments capacity s)
    (running : s.status = .running) (empty : s.queue.isEmpty = true) :
    ∃ i, s.isReading i = true ∨ (s.offered? i).isSome = true := by
  have hpos := h.remaining_pos running
  rw [h.remaining_eq running] at hpos
  obtain ⟨i, -, hi⟩ := List.countP_pos_iff.mp hpos
  refine ⟨i, ?_⟩
  have hqueue : s.queue = [] := List.isEmpty_iff.mp empty
  simp only [State.rest, State.queued, hqueue, List.filter_nil, List.nil_append, State.ahead] at hi
  cases hr : s.readers[i]? with
  | none => simp [hr] at hi
  | some r =>
    rw [hr] at hi
    cases hphase : r.phase with
    | reading => exact .inl (State.isReading_iff.mpr ⟨r, hr, hphase⟩)
    | offering entry =>
      exact .inr (by rw [State.offered?_eq_some_iff.mpr ⟨r, hr, hphase⟩]; rfl)
    | finished => simp [Reader.ahead, hphase] at hi
    | stopped => simp [Reader.ahead, hphase] at hi

end Preservation

end Rekey.Scan
