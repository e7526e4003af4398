import Rekey.Proofs.Scan.Flow
import Rekey.Proofs.Trace

/-! # Segments merged

At any time the consumer has been given a first part of each segment, in the order of the segment. A
scan that ends has given all of them, and each reader has logged its end; one that fails has given
all of the segment that failed. -/
namespace Rekey.Scan

variable {α : Type} {source : Nat → Stream α} {segments capacity : Nat} {s t : State α}

/-- The reader has come to the end of its segment. -/
def Reader.hasEnded (r : Reader α) : Bool :=
  match r.phase with
  | .offering entry => entry.isMarker
  | .finished => true
  | .reading | .stopped => false

/-- The log line of a segment read to its end. -/
def endLine (source : Nat → Stream α) (segments segment : Nat) : Notice :=
  .segmentExhausted segment segments (source segment).items.length

/-- The lines of a running scan none of whose segments fails. -/
structure Lines (source : Nat → Stream α) (segments : Nat) (s : State α) : Prop where
  unstopped : ∀ r ∈ s.readers, r.phase ≠ .stopped
  logged : ∃ order : List Nat, order.Nodup ∧ s.notices = order.map (endLine source segments) ∧
    ∀ i, i ∈ order ↔ ∃ r, s.readers[i]? = some r ∧ r.hasEnded = true

section Lines

theorem start_lines (source : Nat → Stream α) (segments capacity : Nat) :
    Lines source segments (start segments capacity) := by
  have hreading : ∀ r ∈ (start segments capacity : State α).readers, r.phase = .reading := by
    intro r mem
    rw [List.eq_of_mem_replicate mem]
  constructor
  · intro r mem
    rw [hreading r mem]
    simp
  · refine ⟨[], List.nodup_nil, rfl, fun i => ⟨by simp, ?_⟩⟩
    rintro ⟨r, hr, ended⟩
    simp [Reader.hasEnded, hreading r (List.mem_of_getElem? hr)] at ended

theorem Lines.congr (h : Lines source segments s) (readers : t.readers = s.readers)
    (notices : t.notices = s.notices) : Lines source segments t := by
  constructor
  · rw [readers]
    exact h.unstopped
  · rw [readers, notices]
    exact h.logged

theorem Lines.unstopped_of_set (h : Lines source segments s) {i : Nat} {r' : Reader α}
    (readers : t.readers = s.readers.set i r') (unstopped : r'.phase ≠ .stopped) :
    ∀ r ∈ t.readers, r.phase ≠ .stopped := by
  intro r mem
  rw [readers] at mem
  rcases List.mem_or_eq_of_mem_set mem with mem | rfl
  · exact h.unstopped r mem
  · exact unstopped

/-- A reader moves on without coming to its end. -/
theorem Lines.of_set (h : Lines source segments s) {i : Nat} {r r' : Reader α}
    (hr : s.readers[i]? = some r) (readers : t.readers = s.readers.set i r')
    (unstopped : r'.phase ≠ .stopped) (same : r'.hasEnded = r.hasEnded)
    (notices : t.notices = s.notices) : Lines source segments t := by
  refine ⟨h.unstopped_of_set readers unstopped, ?_⟩
  obtain ⟨order, nodup, hlines, hmem⟩ := h.logged
  refine ⟨order, nodup, notices.trans hlines, fun j => (hmem j).trans ?_⟩
  obtain ⟨hi, -⟩ := List.getElem?_eq_some_iff.mp hr
  rw [readers]
  by_cases hj : j = i
  · subst hj
    simp [hr, List.getElem?_set_self hi, same]
  · rw [List.getElem?_set_ne (Ne.symm hj)]

/-- A reader comes to the end of its segment, and logs that. -/
theorem Lines.of_end (h : Lines source segments s) {i : Nat} {r r' : Reader α}
    (hr : s.readers[i]? = some r) (before : r.hasEnded = false)
    (readers : t.readers = s.readers.set i r') (unstopped : r'.phase ≠ .stopped)
    (after : r'.hasEnded = true) (notices : t.notices = endLine source segments i :: s.notices) :
    Lines source segments t := by
  refine ⟨h.unstopped_of_set readers unstopped, ?_⟩
  obtain ⟨order, nodup, hlines, hmem⟩ := h.logged
  obtain ⟨hi, -⟩ := List.getElem?_eq_some_iff.mp hr
  have fresh : i ∉ order := by
    intro mem
    obtain ⟨x, hx, ended⟩ := (hmem i).mp mem
    obtain rfl := Option.some.inj (hr.symm.trans hx)
    rw [before] at ended
    cases ended
  refine ⟨i :: order, List.nodup_cons.mpr ⟨fresh, nodup⟩, ?_, fun j => ?_⟩
  · rw [notices, hlines, List.map_cons]
  · rw [List.mem_cons, hmem, readers]
    by_cases hj : j = i
    · subst hj
      simp [List.getElem?_set_self hi, after]
    · rw [List.getElem?_set_ne (Ne.symm hj)]
      simp [hj]

theorem Lines.read (h : Lines source segments s) (inv : Invariant source segments capacity s)
    (normal : ∀ i < segments, (source i).failure = none) {i : Nat} {r : Reader α}
    (hr : s.readers[i]? = some r) (reading : r.phase = .reading) :
    Lines source segments (s.read i ((source i).answer r.produced.length)) := by
  have hle : r.produced.length ≤ (source i).items.length := by
    simpa using (inv.produced i r hr).length_le
  have before : r.hasEnded = false := by simp [Reader.hasEnded, reading]
  rcases Nat.lt_or_eq_of_le hle with hlt | heq
  · rw [answer_of_lt hlt]
    have readers : (s.read i (.item (source i).items[r.produced.length])).readers =
        s.readers.set i ⟨.offering (.item i (source i).items[r.produced.length]),
          (source i).items[r.produced.length] :: r.produced⟩ := by
      simp only [State.read, hr]
      rfl
    apply h.of_set hr readers
    · simp
    · rw [before]
      rfl
    · simp only [State.read, hr]
  · have hanswer : (source i).answer r.produced.length = .exhausted := by
      rw [heq, answer_length_eq, normal i (inv.reader_lt hr)]
    rw [hanswer]
    have readers : (s.read i .exhausted).readers =
        s.readers.set i ⟨.offering (.done i), r.produced⟩ := by
      simp only [State.read, hr]
      rfl
    apply h.of_end hr before readers
    · simp
    · rfl
    · simp only [State.read, hr, endLine, State.total, inv.total, heq]

theorem Lines.put (h : Lines source segments s) {i : Nat} {entry : Entry α}
    (offered : s.offered? i = some entry) : Lines source segments (s.put i) := by
  obtain ⟨r, hr, offering⟩ := State.offered?_eq_some_iff.mp offered
  have readers : (s.put i).readers = s.readers.set i
      { r with phase := if entry.isMarker then .finished else .reading } := by
    simp only [State.put, hr, offered]
  apply h.of_set hr readers
  · split <;> simp
  · unfold Reader.hasEnded
    rw [offering]
    cases h : entry.isMarker <;> simp [h]
  · simp only [State.put, hr, offered]

/-- When nothing is left of any segment, each has been logged once. -/
theorem Lines.perm (h : Lines source segments s) (total : s.readers.length = segments)
    (normal : ∀ i < segments, (source i).failure = none)
    (none_ahead : ∀ i < segments, s.ahead source i = []) :
    s.notices.Perm ((List.range segments).map (endLine source segments)) := by
  obtain ⟨order, nodup, hlines, hmem⟩ := h.logged
  rw [hlines]
  refine List.Perm.map _ ((List.perm_ext_iff_of_nodup nodup List.nodup_range).mpr fun i => ?_)
  rw [hmem, List.mem_range]
  constructor
  · rintro ⟨r, hr, -⟩
    exact total ▸ (List.getElem?_eq_some_iff.mp hr).1
  · intro hi
    have hlt : i < s.readers.length := total ▸ hi
    have hr := List.getElem?_eq_getElem hlt
    refine ⟨_, hr, ?_⟩
    have hahead := none_ahead i hi
    have unstopped := h.unstopped _ (List.mem_of_getElem? hr)
    simp only [State.ahead, hr, Reader.ahead] at hahead
    unfold Reader.hasEnded
    split at hahead
    · rw [entriesFrom, answer_length_eq, normal i hi] at hahead
      simp [Entry.ofAnswer?] at hahead
    · cases hahead
    · next finished => rw [finished]
    · next stopped => exact absurd stopped unstopped

end Lines

/-- What a scan has come to after the events `moves`. -/
structure Merging (source : Nat → Stream α) (segments capacity : Nat)
    (moves : List (State α × Event α)) (s : State α) : Prop
    extends Invariant source segments capacity s where
  flow : Flow segments capacity s
  prefixes : ∀ i < segments, s.yieldedOf i <+: (source i).items
  lines : s.status = .running → (∀ i < segments, (source i).failure = none) →
    Lines source segments s
  logged : s.status = .ended →
    s.notices.Perm ((List.range segments).map (endLine source segments))
  drained : ∀ failure, s.status = .failed failure → ∃ i < segments, ∃ cause,
    (source i).failure = some cause ∧ failure = .because (.scan i segments cause) cause ∧
      s.yieldedOf i = (source i).items
  closed : s.status = .closed → ∃ m ∈ moves, m.2 = .close

section Merging
variable {moves : List (State α × Event α)}

theorem start_merging (positive : 0 < segments) (ordinary : Ordinary source segments) :
    Merging source segments capacity [] (start segments capacity) := by
  refine { start_invariant positive ordinary with
    flow := start_flow segments capacity
    prefixes := fun _ _ => List.nil_prefix
    lines := fun _ _ => start_lines source segments capacity
    logged := ?_, drained := ?_, closed := ?_ }
  all_goals simp [start]

/-- An event after which the scan is still running. -/
theorem Merging.of_running (running : t.status = .running) (ordinary : Ordinary source segments)
    (inv : Invariant source segments capacity t) (flow : Flow segments capacity t)
    (lines : (∀ i < segments, (source i).failure = none) → Lines source segments t) :
    Merging source segments capacity moves t := by
  refine { inv with
    flow := flow
    prefixes := fun _ hi => inv.yieldedOf_prefix ordinary running hi
    lines := fun _ => lines
    logged := ?_, drained := ?_, closed := ?_ }
  all_goals simp [running]

theorem Merging.take (h : Merging source segments capacity moves s)
    (ordinary : Ordinary source segments) (running : s.status = .running)
    (nonempty : s.queue.isEmpty = false) (inv : Invariant source segments capacity s.take)
    (flow : Flow segments capacity s.take) :
    Merging source segments capacity ((s, .take) :: moves) s.take := by
  have taken := taken_of_take nonempty
  generalize s.take = t at taken inv flow
  cases taken with
  | going pop _ _ _ notices =>
    have lines := h.lines running
    exact .of_running (pop.status.trans running) ordinary inv flow
      fun normal => (lines normal).congr pop.readers notices
  | @last i t pop none_left notices =>
    have ended := inv.ended rfl
    refine { inv with
      flow := flow
      prefixes := fun i hi => (ended i hi).1 ▸ List.prefix_rfl
      lines := fun going => by cases going
      logged := fun _ => ?_
      drained := fun _ failed => by cases failed
      closed := fun closed => by cases closed }
    have normal := fun i hi => (ended i hi).2
    have hpos := h.remaining_pos running
    have hrest := h.rest_of_last ordinary running pop (by
      simp only [Entry.isMarker, if_true]
      omega)
    refine ((h.lines running normal).congr pop.readers notices).perm ?_ normal fun i hi => ?_
    · rw [pop.readers, h.total]
    · exact (List.append_eq_nil_iff.mp (hrest i hi)).2
  | @failed i cause t pop =>
    obtain ⟨hi, hcause, hyielded⟩ := h.of_failed ordinary running pop
    refine { inv with
      flow := flow
      prefixes := fun j hj => ?_
      lines := fun going => by cases going
      logged := fun ended => by cases ended
      drained := ?_
      closed := fun closed => by cases closed }
    · exact (yieldedOf_congr pop.yielded j).symm ▸ h.prefixes j hj
    · rintro _ ⟨⟩
      exact ⟨i, hi, cause, hcause, by rw [State.total, h.total], hyielded⟩

theorem step_preserves_merging (h : Merging source segments capacity moves s)
    (ordinary : Ordinary source segments) {e : Event α} (step : Step source s e t) :
    Merging source segments capacity ((s, e) :: moves) t := by
  have inv := step_preserves_invariant ordinary h.toInvariant step
  obtain ⟨enabled, follows⟩ := step
  have flow := enabled_preserves_flow h.flow enabled
  cases e with
  | read i answer =>
    have running := State.isRunning_iff.mp enabled.1
    obtain ⟨r, hr, reading⟩ := State.isReading_iff.mp enabled.2
    refine .of_running (by simpa [State.next] using running) ordinary inv flow fun normal => ?_
    rw [State.next, follows r hr]
    exact (h.lines running normal).read h.toInvariant normal hr reading
  | put i =>
    have running := State.isRunning_iff.mp enabled.1
    obtain ⟨entry, offered⟩ := Option.isSome_iff_exists.mp enabled.2.1
    exact .of_running (by simpa [State.next] using running) ordinary inv flow
      fun normal => (h.lines running normal).put offered
  | take => exact h.take ordinary (State.isRunning_iff.mp enabled.1) enabled.2 inv flow
  | close =>
    exact { inv with
      flow := flow
      prefixes := h.prefixes
      lines := fun going => by cases going
      logged := fun ended => by cases ended
      drained := fun _ failed => by cases failed
      closed := fun _ => ⟨_, List.mem_cons_self, rfl⟩ }

theorem trace_merging (positive : 0 < segments) (ordinary : Ordinary source segments)
    (trace : Trace (Step source) (start segments capacity) moves s) :
    Merging source segments capacity moves s :=
  trace.preserves (P := Merging source segments capacity) (start_merging positive ordinary)
    fun _ _ _ _ _ h step => step_preserves_merging h ordinary step

end Merging

/-- What a scan gives its consumer, in the state `s` and after the events `moves`. -/
structure Merges (source : Nat → Stream α) (segments capacity : Nat)
    (moves : List (State α × Event α)) (s : State α) : Prop where
  prefixes : ∀ i < segments, s.yieldedOf i <+: (source i).items
  tagged : ∀ y ∈ s.yielded, y.1 < segments
  queue_le : s.queue.length ≤ capacity
  produced : (s.yielded.map (·.2)).Subperm s.produced
  produced_le : s.produced.length ≤ s.yielded.length + capacity + segments
  ended : s.status = .ended → (∀ i < segments, (source i).failure = none) ∧
    (s.yielded.map (·.2)).Perm ((List.range segments).flatMap fun i => (source i).items) ∧
    s.notices.Perm ((List.range segments).map fun i =>
      .segmentExhausted i segments (source i).items.length)
  failed : ∀ failure, s.status = .failed failure → ∃ i < segments, ∃ cause,
    (source i).failure = some cause ∧ failure = .because (.scan i segments cause) cause ∧
      s.yieldedOf i = (source i).items ∧
      ∀ r, s.readers[i]? = some r → r.produced.reverse <+: s.yieldedOf i
  raised : (∃ i < segments, ∃ cause, (source i).failure = some cause) →
    (∀ m ∈ moves, m.2 ≠ .close) → s.status = .running ∨ ∃ failure, s.status = .failed failure
  stopped : s.status ≠ .running → (∀ r ∈ s.readers, r.isLive = false) ∧ ∀ e, ¬ s.Enabled e

theorem segments_merged {moves : List (State α × Event α)} (positive : 0 < segments)
    (ordinary : Ordinary source segments)
    (trace : Trace (Step source) (start segments capacity) moves s) :
    Merges source segments capacity moves s := by
  have h := trace_merging positive ordinary trace
  have normal : s.status = .ended → ∀ i < segments, (source i).failure = none :=
    fun ended i hi => (h.ended ended i hi).2
  constructor
  · exact h.prefixes
  · exact h.yielded_lt
  · exact h.queue_le
  · exact h.flow.yielded_subperm
  · exact h.flow.produced_le
  · exact fun ended => ⟨normal ended, h.yielded_perm ended, h.logged ended⟩
  · intro failure failed
    obtain ⟨i, hi, cause, hcause, heq, hyielded⟩ := h.drained failure failed
    refine ⟨i, hi, cause, hcause, heq, hyielded, fun r hr => ?_⟩
    rw [hyielded]
    exact h.produced i r hr
  · rintro ⟨i, hi, cause, hcause⟩ unclosed
    cases hs : s.status with
    | running => exact .inl rfl
    | ended =>
      have := normal hs i hi
      rw [hcause] at this
      cases this
    | failed failure => exact .inr ⟨failure, rfl⟩
    | closed =>
      obtain ⟨m, mem, hclose⟩ := h.closed hs
      exact absurd hclose (unclosed m mem)
  · intro stopped
    refine ⟨h.flow.halted stopped, fun e enabled => stopped (State.isRunning_iff.mp ?_)⟩
    cases e with
    | read | put | take => exact enabled.1
    | close => exact enabled

/-- Two segments, of which the second fails after an item. -/
def faultySource : Nat → Stream Nat
  | 0 => ⟨[1, 2], none⟩
  | _ => ⟨[3], some (.transient "busy" none)⟩

def faultyScanEvents : List (Event Nat) :=
  [.take, .put 1, .take, .read 1 (.failed (.transient "busy" none)), .put 1, .take,
    .read 1 (.item 3), .put 0, .read 0 (.item 1)]

def faultyScan : State Nat := Trace.reached State.next (start 2 1) faultyScanEvents

theorem faulty_segments_merged : ∃ moves,
    Trace (Step faultySource) (start 2 1) moves faultyScan ∧
      faultyScan.yielded.reverse = [(0, 1), (1, 3)] ∧ Merges faultySource 2 1 moves faultyScan := by
  have ordinary : Ordinary faultySource 2 := by
    rintro (_ | i) - failure failed
    · cases failed
    · cases failed
      decide
  have trace : Trace (Step faultySource) (start 2 1)
      (Trace.replay State.next (start 2 1) faultyScanEvents) faultyScan := by
    apply Trace.of_replays State.next
    refine ⟨⟨?_, ?_⟩, ⟨?_, ?_⟩, ⟨?_, ?_⟩, ⟨?_, ?_⟩, ⟨?_, ?_⟩, ⟨?_, ?_⟩, ⟨?_, ?_⟩, ⟨?_, ?_⟩,
      ⟨?_, ?_⟩, trivial⟩
    all_goals first | decide +kernel | exact trivial | (rintro r ⟨⟩; rfl)
  exact ⟨_, trace, by decide +kernel, segments_merged (by decide) ordinary trace⟩

end Rekey.Scan
