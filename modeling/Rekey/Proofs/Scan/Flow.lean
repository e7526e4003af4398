import Rekey.Proofs.Scan.Conservation

/-! # How far the readers are ahead

Whatever the store answers, an item that has been read is with the consumer, stands in the queue, or
is the one item for which its reader needs room. Once the scan is over nobody reads. -/
namespace Rekey.Scan

variable {α : Type}

/-- What a reader holds until there is room for it. -/
def Reader.inHand (r : Reader α) : List α :=
  match r.phase with
  | .offering entry => entry.item?.toList
  | .reading | .finished | .stopped => []

namespace State

def produced (s : State α) : List α := s.readers.flatMap (·.produced)

def onTheWay (s : State α) : List α :=
  s.queue.filterMap Entry.item? ++ s.readers.flatMap Reader.inHand

/-- Nothing that was read has been dropped. -/
def Kept (s : State α) : Prop := s.produced.Perm (s.yielded.map (·.2) ++ s.onTheWay)

end State

/-- What holds of a scan at any time, whatever the store answers. -/
structure Flow (segments capacity : Nat) (s : State α) : Prop where
  total : s.readers.length = segments
  capacity_eq : s.capacity = capacity
  queue_le : s.queue.length ≤ capacity
  kept : s.status = .running → s.Kept
  ahead : ∃ left, s.produced.Perm (s.yielded.map (·.2) ++ left) ∧ left.length ≤ capacity + segments
  halted : s.status ≠ .running → ∀ r ∈ s.readers, r.isLive = false

theorem Flow.produced_le {segments capacity : Nat} {s : State α} (h : Flow segments capacity s) :
    s.produced.length ≤ s.yielded.length + capacity + segments := by
  obtain ⟨left, perm, bound⟩ := h.ahead
  rw [perm.length_eq, List.length_append, List.length_map]
  omega

theorem Flow.yielded_subperm {segments capacity : Nat} {s : State α}
    (h : Flow segments capacity s) : (s.yielded.map (·.2)).Subperm s.produced := by
  obtain ⟨left, perm, -⟩ := h.ahead
  exact (List.sublist_append_left _ _).subperm.trans perm.symm.subperm

section Readers
variable {readers : List (Reader α)} {i : Nat} {r : Reader α}

theorem split_at (hr : readers[i]? = some r) : ∃ before after, readers = before ++ r :: after ∧
    ∀ r', readers.set i r' = before ++ r' :: after := by
  obtain ⟨hi, rfl⟩ := List.getElem?_eq_some_iff.mp hr
  refine ⟨readers.take i, readers.drop (i + 1), ?_, fun r' =>
    List.set_eq_take_append_cons_drop.trans (if_pos hi)⟩
  rw [← List.drop_eq_getElem_cons hi, List.take_append_drop]

/-- Only the part of one reader changes. -/
theorem flatMap_set (hr : readers[i]? = some r) (f : Reader α → List α) :
    ∃ others, (readers.flatMap f).Perm (f r ++ others) ∧
      ∀ r', ((readers.set i r').flatMap f).Perm (f r' ++ others) := by
  obtain ⟨before, after, hreaders, hset⟩ := split_at hr
  have middle : ∀ x, ((before ++ x :: after).flatMap f).Perm
      (f x ++ (before.flatMap f ++ after.flatMap f)) := by
    intro x
    rw [List.flatMap_append, List.flatMap_cons, ← List.append_assoc, ← List.append_assoc]
    exact List.perm_append_comm.append_right _
  refine ⟨before.flatMap f ++ after.flatMap f, ?_, fun r' => ?_⟩
  · rw [hreaders]
    exact middle r
  · rw [hset r']
    exact middle r'

theorem inHand_length (r : Reader α) : r.inHand.length ≤ 1 := by
  unfold Reader.inHand
  split
  · next entry _ => cases entry <;> simp [Entry.item?]
  all_goals simp

theorem stop_isLive (r : Reader α) : r.stop.isLive = false := by
  unfold Reader.stop
  split
  · next h => simp [Reader.isLive, h]
  · rfl

end Readers

section Preservation
variable {segments capacity : Nat} {s t : State α}

theorem onTheWay_length (s : State α) :
    s.onTheWay.length ≤ s.queue.length + s.readers.length := by
  have hqueue := List.length_filterMap_le Entry.item? s.queue
  have hhands : (s.readers.flatMap Reader.inHand).length ≤ s.readers.length := by
    induction s.readers with
    | nil => exact Nat.le_refl _
    | cons r readers ih =>
      have := inHand_length r
      rw [List.flatMap_cons, List.length_append, List.length_cons]
      omega
  rw [State.onTheWay, List.length_append]
  omega

theorem produced_congr (same : t.readers.map (·.produced) = s.readers.map (·.produced)) :
    t.produced = s.produced := by
  rw [State.produced, State.produced, List.flatMap_def, List.flatMap_def, same]

theorem start_flow (segments capacity : Nat) :
    Flow segments capacity (start segments capacity : State α) := by
  have hproduced : (start segments capacity : State α).produced = [] := by
    simp [start, State.produced, List.flatMap_replicate]
  have hway : (start segments capacity : State α).onTheWay = [] := by
    simp [start, State.onTheWay, Reader.inHand, List.flatMap_replicate]
  constructor
  · simp [start]
  · rfl
  · exact Nat.zero_le _
  · intro _
    rw [State.Kept, hproduced, hway]
    rfl
  · exact ⟨[], by rw [hproduced]; rfl, Nat.zero_le _⟩
  · exact fun stopped => absurd rfl stopped

/-- While the scan is running, all that is ahead is on the way. -/
theorem Flow.of_kept (h : Flow segments capacity s) (total : t.readers.length = s.readers.length)
    (capacity_eq : t.capacity = s.capacity) (status : t.status = .running)
    (queue_le : t.queue.length ≤ capacity) (kept : t.Kept) : Flow segments capacity t := by
  refine ⟨total.trans h.total, capacity_eq.trans h.capacity_eq, queue_le, fun _ => kept, ?_,
    fun stopped => absurd status stopped⟩
  have := onTheWay_length t
  exact ⟨t.onTheWay, kept, by rw [total, h.total] at this; omega⟩

theorem Flow.shut (h : Flow segments capacity s) {status : Status} (stopped : status ≠ .running) :
    Flow segments capacity (s.shut status) := by
  have hproduced := produced_congr (State.shut_produced s status)
  refine ⟨by simpa [State.shut] using h.total, h.capacity_eq, h.queue_le,
    fun running => absurd running stopped, ?_, fun _ => ?_⟩
  · rw [hproduced]
    exact h.ahead
  · intro r hr
    obtain ⟨r', -, rfl⟩ := List.mem_map.mp hr
    exact stop_isLive r'

/-- What an answer gives goes into the hand of its reader, and nothing else moves. -/
theorem read_reader {i : Nat} {r : Reader α} (hr : s.readers[i]? = some r) (answer : Answer α) :
    ∃ r' items, (s.read i answer).readers = s.readers.set i r' ∧
      r'.produced = items ++ r.produced ∧ r'.inHand = items := by
  unfold State.read
  simp only [hr]
  cases answer with
  | item a => exact ⟨_, [a], rfl, rfl, rfl⟩
  | exhausted => exact ⟨_, [], rfl, rfl, rfl⟩
  | failed failure =>
    refine ⟨_, [], rfl, rfl, ?_⟩
    cases hf : failure.isOrdinary <;> simp [Entry.ofAnswer?, Reader.inHand, Entry.item?, hf]

theorem Flow.read (h : Flow segments capacity s) (running : s.status = .running) {i : Nat}
    (reading : s.isReading i = true) (answer : Answer α) :
    Flow segments capacity (s.read i answer) := by
  obtain ⟨r, hr, hphase⟩ := State.isReading_iff.mp reading
  refine h.of_kept (by simp) (by simp) (by simpa using running) (by simpa using h.queue_le) ?_
  obtain ⟨r', items, hreaders, hitems, hhand⟩ := read_reader hr answer
  obtain ⟨others, hold, hnew⟩ := flatMap_set hr (·.produced)
  obtain ⟨hands, hempty, hheld⟩ := flatMap_set hr Reader.inHand
  rw [show r.inHand = [] by simp [Reader.inHand, hphase], List.nil_append] at hempty
  have hkept := h.kept running
  unfold State.Kept State.produced State.onTheWay at hkept ⊢
  rw [hreaders, State.read_yielded, State.read_queue]
  have hmore := hnew r'
  have hfull := hheld r'
  rw [hitems, List.append_assoc] at hmore
  rw [hhand] at hfull
  refine hmore.trans (((hold.symm.trans hkept).append_left items).trans ?_)
  refine (List.perm_append_comm_assoc _ _ _).trans (List.Perm.append_left _ ?_)
  refine (List.perm_append_comm_assoc _ _ _).trans (List.Perm.append_left _ ?_)
  exact (hempty.append_left items).trans hfull.symm

theorem Flow.put (h : Flow segments capacity s) (running : s.status = .running) {i : Nat}
    (offered : (s.offered? i).isSome = true) (room : s.hasRoom = true) :
    Flow segments capacity (s.put i) := by
  obtain ⟨entry, hentry⟩ := Option.isSome_iff_exists.mp offered
  obtain ⟨r, hr, hphase⟩ := State.offered?_eq_some_iff.mp hentry
  have hput : (s.put i).queue = s.queue ++ [entry] := by simp [State.put, hr, hentry]
  have hroom : s.queue.length < capacity := by
    simpa [State.hasRoom, h.capacity_eq] using room
  refine h.of_kept (by simp) (by simp) (by simpa using running) (by simp [hput]; omega) ?_
  have hkept := h.kept running
  obtain ⟨hands, hold, hset⟩ := flatMap_set hr Reader.inHand
  unfold State.Kept at hkept ⊢
  rw [produced_congr (State.put_produced s i), State.put_yielded]
  refine hkept.trans (List.Perm.append_left _ ?_)
  unfold State.onTheWay
  rw [hput, List.filterMap_append, List.append_assoc]
  refine List.Perm.append_left _ (hold.trans ?_)
  have hoffer : r.inHand = [entry].filterMap Entry.item? := by
    simp only [Reader.inHand, hphase]
    cases h : entry.item? <;> simp [h]
  rw [hoffer]
  refine List.Perm.append_left _ ?_
  unfold State.put
  simp only [hr, hentry]
  refine List.Perm.symm ((hset _).trans (.of_eq ?_))
  cases entry.isMarker <;> rfl

theorem Flow.take (h : Flow segments capacity s) (running : s.status = .running) :
    Flow segments capacity s.take := by
  have hkept := h.kept running
  have hle := h.queue_le
  unfold State.Kept State.onTheWay at hkept
  unfold State.take
  split
  · exact h
  · next i a queue hq =>
    rw [hq, List.length_cons] at hle
    refine h.of_kept rfl rfl running (by dsimp only; omega) ?_
    rw [hq] at hkept
    exact hkept.trans List.perm_middle
  · next i queue hq =>
    rw [hq, List.length_cons] at hle
    rw [hq] at hkept
    have hpopped : Flow segments capacity
        { s with queue := queue, remaining := s.remaining - 1 } :=
      h.of_kept rfl rfl running (by dsimp only; omega) hkept
    dsimp only
    split
    · exact hpopped.shut (by simp)
    · exact hpopped
  · next i failure queue hq =>
    rw [hq, List.length_cons] at hle
    rw [hq] at hkept
    refine Flow.shut ?_ (by simp)
    exact h.of_kept rfl rfl running (by dsimp only; omega) hkept

theorem enabled_preserves_flow (h : Flow segments capacity s) {e : Event α}
    (enabled : s.Enabled e) : Flow segments capacity (s.next e) := by
  cases e with
  | read i answer => exact h.read (State.isRunning_iff.mp enabled.1) enabled.2 answer
  | put i => exact h.put (State.isRunning_iff.mp enabled.1) enabled.2.1 enabled.2.2
  | take => exact h.take (State.isRunning_iff.mp enabled.1)
  | close => exact h.shut (by simp)

end Preservation

end Rekey.Scan
