import Rekey.Proofs.Scan.Answers

/-! # A scan ends as its readers were told

Each reader that has finished has put one marker. A scan ends when it has taken as many end
markers as there are readers, so that all of them have come to the end, and none was broken off
without a marker. It fails by a failure marker, which names what its reader was told. -/
namespace Rekey.Scan

variable {α : Type}

/-- A scan that comes to its end after some items. -/
def Exhausts (answers : Nat → Answer α) : Prop :=
  ∃ n, (∀ k < n, ∃ a, answers k = .item a) ∧ answers n = .exhausted

def Reader.isFinished (r : Reader α) : Bool :=
  match r.phase with
  | .finished => true
  | .reading | .offering _ | .stopped => false

/-- What the markers of a scan say at any time is what its readers were told. -/
structure Marked (answers : Nat → Nat → Answer α) (segments : Nat) (s : State α) : Prop where
  total : s.readers.length = segments
  told : Told answers s
  offered : ∀ i r entry, s.readers[i]? = some r → r.phase = .offering entry →
    entry.isMarker = true → Entry.ofAnswer? i (answers i r.produced.length) = some entry
  queued : ∀ i failure, .failed i failure ∈ s.queue → i < segments ∧ Raises (answers i) failure
  finished : s.status = .running → ∀ i r, s.readers[i]? = some r → r.isFinished = true →
    Exhausts (answers i) ∨ ∃ failure, .failed i failure ∈ s.queue
  balance : s.status = .running →
    s.remaining + s.readers.countP Reader.isFinished = segments + s.queue.countP Entry.isMarker
  ended : s.status = .ended → ∀ i < segments, Exhausts (answers i)
  failed : ∀ failure, s.status = .failed failure → ∃ i < segments, ∃ cause,
    Raises (answers i) cause ∧ failure = .because (.scan i segments cause) cause

theorem Exhausts.not_raises {answers : Nat → Answer α} (h : Exhausts answers) (cause : Failure) :
    ¬ Raises answers cause := by
  rintro ⟨m, before, raised⟩
  obtain ⟨n, items, exhausted⟩ := h
  rcases Nat.lt_trichotomy m n with hlt | rfl | hgt
  · obtain ⟨a, ha⟩ := items m hlt
    rw [ha] at raised
    cases raised
  · rw [exhausted] at raised
    cases raised
  · obtain ⟨a, ha⟩ := before n hgt
    rw [ha] at exhausted
    cases exhausted

section Preservation
variable {answers : Nat → Nat → Answer α} {segments : Nat} {s : State α}

/-- While a scan is running it has not come out. -/
theorem Marked.of_running (running : s.status = .running) (total : s.readers.length = segments)
    (told : Told answers s)
    (offered : ∀ i r entry, s.readers[i]? = some r → r.phase = .offering entry →
      entry.isMarker = true → Entry.ofAnswer? i (answers i r.produced.length) = some entry)
    (queued : ∀ i failure, .failed i failure ∈ s.queue →
      i < segments ∧ Raises (answers i) failure)
    (finished : ∀ i r, s.readers[i]? = some r → r.isFinished = true →
      Exhausts (answers i) ∨ ∃ failure, .failed i failure ∈ s.queue)
    (balance : s.remaining + s.readers.countP Reader.isFinished =
      segments + s.queue.countP Entry.isMarker) : Marked answers segments s := by
  refine ⟨total, told, offered, queued, fun _ => finished, fun _ => balance, ?_, ?_⟩
  · intro ended
    rw [running] at ended
    cases ended
  · intro failure failed
    rw [running] at failed
    cases failed

theorem start_marked (answers : Nat → Nat → Answer α) (segments capacity : Nat) :
    Marked answers segments (start segments capacity) := by
  have hreading : ∀ (i : Nat) (r : Reader α),
      (start segments capacity : State α).readers[i]? = some r → r.phase = .reading := by
    intro i r hr
    obtain ⟨-, rfl⟩ : i < segments ∧ (⟨.reading, []⟩ : Reader α) = r := by
      simpa [start, List.getElem?_replicate] using hr
    rfl
  apply Marked.of_running rfl
  · simp [start]
  · exact start_told answers segments capacity
  · intro i r entry hr offering
    rw [hreading i r hr] at offering
    cases offering
  · simp [start]
  · intro i r hr finished
    simp [Reader.isFinished, hreading i r hr] at finished
  · simp [start, List.countP_replicate, Reader.isFinished]

theorem Marked.shut (h : Marked answers segments s) {status : Status} (stopped : status ≠ .running)
    (ended : status = .ended → ∀ i < segments, Exhausts (answers i))
    (failed : ∀ failure, status = .failed failure → ∃ i < segments, ∃ cause,
      Raises (answers i) cause ∧ failure = .because (.scan i segments cause) cause) :
    Marked answers segments (s.shut status) := by
  refine ⟨by simpa [State.shut] using h.total, h.told.congr (State.shut_produced s status), ?_,
    h.queued, fun running => absurd running stopped, fun running => absurd running stopped, ended,
    failed⟩
  intro i r entry hr offering
  simp only [State.shut, List.getElem?_map, Option.map_eq_some_iff] at hr
  obtain ⟨r', -, rfl⟩ := hr
  have := stop_isLive r'
  simp [Reader.isLive, offering] at this

/-- An answer finishes no reader. One that ends the segment leads to a marker. -/
theorem read_marker {i : Nat} {r : Reader α} (hr : s.readers[i]? = some r) (answer : Answer α) :
    ∃ r', (s.read i answer).readers = s.readers.set i r' ∧ r'.isFinished = false ∧
      ∀ entry, r'.phase = .offering entry → entry.isMarker = true →
        r'.produced = r.produced ∧ Entry.ofAnswer? i answer = some entry := by
  unfold State.read
  simp only [hr]
  refine ⟨_, rfl, ?_, fun entry offering marker => ?_⟩
  · cases Entry.ofAnswer? i answer <;> rfl
  · cases hentry : Entry.ofAnswer? i answer with
    | none => rw [hentry] at offering; cases offering
    | some entry' =>
      rw [hentry] at offering
      cases offering
      cases answer with
      | item a => cases hentry; cases marker
      | exhausted | failed => exact ⟨rfl, rfl⟩

theorem Marked.read (h : Marked answers segments s) (running : s.status = .running) {i : Nat}
    {r : Reader α} (hr : s.readers[i]? = some r) (reading : r.phase = .reading) :
    Marked answers segments (s.read i (answers i r.produced.length)) := by
  obtain ⟨r', hreaders, hunfinished, hoffer⟩ := read_marker hr (answers i r.produced.length)
  refine .of_running (by simpa using running) (by simpa using h.total) (h.told.read hr) ?_
    (by simpa using h.queued) ?_ ?_
  · intro j x entry hx offering marker
    rw [hreaders] at hx
    rcases State.reader_of_set hr hx with ⟨rfl, rfl⟩ | ⟨-, hx⟩
    · obtain ⟨hproduced, hentry⟩ := hoffer entry offering marker
      rw [hproduced, hentry]
    · exact h.offered j x entry hx offering marker
  · intro j x hx finished
    rw [hreaders] at hx
    rw [State.read_queue]
    rcases State.reader_of_set hr hx with ⟨rfl, rfl⟩ | ⟨-, hx⟩
    · rw [hunfinished] at finished
      cases finished
    · exact h.finished running j x hx finished
  · obtain ⟨hi, rfl⟩ := List.getElem?_eq_some_iff.mp hr
    have hbefore : s.readers[i].isFinished = false := by
      rw [Reader.isFinished, reading]
    rw [State.read_remaining, State.read_queue, hreaders, List.countP_set hi, hbefore, hunfinished]
    exact h.balance running

/-- A marker in the hand of a reader says what the reader was told. -/
theorem Marked.offer (h : Marked answers segments s) {i : Nat} {r : Reader α} {entry : Entry α}
    (hr : s.readers[i]? = some r) (offering : r.phase = .offering entry)
    (marker : entry.isMarker = true) :
    (entry = .done i ∧ Exhausts (answers i)) ∨
      ∃ failure, entry = .failed i failure ∧ Raises (answers i) failure := by
  have hentry := h.offered i r entry hr offering marker
  have items := h.told.items hr
  cases hanswer : answers i r.produced.length with
  | item a =>
    rw [hanswer] at hentry
    cases hentry
    cases marker
  | exhausted =>
    rw [hanswer] at hentry
    cases hentry
    exact .inl ⟨rfl, _, items, hanswer⟩
  | failed failure =>
    rw [hanswer] at hentry
    obtain ⟨-, heq⟩ := Option.ite_none_right_eq_some.mp hentry
    exact .inr ⟨failure, (Option.some.inj heq).symm, _, items, hanswer⟩

theorem Marked.put (h : Marked answers segments s) (running : s.status = .running) {i : Nat}
    {entry : Entry α} (offered : s.offered? i = some entry) :
    Marked answers segments (s.put i) := by
  obtain ⟨r, hr, offering⟩ := State.offered?_eq_some_iff.mp offered
  obtain ⟨hi, hget⟩ := List.getElem?_eq_some_iff.mp hr
  have hqueue : (s.put i).queue = s.queue ++ [entry] := by
    simp [State.put, hr, offered]
  obtain ⟨r', hreaders, hfinished, hidle⟩ : ∃ r', (s.put i).readers = s.readers.set i r' ∧
      r'.isFinished = entry.isMarker ∧ ∀ e, r'.phase ≠ .offering e := by
    unfold State.put
    simp only [hr, offered]
    refine ⟨_, rfl, ?_, ?_⟩
    · cases entry.isMarker <;> rfl
    · intro e
      cases entry.isMarker <;> simp
  refine .of_running (by simpa using running) (by simpa using h.total)
    (h.told.congr (State.put_produced s i)) ?_ ?_ ?_ ?_
  · intro j x e hx offering'
    rw [hreaders] at hx
    rcases State.reader_of_set hr hx with ⟨rfl, rfl⟩ | ⟨-, hx⟩
    · exact absurd offering' (hidle e)
    · exact h.offered j x e hx offering'
  · intro j failure mem
    rw [hqueue] at mem
    rcases List.mem_append.mp mem with mem | mem
    · exact h.queued j failure mem
    · obtain rfl := List.mem_singleton.mp mem
      rcases h.offer hr offering rfl with ⟨hentry, -⟩ | ⟨_, hentry, raised⟩
      · cases hentry
      · cases hentry
        exact ⟨h.total ▸ hi, raised⟩
  · intro j x hx finished
    rw [hreaders] at hx
    rw [hqueue]
    rcases State.reader_of_set hr hx with ⟨rfl, rfl⟩ | ⟨-, hx⟩
    · rcases h.offer hr offering (hfinished ▸ finished) with ⟨-, exhausted⟩ | ⟨failure, rfl, -⟩
      · exact .inl exhausted
      · exact .inr ⟨failure, by simp⟩
    · rcases h.finished running j x hx finished with exhausted | ⟨failure, mem⟩
      · exact .inl exhausted
      · exact .inr ⟨failure, List.mem_append_left _ mem⟩
  · have hbefore : s.readers[i].isFinished = false := by
      rw [hget, Reader.isFinished, offering]
    have hbalance := h.balance running
    rw [State.put_remaining, hqueue, hreaders, List.countP_set hi, hbefore, hfinished,
      List.countP_append, List.countP_singleton]
    simp only [Bool.false_eq_true, if_false, Nat.sub_zero]
    omega

/-- Taking an entry that is no failure. -/
theorem Marked.of_pop (h : Marked answers segments s) (running : s.status = .running)
    {entry : Entry α} {queue : List (Entry α)} {yielded : List (Nat × α)}
    (hq : s.queue = entry :: queue) (sound : ∀ i failure, entry ≠ .failed i failure) :
    Marked answers segments { s with
      queue
      remaining := s.remaining - if entry.isMarker then 1 else 0
      yielded } := by
  refine .of_running running h.total h.told h.offered ?_ ?_ ?_
  · intro i failure mem
    exact h.queued i failure (hq ▸ List.mem_cons_of_mem _ mem)
  · intro i r hr finished
    rcases h.finished running i r hr finished with exhausted | ⟨failure, mem⟩
    · exact .inl exhausted
    · rw [hq] at mem
      refine .inr ⟨failure, (List.mem_cons.mp mem).resolve_left ?_⟩
      exact (sound i failure).symm
  · have hbalance := h.balance running
    have hle : s.readers.countP Reader.isFinished ≤ segments := h.total ▸ List.countP_le_length
    rw [hq, List.countP_cons] at hbalance
    dsimp only
    omega

/-- When the last end marker has been taken, every segment has come to its end. -/
theorem Marked.all_exhausted (h : Marked answers segments s) (running : s.status = .running)
    (none_left : s.remaining = 0) : ∀ i < segments, Exhausts (answers i) := by
  intro i hi
  have hbalance := h.balance running
  have hle : s.readers.countP Reader.isFinished ≤ s.readers.length := List.countP_le_length
  rw [none_left, Nat.zero_add] at hbalance
  rw [h.total] at hle
  have hall : s.readers.countP Reader.isFinished = s.readers.length := by
    rw [h.total]
    omega
  have hmarkers : s.queue.countP Entry.isMarker = 0 := by omega
  have hi : i < s.readers.length := by rwa [h.total]
  have finished := List.countP_eq_length.mp hall _ (List.getElem_mem hi)
  have put := h.finished running i _ (List.getElem?_eq_getElem hi) finished
  rcases put with exhausted | ⟨failure, mem⟩
  · exact exhausted
  · exact absurd rfl (List.countP_eq_zero.mp hmarkers _ mem)

theorem Marked.take (h : Marked answers segments s) (running : s.status = .running) :
    Marked answers segments s.take := by
  unfold State.take
  split
  · exact h
  · next i a queue hq => exact h.of_pop running hq (by simp)
  · next i queue hq =>
    have hpop : Marked answers segments { s with queue, remaining := s.remaining - 1 } :=
      h.of_pop running hq (by simp)
    dsimp only
    split
    · next none_left =>
      exact hpop.shut (by simp) (fun _ => hpop.all_exhausted running none_left)
        fun failure failed => by cases failed
    · exact hpop
  · next i failure queue hq =>
    obtain ⟨hi, raised⟩ := h.queued i failure (hq ▸ List.mem_cons_self)
    have hshut : Marked answers segments
        (s.shut (.failed (.because (.scan i s.total failure) failure))) := by
      refine h.shut (by simp) (fun ended => by cases ended) ?_
      rintro _ ⟨⟩
      exact ⟨i, hi, failure, raised, by rw [State.total, h.total]⟩
    refine ⟨hshut.total, hshut.told, hshut.offered, ?_, fun running => (by cases running),
      fun running => (by cases running), hshut.ended, hshut.failed⟩
    exact fun j cause mem => h.queued j cause (hq ▸ List.mem_cons_of_mem _ mem)

/-- The answers that an event brings are those of the store. -/
def Event.Told (answers : Nat → Nat → Answer α) (s : State α) : Event α → Prop
  | .read i answer => ∀ r, s.readers[i]? = some r → answer = answers i r.produced.length
  | .put _ | .take | .close => True

theorem enabled_preserves_marked (h : Marked answers segments s) {e : Event α}
    (enabled : s.Enabled e) (told : e.Told answers s) : Marked answers segments (s.next e) := by
  cases e with
  | read i answer =>
    obtain ⟨r, hr, reading⟩ := State.isReading_iff.mp enabled.2
    obtain rfl := told r hr
    exact h.read (State.isRunning_iff.mp enabled.1) hr reading
  | put i =>
    obtain ⟨entry, offered⟩ := Option.isSome_iff_exists.mp enabled.2.1
    exact h.put (State.isRunning_iff.mp enabled.1) offered
  | take => exact h.take (State.isRunning_iff.mp enabled.1)
  | close =>
    exact h.shut (by simp) (fun ended => by cases ended) fun failure failed => by cases failed

end Preservation

end Rekey.Scan
