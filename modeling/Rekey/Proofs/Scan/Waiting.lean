import Rekey.Proofs.Scan.Markers
import Rekey.Proofs.Trace

/-! # What a waiting consumer may count on

A reader that ends puts one marker, unless a cancellation breaks it off: then it puts none. So the
end markers that the consumer of a scan waits for come, but for those of the segments that were
broken off, and with one of these it waits for ever, unless another segment fails. -/
namespace Rekey.Scan

variable {α : Type}

/-- A scan that a cancellation breaks off after some items. -/
def BreaksOff (answers : Nat → Answer α) : Prop :=
  ∃ cause, Raises answers cause ∧ cause.isOrdinary = false

def Reader.isStopped (r : Reader α) : Bool :=
  match r.phase with
  | .stopped => true
  | .reading | .offering _ | .finished => false

/-- A step in which the readers are told what the store answers. -/
structure AnsweredStep (answers : Nat → Nat → Answer α) (s : State α) (e : Event α) (t : State α) :
    Prop where
  enabled : s.Enabled e
  told : e.Told answers s
  next : t = s.next e

/-- Whether a move puts the marker of a segment into the queue. -/
def putsMarker (segment : Nat) (m : State α × Event α) : Bool :=
  match m.2 with
  | .put i => i == segment && (m.1.offered? i).any Entry.isMarker
  | .read .. | .take | .close => false

section Readers
variable {s t : State α}

theorem Reader.isStopped_iff {r : Reader α} : r.isStopped = true ↔ r.phase = .stopped := by
  unfold Reader.isStopped
  cases r.phase <;> simp

theorem stop_isFinished (r : Reader α) : r.stop.isFinished = r.isFinished := by
  unfold Reader.stop Reader.isFinished
  cases h : r.phase <;> simp [h]

theorem shut_isFinished (s : State α) (status : Status) :
    (s.shut status).readers.map Reader.isFinished = s.readers.map Reader.isFinished := by
  rw [State.shut, List.map_map]
  exact List.map_congr_left fun r _ => stop_isFinished r

theorem taken_isFinished (taken : Taken s t) :
    t.readers.map Reader.isFinished = s.readers.map Reader.isFinished := by
  cases taken with
  | going pop => rw [pop.readers]
  | last pop => rw [shut_isFinished, pop.readers]
  | failed pop => rw [shut_isFinished, pop.readers]

/-- Readers finish by putting their marker, and in no other way. -/
theorem isFinished_of_enabled {e : Event α} (enabled : s.Enabled e) (other : ∀ i, e ≠ .put i) :
    (s.next e).readers.map Reader.isFinished = s.readers.map Reader.isFinished := by
  cases e with
  | read i answer =>
    obtain ⟨r, hr, reading⟩ := State.isReading_iff.mp enabled.2
    obtain ⟨r', hreaders, unfinished, -⟩ := read_marker hr answer
    have before : r.isFinished = false := by rw [Reader.isFinished, reading]
    obtain ⟨hi, rfl⟩ := List.getElem?_eq_some_iff.mp hr
    rw [State.next, hreaders, List.map_set, unfinished, ← before]
    exact List.ext_getElem (by simp) fun j _ _ => by
      rw [List.getElem_set]
      split
      · next h => subst h; simp
      · rfl
  | put i => exact absurd rfl (other i)
  | take => exact taken_isFinished (taken_of_take enabled.2)
  | close => exact shut_isFinished s .closed

/-- A reader is stopped by an answer that breaks its segment off. -/
theorem stopped_of_read {i : Nat} {r : Reader α} (hr : s.readers[i]? = some r) {answer : Answer α}
    {j : Nat} {x : Reader α} (hx : (s.read i answer).readers[j]? = some x)
    (stopped : x.phase = .stopped) :
    s.readers[j]? = some x ∨
      (j = i ∧ ∃ cause, answer = .failed cause ∧ cause.isOrdinary = false) := by
  unfold State.read at hx
  simp only [hr] at hx
  rcases State.reader_of_set hr hx with ⟨rfl, rfl⟩ | ⟨-, hx⟩
  · cases answer with
    | item a => cases stopped
    | exhausted => cases stopped
    | failed cause =>
      refine .inr ⟨rfl, cause, rfl, ?_⟩
      cases hcause : cause.isOrdinary with
      | false => rfl
      | true => simp [Entry.ofAnswer?, hcause] at stopped
  · exact .inl hx

end Readers

/-- What is known of the readers and of what the consumer waits for. -/
structure Attended (answers : Nat → Nat → Answer α) (segments : Nat)
    (moves : List (State α × Event α)) (s : State α) : Prop extends Marked answers segments s where
  puts : ∀ i r, s.readers[i]? = some r →
    moves.countP (putsMarker i) = if r.isFinished then 1 else 0
  stopped : s.status = .running → ∀ i r, s.readers[i]? = some r → r.phase = .stopped →
    BreaksOff (answers i)
  remaining_pos : s.status = .running → 0 < s.remaining

section Preservation
variable {answers : Nat → Nat → Answer α} {segments capacity : Nat} {s t : State α}
  {moves : List (State α × Event α)}

theorem start_attended (answers : Nat → Nat → Answer α) (positive : 0 < segments) :
    Attended answers segments [] (start segments capacity) := by
  have hreading : ∀ (i : Nat) (r : Reader α),
      (start segments capacity : State α).readers[i]? = some r → r.phase = .reading := by
    intro i r hr
    obtain ⟨-, rfl⟩ : i < segments ∧ (⟨.reading, []⟩ : Reader α) = r := by
      simpa [start, List.getElem?_replicate] using hr
    rfl
  refine { start_marked answers segments capacity with
    puts := fun i r hr => ?_, stopped := fun _ i r hr stopped => ?_,
    remaining_pos := fun _ => positive }
  · simp [Reader.isFinished, hreading i r hr]
  · rw [hreading i r hr] at stopped
    cases stopped

theorem Attended.puts_of_same (h : Attended answers segments moves s)
    (same : t.readers.map Reader.isFinished = s.readers.map Reader.isFinished) {e : Event α}
    (other : ∀ i, e ≠ .put i) {i : Nat} {r : Reader α} (hr : t.readers[i]? = some r) :
    ((s, e) :: moves).countP (putsMarker i) = if r.isFinished then 1 else 0 := by
  have hget := congrArg (·[i]?) same
  simp only [List.getElem?_map, hr, Option.map_some] at hget
  obtain ⟨r', hr', hsame⟩ := Option.map_eq_some_iff.mp hget.symm
  have quiet : putsMarker i (s, e) = false := by
    cases e with
    | put j => exact absurd rfl (other j)
    | read | take | close => rfl
  rw [List.countP_cons_of_neg (by simp [quiet]), h.puts i r' hr', hsame]

theorem Attended.puts_of_put (h : Attended answers segments moves s) {j : Nat} {entry : Entry α}
    (offered : s.offered? j = some entry) {i : Nat} {r : Reader α}
    (hr : (s.put j).readers[i]? = some r) :
    ((s, .put j) :: moves).countP (putsMarker i) = if r.isFinished then 1 else 0 := by
  obtain ⟨x, hx, offering⟩ := State.offered?_eq_some_iff.mp offered
  have unfinished : x.isFinished = false := by rw [Reader.isFinished, offering]
  have hput : putsMarker i (s, .put j) = (j == i && entry.isMarker) := by
    simp [putsMarker, offered]
  have hreaders : (s.put j).readers =
      s.readers.set j { x with phase := if entry.isMarker then .finished else .reading } := by
    simp only [State.put, hx, offered]
  rw [hreaders] at hr
  rw [List.countP_cons, hput]
  rcases State.reader_of_set hx hr with ⟨rfl, rfl⟩ | ⟨hne, hr⟩
  · rw [h.puts i x hx, unfinished]
    cases entry.isMarker <;> simp [Reader.isFinished]
  · have hapart : (j == i) = false := by simpa using Ne.symm hne
    rw [h.puts i r hr, hapart]
    simp

theorem Attended.take (h : Attended answers segments moves s) (running : s.status = .running)
    (nonempty : s.queue.isEmpty = false) :
    Attended answers segments ((s, .take) :: moves) s.take := by
  have marked := h.toMarked.take running
  have taken := taken_of_take nonempty
  have same := taken_isFinished taken
  generalize s.take = t at marked taken same
  refine { marked with
    puts := fun i r hr => h.puts_of_same same (by simp) hr
    stopped := ?_, remaining_pos := ?_ }
  · intro going i r hr
    cases taken with
    | going pop => exact h.stopped running i r (pop.readers ▸ hr)
    | last | failed => cases going
  · intro going
    have hpos := h.remaining_pos running
    cases taken with
    | @going entry _ pop sound remaining more =>
      cases hm : entry.isMarker with
      | true => exact more hm
      | false =>
        rw [remaining, hm]
        exact hpos
    | last | failed => cases going

theorem step_preserves_attended (h : Attended answers segments moves s) {e : Event α}
    (step : AnsweredStep answers s e t) : Attended answers segments ((s, e) :: moves) t := by
  obtain ⟨enabled, told, rfl⟩ := step
  have marked := enabled_preserves_marked h.toMarked enabled told
  cases e with
  | read i answer =>
    have running := State.isRunning_iff.mp enabled.1
    refine { marked with
      puts := fun j r hr => h.puts_of_same (isFinished_of_enabled enabled (by simp)) (by simp) hr
      stopped := ?_
      remaining_pos := fun _ => by simpa [State.next] using h.remaining_pos running }
    intro _ j x hx stopped
    obtain ⟨r, hr, -⟩ := State.isReading_iff.mp enabled.2
    rcases stopped_of_read hr hx stopped with hx | ⟨rfl, cause, hanswer, cancelled⟩
    · exact h.stopped running j x hx stopped
    · refine ⟨cause, ⟨r.produced.length, h.told.items hr, ?_⟩, cancelled⟩
      rw [← told r hr, hanswer]
  | put i =>
    have running := State.isRunning_iff.mp enabled.1
    obtain ⟨entry, offered⟩ := Option.isSome_iff_exists.mp enabled.2.1
    refine { marked with
      puts := fun j r hr => h.puts_of_put offered hr
      stopped := ?_
      remaining_pos := fun _ => by simpa [State.next] using h.remaining_pos running }
    intro _ j x hx stopped
    obtain ⟨r, hr, -⟩ := State.offered?_eq_some_iff.mp offered
    rw [State.next, State.put, hr, offered] at hx
    rcases State.reader_of_set hr hx with ⟨-, rfl⟩ | ⟨-, hx⟩
    · cases hm : entry.isMarker <;> simp [hm] at stopped
    · exact h.stopped running j x hx stopped
  | take => exact h.take (State.isRunning_iff.mp enabled.1) enabled.2
  | close =>
    exact { marked with
      puts := fun j r hr => h.puts_of_same (isFinished_of_enabled enabled (by simp)) (by simp) hr
      stopped := fun going => by cases going
      remaining_pos := fun going => by cases going }

theorem trace_attended (positive : 0 < segments)
    (trace : Trace (AnsweredStep answers) (start segments capacity) moves s) :
    Attended answers segments moves s :=
  trace.preserves (P := Attended answers segments) (start_attended answers positive)
    fun _ _ _ _ _ h step => step_preserves_attended h step

end Preservation

section Waiting
variable {answers : Nat → Nat → Answer α} {segments capacity : Nat} {s t : State α}
  {moves more : List (State α × Event α)}

/-- All readers have come to their end, in one way or another. -/
def State.IsOver (s : State α) : Prop := ∀ r ∈ s.readers, r.isLive = false

/-- The consumer waits for an entry that no reader will put any more. -/
def State.Hangs (s : State α) : Prop := s.status = .running ∧ s.IsOver ∧ s.queue = []

/-- Nothing but the consumer moves, and it takes what is in the queue. -/
def Takes (s : State α) (moves : List (State α × Event α)) (t : State α) : Prop :=
  Trace (fun s e t => s.Enabled e ∧ e = .take ∧ t = s.next e) s moves t

theorem isFinished_add_isStopped (ended : s.IsOver) :
    s.readers.countP Reader.isFinished + s.readers.countP Reader.isStopped = s.readers.length := by
  rw [List.length_eq_countP_add_countP Reader.isFinished]
  refine congrArg _ (List.countP_congr fun r hr => ?_)
  have := ended r hr
  unfold Reader.isLive at this
  unfold Reader.isStopped Reader.isFinished
  cases hphase : r.phase <;> simp_all

/-- When all readers have ended, the consumer still has to take the markers in the queue, and waits
for one of each segment that was broken off. -/
theorem Attended.remaining_eq (h : Attended answers segments moves s)
    (running : s.status = .running) (ended : s.IsOver) :
    s.remaining = s.queue.countP Entry.isMarker + s.readers.countP Reader.isStopped := by
  have hbalance := h.balance running
  have hsplit := isFinished_add_isStopped ended
  have htotal := h.total
  omega

theorem Attended.stopped_of_hangs (h : Attended answers segments moves s) (hangs : s.Hangs) :
    ∃ r ∈ s.readers, r.isStopped = true := by
  obtain ⟨running, ended, empty⟩ := hangs
  have hpos := h.remaining_pos running
  rw [h.remaining_eq running ended, empty, List.countP_nil, Nat.zero_add] at hpos
  exact List.countP_pos_iff.mp hpos

theorem enabled_of_hangs (hangs : s.Hangs) {e : Event α} (enabled : s.Enabled e) : e = .close := by
  obtain ⟨-, ended, empty⟩ := hangs
  cases e with
  | read i answer =>
    obtain ⟨r, hr, reading⟩ := State.isReading_iff.mp enabled.2
    have := ended r (List.mem_of_getElem? hr)
    simp [Reader.isLive, reading] at this
  | put i =>
    obtain ⟨entry, offered⟩ := Option.isSome_iff_exists.mp enabled.2.1
    obtain ⟨r, hr, offering⟩ := State.offered?_eq_some_iff.mp offered
    have := ended r (List.mem_of_getElem? hr)
    simp [Reader.isLive, offering] at this
  | take =>
    have := enabled.2
    simp [empty] at this
  | close => rfl

/-- As long as the scan runs on, a failure in the queue stays there. -/
theorem Takes.failed_mem (h : Takes s more t) {i : Nat} {failure : Failure}
    (mem : .failed i failure ∈ s.queue) (running : t.status = .running) :
    .failed i failure ∈ t.queue := by
  refine h.preserves (P := fun _ t => t.status = .running → .failed i failure ∈ t.queue)
    (fun _ => mem) (fun _ t _ u _ ih step going => ?_) running
  obtain ⟨enabled, rfl, rfl⟩ := step
  have mem := ih (State.isRunning_iff.mp enabled.1)
  have taken := taken_of_take enabled.2
  rw [State.next] at going ⊢
  generalize t.take = u at taken going
  cases taken with
  | going pop sound =>
    rw [pop.queue] at mem
    refine (List.mem_cons.mp mem).resolve_left fun first => ?_
    subst first
    exact sound failure rfl
  | last | failed => cases going

theorem Takes.answered (h : Takes s more t) : Trace (AnsweredStep answers) s more t :=
  h.mono fun _ _ _ ⟨enabled, take, next⟩ => ⟨enabled, take ▸ trivial, next⟩

theorem Takes.readers_eq (h : Takes s more t) (running : t.status = .running) :
    t.readers = s.readers := by
  refine h.preserves (P := fun _ t => t.status = .running → t.readers = s.readers) (fun _ => rfl)
    (fun _ t _ u _ ih step going => ?_) running
  obtain ⟨enabled, rfl, rfl⟩ := step
  have same := ih (State.isRunning_iff.mp enabled.1)
  have taken := taken_of_take enabled.2
  rw [State.next] at going ⊢
  generalize t.take = u at taken going
  cases taken with
  | going pop => exact pop.readers.trans same
  | last | failed => cases going

/-- With a segment broken off and no failure under way, the consumer takes all there is and is left
waiting. -/
theorem Attended.comes_to_hang (h : Attended answers segments moves s)
    (running : s.status = .running) (ended : s.IsOver)
    (stopped : 0 < s.readers.countP Reader.isStopped)
    (sound : ∀ i failure, .failed i failure ∉ s.queue) : ∃ more t, Takes s more t ∧ t.Hangs := by
  -- By induction on the queue: each entry is an item or an end marker that is not the last.
  induction hn : s.queue.length generalizing s moves with
  | zero => exact ⟨[], s, .nil, running, ended, List.length_eq_zero_iff.mp hn⟩
  | succ n ih =>
    have nonempty : s.queue.isEmpty = false := by
      cases hq : s.queue with
      | nil => simp [hq] at hn
      | cons => rfl
    have enabled : s.Enabled .take := ⟨State.isRunning_iff.mpr running, nonempty⟩
    have one : Takes s [(s, .take)] s.take := .snoc .nil ⟨enabled, rfl, rfl⟩
    have next := step_preserves_attended h ⟨enabled, trivial, rfl⟩
    have taken := taken_of_take nonempty
    rw [State.next] at next
    generalize s.take = t at one next taken
    cases taken with
    | @going entry _ pop =>
      rw [pop.queue] at hn sound
      obtain ⟨more, u, takes, hangs⟩ := ih next (pop.status.trans running)
        (fun r hr => ended r (pop.readers ▸ hr)) (pop.readers ▸ stopped)
        (fun i failure mem => sound i failure (List.mem_cons_of_mem _ mem))
        (Nat.succ.inj hn)
      exact ⟨_, u, one.append takes, hangs⟩
    | @last i t pop none_left =>
      have hleft := h.remaining_eq running ended
      rw [pop.queue, List.countP_cons_of_pos (by rfl)] at hleft
      omega
    | @failed i failure t pop => exact absurd (pop.queue ▸ List.mem_cons_self) (sound i failure)

/-- What a consumer may count on, in the state `s` and after the events `moves`. -/
structure Served (answers : Nat → Nat → Answer α) (moves : List (State α × Event α))
    (s : State α) : Prop where
  marked : ∀ i r, s.readers[i]? = some r →
    moves.countP (putsMarker i) = if r.isFinished then 1 else 0
  broken : s.status = .running → ∀ i r, s.readers[i]? = some r → r.isStopped = true →
    BreaksOff (answers i)
  awaited : s.status = .running → s.IsOver → 0 < s.remaining ∧
    s.remaining = s.queue.countP Entry.isMarker + s.readers.countP Reader.isStopped
  served : s.status = .running → s.IsOver → (∀ i < s.total, ¬ BreaksOff (answers i)) →
    s.queue ≠ []
  stuck : s.Hangs → ∀ e, s.Enabled e → e = .close
  hangs_iff : s.status = .running → s.IsOver → ((∃ more t, Takes s more t ∧ t.Hangs) ↔
    (∃ r ∈ s.readers, r.isStopped = true) ∧ ∀ i failure, .failed i failure ∉ s.queue)

theorem consumer_served (positive : 0 < segments)
    (trace : Trace (AnsweredStep answers) (start segments capacity) moves s) :
    Served answers moves s := by
  have h := trace_attended positive trace
  constructor
  · exact h.puts
  · exact fun running i r hr stopped => h.stopped running i r hr (Reader.isStopped_iff.mp stopped)
  · exact fun running ended => ⟨h.remaining_pos running, h.remaining_eq running ended⟩
  · intro running ended whole empty
    obtain ⟨r, mem, stopped⟩ := h.stopped_of_hangs ⟨running, ended, empty⟩
    obtain ⟨i, hi, rfl⟩ := List.getElem_of_mem mem
    exact whole i hi (h.stopped running i _ (List.getElem?_eq_getElem hi)
      (Reader.isStopped_iff.mp stopped))
  · exact fun hangs e enabled => enabled_of_hangs hangs enabled
  · intro running ended
    constructor
    · rintro ⟨more, t, takes, hangs⟩
      refine ⟨?_, fun i failure mem => ?_⟩
      · have later := trace_attended positive (trace.append takes.answered)
        rw [← takes.readers_eq hangs.1]
        exact later.stopped_of_hangs hangs
      · have mem := takes.failed_mem mem hangs.1
        rw [hangs.2.2] at mem
        cases mem
    · rintro ⟨⟨r, mem, stopped⟩, sound⟩
      exact h.comes_to_hang running ended (List.countP_pos_iff.mpr ⟨r, mem, stopped⟩) sound

end Waiting

/-- The first segment ends after an item, and the others are broken off at once. -/
def cutAnswers : Nat → Nat → Answer Nat
  | 0, 0 => .item 1
  | 0, _ => .exhausted
  | _, _ => .failed (.plain .cancelled "stop")

def cutScanEvents : List (Event Nat) :=
  [.read 1 (.failed (.plain .cancelled "stop")), .put 0, .take, .read 0 .exhausted, .put 0,
    .read 0 (.item 1)]

def cutScan : State Nat := Trace.reached State.next (start 2 1) cutScanEvents

/-- The last end marker that will come is in the queue, and the consumer waits for two. -/
theorem cut_scan_served : ∃ moves, Trace (AnsweredStep cutAnswers) (start 2 1) moves cutScan ∧
    cutScan.remaining = 2 ∧ cutScan.queue.length = 1 ∧ cutScan.readers.map Reader.isStopped =
      [false, true] ∧ Served cutAnswers moves cutScan := by
  have trace : Trace (AnsweredStep cutAnswers) (start 2 1)
      (Trace.replay State.next (start 2 1) cutScanEvents) cutScan := by
    apply Trace.of_replays State.next
    refine ⟨⟨?_, ?_, rfl⟩, ⟨?_, ?_, rfl⟩, ⟨?_, ?_, rfl⟩, ⟨?_, ?_, rfl⟩, ⟨?_, ?_, rfl⟩,
      ⟨?_, ?_, rfl⟩, trivial⟩
    all_goals first | decide +kernel | exact trivial | (rintro r ⟨⟩; rfl)
  exact ⟨_, trace, by decide +kernel, by decide +kernel, by decide +kernel,
    consumer_served (by decide) trace⟩

/-- The only segment is broken off after an item. -/
def brokenAnswers (_ n : Nat) : Answer Nat :=
  if n = 0 then .item 1 else .failed (.plain .cancelled "stop")

def brokenScanEvents : List (Event Nat) :=
  [.take, .read 0 (.failed (.plain .cancelled "stop")), .put 0, .read 0 (.item 1)]

def brokenScan : State Nat := Trace.reached State.next (start 1 1) brokenScanEvents

/-- The reader has ended without a marker, and the consumer waits for an item with nothing in the
queue and nobody to put anything there. -/
theorem broken_scan_hangs : ∃ moves,
    Trace (AnsweredStep brokenAnswers) (start 1 1) moves brokenScan ∧
      moves.countP (putsMarker 0) = 0 ∧ brokenScan.isRunning = true ∧
      (∀ r ∈ brokenScan.readers, r.isLive = false) ∧ brokenScan.queue.length = 0 ∧
      ∀ e, brokenScan.Enabled e → e = .close := by
  have hangs : brokenScan.Hangs := by
    refine ⟨State.isRunning_iff.mp (by decide +kernel), fun r hr => ?_,
      List.isEmpty_iff.mp (by decide +kernel)⟩
    have all : (brokenScan.readers.all fun r => !r.isLive) = true := by decide +kernel
    simpa using List.all_eq_true.mp all r hr
  refine ⟨Trace.replay State.next (start 1 1) brokenScanEvents, ?_, by decide +kernel,
    State.isRunning_iff.mpr hangs.1, hangs.2.1, List.length_eq_zero_iff.mpr hangs.2.2,
    fun e => enabled_of_hangs hangs⟩
  apply Trace.of_replays State.next
  refine ⟨⟨?_, ?_, rfl⟩, ⟨?_, ?_, rfl⟩, ⟨?_, ?_, rfl⟩, ⟨?_, ?_, rfl⟩, trivial⟩
  all_goals first | decide +kernel | exact trivial | (rintro r ⟨⟩; rfl)

end Rekey.Scan
