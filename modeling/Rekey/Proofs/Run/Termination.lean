import Rekey.Proofs.Run.History
import Mathlib.Algebra.GroupWithZero.Nat

/-! # Every run comes to an end

A cost is put on everything that still lies ahead: on an item that is not read more than on one in
the queue, on that more than on one gathered or delivered, and on a task by the retries it has left.
Every step uses up some of it, so the cost at the start bounds the number of steps. -/
namespace Rekey.Run

open Counter (Tally)

section Costs
variable (retries : Nat)

/-- The steps that a task may still take, when `retries` retries are allowed. -/
def taskCost (t : Migration.Task) : Nat :=
  2 * (retries - t.retries) +
    match t.stage with
    | .created | .sleeping _ => 2
    | .calling => 1

def recordCost : Nat := 2 * retries + 4

def heldCost : Nat := recordCost retries + 3

def entryCost : Scan.Entry Record → Nat
  | .item .. => heldCost retries + 1
  | .done _ | .failed .. => 1

def readingCost (stream : Stream Record) (n : Nat) : Nat :=
  (stream.items.length - n) * (heldCost retries + 3) + 3

def readerCost (stream : Stream Record) (r : Scan.Reader Record) : Nat :=
  match r.phase with
  | .reading => readingCost retries stream r.produced.length
  | .offering entry =>
    1 + entryCost retries entry +
      if entry.isMarker then 0 else readingCost retries stream r.produced.length
  | .finished | .stopped => 0

def segmentCost (source : Nat → Stream Record) (s : Scan.State Record) (i : Nat) : Nat :=
  match s.readers[i]? with
  | some r => readerCost retries (source i) r
  | none => 0

def scanCost (source : Nat → Stream Record) (s : Scan.State Record) : Nat :=
  ((List.range s.readers.length).map (segmentCost retries source s)).sum +
    (s.queue.map (entryCost retries)).sum

def pullerCost : Dispatch.Puller → Nat
  | .resting => 4
  | .seeking => 3
  | .pulling => 2
  | .ended | .failed _ | .stopped => 0

def windowCost (window : List Record) : Nat := 1 + window.length * recordCost retries

def consumerCost (d : Dispatch.State Record) : Nat :=
  if d.isRunning then (if d.consumer = .idle then 2 else 1) else 0

def dispatchCost (d : Dispatch.State Record) : Nat :=
  pullerCost d.puller + (d.ready.map (windowCost retries)).sum +
    d.current.length * recordCost retries + consumerCost d

def migrationCost (m : Migration.State) : Nat :=
  (m.waiting.toList.map fun t => taskCost retries t + 1).sum + (m.tasks.map (taskCost retries)).sum

/-- A bound on the steps that a run may still take. -/
def cost (source : Nat → Stream Record) (s : State) : Nat :=
  if s.isRunning then
    1 + scanCost retries source s.scan + s.held.length * heldCost retries +
      dispatchCost retries s.dispatch + migrationCost retries s.migration
  else 0

end Costs

section Sums

theorem sum_range_le {n : Nat} {f g : Nat → Nat} (le : ∀ j, f j ≤ g j) :
    ((List.range n).map f).sum ≤ ((List.range n).map g).sum := by
  induction n with
  | zero => exact Nat.le_refl _
  | succ n ih =>
    have := le n
    simp only [List.range_succ, List.map_append, List.sum_append, List.map_singleton,
      List.sum_singleton]
    omega

theorem sum_range_add_le {n i c : Nat} {f g : Nat → Nat} (hi : i < n)
    (same : ∀ j, j ≠ i → f j = g j) (less : f i + c ≤ g i) :
    ((List.range n).map f).sum + c ≤ ((List.range n).map g).sum := by
  induction n with
  | zero => omega
  | succ n ih =>
    simp only [List.range_succ, List.map_append, List.sum_append, List.map_singleton,
      List.sum_singleton]
    by_cases hn : i = n
    · subst hn
      have hrest : ((List.range i).map f).sum = ((List.range i).map g).sum := by
        congr 1
        exact List.map_congr_left fun j hj => same j (by have := List.mem_range.mp hj; omega)
      omega
    · have := ih (by omega)
      have := same n (fun h => hn h.symm)
      omega

end Sums

section Scan
variable (retries : Nat) (source : Nat → Stream Record) {s : Scan.State Record} {i : Nat}
  {r : Scan.Reader Record}

theorem scanCost_set {t : Scan.State Record} {r' : Scan.Reader Record} {c : Nat}
    (hr : s.readers[i]? = some r) (readers : t.readers = s.readers.set i r')
    (less : readerCost retries (source i) r' + c ≤ readerCost retries (source i) r) :
    scanCost retries source t + c + (s.queue.map (entryCost retries)).sum ≤
      scanCost retries source s + (t.queue.map (entryCost retries)).sum := by
  have hi : i < s.readers.length := (List.getElem?_eq_some_iff.mp hr).1
  have hsum := sum_range_add_le (c := c) (f := segmentCost retries source t)
    (g := segmentCost retries source s) hi
    (fun j hj => by simp [segmentCost, readers, List.getElem?_set_ne (Ne.symm hj)])
    (by simpa [segmentCost, readers, hr, List.getElem?_set_self hi] using less)
  unfold scanCost
  rw [readers, List.length_set]
  omega

theorem scanCost_answered (phase : Scan.Phase Record) (produced : List Record)
    {answer : Answer Record} (hr : s.readers[i]? = some r)
    (readers : (s.read i answer).readers = s.readers.set i ⟨phase, produced⟩)
    (less : readerCost retries (source i) ⟨phase, produced⟩ + 1 ≤
      readerCost retries (source i) r) :
    scanCost retries source (s.read i answer) + 1 ≤ scanCost retries source s := by
  have hcost := scanCost_set retries source hr readers less
  rw [Scan.State.read_queue] at hcost
  omega

theorem scanCost_read (hr : s.readers[i]? = some r) (reading : r.phase = .reading)
    (hn : r.produced.length ≤ (source i).items.length) :
    scanCost retries source (s.read i ((source i).answer r.produced.length)) + 1 ≤
      scanCost retries source s := by
  have hcost : readerCost retries (source i) r =
      readingCost retries (source i) r.produced.length := by
    simp only [readerCost, reading]
  rcases Nat.lt_or_eq_of_le hn with hlt | heq
  · rw [Scan.answer_of_lt hlt]
    refine scanCost_answered retries source
      (.offering (.item i (source i).items[r.produced.length])) ((source i).items[r.produced.length] :: r.produced) hr
      (by simp [Scan.State.read, hr, Scan.Entry.ofAnswer?]) ?_
    obtain ⟨k, hk⟩ := Nat.exists_eq_add_of_lt hlt
    rw [hcost]
    simp only [readerCost, entryCost, Scan.Entry.isMarker, readingCost, List.length_cons,
      Bool.false_eq_true, if_false]
    rw [show (source i).items.length - r.produced.length = k + 1 by omega,
      show (source i).items.length - (r.produced.length + 1) = k by omega, Nat.succ_mul]
    omega
  · rw [heq, Scan.answer_length_eq]
    cases (source i).failure with
    | none =>
      refine scanCost_answered retries source (.offering (.done i)) r.produced hr
        (by simp [Scan.State.read, hr, Scan.Entry.ofAnswer?]) ?_
      rw [hcost]
      simp [readerCost, entryCost, Scan.Entry.isMarker, readingCost]
    | some failure =>
      cases hf : failure.isOrdinary with
      | true =>
        refine scanCost_answered retries source (.offering (.failed i failure)) r.produced hr
          (by simp [Scan.State.read, hr, Scan.Entry.ofAnswer?, hf]) ?_
        rw [hcost]
        simp [readerCost, entryCost, Scan.Entry.isMarker, readingCost]
      | false =>
        refine scanCost_answered retries source .stopped r.produced hr
          (by simp [Scan.State.read, hr, Scan.Entry.ofAnswer?, hf]) ?_
        rw [hcost]
        simp [readerCost, readingCost]

theorem scanCost_put {entry : Scan.Entry Record} (hr : s.readers[i]? = some r)
    (offering : r.phase = .offering entry) :
    scanCost retries source (s.put i) + 1 ≤ scanCost retries source s := by
  have hoff : s.offered? i = some entry := Scan.State.offered?_eq_some_iff.mpr ⟨r, hr, offering⟩
  have hless : readerCost retries (source i)
      { r with phase := if entry.isMarker then .finished else .reading } +
        (1 + entryCost retries entry) ≤ readerCost retries (source i) r := by
    simp only [readerCost, offering]
    cases entry.isMarker <;> simp
    omega
  have hcost := scanCost_set retries source (t := s.put i) hr
    (by simp only [Scan.State.put, hr, hoff]) hless
  have hqueue : (s.put i).queue = s.queue ++ [entry] := by simp only [Scan.State.put, hr, hoff]
  rw [hqueue, List.map_append, List.sum_append, List.map_singleton, List.sum_singleton] at hcost
  omega

theorem scanCost_shut (s : Scan.State Record) (status : Scan.Status) :
    scanCost retries source (s.shut status) ≤ scanCost retries source s := by
  have hsum := sum_range_le (n := s.readers.length)
    (f := segmentCost retries source (s.shut status)) (g := segmentCost retries source s)
    fun j => by
      unfold segmentCost
      simp only [Scan.State.shut, List.getElem?_map]
      cases s.readers[j]? with
      | none => exact Nat.le_refl _
      | some r =>
        simp only [Option.map_some, Scan.Reader.stop]
        cases hp : r.phase <;> simp [readerCost, hp]
  unfold scanCost
  simp only [Scan.State.shut, List.length_map]
  simp only [Scan.State.shut] at hsum
  omega

theorem scanCost_take {entry : Scan.Entry Record} {queue : List (Scan.Entry Record)}
    (hq : s.queue = entry :: queue) :
    scanCost retries source s.take + entryCost retries entry ≤ scanCost retries source s := by
  have hpop : ∀ t : Scan.State Record, t.readers = s.readers → t.queue = queue →
      scanCost retries source t + entryCost retries entry = scanCost retries source s := by
    intro t hreaders hqueue
    simp only [scanCost, hq, hqueue, hreaders, List.map_cons, List.sum_cons,
      show segmentCost retries source t = segmentCost retries source s by
        funext j; simp only [segmentCost, hreaders]]
    omega
  unfold Scan.State.take
  rw [hq]
  cases entry with
  | item segment record => exact Nat.le_of_eq (hpop _ rfl rfl)
  | done segment =>
    dsimp only
    split
    · exact Nat.le_trans (Nat.add_le_add_right (scanCost_shut retries source _ _) _)
        (Nat.le_of_eq (hpop _ rfl rfl))
    · exact Nat.le_of_eq (hpop _ rfl rfl)
  | failed segment failure =>
    exact Nat.le_trans (Nat.add_le_add_right (scanCost_shut retries source _ _) _)
      (Nat.le_of_eq (hpop _ rfl rfl))

end Scan

section Tasks
variable (retries : Nat) {s u : Migration.State} {t t' : Migration.Task}

theorem sum_others (nodup : (s.tasks.map Migration.Task.number).Nodup) (mem : t ∈ s.tasks) :
    (s.tasks.map (taskCost retries)).sum =
      taskCost retries t + ((s.others t.number).map (taskCost retries)).sum := by
  rw [((Migration.others_perm nodup mem).map _).sum_nat, List.map_cons, List.sum_cons]

theorem migrationCost_moved (nodup : (s.tasks.map Migration.Task.number).Nodup)
    (mem : t ∈ s.tasks) (moved : Migration.Moved s t t' u)
    (less : taskCost retries t' < taskCost retries t) :
    migrationCost retries u < migrationCost retries s := by
  have := sum_others retries nodup mem
  unfold migrationCost
  rw [moved.waiting, moved.tasks, List.map_append, List.sum_append, List.map_singleton,
    List.sum_singleton]
  omega

theorem migrationCost_ended {ending : Migration.Ending}
    (nodup : (s.tasks.map Migration.Task.number).Nodup) (mem : t ∈ s.tasks)
    (ended : Migration.Ended s t ending u) :
    migrationCost retries u < migrationCost retries s := by
  have hsum := sum_others retries nodup mem
  have hpos : 0 < taskCost retries t := by
    unfold taskCost
    cases t.stage <;> simp
  unfold migrationCost
  rw [ended.waiting, ended.tasks]
  omega

/-- A task has one retry less ahead for each pause. -/
theorem migrationCost_taskStep {e : Migration.Event}
    (nodup : (s.tasks.map Migration.Task.number).Nodup) (mem : t ∈ s.tasks)
    (step : Migration.TaskStep s t e u) :
    migrationCost s.policy.maxRetries u < migrationCost s.policy.maxRetries s := by
  cases step with
  | skip _ _ ended => exact migrationCost_ended _ nodup mem ended
  | begin _ created moved =>
    exact migrationCost_moved _ nodup mem moved (by simp [taskCost, created])
  | resume sleeping moved =>
    exact migrationCost_moved _ nodup mem moved (by simp [taskCost, sleeping])
  | pause calling goes moved =>
    have hlt := (Retry.Policy.lt_of_surfaced?_none goes).2
    refine migrationCost_moved _ nodup mem moved ?_
    simp only [taskCost, calling]
    omega
  | conclude _ _ ended => exact migrationCost_ended _ nodup mem ended

theorem migrationCost_assign (waiting : s.waiting = some t) :
    migrationCost retries (s.next .assign) < migrationCost retries s := by
  simp only [migrationCost, Migration.State.next, waiting, Option.toList_none, Option.toList_some,
    List.map_nil, List.sum_nil, List.map_append, List.sum_append, List.map_cons, List.sum_cons]
  omega

theorem migrationCost_inspect (waiting : s.waiting = none) (record : Record) :
    migrationCost retries (s.next (.inspect record)) =
      migrationCost retries s + 2 * retries + 3 := by
  simp only [migrationCost, Migration.State.next, waiting, Option.toList_none, Option.toList_some,
    List.map_nil, List.sum_nil, List.map_cons, List.sum_cons, taskCost]
  omega

end Tasks

section Windows
variable (retries : Nat) {d : Dispatch.State Record}

theorem consumerCost_congr {d' : Dispatch.State Record} (consumer : d'.consumer = d.consumer)
    (status : d'.status = d.status) : consumerCost d' = consumerCost d := by
  unfold consumerCost Dispatch.State.isRunning
  rw [consumer, status]

theorem dispatchCost_acquire (seeking : d.puller = .seeking) :
    dispatchCost retries (d.next .acquire) < dispatchCost retries d := by
  have hconsumer : consumerCost (d.next .acquire) = consumerCost d := consumerCost_congr rfl rfl
  unfold dispatchCost
  rw [hconsumer, seeking]
  simp only [Dispatch.State.next, pullerCost]
  omega

theorem dispatchCost_window (pulling : d.puller = .pulling) (window : List Record) :
    dispatchCost retries (d.arrive window) + 3 * window.length =
      dispatchCost retries d + 2 + window.length * heldCost retries := by
  have hconsumer : consumerCost (d.arrive window) = consumerCost d := consumerCost_congr rfl rfl
  unfold dispatchCost
  rw [hconsumer, pulling]
  simp only [Dispatch.State.arrive, pullerCost, windowCost, heldCost, Nat.mul_add, List.map_append,
    List.sum_append, List.map_singleton, List.sum_singleton]
  omega

theorem dispatchCost_over (pulling : d.puller = .pulling) (puller : Dispatch.Puller)
    (spent : pullerCost puller = 0) :
    dispatchCost retries { d with free := d.free + 1, puller := puller } <
      dispatchCost retries d := by
  have hconsumer : consumerCost { d with free := d.free + 1, puller := puller } = consumerCost d :=
    consumerCost_congr rfl rfl
  unfold dispatchCost
  rw [hconsumer, pulling, spent]
  simp only [pullerCost]
  omega

theorem consumerCost_idle (running : d.isRunning = true) (idle : d.consumer = .idle) :
    consumerCost d = 2 := by
  rw [consumerCost, if_pos running, if_pos idle]

theorem consumerCost_waiting (running : d.isRunning = true) (waiting : d.consumer = .waiting) :
    consumerCost d = 1 := by
  rw [consumerCost, if_pos running, if_neg (by simp [waiting])]

theorem dispatchCost_deliver (idle : d.consumer = .idle) {record : Record}
    {current : List Record} (hc : d.current = record :: current) :
    dispatchCost retries d.deliver + recordCost retries = dispatchCost retries d := by
  have hconsumer : consumerCost d.deliver = consumerCost d := by
    refine consumerCost_congr ?_ ?_ <;> simp [Dispatch.State.deliver, hc, idle]
  unfold dispatchCost
  rw [hconsumer, hc, List.length_cons, Nat.succ_mul]
  simp only [Dispatch.State.deliver, hc]
  omega

theorem dispatchCost_await (running : d.isRunning = true) (idle : d.consumer = .idle)
    (sound : ∀ failure, d.puller ≠ .failed failure) :
    dispatchCost retries d.await < dispatchCost retries d := by
  have hbefore := consumerCost_idle running idle
  unfold Dispatch.State.await
  split
  · next failure hp => exact absurd hp (sound failure)
  · next hp =>
    have hafter : consumerCost { d with consumer := .waiting, puller := .seeking } = 1 :=
      consumerCost_waiting running rfl
    unfold dispatchCost
    rw [hafter, hbefore, hp]
    simp only [pullerCost]
    omega
  · have hafter : consumerCost { d with consumer := .waiting } = 1 :=
      consumerCost_waiting running rfl
    unfold dispatchCost
    rw [hafter, hbefore]
    dsimp only
    omega

theorem dispatchCost_begin (running : d.isRunning = true) (waiting : d.consumer = .waiting)
    (empty : d.current = []) {record : Record} {current : List Record}
    {ready : List (List Record)} (hr : d.ready = (record :: current) :: ready) :
    dispatchCost retries d.begin + recordCost retries = dispatchCost retries d := by
  have hafter : consumerCost d.begin = 2 := by
    rw [Dispatch.begin_eq hr]
    exact consumerCost_idle running rfl
  unfold dispatchCost
  rw [hafter, consumerCost_waiting running waiting, Dispatch.begin_eq hr, hr, empty]
  simp only [List.map_cons, List.sum_cons, windowCost, List.length_cons, Nat.succ_mul,
    List.length_nil, Nat.zero_mul]
  omega

theorem dispatchCost_shut (running : d.isRunning = true) (status : Dispatch.Status)
    (stopped : status ≠ .running) :
    dispatchCost retries (d.shut status) < dispatchCost retries d := by
  have hbefore : 1 ≤ consumerCost d := by
    rw [consumerCost, if_pos running]
    split <;> omega
  have hafter : consumerCost (d.shut status) = 0 := by
    rw [consumerCost, if_neg]
    rw [Dispatch.State.isRunning_iff]
    exact stopped
  have hpuller : pullerCost (d.shut status).puller ≤ pullerCost d.puller := by
    simp only [Dispatch.State.shut]
    split
    · exact Nat.zero_le _
    · exact Nat.le_refl _
  unfold dispatchCost
  rw [hafter]
  simp only [Dispatch.State.shut] at hpuller ⊢
  omega

theorem dispatchCost_done (number : Nat) :
    dispatchCost retries (d.next (.done number)) = dispatchCost retries d := by
  obtain ⟨free, inFlight, slots, hd, -⟩ := Dispatch.done_frame d number
  have hconsumer : consumerCost (d.next (.done number)) = consumerCost d := by
    rw [hd]; exact consumerCost_congr rfl rfl
  unfold dispatchCost
  rw [hconsumer, hd]

end Windows

section Steps
variable {config : Config} {baseline : Tally} {source : Nat → Stream Record} {s t : State}
  {retries : Nat}

theorem cost_lt (hs : s.status = .running) (ht : t.status = .running)
    (less : scanCost retries source t.scan + t.held.length * heldCost retries +
        dispatchCost retries t.dispatch + migrationCost retries t.migration <
      scanCost retries source s.scan + s.held.length * heldCost retries +
        dispatchCost retries s.dispatch + migrationCost retries s.migration) :
    cost retries source t < cost retries source s := by
  rw [cost, cost, if_pos (State.isRunning_iff.mpr hs), if_pos (State.isRunning_iff.mpr ht)]
  omega

theorem cost_lt_of_over (hs : s.status = .running) (ht : t.status ≠ .running) :
    cost retries source t < cost retries source s := by
  rw [cost, cost, if_pos (State.isRunning_iff.mpr hs), if_neg (mt State.isRunning_iff.mp ht)]
  omega

/-- Every step uses up some of the cost. -/
theorem step_cost (h : Invariant config baseline source s) {e : Event}
    (step : OrdinaryStep source s e t) :
    cost config.retry.maxRetries source t < cost config.retry.maxRetries source s := by
  obtain ⟨step, ordinary⟩ := step
  have running := running_of_step step
  have change := change_of_step step ordinary h.whole h.ready_nonempty
  obtain ⟨-, follows⟩ := step
  obtain ⟨hrunning, hmigration⟩ := h.running running
  have hnodup := h.ledger.tasks_nodup h.whole
  generalize s.next e = t at change
  generalize hretries : config.retry.maxRetries = retries
  -- In each case the part of the cost that falls is named; the other parts stay or are known to grow by
  -- less.
  cases change with
  | @read segment answer _ enabled =>
    obtain ⟨r, hr, reading⟩ := Scan.State.isReading_iff.mp enabled.2
    have hn : r.produced.length ≤ (source segment).items.length := by
      simpa using (h.scan.produced segment r hr).length_le
    have := scanCost_read retries source hr reading hn
    rw [follows r hr]
    exact cost_lt hrunning hrunning (by dsimp only; omega)
  | put _ enabled =>
    obtain ⟨entry, offered⟩ := Option.isSome_iff_exists.mp enabled.2.1
    obtain ⟨r, hr, offering⟩ := Scan.State.offered?_eq_some_iff.mp offered
    have := scanCost_put retries source hr offering
    exact cost_lt hrunning hrunning (by dsimp only; omega)
  | acquire seeking free =>
    have := dispatchCost_acquire retries seeking
    exact cost_lt hrunning hrunning (by dsimp only; omega)
  | gather pulling _ hq push =>
    have := scanCost_take retries source hq
    obtain rfl := push_none push
    refine cost_lt hrunning hrunning ?_
    simp only [List.length_cons, Nat.succ_mul, entryCost] at this ⊢
    omega
  | @fill _ record _ _ _ order pulling _ hq push perm =>
    have := scanCost_take retries source hq
    have hwindow := dispatchCost_window retries pulling order
    obtain ⟨rfl, rfl⟩ := push_some push
    have hlength : order.length = s.held.length + 1 := by simpa using perm.length_eq
    rw [hlength, Nat.succ_mul s.held.length] at hwindow
    refine cost_lt hrunning hrunning ?_
    simp only [entryCost, List.length_nil, Nat.zero_mul] at this ⊢
    omega
  | mark _ _ hq =>
    have := scanCost_take retries source hq
    refine cost_lt hrunning hrunning ?_
    simp only [entryCost] at this ⊢
    omega
  | @fault _ _ failure _ _ pulling _ hq _ =>
    have := scanCost_take retries source hq
    have hover := dispatchCost_over retries pulling
      (.failed failure) rfl
    refine cost_lt hrunning hrunning ?_
    simp only [Dispatch.State.next, List.length_nil, Nat.zero_mul] at this hover ⊢
    omega
  | @flush order pulling _ nonempty perm =>
    have hwindow := dispatchCost_window retries pulling order
    have hpos := List.length_pos_of_ne_nil nonempty
    rw [perm.length_eq] at hwindow
    refine cost_lt hrunning hrunning ?_
    simp only [List.length_nil, Nat.zero_mul]
    omega
  | exhaust pulling _ _ =>
    have hover := dispatchCost_over retries pulling
      .ended rfl
    refine cost_lt hrunning hrunning ?_
    simp only [Dispatch.State.next] at hover ⊢
    omega
  | @next record _ ready request hc =>
    have hdeliver := dispatchCost_deliver retries request.2 hc
    have hinspect := migrationCost_inspect retries
      (Migration.State.isReady_iff.mp ready).2.1 record
    refine cost_lt hrunning hrunning ?_
    simp only [recordCost] at hdeliver ⊢
    omega
  | await _ request _ sound =>
    have := dispatchCost_await retries request.1 request.2 sound
    exact cost_lt hrunning hrunning (by dsimp only; omega)
  | @begin record _ _ enabled hr =>
    have hbegin := dispatchCost_begin retries enabled.1 enabled.2.1
      (h.dispatch.waiting enabled.2.1).2.1 hr
    have hinspect := migrationCost_inspect retries
      (Migration.State.isReady_iff.mp (h.handing.waiting enabled.2.1)).2.1 record
    refine cost_lt hrunning hrunning ?_
    simp only [recordCost] at hbegin ⊢
    omega
  | lose _ _ status => exact cost_lt_of_over hrunning (by simp [status])
  | conclude enabled =>
    have hshut := dispatchCost_shut retries enabled.1 .ended (by simp)
    have hsame : migrationCost retries (s.migration.next .streamEnd) =
      migrationCost retries s.migration := rfl
    refine cost_lt hrunning hrunning ?_
    simp only [Dispatch.State.next] at hshut ⊢
    omega
  | assign enabled =>
    obtain ⟨t, ht⟩ := Option.isSome_iff_exists.mp enabled.2.1
    have := migrationCost_assign retries ht
    exact cost_lt hrunning hrunning (by dsimp only; omega)
  | move _ _ task step _ =>
    have := migrationCost_taskStep hnodup (Migration.State.task?_eq_some task).1 step
    rw [h.policy, hretries] at this
    exact cost_lt hrunning hrunning (by dsimp only; omega)
  | settle _ _ task step _ =>
    have := migrationCost_taskStep hnodup (Migration.State.task?_eq_some task).1 step
    rw [h.policy, hretries] at this
    refine cost_lt hrunning hrunning ?_
    simp only [dispatchCost_done]
    omega
  | finish _ => exact cost_lt_of_over hrunning (by simp)

/-- How many steps a run over given streams takes at most: a few for each segment, and for each
record a number that grows with the retries allowed. -/
def stepBound (config : Config) (source : Nat → Stream Record) : Nat :=
  ((List.range config.segments).map fun i =>
    (source i).items.length * (2 * config.retry.maxRetries + 10) + 3).sum + 7

theorem cost_start (labelledDry : Value) (baseline : Tally) (startedAt : Float) :
    cost config.retry.maxRetries source (start config labelledDry baseline startedAt) =
      stepBound config source := by
  have hsegments : (List.range config.segments).map (segmentCost config.retry.maxRetries source
        (Scan.start config.segments config.queueCapacity)) =
      (List.range config.segments).map fun i =>
        (source i).items.length * (2 * config.retry.maxRetries + 10) + 3 := by
    apply List.map_congr_left
    intro i hi
    have hlt := List.mem_range.mp hi
    simp [segmentCost, Scan.start, hlt, readerCost, readingCost, heldCost, recordCost]
  have hrunning : (start config labelledDry baseline startedAt).isRunning = true := rfl
  rw [cost, if_pos hrunning, stepBound, ← hsegments]
  simp only [start, scanCost, dispatchCost, migrationCost, Migration.start, Dispatch.start,
    consumerCost, Dispatch.State.isRunning, pullerCost]
  simp [Scan.start]
  omega

variable {moves : List (State × Event)} {labelledDry : Value} {startedAt : Float}

theorem trace_length_le (positive : config.Positive)
    (ordinary : Scan.Ordinary source config.segments)
    (trace : Trace (OrdinaryStep source) (start config labelledDry baseline startedAt) moves t) :
    moves.length ≤ stepBound config source := by
  have hlength := (invariant_trace positive ordinary trace).length_add_le
    (cost config.retry.maxRetries source) fun t e u step => step_cost step.1 step.2
  rw [cost_start] at hlength
  omega

end Steps

end Rekey.Run
