import Rekey.Proofs.Dispatch.Load
import Rekey.Proofs.Migration.Slots
import Rekey.Proofs.Run.History
import Rekey.Proofs.Scan.Flow

/-! # How far a run reads ahead

Whatever the store answers, the records read and not marked done are in the hand of a reader, in
the queue, in the part of a window gathered so far, or in a window in flight. A pull holds a slot
while it gathers, so that part and windows together keep to the slots. -/
namespace Rekey.Run

open Counter (Tally)

/-- A step, whatever the store answers. -/
inductive FreeStep : State → Event → State → Prop where
  | intro {s : State} {e : Event} (enabled : s.Enabled e) : FreeStep s e (s.next e)

theorem FreeStep.running {s t : State} {e : Event} (step : FreeStep s e t) :
    s.status = .running := by
  obtain ⟨enabled⟩ := step
  exact State.isRunning_iff.mp enabled.1

theorem Step.free {source : Nat → Stream Record} {s t : State} {e : Event}
    (step : Step source s e t) : FreeStep s e t := by
  obtain ⟨enabled, -⟩ := step
  exact .intro enabled

/-- The items yielded by the scan are in the windows pulled or in the part gathered, `lost` when the
scan has failed. A part that is not empty stands for a slot that no window has. -/
def Gathered (config : Config) (yielded : List (Nat × Record)) (held : List Record)
    (d : Dispatch.State Record) : Prop :=
  ∃ lost, (yielded.map (·.2)).Perm (d.pulled.flatten ++ (held ++ lost)) ∧
    (held ++ lost).length < config.buffer ∧
    (held ++ lost ≠ [] → d.inFlight < config.maxWindows) ∧
    (d.puller.isLive = true → lost = [])

/-- How far a run has come. When its migrations are broken off, all else has stopped. -/
inductive Stage (s : State) : Prop where
  | running : s.status = .running → s.migration.status = .running → Stage s
  | completed {summary : Summary} : s.status = .completed summary →
    s.migration.status = .finished → s.migration.tasks = [] → Stage s
  | broken : ¬ s.migration.IsWhole → s.status ≠ .running →
    (∀ summary, s.status ≠ .completed summary) → s.scan.status ≠ .running →
    s.dispatch.status ≠ .running → Stage s

/-- What holds of a run at any time, whatever the store answers. -/
structure Flow (config : Config) (s : State) : Prop where
  config_eq : s.config = config
  scan : Scan.Flow config.segments config.queueCapacity s.scan
  load : Dispatch.Load config.maxWindows config.buffer s.dispatch
  slots : Migration.Slots config.maxConcurrency s.migration
  gathered : Gathered config s.scan.yielded s.held s.dispatch
  unmarked : s.dispatch.pulled.flatten.length ≤ s.migration.settled.length + s.dispatch.owed
  inspected : s.migration.tally.inspected = s.dispatch.delivered.length
  waiting : s.dispatch.consumer = .waiting → s.migration.isReady = true
  stage : Stage s

section Bound
variable {config : Config} {s : State}

theorem Gathered.yielded_le {yielded : List (Nat × Record)} {held : List Record}
    {d : Dispatch.State Record} (h : Gathered config yielded held d)
    (load : Dispatch.Load config.maxWindows config.buffer d) :
    yielded.length + d.owed ≤ d.pulled.flatten.length + config.maxWindows * config.buffer := by
  obtain ⟨lost, perm, short, slot, -⟩ := h
  have hlength := perm.length_eq
  rw [List.length_map, List.length_append] at hlength
  have howed := load.owed_le
  by_cases empty : held ++ lost = []
  · rw [empty, List.length_nil] at hlength
    have := Nat.mul_le_mul_right config.buffer load.inFlight_le
    omega
  · -- The part gathered fits into the one slot that is left for it.
    have := Nat.mul_le_mul_right config.buffer (slot empty)
    rw [Nat.succ_mul] at this
    omega

theorem Flow.produced_le (h : Flow config s) : s.produced.length ≤
    s.migration.settled.length + config.maxWindows * config.buffer + min config.buffer 1024 +
      config.segments := by
  have hscan := h.scan.produced_le
  have hgathered := h.gathered.yielded_le h.load
  have hunmarked := h.unmarked
  show s.scan.produced.length ≤ _
  rw [Config.queueCapacity] at hscan
  omega

end Bound

section Links
variable {config : Config} {yielded : List (Nat × Record)} {held : List Record}
  {d d' : Dispatch.State Record} {marks : Nat}

theorem Gathered.of_eased (h : Gathered config yielded held d)
    (eased : Dispatch.Eased marks d d') : Gathered config yielded held d' := by
  obtain ⟨lost, perm, short, slot, live⟩ := h
  refine ⟨lost, ?_, short, ?_, fun hl => live (eased.live hl)⟩
  · rw [eased.pulled]
    exact perm
  · exact fun part => Nat.lt_of_le_of_lt eased.inFlight (slot part)

theorem marks_load (load : Dispatch.Load config.maxWindows config.buffer d)
    (marked : List Migration.Settled) :
    Dispatch.Load config.maxWindows config.buffer
        (marked.foldl (fun d t => d.next (.done t.number)) d) ∧
      Dispatch.Eased marked.length d (marked.foldl (fun d t => d.next (.done t.number)) d) := by
  induction marked generalizing d with
  | nil => exact ⟨load, .refl d⟩
  | cons x marked ih =>
    obtain ⟨hload, heased⟩ := ih (load.done x.number)
    refine ⟨hload, ?_⟩
    have := (Dispatch.done_eased d x.number).trans heased
    rwa [Nat.add_comm] at this

/-- Marks leave what was delivered, and the consumer, alone. -/
theorem marks_frame (d : Dispatch.State Record) (marked : List Migration.Settled) :
    ∃ free inFlight slots, marked.foldl (fun d t => d.next (.done t.number)) d =
      { d with free, inFlight, slots } := by
  induction marked generalizing d with
  | nil => exact ⟨_, _, _, rfl⟩
  | cons x marked ih =>
    obtain ⟨free, inFlight, slots, heq, -⟩ := Dispatch.done_frame d x.number
    obtain ⟨free', inFlight', slots', heq'⟩ := ih (d.next (.done x.number))
    exact ⟨free', inFlight', slots', by rw [List.foldl_cons, heq', heq]⟩

end Links

section Preservation
variable {config : Config} {s u : State} {marks : Nat}

theorem start_flow (positive : config.Positive) (labelledDry : Value) (baseline : Tally)
    (startedAt : Float) : Flow config (start config labelledDry baseline startedAt) := by
  have hload := Dispatch.start_load (α := Record) config.maxWindows config.buffer
  constructor
  · rfl
  · exact Scan.start_flow _ _
  · exact hload
  · exact Migration.start_slots _ _ _
  · refine ⟨[], ?_, positive.buffer, fun part => absurd rfl part, fun _ => rfl⟩
    simp [start, Scan.start, Dispatch.start]
  · simp [start, Dispatch.start]
  · rfl
  · intro waiting
    cases waiting
  · exact .running rfl rfl

/-- What brings no window, and marks no record that is not settled. -/
theorem Flow.of_eased (h : Flow config s) (eased : Dispatch.Eased marks s.dispatch u.dispatch)
    (config_eq : u.config = s.config) (held : u.held = s.held)
    (scan : Scan.Flow config.segments config.queueCapacity u.scan)
    (yielded : u.scan.yielded = s.scan.yielded)
    (load : Dispatch.Load config.maxWindows config.buffer u.dispatch)
    (slots : Migration.Slots config.maxConcurrency u.migration)
    (settled : s.migration.settled.length + marks ≤ u.migration.settled.length)
    (inspected : u.migration.tally.inspected = u.dispatch.delivered.length)
    (waiting : u.dispatch.consumer = .waiting → u.migration.isReady = true)
    (stage : Stage u) : Flow config u := by
  refine ⟨config_eq.trans h.config_eq, scan, load, slots, ?_, ?_, inspected, waiting, stage⟩
  · rw [yielded, held]
    exact h.gathered.of_eased eased
  · have hunmarked := h.unmarked
    have howed := eased.owed
    rw [eased.pulled]
    omega

theorem Flow.running (h : Flow config s) (running : s.isRunning = true) :
    s.status = .running ∧ s.migration.status = .running := by
  have running := State.isRunning_iff.mp running
  refine ⟨running, ?_⟩
  cases h.stage with
  | running _ migrating => exact migrating
  | completed completed => rw [running] at completed; cases completed
  | broken _ stopped => exact absurd running stopped

/-- The puller moves, and nothing else than the scan with it. -/
theorem Flow.of_puller (h : Flow config s) (running : s.isRunning = true)
    (config_eq : u.config = s.config) (status : u.status = s.status)
    (migration : u.migration = s.migration)
    (scan : Scan.Flow config.segments config.queueCapacity u.scan)
    (load : Dispatch.Load config.maxWindows config.buffer u.dispatch)
    (gathered : Gathered config u.scan.yielded u.held u.dispatch)
    (unmarked : u.dispatch.pulled.flatten.length ≤ s.migration.settled.length + u.dispatch.owed)
    (delivered : u.dispatch.delivered = s.dispatch.delivered)
    (consumer : u.dispatch.consumer = s.dispatch.consumer) : Flow config u := by
  obtain ⟨going, migrating⟩ := h.running running
  refine ⟨config_eq.trans h.config_eq, scan, load, ?_, gathered, ?_, ?_, ?_,
    .running (status.trans going) (by rw [migration]; exact migrating)⟩
  · rw [migration]; exact h.slots
  · rw [migration]; exact unmarked
  · rw [migration, delivered]; exact h.inspected
  · rw [migration, consumer]; exact h.waiting

theorem Flow.of_scan (h : Flow config s) (running : s.isRunning = true)
    {scan : Scan.State Record} (flow : Scan.Flow config.segments config.queueCapacity scan)
    (yielded : scan.yielded = s.scan.yielded) : Flow config { s with scan := scan } := by
  refine h.of_puller running rfl rfl rfl flow h.load ?_ h.unmarked rfl rfl
  dsimp only
  rw [yielded]
  exact h.gathered

theorem Flow.gather (h : Flow config s) (running : s.isRunning = true) {segment : Nat}
    {record : Record} {queue : List (Scan.Entry Record)} {held : List Record}
    (pulling : s.dispatch.puller = .pulling) (scanRunning : s.scan.isRunning = true)
    (hq : s.scan.queue = .item segment record :: queue)
    (push : Window.push s.config.buffer s.held record = (none, held)) :
    Flow config { s with scan := s.scan.take, held } := by
  have htake := h.scan.take (Scan.State.isRunning_iff.mp scanRunning)
  have hshort : (record :: s.held).length < config.buffer := by
    rw [← h.config_eq]
    unfold Window.push at push
    split at push
    · next short => exact short
    · cases push
  obtain rfl := push_none push
  obtain ⟨lost, perm, -, -, live⟩ := h.gathered
  obtain rfl := live (by rw [pulling]; rfl)
  rw [List.append_nil] at perm
  refine h.of_puller running rfl rfl rfl htake h.load ?_ h.unmarked rfl rfl
  refine ⟨[], ?_, ?_, fun _ => h.load.inFlight_lt pulling, fun _ => rfl⟩
  · rw [take_item hq, List.append_nil]
    exact (perm.cons record).trans List.perm_middle.symm
  · rw [List.append_nil]
    exact hshort

/-- A window comes that holds all that was gathered. -/
theorem Flow.arrive (h : Flow config s) (running : s.isRunning = true) {window : List Record}
    {scan : Scan.State Record} (pulling : s.dispatch.puller = .pulling)
    (flow : Scan.Flow config.segments config.queueCapacity scan)
    (sized : 0 < window.length ∧ window.length ≤ config.buffer)
    (filled : ∀ lost, lost = [] →
      (s.scan.yielded.map (·.2)).Perm (s.dispatch.pulled.flatten ++ (s.held ++ lost)) →
      (scan.yielded.map (·.2)).Perm (window ++ s.dispatch.pulled.flatten)) :
    Flow config { s with scan := scan, held := [], dispatch := s.dispatch.arrive window } := by
  obtain ⟨lost, perm, short, -, live⟩ := h.gathered
  have hlost := live (by rw [pulling]; rfl)
  refine h.of_puller running rfl rfl rfl flow (h.load.arrive pulling sized) ?_ ?_ rfl rfl
  · refine ⟨[], ?_, ?_, fun part => absurd rfl part, fun _ => rfl⟩
    · simpa [Dispatch.State.arrive] using filled lost hlost perm
    · exact Nat.zero_lt_of_lt short
  · have hunmarked := h.unmarked
    dsimp only
    rw [Dispatch.arrive_owed]
    simp only [Dispatch.State.arrive, List.flatten_cons, List.length_append]
    omega

theorem Flow.fill (h : Flow config s) (running : s.isRunning = true) {segment : Nat}
    {record : Record} {queue : List (Scan.Entry Record)} {window held order : List Record}
    (pulling : s.dispatch.puller = .pulling) (scanRunning : s.scan.isRunning = true)
    (hq : s.scan.queue = .item segment record :: queue)
    (push : Window.push s.config.buffer s.held record = (some window, held))
    (perm : order.Perm window) :
    Flow config { s with scan := s.scan.take, held, dispatch := s.dispatch.arrive order } := by
  have htake := h.scan.take (Scan.State.isRunning_iff.mp scanRunning)
  obtain ⟨rfl, rfl⟩ := push_some push
  have perm := perm.trans (List.reverse_perm _)
  obtain ⟨lost, -, short, -, -⟩ := h.gathered
  rw [List.length_append] at short
  refine h.arrive running pulling htake ?_ ?_
  · rw [perm.length_eq, List.length_cons]
    exact ⟨Nat.succ_pos _, by omega⟩
  · rintro _ rfl hold
    rw [List.append_nil] at hold
    rw [take_item hq]
    exact (hold.cons record).trans (List.perm_append_comm.cons record |>.trans
      (perm.symm.append_right _))

theorem Flow.flush (h : Flow config s) (running : s.isRunning = true) {order : List Record}
    (pulling : s.dispatch.puller = .pulling) (part : s.held ≠ []) (perm : order.Perm s.held) :
    Flow config { s with held := [], dispatch := s.dispatch.arrive order } := by
  obtain ⟨lost, -, short, -, -⟩ := h.gathered
  rw [List.length_append] at short
  refine h.arrive running pulling h.scan ?_ ?_
  · rw [perm.length_eq]
    exact ⟨List.length_pos_iff.mpr part, by omega⟩
  · rintro _ rfl hold
    rw [List.append_nil] at hold
    exact hold.trans (List.perm_append_comm.trans (perm.symm.append_right _))

theorem Flow.fault (h : Flow config s) (running : s.isRunning = true) {failure : Failure}
    (pulling : s.dispatch.puller = .pulling) (scanRunning : s.scan.isRunning = true)
    (yielded : s.scan.take.yielded = s.scan.yielded) :
    Flow config { s with
      scan := s.scan.take
      held := []
      dispatch := s.dispatch.next (.sourceFail failure) } := by
  have enabled : s.dispatch.Enabled (.sourceFail failure) :=
    Dispatch.State.isPulling_iff.mpr pulling
  obtain ⟨lost, perm, short, slot, live⟩ := h.gathered
  obtain rfl := live (by rw [pulling]; rfl)
  rw [List.append_nil] at perm short
  refine h.of_puller running rfl rfl rfl (h.scan.take (Scan.State.isRunning_iff.mp scanRunning))
    (Dispatch.step_preserves_load h.load (.intro enabled) (by simp)) ?_ h.unmarked rfl rfl
  refine ⟨s.held, ?_, short, fun _ => h.load.inFlight_lt pulling, fun live => by cases live⟩
  dsimp only
  rw [yielded]
  exact perm

/-- A move of the dispatcher alone that brings no window and delivers nothing. -/
theorem Flow.of_dispatch (h : Flow config s) (running : s.isRunning = true)
    {e : Dispatch.Event Record} (enabled : s.dispatch.Enabled e) (quiet : e.isQuiet = true)
    (delivered : (s.dispatch.next e).delivered = s.dispatch.delivered)
    (waiting : (s.dispatch.next e).consumer = .waiting → s.migration.isReady = true)
    (scanning : Bool) :
    Flow config { s with scanning := scanning, dispatch := s.dispatch.next e } := by
  have hload := Dispatch.step_preserves_load h.load (.intro enabled) fun window he => by
    rw [he] at quiet
    cases quiet
  obtain ⟨going, migrating⟩ := h.running running
  exact h.of_eased (Dispatch.next_eased enabled quiet) rfl rfl h.scan rfl hload h.slots
    (Nat.le_refl _) (h.inspected.trans (congrArg List.length delivered).symm) waiting
    (.running going migrating)

theorem close_of_broken (broken : ¬ s.migration.IsWhole) : ∃ status, status ≠ .running ∧
    (∀ summary, status ≠ .completed summary) ∧ s.close = { s with
      status
      scan := if s.scan.isRunning then s.scan.shut .closed else s.scan
      dispatch := if s.dispatch.isRunning then s.dispatch.shut .closed else s.dispatch } := by
  unfold State.close
  cases h : s.migration.status with
  | running => exact absurd (.inl h) broken
  | finished => exact absurd (.inr h) broken
  | failed failure => exact ⟨.failed failure, by simp, by simp, rfl⟩
  | cancelled => exact ⟨.cancelled, by simp, by simp, rfl⟩

theorem closed_scan {segments capacity : Nat} {scan : Scan.State Record}
    (h : Scan.Flow segments capacity scan) :
    Scan.Flow segments capacity (if scan.isRunning then scan.shut .closed else scan) ∧
      (if scan.isRunning then scan.shut .closed else scan).yielded = scan.yielded ∧
      (if scan.isRunning then scan.shut .closed else scan).status ≠ .running := by
  by_cases running : scan.isRunning = true
  · simp only [running, if_true]
    exact ⟨h.shut (by simp), rfl, by simp [Scan.State.shut]⟩
  · simp only [running]
    exact ⟨h, rfl, mt Scan.State.isRunning_iff.mpr running⟩

theorem closed_dispatch {cap size : Nat} {d : Dispatch.State Record}
    (h : Dispatch.Load cap size d) :
    Dispatch.Load cap size (if d.isRunning then d.shut .closed else d) ∧
      Dispatch.Eased 0 d (if d.isRunning then d.shut .closed else d) ∧
      (if d.isRunning then d.shut .closed else d).delivered = d.delivered ∧
      (if d.isRunning then d.shut .closed else d).consumer ≠ .waiting ∧
      (if d.isRunning then d.shut .closed else d).status ≠ .running := by
  by_cases running : d.isRunning = true
  · simp only [running, if_true]
    exact ⟨h.close, Dispatch.shut_eased d _, rfl, by simp [Dispatch.State.shut],
      by simp [Dispatch.State.shut]⟩
  · have stopped := mt Dispatch.State.isRunning_iff.mpr running
    simp only [running]
    exact ⟨h, .refl d, rfl, fun waiting => stopped (h.waiting waiting).1, stopped⟩

/-- An event of the migrations that gives them nothing and does not end them. -/
theorem Flow.migrate (h : Flow config s) (running : s.isRunning = true) {e : Migration.Event}
    (enabled : s.migration.Enabled e)
    (undisturbed : Migration.Undisturbed s.migration (s.migration.next e)) :
    Flow config (s.migrate e) := by
  have slots := Migration.step_preserves_slots h.slots (.intro enabled)
  obtain ⟨more, hmore⟩ := Migration.next_settled s.migration e
  unfold State.migrate
  dsimp only
  generalize s.migration.next e = m at *
  have hsettled : s.migration.settled.length + (m.settledSince s.migration).length ≤
      m.settled.length := by
    have := congrArg List.length hmore
    rw [List.length_append] at this
    simp only [Migration.State.settledSince, List.length_reverse, List.length_take]
    omega
  obtain ⟨load, eased⟩ := marks_load h.load (m.settledSince s.migration)
  obtain ⟨free, inFlight, windows, hframe⟩ :=
    marks_frame s.dispatch (m.settledSince s.migration)
  rw [hframe] at load eased ⊢
  have inspected : m.tally.inspected = s.dispatch.delivered.length :=
    undisturbed.inspected.trans h.inspected
  by_cases whole : m.IsWhole
  · obtain ⟨ready, status⟩ := undisturbed.going.resolve_right (not_not_intro whole)
    rw [close_of_whole (s := { s with migration := m, dispatch := _ }) whole]
    obtain ⟨going, migrating⟩ := h.running running
    refine h.of_eased eased rfl rfl h.scan rfl load slots hsettled inspected ?_
      (.running going (status.trans migrating))
    intro waiting
    rw [ready]
    exact h.waiting waiting
  · obtain ⟨status, stopped, unfinished, hclose⟩ :=
      close_of_broken (s := { s with migration := m, dispatch := _ }) whole
    obtain ⟨scan, yielded, scanStopped⟩ := closed_scan h.scan
    obtain ⟨load', eased', delivered, idle, dispatchStopped⟩ := closed_dispatch load
    rw [hclose]
    refine h.of_eased (eased.trans eased') rfl rfl scan yielded load' slots hsettled ?_ ?_
      (.broken whole stopped unfinished scanStopped dispatchStopped)
    · rw [inspected, delivered]
    · exact fun waiting => absurd waiting idle

/-- The migrations ask for a record, or wait for one, and get none. -/
theorem Flow.deliver_none (h : Flow config s) (running : s.isRunning = true)
    {e : Dispatch.Event Record} (enabled : s.dispatch.Enabled e) (quiet : e.isQuiet = true)
    (delivered : (s.dispatch.next e).delivered = s.dispatch.delivered)
    (ready : s.migration.isReady = true) : Flow config (s.deliver none e) := by
  have hmoved := h.of_dispatch running enabled quiet delivered (fun _ => ready) s.scanning
  cases hs : (s.dispatch.next e).status with
  | failed failure =>
    rw [deliver_failed hs]
    exact hmoved.migrate running (e := .streamFail failure) ready
      (Migration.abort_undisturbed s.migration (by simp) (by simp))
  | running | ended | closed =>
    unfold State.deliver
    simp only [hs]
    exact hmoved

/-- A record goes from the windows to the migrations. -/
theorem Flow.hand (h : Flow config s) (running : s.isRunning = true)
    {e : Dispatch.Event Record} (enabled : s.dispatch.Enabled e) (quiet : e.isQuiet = true)
    {x : Dispatch.Delivery Record}
    (delivered : (s.dispatch.next e).delivered = x :: s.dispatch.delivered)
    (idle : (s.dispatch.next e).consumer = .idle) (ready : s.migration.isReady = true)
    (record : Record) : Flow config (s.deliver (some record) e) := by
  rw [deliver_some]
  have hload := Dispatch.step_preserves_load h.load (.intro enabled) fun window he => by
    rw [he] at quiet
    cases quiet
  obtain ⟨going, migrating⟩ := h.running running
  refine h.of_eased (Dispatch.next_eased enabled quiet) rfl rfl h.scan rfl hload
    (h.slots.inspect ready record) (Nat.le_refl _) ?_ ?_ (.running going migrating)
  · dsimp only
    rw [delivered, List.length_cons, ← h.inspected]
    rfl
  · intro waiting
    dsimp only at waiting
    rw [idle] at waiting
    cases waiting

theorem await_delivered (d : Dispatch.State Record) : d.await.delivered = d.delivered := by
  unfold Dispatch.State.await
  split <;> rfl

theorem Flow.request (h : Flow config s) (running : s.isRunning = true)
    (ready : s.migration.isReady = true) (enabled : s.dispatch.Enabled .request) :
    Flow config (s.next .request) := by
  unfold State.next
  cases hc : s.dispatch.current with
  | nil =>
    refine h.deliver_none running enabled rfl ?_ ready
    simp only [Dispatch.State.next, hc]
    exact await_delivered _
  | cons record current =>
    refine h.hand (x := ⟨record, s.dispatch.begun - 1⟩) running enabled rfl ?_ ?_ ready record
    · simp [Dispatch.State.next, hc, Dispatch.State.deliver]
    · simp [Dispatch.State.next, hc, Dispatch.State.deliver]

theorem Flow.begin (h : Flow config s) (running : s.isRunning = true)
    (enabled : s.dispatch.Enabled .begin) : Flow config (s.next .begin) := by
  have ready := h.waiting enabled.2.1
  unfold State.next
  cases hr : s.dispatch.ready with
  | nil => simp [Dispatch.State.Enabled, hr] at enabled
  | cons window later =>
    cases window with
    | nil =>
      refine h.deliver_none running enabled rfl ?_ ready
      simp only [Dispatch.State.next, Dispatch.State.begin, hr, List.isEmpty_nil, if_true]
      exact await_delivered _
    | cons record current =>
      have hbegin := Dispatch.begin_eq hr
      refine h.hand (x := ⟨record, s.dispatch.begun⟩) running enabled rfl ?_ ?_ ready record
      · rw [Dispatch.State.next, hbegin]
      · rw [Dispatch.State.next, hbegin]

theorem Flow.conclude (h : Flow config s) (running : s.isRunning = true)
    (enabled : s.dispatch.Enabled .conclude) : Flow config (s.next .conclude) := by
  have ready := h.waiting enabled.2.1
  have hload := Dispatch.step_preserves_load h.load (.intro enabled) (by simp)
  obtain ⟨going, migrating⟩ := h.running running
  exact h.of_eased (Dispatch.next_eased enabled rfl) rfl rfl h.scan rfl hload
    (Migration.step_preserves_slots h.slots (.intro (e := .streamEnd) ready)) (Nat.le_refl _)
    h.inspected (fun waiting => by cases waiting) (.running going migrating)

theorem Flow.assign (h : Flow config s) (running : s.isRunning = true)
    (enabled : s.migration.Enabled .assign) : Flow config (s.next .assign) := by
  have slots := Migration.step_preserves_slots h.slots (.intro enabled)
  obtain ⟨-, waiting, -⟩ := enabled
  obtain ⟨t, ht⟩ := Option.isSome_iff_exists.mp waiting
  unfold State.next
  simp only [Migration.State.next, ht] at slots ⊢
  obtain ⟨going, migrating⟩ := h.running running
  refine h.of_eased (.refl _) rfl rfl h.scan rfl h.load slots (Nat.le_refl _) h.inspected ?_
    (.running going migrating)
  intro waiting
  have := (Migration.State.isReady_iff.mp (h.waiting waiting)).2.1
  rw [ht] at this
  cases this

theorem Flow.finish (h : Flow config s) (now : Float) (enabled : s.migration.Enabled .finish) :
    Flow config (s.next (.finish now)) := by
  have slots := Migration.step_preserves_slots h.slots (.intro enabled)
  obtain ⟨-, ended, tasks⟩ := enabled
  refine h.of_eased (.refl _) rfl rfl h.scan rfl h.load slots (Nat.le_refl _) h.inspected ?_
    (.completed rfl rfl (List.isEmpty_iff.mp tasks))
  intro waiting
  have := (Migration.State.isReady_iff.mp (h.waiting waiting)).2.2
  rw [ended] at this
  cases this

theorem Flow.task (h : Flow config s) (running : s.isRunning = true) {e : Migration.Event}
    {number : Nat} (own : e.number? = some number) (enabled : s.migration.Enabled e) :
    Flow config (s.migrate e) := by
  obtain ⟨t, -, -, act⟩ := Migration.taskAct_of_step (.event (.intro enabled)) own
  exact h.migrate running enabled act.undisturbed

theorem Flow.collect (h : Flow config s) (running : s.isRunning = true) {order : List Record}
    (enabled : s.Enabled (.collect order)) : Flow config (s.next (.collect order)) := by
  obtain ⟨-, pulling, ⟨scanRunning, queue⟩, allowed⟩ := enabled
  have change := change_of_collect (Dispatch.State.isPulling_iff.mp pulling) scanRunning queue
    allowed
  rw [State.next]
  generalize s.collect order = t at change
  cases change with
  | gather pulling scanRunning hq push => exact h.gather running pulling scanRunning hq push
  | fill pulling scanRunning hq push perm =>
    exact h.fill running pulling scanRunning hq push perm
  | mark _ scanRunning hq =>
    exact h.of_scan running (h.scan.take (Scan.State.isRunning_iff.mp scanRunning))
      (take_done hq).1
  | fault pulling scanRunning hq failed =>
    refine h.fault running pulling scanRunning ?_
    simp [Scan.State.take, hq, Scan.State.shut]
  | lose event =>
    rcases event with ⟨event, -⟩ | event <;> cases event
  | move task => cases task
  | settle task => cases task

theorem step_preserves_flow {e : Event} (h : Flow config s) (step : FreeStep s e u) :
    Flow config u := by
  obtain ⟨all⟩ := step
  obtain ⟨running, enabled⟩ := id all
  cases e with
  | read segment answer =>
    exact h.of_scan running (Scan.enabled_preserves_flow h.scan enabled.2)
      (by simp [Scan.State.next])
  | put segment =>
    exact h.of_scan running (Scan.enabled_preserves_flow h.scan enabled.2)
      (by simp [Scan.State.next])
  | acquire => exact h.of_dispatch running enabled rfl rfl h.waiting true
  | collect order => exact h.collect running all
  | flush order =>
    obtain ⟨pulling, -, part, perm⟩ := enabled
    exact h.flush running (Dispatch.State.isPulling_iff.mp pulling)
      (List.isEmpty_eq_false_iff.mp part)
      ((List.isPerm_iff.mp perm).trans (List.reverse_perm _))
  | exhaust => exact h.of_dispatch (e := .sourceEnd) running enabled.1 rfl rfl h.waiting s.scanning
  | request => exact h.request running enabled.1 enabled.2
  | begin => exact h.begin running enabled
  | surrender =>
    exact h.deliver_none running enabled rfl (await_delivered _) (h.waiting enabled.2.1)
  | conclude => exact h.conclude running enabled
  | assign => exact h.assign running enabled
  | start | answer | wake => exact h.task running rfl enabled
  | finish now => exact h.finish now enabled
  | cancel =>
    have migrating := (h.running running).2
    exact h.migrate running (e := .cancel) (Migration.State.isRunning_iff.mpr migrating)
      (Migration.abort_undisturbed s.migration (by simp) (by simp))

end Preservation

section Component
variable {config : Config} {s t : State}

theorem migrate_migration (s : State) (e : Migration.Event) :
    (s.migrate e).migration = s.migration.next e := by
  unfold State.migrate State.close
  dsimp only
  cases (s.migration.next e).status <;> rfl

theorem failed_migration {e : Dispatch.Event Record} {failure : Failure}
    (failed : (s.dispatch.next e).status = .failed failure) :
    (s.deliver none e).migration = s.migration.next (.streamFail failure) := by
  rw [deliver_failed failed, migrate_migration]

/-- Whatever the store answers, the migrations in a run take their own steps. -/
theorem Flow.migration_step (h : Flow config s) {e : Event} (step : FreeStep s e t) :
    (∃ e', s.migrationEvent? e = some e' ∧ Migration.Step s.migration e' t.migration) ∨
      (s.migrationEvent? e = none ∧ t.migration = s.migration) := by
  obtain ⟨running, enabled⟩ := step
  cases e with
  | read | put | acquire | flush | exhaust => exact .inr ⟨rfl, rfl⟩
  | collect order =>
    refine .inr ⟨rfl, ?_⟩
    simp only [State.next, State.collect]
    repeat' split
    all_goals rfl
  | request =>
    obtain ⟨ready, dispatching, -⟩ := enabled
    have dispatching := Dispatch.State.isRunning_iff.mp dispatching
    simp only [State.next, State.migrationEvent?]
    cases hc : s.dispatch.current with
    | cons record current => exact .inl ⟨.inspect record, rfl, .intro ready⟩
    | nil =>
      have hnext : s.dispatch.next .request = s.dispatch.await := by
        simp [Dispatch.State.next, hc]
      rw [List.head?_nil]
      cases hp : s.dispatch.puller with
      | failed failure =>
        refine .inl ⟨.streamFail failure, rfl, ?_⟩
        rw [failed_migration (by rw [hnext]; exact await_failed hp)]
        exact .intro ready
      | resting | seeking | pulling | ended | stopped =>
        have going : (s.dispatch.next .request).status = .running := by
          simp [hnext, Dispatch.State.await, hp, dispatching]
        exact .inr ⟨rfl, by rw [Run.deliver_none going]⟩
  | begin =>
    obtain ⟨-, waiting, ready⟩ := enabled
    cases hr : s.dispatch.ready with
    | nil => simp [hr] at ready
    | cons window later =>
      -- No window is empty, so that its first record is delivered at once.
      obtain ⟨record, current, rfl⟩ := List.exists_cons_of_length_pos
        (h.load.sized window (by simp [hr])).1
      simp only [State.next, State.migrationEvent?, hr, List.head?_cons, Option.bind_some,
        Option.map_some]
      exact .inl ⟨.inspect record, rfl, .intro (h.waiting waiting)⟩
  | surrender =>
    obtain ⟨-, waiting, -, failed⟩ := enabled
    split at failed
    · next failure hp =>
      refine .inl ⟨.streamFail failure, by simp only [State.migrationEvent?, hp], ?_⟩
      rw [State.next, failed_migration (e := .surrender) (await_failed hp)]
      exact .intro (h.waiting waiting)
    · exact failed.elim
  | conclude => exact .inl ⟨.streamEnd, rfl, .intro (h.waiting enabled.2.1)⟩
  | assign => exact .inl ⟨.assign, rfl, .intro enabled⟩
  | start number =>
    exact .inl ⟨.start number, rfl, by rw [State.next, migrate_migration]; exact .intro enabled⟩
  | answer number outcome fraction =>
    refine .inl ⟨.answer number outcome fraction, rfl, ?_⟩
    rw [State.next, migrate_migration]
    exact .intro enabled
  | wake number =>
    exact .inl ⟨.wake number, rfl, by rw [State.next, migrate_migration]; exact .intro enabled⟩
  | finish now => exact .inl ⟨.finish, rfl, .intro enabled⟩
  | cancel =>
    refine .inl ⟨.cancel, rfl, ?_⟩
    rw [State.next, migrate_migration]
    exact .intro (Migration.State.isRunning_iff.mpr (h.running running).2)

/-- What the migrations are given has been read. -/
theorem Flow.inspected_produced (h : Flow config s) {e : Event} {record : Record}
    (inspects : s.migrationEvent? e = some (.inspect record)) : record ∈ s.produced := by
  have hrecords := h.load.records_eq
  suffices mem : record ∈ s.dispatch.pulled.reverse.flatten by
    obtain ⟨lost, perm, -⟩ := h.gathered
    refine h.scan.yielded_subperm.subset (perm.symm.subset (List.mem_append_left _ ?_))
    exact (List.reverse_perm _).flatten.subset mem
  rw [← hrecords]
  cases e with
  | request =>
    cases hc : s.dispatch.current with
    | nil =>
      simp only [State.migrationEvent?, hc] at inspects
      cases hp : s.dispatch.puller <;> simp [hp] at inspects
    | cons first current =>
      obtain rfl : first = record := by simpa [State.migrationEvent?, hc] using inspects
      exact List.mem_append_left _ (List.mem_append_right _ List.mem_cons_self)
  | begin =>
    simp only [State.migrationEvent?, Option.map_eq_some_iff, Option.bind_eq_some_iff] at inspects
    obtain ⟨first, ⟨window, hwindow, hfirst⟩, heq⟩ := inspects
    obtain rfl : first = record := by simpa using heq
    refine List.mem_append_right _ (List.mem_flatten.mpr ⟨window, ?_, ?_⟩)
    · exact List.mem_of_mem_head? hwindow
    · exact List.mem_of_mem_head? hfirst
  | surrender =>
    simp only [State.migrationEvent?] at inspects
    split at inspects <;> cases inspects
  | read | put | acquire | collect | flush | exhaust | conclude | assign | start | answer | wake
  | finish | cancel => cases inspects

end Component

section Runs
variable {config : Config} {baseline : Tally} {labelledDry : Value} {startedAt : Float}
  {moves : List (State × Event)} {t : State}

theorem trace_flow (positive : config.Positive)
    (trace : Trace FreeStep (start config labelledDry baseline startedAt) moves t) :
    Flow config t :=
  (trace.strengthen (start_flow positive labelledDry baseline startedAt)
    fun _ _ _ flow step => ⟨step_preserves_flow flow step, step⟩).2

/-- The scan is never further ahead of the records marked done than the windows in flight, the
queue and the readers' hands have room for. -/
theorem scan_ahead_bounded (positive : config.Positive)
    (trace : Trace FreeStep (start config labelledDry baseline startedAt) moves t) :
    t.produced.length ≤ t.migration.settled.length + config.maxWindows * config.buffer +
      min config.buffer 1024 + config.segments :=
  (trace_flow positive trace).produced_le

end Runs

/-- One record waits for the store, one stands in the queue, and the reader holds one more. -/
def brimmingEvents : List Event :=
  [.read 0 (.item ada), .put 0, .read 0 (.item ada), .start 0, .assign, .begin, .collect [ada],
    .put 0, .read 0 (.item ada), .acquire, .request]

def brimming : State := Trace.reached State.next smallStart brimmingEvents

/-- With windows and queue of size one the bound is reached. -/
theorem brimming_bounded : smallConfig.Positive ∧
    ∃ moves, Trace FreeStep smallStart moves brimming ∧
      brimming.migration.settled.length + 3 = brimming.produced.length ∧
      brimming.produced.length ≤ brimming.migration.settled.length +
        smallConfig.maxWindows * smallConfig.buffer + min smallConfig.buffer 1024 +
        smallConfig.segments := by
  have trace : Trace FreeStep smallStart
      (Trace.replay State.next smallStart brimmingEvents) brimming := by
    apply Trace.of_replays State.next
    refine ⟨⟨?_⟩, ⟨?_⟩, ⟨?_⟩, ⟨?_⟩, ⟨?_⟩, ⟨?_⟩, ⟨?_⟩, ⟨?_⟩, ⟨?_⟩, ⟨?_⟩, ⟨?_⟩, trivial⟩
    all_goals decide +kernel
  exact ⟨small_positive, _, trace, by decide +kernel, scan_ahead_bounded small_positive trace⟩

end Rekey.Run
