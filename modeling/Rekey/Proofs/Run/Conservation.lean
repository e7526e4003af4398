import Rekey.Proofs.Config
import Rekey.Proofs.Run.Steps

/-! # Nothing is lost between the stages

The items that the scan has yielded are those in the windows pulled and in the part of a window
gathered so far. The records inspected are those delivered, in their order. The slot of a window
counts its records that are not settled, delivered or not. These links and the invariants of the
stages hold of a run until the scan fails. -/
namespace Rekey.Run

open Counter (Tally)

def windowOf (s : Dispatch.State Record) (number : Nat) : Option Nat :=
  s.deliveries[number]?.map (·.window)

def State.given (s : State) : List Record := s.dispatch.deliveries.map (·.record)

/-- The scan and the windows fit together. -/
structure Gathering (s : State) : Prop where
  gathered : (∀ failure, s.scan.status ≠ .failed failure) →
    (s.dispatch.pulled.flatten ++ s.held).Perm (s.scan.yielded.map (·.2))
  nonempty : ∀ window ∈ s.dispatch.pulled, window ≠ []
  scanning : s.dispatch.puller = .pulling → s.scanning = true
  still_open : s.scan.status ≠ .closed
  ended : s.dispatch.puller = .ended → s.scan.status = .ended ∧ s.held = []
  failed : ∀ failure, s.dispatch.puller = .failed failure ↔ s.scan.status = .failed failure

/-- The windows and the migrations fit together. -/
structure Handing (s : State) : Prop where
  unresolved : ∀ w, s.dispatch.unresolved w =
    (if w + 1 = s.dispatch.begun then s.dispatch.current.length else 0) +
      (s.migration.pending.countP fun t => windowOf s.dispatch t.number = some w : Nat)
  waiting : s.dispatch.consumer = .waiting → s.migration.isReady = true
  supply : (s.dispatch.status = .running ∧ s.migration.supply = .flowing) ∨
    (s.dispatch.status = .ended ∧ s.migration.supply = .ended)

/-- What holds of a run over given streams until their scan fails. -/
structure Invariant (config : Config) (baseline : Tally) (source : Nat → Stream Record)
    (s : State) : Prop where
  config_eq : s.config = config
  baseline_eq : s.baseline = baseline
  scan : Scan.Invariant source config.segments config.queueCapacity s.scan
  dispatch : Dispatch.Invariant config.maxWindows s.dispatch
  ledger : Migration.Ledger config.maxConcurrency s.given s.migration
  dryRun : s.migration.dryRun = config.isDry
  policy : s.migration.policy = config.retry
  gathering : Gathering s
  handing : Handing s
  status : (s.status = .running ∧ s.migration.status = .running) ∨
    ∃ now, s.status = .completed (s.summary now) ∧ s.migration.status = .finished
  quiet : ∀ notice ∈ s.notices ++ s.scan.notices, notice.level ≠ .warning

/-- The run has raised the failure of a segment's scan. -/
def Lost (config : Config) (source : Nat → Stream Record) (s : State) : Prop :=
  ∃ i < config.segments, ∃ cause, (source i).failure = some cause ∧
    s.status = .failed (.because (.scan i config.segments cause) cause)

theorem push_none {size : Nat} {held held' : List Record} {record : Record}
    (h : Window.push size held record = (none, held')) : held' = record :: held := by
  unfold Window.push at h
  split at h
  · cases h; rfl
  · cases h

theorem push_some {size : Nat} {held held' window : List Record} {record : Record}
    (h : Window.push size held record = (some window, held')) :
    window = (record :: held).reverse ∧ held' = [] := by
  unfold Window.push at h
  split at h
  · cases h
  · cases h; exact ⟨rfl, rfl⟩

section Scan
variable {s : Scan.State Record} {queue : List (Scan.Entry Record)}

theorem take_item {segment : Nat} {record : Record} (hq : s.queue = .item segment record :: queue) :
    s.take = { s with queue := queue, yielded := (segment, record) :: s.yielded } := by
  simp [Scan.State.take, hq]

theorem take_done {segment : Nat} (hq : s.queue = .done segment :: queue) :
    s.take.yielded = s.yielded ∧ s.take.notices = s.notices ∧
      (s.take.status = s.status ∨ s.take.status = .ended) := by
  simp only [Scan.State.take, hq]
  split
  · exact ⟨rfl, rfl, .inr rfl⟩
  · exact ⟨rfl, rfl, .inl rfl⟩

theorem take_failed {segment : Nat} {cause : Failure}
    (hq : s.queue = .failed segment cause :: queue) :
    s.take.notices = .segmentFailed segment s.total :: s.notices := by
  simp [Scan.State.take, hq, Scan.State.shut]

theorem read_notices (s : Scan.State Record) (segment : Nat) (answer : Answer Record) :
    ∀ notice ∈ (s.read segment answer).notices, notice ∈ s.notices ∨ notice.level = .debug := by
  intro notice h
  unfold Scan.State.read at h
  split at h
  · exact .inl h
  · cases answer with
    | item | failed => exact .inl h
    | exhausted =>
      rcases List.mem_cons.mp h with rfl | h
      · exact .inr rfl
      · exact .inl h

theorem put_notices (s : Scan.State Record) (segment : Nat) :
    (s.put segment).notices = s.notices := by
  unfold Scan.State.put
  split <;> rfl

end Scan

section Links
variable {s t : State}

theorem Gathering.congr (h : Gathering s) (status : t.scan.status = s.scan.status)
    (yielded : t.scan.yielded = s.scan.yielded) (held : t.held = s.held)
    (pulled : t.dispatch.pulled = s.dispatch.pulled)
    (puller : t.dispatch.puller = s.dispatch.puller) (scanning : t.scanning = s.scanning) : Gathering t := by
  constructor
  · rw [status, yielded, held, pulled]; exact h.gathered
  · rw [pulled]; exact h.nonempty
  · rw [puller, scanning]; exact h.scanning
  · rw [status]; exact h.still_open
  · rw [puller, status, held]; exact h.ended
  · rw [puller, status]; exact h.failed

theorem Handing.congr (h : Handing s) (slots : t.dispatch.slots = s.dispatch.slots)
    (current : t.dispatch.current = s.dispatch.current)
    (delivered : t.dispatch.delivered = s.dispatch.delivered)
    (numbers : (t.migration.pending.map (·.number)).Perm (s.migration.pending.map (·.number)))
    (waiting : t.dispatch.consumer = .waiting → t.migration.isReady = true)
    (supply : (t.dispatch.status = .running ∧ t.migration.supply = .flowing) ∨
      (t.dispatch.status = .ended ∧ t.migration.supply = .ended)) : Handing t := by
  refine ⟨fun w => ?_, waiting, supply⟩
  have hwindow : windowOf t.dispatch = windowOf s.dispatch := by
    funext n
    simp only [windowOf, Dispatch.State.deliveries, delivered]
  have hcount := numbers.countP_eq fun n => decide (windowOf s.dispatch n = some w)
  rw [List.countP_map, List.countP_map] at hcount
  have := h.unresolved w
  unfold Dispatch.State.unresolved Dispatch.State.begun at this ⊢
  rw [slots, current, hwindow, this]
  congr 2
  exact hcount.symm

theorem windowOf_append {d d' : Dispatch.State Record} {x : Dispatch.Delivery Record}
    (delivered : d'.delivered = x :: d.delivered) {number : Nat} :
    windowOf d' number = if number < d.deliveries.length then windowOf d number
      else if number = d.deliveries.length then some x.window else none := by
  unfold windowOf Dispatch.State.deliveries
  rw [delivered, List.reverse_cons]
  split
  · next h => rw [List.getElem?_append_left h]
  · next h =>
    rw [List.getElem?_append_right (Nat.not_lt.mp h)]
    split
    · next heq => simp [heq]
    · next hne => rw [List.getElem?_eq_none (by simp only [List.length_singleton]; omega)]; rfl

/-- A record that is delivered from window `w` is one more of that window that is not settled. -/
theorem countP_windowOf {d d' : Dispatch.State Record} {x : Dispatch.Delivery Record}
    (delivered : d'.delivered = x :: d.delivered) (tasks : List Migration.Task)
    (known : ∀ t ∈ tasks, t.number < d.deliveries.length) (t : Migration.Task)
    (number : t.number = d.deliveries.length) (w : Nat) :
    ((t :: tasks).countP fun t => decide (windowOf d' t.number = some w)) =
      (tasks.countP fun t => decide (windowOf d t.number = some w)) +
        if x.window = w then 1 else 0 := by
  have hnew : windowOf d' t.number = some x.window := by
    rw [windowOf_append delivered, if_neg (by omega), if_pos number]
  rw [List.countP_cons, hnew]
  congr 1
  · apply List.countP_congr
    intro t ht
    rw [windowOf_append delivered, if_pos (known t ht)]
  · simp

end Links

section Preservation
variable {config : Config} {baseline : Tally} {source : Nat → Stream Record} {s t : State}

theorem start_invariant (positive : config.Positive)
    (ordinary : Scan.Ordinary source config.segments) (labelledDry : Value) (startedAt : Float) :
    Invariant config baseline source (start config labelledDry baseline startedAt) := by
  refine ⟨rfl, rfl, Scan.start_invariant positive.segments ordinary, Dispatch.start_invariant _,
    Migration.start_ledger _ _ _, rfl, rfl, ?_, ?_, .inl ⟨rfl, rfl⟩, ?_⟩
  · constructor <;> simp [start, Scan.start, Dispatch.start]
  · constructor <;> simp [start, Dispatch.start, Dispatch.State.unresolved, Dispatch.State.begun,
      Migration.start, Migration.State.pending]
  · simp [start, Scan.start, Notice.level]

theorem Invariant.whole (h : Invariant config baseline source s) : s.migration.IsWhole := by
  rcases h.status with ⟨-, hm⟩ | ⟨-, -, hm⟩
  · exact .inl hm
  · exact .inr hm

theorem Invariant.running (h : Invariant config baseline source s) (running : s.isRunning = true) :
    s.status = .running ∧ s.migration.status = .running := by
  have hrunning := State.isRunning_iff.mp running
  rcases h.status with hs | ⟨now, hs, -⟩
  · exact hs
  · rw [hrunning] at hs; cases hs

theorem Invariant.ready_nonempty (h : Invariant config baseline source s) :
    ∀ window ∈ s.dispatch.ready, window ≠ [] := by
  intro window hw
  rw [← h.dispatch.ready_eq] at hw
  exact h.gathering.nonempty window (List.mem_reverse.mp (List.mem_of_mem_drop hw))

theorem Invariant.of_puller (h : Invariant config baseline source s)
    (running : s.isRunning = true) {scanning : Bool} {scan : Scan.State Record}
    {held : List Record} {dispatch : Dispatch.State Record}
    (scan_invariant : Scan.Invariant source config.segments config.queueCapacity scan)
    (dispatch_invariant : Dispatch.Invariant config.maxWindows dispatch)
    (gathering : Gathering { s with scanning, scan, held, dispatch })
    (slots : dispatch.slots = s.dispatch.slots) (current : dispatch.current = s.dispatch.current)
    (delivered : dispatch.delivered = s.dispatch.delivered)
    (consumer : dispatch.consumer = s.dispatch.consumer)
    (status : dispatch.status = s.dispatch.status)
    (quiet : ∀ notice ∈ scan.notices, notice ∈ s.scan.notices ∨ notice.level ≠ .warning) :
    Invariant config baseline source { s with scanning, scan, held, dispatch } := by
  refine { h with
    scan := scan_invariant
    dispatch := dispatch_invariant
    ledger := ?_
    gathering := gathering
    handing := h.handing.congr slots current delivered (.refl _) ?_ ?_
    status := .inl (h.running running)
    quiet := ?_ }
  · have hgiven : State.given { s with scanning, scan, held, dispatch } = s.given := by
      simp only [State.given, Dispatch.State.deliveries, delivered]
    rw [hgiven]
    exact h.ledger
  · rw [consumer]; exact h.handing.waiting
  · rw [status]; exact h.handing.supply
  · intro notice hn
    rcases List.mem_append.mp hn with hn | hn
    · exact h.quiet notice (List.mem_append_left _ hn)
    · rcases quiet notice hn with hn | hn
      · exact h.quiet notice (List.mem_append_right _ hn)
      · exact hn

theorem Invariant.of_scan (h : Invariant config baseline source s) {scan : Scan.State Record}
    (running : s.isRunning = true)
    (scan_invariant : Scan.Invariant source config.segments config.queueCapacity scan)
    (gathering : Gathering { s with scan := scan })
    (quiet : ∀ notice ∈ scan.notices, notice ∈ s.scan.notices ∨ notice.level ≠ .warning) :
    Invariant config baseline source { s with scan := scan } :=
  h.of_puller running scan_invariant h.dispatch gathering rfl rfl rfl rfl rfl quiet

theorem Invariant.read (h : Invariant config baseline source s)
    (ordinary : Scan.Ordinary source config.segments) (running : s.isRunning = true)
    {segment : Nat} {answer : Answer Record}
    (enabled : s.scan.Enabled (.read segment answer))
    (follows : Scan.Event.Follows source s.scan (.read segment answer)) :
    Invariant config baseline source { s with scan := s.scan.read segment answer } := by
  refine h.of_scan running
    (Scan.step_preserves_invariant ordinary h.scan (.intro enabled follows))
    (h.gathering.congr (by simp) (by simp) rfl rfl rfl rfl) ?_
  intro notice hn
  rcases read_notices _ _ _ notice hn with hn | hn
  · exact .inl hn
  · exact .inr (by simp [hn])

theorem Invariant.put (h : Invariant config baseline source s)
    (ordinary : Scan.Ordinary source config.segments) (running : s.isRunning = true)
    {segment : Nat} (enabled : s.scan.Enabled (.put segment)) :
    Invariant config baseline source { s with scan := s.scan.put segment } :=
  h.of_scan running (Scan.step_preserves_invariant ordinary h.scan (.intro enabled trivial))
    (h.gathering.congr (by simp) (by simp) rfl rfl rfl rfl)
    (fun notice hn => .inl (by rwa [put_notices] at hn))

theorem Invariant.acquire (h : Invariant config baseline source s) (running : s.isRunning = true)
    (seeking : s.dispatch.puller = .seeking) (free : 0 < s.dispatch.free) :
    Invariant config baseline source
      { s with scanning := true, dispatch := s.dispatch.next .acquire } := by
  refine h.of_puller running h.scan (h.dispatch.acquire seeking free) ?_ rfl rfl rfl rfl rfl
    (fun _ hn => .inl hn)
  have hnot : ∀ failure, s.scan.status ≠ .failed failure := by
    intro failure hf
    rw [← h.gathering.failed, seeking] at hf
    cases hf
  exact { h.gathering with
    scanning := fun _ => rfl
    ended := fun he => by cases he
    failed := fun failure => ⟨fun hf => (by cases hf), fun hf => absurd hf (hnot failure)⟩ }

theorem not_failed (running : s.scan.isRunning = true) (failure : Failure) :
    s.scan.status ≠ .failed failure := by
  rw [Scan.State.isRunning_iff.mp running]
  simp

theorem Invariant.gather (h : Invariant config baseline source s)
    (ordinary : Scan.Ordinary source config.segments) (running : s.isRunning = true)
    {segment : Nat} {record : Record} {queue : List (Scan.Entry Record)} {held : List Record}
    (pulling : s.dispatch.puller = .pulling) (scanRunning : s.scan.isRunning = true)
    (hq : s.scan.queue = .item segment record :: queue)
    (push : Window.push s.config.buffer s.held record = (none, held)) :
    Invariant config baseline source { s with scan := s.scan.take, held } := by
  have htake := h.scan.take ordinary (Scan.State.isRunning_iff.mp scanRunning) (by simp [hq])
  obtain rfl := push_none push
  rw [take_item hq] at htake ⊢
  refine h.of_puller running htake h.dispatch ?_ rfl rfl rfl rfl rfl (fun _ hn => .inl hn)
  refine { h.gathering with
    gathered := fun hf => ?_
    ended := fun he => ?_ }
  · exact List.perm_middle.trans ((h.gathering.gathered hf).cons record)
  · dsimp only at he; rw [pulling] at he; cases he

theorem Invariant.arrive (h : Invariant config baseline source s) (running : s.isRunning = true)
    {scan : Scan.State Record} {window : List Record} (pulling : s.dispatch.puller = .pulling)
    (scan_invariant : Scan.Invariant source config.segments config.queueCapacity scan)
    (notices : scan.notices = s.scan.notices) (nonempty : window ≠ [])
    (still_open : scan.status ≠ .closed) (sound : ∀ failure, scan.status ≠ .failed failure)
    (gathered : (window ++ s.dispatch.pulled.flatten).Perm (scan.yielded.map (·.2))) :
    Invariant config baseline source
      { s with scan := scan, held := [], dispatch := s.dispatch.arrive window } := by
  refine h.of_puller running scan_invariant (h.dispatch.arrive pulling window) ?_ rfl rfl rfl rfl
    rfl (fun notice hn => .inl (notices ▸ hn))
  refine ⟨fun _ => ?_, ?_, fun hp => (by cases hp), still_open, fun he => (by cases he), ?_⟩
  · simpa [Dispatch.State.arrive] using gathered
  · intro w hw
    rcases List.mem_cons.mp hw with rfl | hw
    · exact nonempty
    · exact h.gathering.nonempty w hw
  · exact fun failure => ⟨fun hf => (by cases hf), fun hf => absurd hf (sound failure)⟩

theorem Invariant.fill (h : Invariant config baseline source s)
    (ordinary : Scan.Ordinary source config.segments) (running : s.isRunning = true)
    {segment : Nat} {record : Record} {queue : List (Scan.Entry Record)} {window held order : List Record}
    (pulling : s.dispatch.puller = .pulling) (scanRunning : s.scan.isRunning = true)
    (hq : s.scan.queue = .item segment record :: queue)
    (push : Window.push s.config.buffer s.held record = (some window, held))
    (perm : order.Perm window) :
    Invariant config baseline source
      { s with scan := s.scan.take, held, dispatch := s.dispatch.arrive order } := by
  have htake := h.scan.take ordinary (Scan.State.isRunning_iff.mp scanRunning) (by simp [hq])
  obtain ⟨rfl, rfl⟩ := push_some push
  have perm := perm.trans (List.reverse_perm _)
  rw [take_item hq] at htake ⊢
  refine h.arrive running pulling htake rfl ?_ h.gathering.still_open (not_failed scanRunning) ?_
  · rintro rfl
    exact (List.cons_ne_nil _ _ (List.nil_perm.mp perm)).elim
  · refine (perm.append_right _).trans ?_
    exact (List.perm_append_comm.trans (h.gathering.gathered (not_failed scanRunning))).cons record

theorem Invariant.flush (h : Invariant config baseline source s) (running : s.isRunning = true)
    {order : List Record} (pulling : s.dispatch.puller = .pulling)
    (ended : s.scan.status = .ended) (nonempty : s.held ≠ []) (perm : order.Perm s.held) :
    Invariant config baseline source
      { s with held := [], dispatch := s.dispatch.arrive order } := by
  have sound : ∀ failure, s.scan.status ≠ .failed failure := by simp [ended]
  have filled : order ≠ [] := by
    rintro rfl
    exact nonempty (List.nil_perm.mp perm)
  refine h.arrive running pulling h.scan rfl filled h.gathering.still_open sound ?_
  exact (perm.append_right _).trans
    (List.perm_append_comm.trans (h.gathering.gathered sound))

theorem Invariant.mark (h : Invariant config baseline source s)
    (ordinary : Scan.Ordinary source config.segments) (running : s.isRunning = true)
    {segment : Nat} {queue : List (Scan.Entry Record)}
    (pulling : s.dispatch.puller = .pulling) (scanRunning : s.scan.isRunning = true)
    (hq : s.scan.queue = .done segment :: queue) :
    Invariant config baseline source { s with scan := s.scan.take } := by
  have htake := h.scan.take ordinary (Scan.State.isRunning_iff.mp scanRunning) (by simp [hq])
  obtain ⟨hyielded, hnotices, hstatus⟩ := take_done hq
  have hrunning := Scan.State.isRunning_iff.mp scanRunning
  refine h.of_scan running htake ?_ (fun notice hn => .inl (hnotices ▸ hn))
  have hopen : s.scan.take.status ≠ .closed ∧ ∀ failure, s.scan.take.status ≠ .failed failure := by
    rcases hstatus with hs | hs <;> simp [hs, hrunning]
  refine ⟨fun _ => ?_, h.gathering.nonempty, h.gathering.scanning, hopen.1, fun he => ?_, ?_⟩
  · rw [hyielded]
    exact h.gathering.gathered (not_failed scanRunning)
  · dsimp only at he; rw [pulling] at he; cases he
  · intro failure
    dsimp only
    rw [pulling]
    exact ⟨fun hf => (by cases hf), fun hf => absurd hf (hopen.2 failure)⟩

theorem Invariant.fault (h : Invariant config baseline source s)
    (ordinary : Scan.Ordinary source config.segments) (running : s.isRunning = true)
    {segment : Nat} {cause failure : Failure}
    {queue : List (Scan.Entry Record)} (pulling : s.dispatch.puller = .pulling)
    (scanRunning : s.scan.isRunning = true) (hq : s.scan.queue = .failed segment cause :: queue)
    (failed : s.scan.take.status = .failed failure) :
    Invariant config baseline source
      { s with
        scan := s.scan.take
        held := []
        dispatch := s.dispatch.next (.sourceFail failure) } := by
  have htake := h.scan.take ordinary (Scan.State.isRunning_iff.mp scanRunning) (by simp [hq])
  refine h.of_puller running htake (h.dispatch.source_over pulling (.inr ⟨failure, rfl⟩)) ?_ rfl
    rfl rfl rfl rfl ?_
  · refine ⟨fun hf => absurd failed (hf failure), h.gathering.nonempty, fun hp => (by cases hp),
      by simp [failed], fun he => (by cases he), fun failure' => ?_⟩
    simp [Dispatch.State.next, failed]
  · intro notice hn
    rw [take_failed hq] at hn
    rcases List.mem_cons.mp hn with rfl | hn
    · exact .inr (by simp [Notice.level])
    · exact .inl hn

theorem Invariant.exhaust (h : Invariant config baseline source s) (running : s.isRunning = true)
    (pulling : s.dispatch.puller = .pulling) (ended : s.scan.status = .ended) (held : s.held = []) :
    Invariant config baseline source { s with dispatch := s.dispatch.next .sourceEnd } := by
  refine h.of_puller running h.scan (h.dispatch.source_over pulling (.inl rfl)) ?_ rfl rfl rfl rfl
    rfl (fun _ hn => .inl hn)
  exact { h.gathering with
    scanning := fun hp => (by cases hp)
    ended := fun _ => ⟨ended, held⟩
    failed := fun failure => by simp [Dispatch.State.next, ended] }

/-- A record is handed from the windows to the migrations. -/
theorem Invariant.hand (h : Invariant config baseline source s) (running : s.isRunning = true)
    {dispatch : Dispatch.State Record} {record : Record} (ready : s.migration.isReady = true)
    (dispatch_invariant : Dispatch.Invariant config.maxWindows dispatch)
    (pulled : dispatch.pulled = s.dispatch.pulled) (puller : dispatch.puller = s.dispatch.puller)
    (delivered : dispatch.delivered = ⟨record, dispatch.begun - 1⟩ :: s.dispatch.delivered)
    (begun : 0 < dispatch.begun) (idle : dispatch.consumer = .idle)
    (status : dispatch.status = .running)
    (unresolved : ∀ w, dispatch.unresolved w =
      (if w + 1 = dispatch.begun then dispatch.current.length + 1 else 0) +
        (s.migration.pending.countP fun t => windowOf s.dispatch t.number = some w : Nat)) :
    Invariant config baseline source
      { s with dispatch := dispatch, migration := s.migration.next (.inspect record) } := by
  obtain ⟨hrunning, hwaiting, hflowing⟩ := Migration.State.isReady_iff.mp ready
  have hgiven : dispatch.deliveries.map (·.record) = s.given ++ [record] := by
    simp [State.given, Dispatch.State.deliveries, delivered]
  have hlength : s.given.length = s.dispatch.deliveries.length := by simp [State.given]
  have hpending : s.migration.pending = s.migration.tasks := by
    simp [Migration.State.pending, hwaiting]
  refine { h with
    dispatch := dispatch_invariant
    ledger := ?_
    gathering := h.gathering.congr rfl rfl rfl pulled puller rfl
    handing := ⟨fun w => ?_, fun hw => ?_, .inl ⟨status, hflowing⟩⟩
    status := .inl ⟨(h.running running).1, hrunning⟩ }
  · simp only [State.given, hgiven]
    exact h.ledger.inspect ready record
  · have hcount := @countP_windowOf s.dispatch dispatch _ delivered s.migration.tasks
      (fun t ht => ?_) ⟨s.migration.tally.inspected, record, 0, .created⟩
      (by rw [h.ledger.inspected, hlength]) w
    · have hunresolved := unresolved w
      simp only [Migration.State.pending, Migration.State.next, Option.toList_some,
        List.singleton_append]
      rw [hcount, hunresolved, hpending]
      dsimp only
      by_cases hw : w + 1 = dispatch.begun
      · rw [if_pos hw, if_pos hw, if_pos (by omega)]; omega
      · rw [if_neg hw, if_neg hw, if_neg (by omega)]; omega
    · have := h.ledger.number_lt h.whole (hpending ▸ ht)
      rw [h.ledger.inspected] at this
      omega
  · dsimp only at hw; rw [idle] at hw; cases hw

theorem Invariant.next (h : Invariant config baseline source s) (running : s.isRunning = true)
    {record : Record} {current : List Record} (ready : s.migration.isReady = true)
    (request : s.dispatch.Enabled .request) (hc : s.dispatch.current = record :: current) :
    Invariant config baseline source { s with
      dispatch := s.dispatch.deliver
      migration := s.migration.next (.inspect record) } := by
  have hstatus := Dispatch.State.isRunning_iff.mp request.1
  have hdispatch := h.dispatch.deliver hstatus (by simp [hc])
  have hbegun := h.dispatch.begun_pos (by simp [hc])
  simp only [Dispatch.State.deliver, hc] at hdispatch ⊢
  refine h.hand running ready hdispatch rfl rfl rfl hbegun rfl hstatus ?_
  intro w
  have := h.handing.unresolved w
  simp only [hc, List.length_cons] at this
  exact this

theorem Invariant.await (h : Invariant config baseline source s) (running : s.isRunning = true)
    (ready : s.migration.isReady = true) (request : s.dispatch.Enabled .request)
    (hc : s.dispatch.current = []) (sound : ∀ failure, s.dispatch.puller ≠ .failed failure) :
    Invariant config baseline source { s with dispatch := s.dispatch.await } := by
  have hstatus := Dispatch.State.isRunning_iff.mp request.1
  have hdispatch := h.dispatch.await hstatus hc
  obtain ⟨-, -, hflowing⟩ := Migration.State.isReady_iff.mp ready
  unfold Dispatch.State.await at hdispatch ⊢
  split at hdispatch
  · next failure hp => exact absurd hp (sound failure)
  · next hp =>
    refine { h with
      dispatch := hdispatch
      gathering := { h.gathering with
        scanning := fun hp' => (by cases hp')
        ended := fun he => (by cases he)
        failed := fun failure => ?_ }
      handing := h.handing.congr rfl rfl rfl (.refl _) (fun _ => ready) (.inl ⟨hstatus, hflowing⟩)
      status := .inl (h.running running) }
    rw [← h.gathering.failed, hp]
    simp
  · exact { h with
      dispatch := hdispatch
      gathering := h.gathering.congr rfl rfl rfl rfl rfl rfl
      handing := h.handing.congr rfl rfl rfl (.refl _) (fun _ => ready)
        (.inl ⟨hstatus, hflowing⟩)
      status := .inl (h.running running) }

theorem Invariant.begin (h : Invariant config baseline source s) (running : s.isRunning = true)
    {record : Record} {current : List Record} {ready : List (List Record)}
    (enabled : s.dispatch.Enabled .begin) (hr : s.dispatch.ready = (record :: current) :: ready) :
    Invariant config baseline source
      { s with dispatch := s.dispatch.begin, migration := s.migration.next (.inspect record) } := by
  obtain ⟨-, waiting, more⟩ := enabled
  have hdispatch := h.dispatch.begin waiting more
  obtain ⟨hstatus, hcurrent, -⟩ := h.dispatch.waiting waiting
  rw [Dispatch.begin_eq hr] at hdispatch ⊢
  refine h.hand running (h.handing.waiting waiting) hdispatch rfl rfl (by
    simp [Dispatch.State.begun]) (by simp [Dispatch.State.begun]) rfl hstatus fun w => ?_
  have hold : s.dispatch.unresolved w =
      (s.migration.pending.countP fun t => windowOf s.dispatch t.number = some w : Nat) := by
    simpa [hcurrent] using h.handing.unresolved w
  rw [← hold]
  unfold Dispatch.State.unresolved Dispatch.State.begun
  simp only [List.length_append, List.length_singleton]
  -- The slot opened just now is behind all others.
  rcases Nat.lt_trichotomy w s.dispatch.slots.length with hlt | rfl | hgt
  · rw [List.getElem?_append_left hlt, if_neg (by omega)]
    exact (Int.zero_add _).symm
  · rw [List.getElem?_append_right (Nat.le_refl _)]
    simp [Dispatch.Slot.opened]
  · rw [List.getElem?_eq_none (by simp; omega), List.getElem?_eq_none (by omega),
      if_neg (by omega)]
    rfl

theorem Invariant.conclude (h : Invariant config baseline source s) (running : s.isRunning = true)
    (enabled : s.dispatch.Enabled .conclude) :
    Invariant config baseline source { s with
      dispatch := s.dispatch.next .conclude
      migration := s.migration.next .streamEnd } := by
  have hdispatch := Dispatch.step_preserves_invariant h.dispatch (.intro enabled)
  have ready := h.handing.waiting enabled.2.1
  have hended := (hdispatch.ended rfl).2.2
  have hpuller : s.dispatch.puller = .ended := by
    obtain ⟨-, -, -, noMore⟩ := enabled
    split at noMore
    · next hp => exact hp
    · exact noMore.elim
  refine { h with
    dispatch := hdispatch
    ledger := h.ledger.streamEnd ready
    gathering := h.gathering.congr rfl rfl rfl rfl (hended.trans hpuller.symm) rfl
    handing := h.handing.congr rfl rfl rfl (.refl _) (fun hw => ?_) (.inr ⟨rfl, rfl⟩)
    status := .inl (h.running running) }
  cases hw

theorem Invariant.assign (h : Invariant config baseline source s) (running : s.isRunning = true)
    (enabled : s.migration.Enabled .assign) :
    Invariant config baseline source { s with migration := s.migration.next .assign } := by
  have hledger := h.ledger.assign enabled
  obtain ⟨-, waiting, -⟩ := enabled
  obtain ⟨t, ht⟩ := Option.isSome_iff_exists.mp waiting
  simp only [Migration.State.next, ht] at hledger ⊢
  refine { h with
    ledger := hledger
    gathering := h.gathering.congr rfl rfl rfl rfl rfl rfl
    handing := h.handing.congr rfl rfl rfl ?_ (fun hw => ?_) h.handing.supply
    status := .inl (h.running running) }
  · simp only [Migration.State.pending, ht, Option.toList_none, List.nil_append,
      Option.toList_some]
    exact List.perm_append_comm.map _
  · have := (Migration.State.isReady_iff.mp (h.handing.waiting hw)).2.1
    rw [ht] at this
    cases this

theorem isReady_of_frame {u : Migration.State} (frame : Migration.Frame s.migration u) :
    u.isReady = s.migration.isReady := by
  unfold Migration.State.isReady Migration.State.isRunning
  rw [frame.status, frame.waiting, frame.supply]

theorem Invariant.move (h : Invariant config baseline source s) (running : s.isRunning = true)
    {t t' : Migration.Task} {u : Migration.State} (task : s.migration.task? t.number = some t)
    (moved : Migration.Moved s.migration t t' u) :
    Invariant config baseline source { s with migration := u } := by
  have mem := (Migration.State.task?_eq_some task).1
  have hrunning := h.running running
  refine { h with
    ledger := h.ledger.of_moved h.whole (by simp [hrunning.2]) mem moved
    dryRun := moved.dryRun.trans h.dryRun
    policy := moved.policy.trans h.policy
    gathering := h.gathering.congr rfl rfl rfl rfl rfl rfl
    handing := h.handing.congr rfl rfl rfl ?_ (fun hw => ?_) ?_
    status := .inl ⟨hrunning.1, moved.status.trans hrunning.2⟩ }
  · refine List.Perm.trans ?_ ((Migration.pending_perm h.ledger h.whole mem).map _).symm
    simp only [Migration.State.pending, moved.waiting, moved.tasks, ← List.append_assoc]
    rw [List.map_append, List.map_cons (l := _ ++ _), List.map_singleton, moved.number]
    exact List.perm_append_singleton _ _
  · rw [isReady_of_frame moved.toFrame]
    exact h.handing.waiting hw
  · dsimp only
    rw [moved.supply]
    exact h.handing.supply

theorem Invariant.settle (h : Invariant config baseline source s) (running : s.isRunning = true)
    {t : Migration.Task} {ending : Migration.Ending} {u : Migration.State}
    (task : s.migration.task? t.number = some t)
    (ended : Migration.Ended s.migration t ending u) :
    Invariant config baseline source
      { s with migration := u, dispatch := s.dispatch.next (.done t.number) } := by
  have mem := (Migration.State.task?_eq_some task).1
  have hrunning := h.running running
  have hperm := Migration.pending_perm h.ledger h.whole mem
  have hlt : t.number < s.dispatch.deliveries.length := by
    have := h.ledger.number_lt h.whole (Migration.mem_pending mem)
    rw [h.ledger.inspected] at this
    simpa [State.given] using this
  have hdelivery : s.dispatch.delivery? t.number = some s.dispatch.deliveries[t.number] := by
    rw [Dispatch.State.delivery?_eq, List.getElem?_eq_getElem hlt]
  have hwindow : windowOf s.dispatch t.number = some s.dispatch.deliveries[t.number].window := by
    rw [windowOf, List.getElem?_eq_getElem hlt, Option.map_some]
  have hcount : ∀ w, (s.migration.pending.countP fun t => windowOf s.dispatch t.number = some w) =
      (u.pending.countP fun t => windowOf s.dispatch t.number = some w) +
        if w = s.dispatch.deliveries[t.number].window then 1 else 0 := by
    intro w
    rw [hperm.countP_eq, List.countP_cons, hwindow, Migration.State.pending, ended.waiting,
      ended.tasks]
    congr 1
    simp [eq_comm]
  -- The settled task itself is one of those counted, so its window's slot has records left.
  have hleft : 0 < s.dispatch.unresolved s.dispatch.deliveries[t.number].window := by
    rw [h.handing.unresolved, hcount, if_pos rfl]
    split <;> omega
  have hdone := Dispatch.unresolved_done hdelivery hleft
  have hdispatch := h.dispatch.done t.number
  obtain ⟨free, inFlight, slots, hd, hslots⟩ := Dispatch.done_frame s.dispatch t.number
  have hbegun : (s.dispatch.next (.done t.number)).begun = s.dispatch.begun := by
    rw [hd]; exact hslots
  refine { h with
    dispatch := hdispatch
    ledger := ?_
    dryRun := ended.dryRun.trans h.dryRun
    policy := ended.policy.trans h.policy
    gathering := h.gathering.congr rfl rfl rfl (by simp only [hd]) (by simp only [hd]) rfl
    handing := ⟨fun w => ?_, fun hw => ?_, ?_⟩
    status := .inl ⟨hrunning.1, ended.status.trans hrunning.2⟩ }
  · have := h.ledger.of_ended h.whole (by simp [hrunning.2]) mem ended
    simpa only [State.given, Dispatch.State.deliveries, hd] using this
  · have hsame : windowOf (s.dispatch.next (.done t.number)) = windowOf s.dispatch := by
      rw [hd]; rfl
    have hcurrent : (s.dispatch.next (.done t.number)).current = s.dispatch.current := by rw [hd]
    rw [hdone w, h.handing.unresolved w, hcount w, hbegun, hcurrent, hsame]
    dsimp only
    by_cases hw : w = s.dispatch.deliveries[t.number].window
    · rw [if_pos hw, if_pos hw]; omega
    · rw [if_neg hw, if_neg hw]; omega
  · rw [isReady_of_frame ended.toFrame]
    exact h.handing.waiting (by simpa only [hd] using hw)
  · simp only [hd]
    rw [ended.supply]
    exact h.handing.supply

theorem Invariant.finish (h : Invariant config baseline source s) (now : Float)
    (enabled : s.migration.Enabled .finish) :
    Invariant config baseline source { s with
      migration := s.migration.next .finish
      status := .completed (s.summary now)
      notices := .runCompleted (s.summary now) :: s.notices } := by
  obtain ⟨-, hsupply, -⟩ := id enabled
  have hended : s.dispatch.status = .ended := by
    rcases h.handing.supply with ⟨-, hs⟩ | ⟨hs, -⟩
    · rw [hsupply] at hs; cases hs
    · exact hs
  refine { h with
    ledger := h.ledger.finish enabled
    gathering := h.gathering.congr rfl rfl rfl rfl rfl rfl
    handing := h.handing.congr rfl rfl rfl (.refl _) (fun hw => ?_) h.handing.supply
    status := .inr ⟨now, rfl, rfl⟩
    quiet := ?_ }
  · have := (h.dispatch.waiting hw).1
    rw [hended] at this
    cases this
  · intro notice hn
    rcases List.mem_cons.mp hn with rfl | hn
    · simp [Notice.level]
    · exact h.quiet notice hn

theorem Invariant.lose (h : Invariant config baseline source s) {failure : Failure}
    (failed : s.dispatch.puller = .failed failure) (status : t.status = .failed failure) :
    Lost config source t := by
  obtain ⟨i, hi, cause, hcause, rfl⟩ :=
    h.scan.failed failure ((h.gathering.failed failure).mp failed)
  exact ⟨i, hi, cause, hcause, status⟩

/-- A step keeps the invariant, or the run raises the failure of a segment's scan. -/
theorem step_preserves_invariant (h : Invariant config baseline source s)
    (ordinarySource : Scan.Ordinary source config.segments) {e : Event} (step : Step source s e t)
    (ordinary : e.Ordinary) :
    Invariant config baseline source t ∨ Lost config source t := by
  have change := change_of_step step ordinary h.whole h.ready_nonempty
  obtain ⟨⟨running, -⟩, follows⟩ := step
  generalize s.next e = t at change
  cases change with
  | read _ enabled => exact .inl (h.read ordinarySource running enabled follows)
  | put _ enabled => exact .inl (h.put ordinarySource running enabled)
  | acquire seeking free => exact .inl (h.acquire running seeking free)
  | gather pulling scanRunning hq push =>
    exact .inl (h.gather ordinarySource running pulling scanRunning hq push)
  | fill pulling scanRunning hq push perm =>
    exact .inl (h.fill ordinarySource running pulling scanRunning hq push perm)
  | mark pulling scanRunning hq =>
    exact .inl (h.mark ordinarySource running pulling scanRunning hq)
  | fault pulling scanRunning hq failed =>
    exact .inl (h.fault ordinarySource running pulling scanRunning hq failed)
  | flush pulling ended nonempty perm => exact .inl (h.flush running pulling ended nonempty perm)
  | exhaust pulling ended held => exact .inl (h.exhaust running pulling ended held)
  | next ready request hc => exact .inl (h.next running ready request hc)
  | await ready request hc sound => exact .inl (h.await running ready request hc sound)
  | begin enabled hr => exact .inl (h.begin running enabled hr)
  | lose _ failed status => exact .inr (h.lose failed status)
  | conclude enabled => exact .inl (h.conclude running enabled)
  | assign enabled => exact .inl (h.assign running enabled)
  | move _ _ task _ moved => exact .inl (h.move running task moved)
  | settle _ _ task _ ended => exact .inl (h.settle running task ended)
  | finish enabled => exact .inl (h.finish _ enabled)

end Preservation

end Rekey.Run
