import Rekey.Proofs.Run.Flow
import Rekey.Proofs.Window.Places

/-! # How far the windows carry records

The windows of a run are cut from the records in the order of the scan, and the migrations are given
the records window by window. So a record is inspected in the window in which it was scanned,
wherever the run stands and however it ends. -/
namespace Rekey.Run

open Counter (Tally)

/-- The records of the scan, oldest first. -/
def State.scanned (s : State) : List Record := (s.scan.yielded.map (·.2)).reverse

/-- The record that an event gives to the migrations. -/
def State.inspection? (s : State) (e : Event) : Option Record :=
  match s.migrationEvent? e with
  | some (.inspect record) => some record
  | _ => none

/-- The records that the migrations were given, oldest first. -/
def inspections (moves : List (State × Event)) : List Record :=
  (moves.filterMap fun m => m.1.inspection? m.2).reverse

/-- Where the puller stands. While the scan goes on it has been given full windows only. -/
structure Windowed (config : Config) (s : State) : Prop where
  cut : Window.Cut config.buffer s.scanned s.dispatch.pulled.reverse
  rest : s.dispatch.puller.isLive = true →
    s.scanned.drop (s.dispatch.pulled.length * config.buffer) = s.held.reverse
  room : s.dispatch.puller.isLive = true → s.scan.status = .running →
    s.dispatch.pulled.length * config.buffer ≤ s.scanned.length

/-- Between `s` and `t` the puller was given nothing. -/
structure Unpulled (s t : State) : Prop where
  yielded : t.scan.yielded = s.scan.yielded
  held : t.held = s.held
  pulled : t.dispatch.pulled = s.dispatch.pulled
  live : t.dispatch.puller.isLive = true → s.dispatch.puller.isLive = true
  running : t.scan.status = .running → s.scan.status = .running

section Unpulled
variable {s t u : State}

theorem Unpulled.refl (s : State) : Unpulled s s := ⟨rfl, rfl, rfl, id, id⟩

theorem Unpulled.trans (h : Unpulled s t) (h' : Unpulled t u) : Unpulled s u :=
  ⟨h'.yielded.trans h.yielded, h'.held.trans h.held, h'.pulled.trans h.pulled,
    h.live ∘ h'.live, h.running ∘ h'.running⟩

theorem Unpulled.of_eased {marks : Nat} {dispatch : Dispatch.State Record}
    (eased : Dispatch.Eased marks s.dispatch dispatch) (scanning : Bool)
    (migration : Migration.State) :
    Unpulled s { s with scanning := scanning, dispatch := dispatch, migration := migration } :=
  ⟨rfl, rfl, eased.pulled, eased.live, id⟩

theorem close_unpulled (s : State) : Unpulled s s.close := by
  have hscan : (if s.scan.isRunning then s.scan.shut .closed else s.scan).yielded =
      s.scan.yielded ∧ ((if s.scan.isRunning then s.scan.shut .closed else s.scan).status =
        .running → s.scan.status = .running) := by
    split
    · exact ⟨rfl, fun running => by cases running⟩
    · exact ⟨rfl, id⟩
  have hdispatch : Dispatch.Eased 0 s.dispatch
      (if s.dispatch.isRunning then s.dispatch.shut .closed else s.dispatch) := by
    split
    · exact Dispatch.shut_eased _ _
    · exact .refl _
  unfold State.close
  cases s.migration.status with
  | running | finished => exact .refl s
  | failed | cancelled =>
    exact ⟨hscan.1, rfl, hdispatch.pulled, hdispatch.live, hscan.2⟩

theorem migrate_unpulled (s : State) (e : Migration.Event) : Unpulled s (s.migrate e) := by
  obtain ⟨free, inFlight, slots, hframe⟩ :=
    marks_frame s.dispatch ((s.migration.next e).settledSince s.migration)
  have marked : Unpulled s { s with
      migration := s.migration.next e
      dispatch := { s.dispatch with free, inFlight, slots } } := ⟨rfl, rfl, rfl, id, id⟩
  unfold State.migrate
  dsimp only
  rw [hframe]
  exact marked.trans (close_unpulled _)

theorem deliver_unpulled (s : State) (record : Option Record) {e : Dispatch.Event Record}
    (enabled : s.dispatch.Enabled e) (quiet : e.isQuiet = true) :
    Unpulled s (s.deliver record e) := by
  have eased := Dispatch.next_eased enabled quiet
  cases record with
  | some record => exact .of_eased eased s.scanning _
  | none =>
    have moved : Unpulled s { s with dispatch := s.dispatch.next e } :=
      .of_eased eased s.scanning s.migration
    cases hs : (s.dispatch.next e).status with
    | failed failure =>
      rw [deliver_failed hs]
      exact moved.trans (migrate_unpulled _ _)
    | running | ended | closed =>
      unfold State.deliver
      simp only [hs]
      exact moved

/-- The puller takes an entry of the queue or the last window, or it is given nothing. -/
theorem unpulled_of_step {e : Event} (step : FreeStep s e t) :
    (∃ order, e = .collect order) ∨ (∃ order, e = .flush order) ∨ Unpulled s t := by
  obtain ⟨-, enabled⟩ := step
  cases e with
  | collect order => exact .inl ⟨order, rfl⟩
  | flush order => exact .inr (.inl ⟨order, rfl⟩)
  | read segment answer =>
    exact .inr (.inr ⟨by simp [State.next, Scan.State.next], rfl, rfl, id,
      by simp [State.next, Scan.State.next]⟩)
  | put segment =>
    exact .inr (.inr ⟨by simp [State.next, Scan.State.next], rfl, rfl, id,
      by simp [State.next, Scan.State.next]⟩)
  | acquire =>
    exact .inr (.inr (.of_eased (Dispatch.next_eased enabled rfl) true s.migration))
  | exhaust =>
    have eased : Dispatch.Eased 0 s.dispatch (s.dispatch.next .sourceEnd) :=
      Dispatch.next_eased enabled.1 rfl
    exact .inr (.inr (.of_eased eased s.scanning s.migration))
  | request => exact .inr (.inr (deliver_unpulled s _ enabled.2 rfl))
  | begin => exact .inr (.inr (deliver_unpulled s _ enabled rfl))
  | surrender => exact .inr (.inr (deliver_unpulled s _ enabled rfl))
  | conclude =>
    exact .inr (.inr (.of_eased (Dispatch.next_eased enabled rfl) s.scanning _))
  | assign | finish => exact .inr (.inr ⟨rfl, rfl, rfl, id, id⟩)
  | start number => exact .inr (.inr (migrate_unpulled s (.start number)))
  | answer number outcome fraction =>
    exact .inr (.inr (migrate_unpulled s (.answer number outcome fraction)))
  | wake number => exact .inr (.inr (migrate_unpulled s (.wake number)))
  | cancel => exact .inr (.inr (migrate_unpulled s .cancel))

end Unpulled

section Windowed
variable {config : Config} {s t : State}

theorem start_windowed (config : Config) (labelledDry : Value) (baseline : Tally)
    (startedAt : Float) : Windowed config (start config labelledDry baseline startedAt) := by
  refine ⟨?_, fun _ => ?_, fun _ _ => ?_⟩
  · intro number window hw
    cases hw
  · simp [start, State.scanned, Scan.start]
  · simp [start, Dispatch.start]

theorem Windowed.of_unpulled (h : Windowed config s) (same : Unpulled s t) : Windowed config t := by
  have hscanned : t.scanned = s.scanned := by rw [State.scanned, State.scanned, same.yielded]
  constructor
  · rw [hscanned, same.pulled]
    exact h.cut
  · intro live
    rw [hscanned, same.pulled, same.held]
    exact h.rest (same.live live)
  · intro live running
    rw [hscanned, same.pulled]
    exact h.room (same.live live) (same.running running)

theorem Windowed.scanned_length (h : Windowed config s) (live : s.dispatch.puller.isLive = true)
    (running : s.scan.status = .running) :
    s.scanned.length = s.dispatch.pulled.length * config.buffer + s.held.length := by
  have hrest := congrArg List.length (h.rest live)
  have hroom := h.room live running
  rw [List.length_drop, List.length_reverse] at hrest
  omega

/-- More of the scan leaves the windows cut so far as they are. -/
theorem Windowed.cut_append (h : Windowed config s) (live : s.dispatch.puller.isLive = true)
    (running : s.scan.status = .running) (more : List Record) :
    Window.Cut config.buffer (s.scanned ++ more) s.dispatch.pulled.reverse := by
  intro number window hw
  obtain ⟨nonempty, perm⟩ := h.cut number window hw
  have hlt := (List.getElem?_eq_some_iff.mp hw).1
  have hroom := h.room live running
  rw [List.length_reverse] at hlt
  have hend := Nat.mul_le_mul_right config.buffer (Nat.succ_le_of_lt hlt)
  rw [Window.stretch_append (Nat.le_trans hend hroom)]
  exact ⟨nonempty, perm⟩

theorem cut_append_singleton {size : Nat} {items : List Record} {windows : List (List Record)}
    {window : List Record} (h : Window.Cut size items windows) (nonempty : window ≠ [])
    (perm : window.Perm (Window.stretch size items windows.length)) :
    Window.Cut size items (windows ++ [window]) := by
  intro number w hw
  rcases Nat.lt_or_ge number windows.length with hlt | hge
  · rw [List.getElem?_append_left hlt] at hw
    exact h number w hw
  · have hlast := (List.getElem?_eq_some_iff.mp hw).1
    rw [List.length_append, List.length_singleton] at hlast
    obtain rfl : number = windows.length := by omega
    simp only [List.getElem?_concat_length, Option.some.injEq] at hw
    exact hw ▸ ⟨nonempty, perm⟩

theorem scanned_take {segment : Nat} {record : Record} {queue : List (Scan.Entry Record)}
    (hq : s.scan.queue = .item segment record :: queue) :
    (s.scan.take.yielded.map (·.2)).reverse = s.scanned ++ [record] := by
  rw [take_item hq, State.scanned]
  simp

theorem Windowed.gather (h : Windowed config s) {segment : Nat} {record : Record}
    {queue : List (Scan.Entry Record)} (live : s.dispatch.puller.isLive = true)
    (running : s.scan.status = .running) (hq : s.scan.queue = .item segment record :: queue) :
    Windowed config { s with scan := s.scan.take, held := record :: s.held } := by
  have hscanned : State.scanned { s with scan := s.scan.take, held := record :: s.held } =
      s.scanned ++ [record] := scanned_take hq
  have hroom := h.room live running
  constructor
  · rw [hscanned]
    exact h.cut_append live running _
  · intro _
    rw [hscanned, List.drop_append_of_le_length hroom, List.reverse_cons, h.rest live]
  · intro _ _
    rw [hscanned, List.length_append]
    exact Nat.le_add_right_of_le hroom

theorem Windowed.fill (h : Windowed config s) {segment : Nat} {record : Record}
    {queue : List (Scan.Entry Record)} {order : List Record}
    (live : s.dispatch.puller.isLive = true) (running : s.scan.status = .running)
    (hq : s.scan.queue = .item segment record :: queue)
    (full : (record :: s.held).length = config.buffer)
    (perm : order.Perm (record :: s.held).reverse) :
    Windowed config
      { s with scan := s.scan.take, held := [], dispatch := s.dispatch.arrive order } := by
  have hscanned : State.scanned { s with
      scan := s.scan.take, held := [], dispatch := s.dispatch.arrive order } =
      s.scanned ++ [record] := scanned_take hq
  have hpulled : (s.dispatch.arrive order).pulled = order :: s.dispatch.pulled := rfl
  have hroom := h.room live running
  have hlength := h.scanned_length live running
  have hall : (s.scanned ++ [record]).length =
      (s.dispatch.pulled.length + 1) * config.buffer := by
    rw [List.length_cons] at full
    rw [List.length_append, List.length_singleton, hlength, Nat.succ_mul]
    omega
  constructor
  · rw [hscanned, hpulled, List.reverse_cons]
    refine cut_append_singleton (h.cut_append live running _) ?_ ?_
    · intro empty
      rw [empty] at perm
      simpa using perm.length_eq
    · have hstretch : Window.stretch config.buffer (s.scanned ++ [record])
          s.dispatch.pulled.reverse.length = (record :: s.held).reverse := by
        rw [Window.stretch, List.length_reverse, List.drop_append_of_le_length hroom,
          h.rest live, ← List.reverse_cons]
        exact List.take_of_length_le (Nat.le_of_eq (by rw [List.length_reverse, full]))
      rw [hstretch]
      exact perm
  · intro _
    rw [hscanned, hpulled, List.length_cons, ← hall, List.drop_length]
    rfl
  · intro _ _
    exact Nat.le_of_eq (by rw [hscanned, hpulled, List.length_cons, hall])

theorem Windowed.flush (h : Windowed config s) {order : List Record}
    (live : s.dispatch.puller.isLive = true) (ended : s.scan.status = .ended) (part : s.held ≠ [])
    (short : s.held.length < config.buffer) (perm : order.Perm s.held) :
    Windowed config { s with held := [], dispatch := s.dispatch.arrive order } := by
  have hpulled : (s.dispatch.arrive order).pulled = order :: s.dispatch.pulled := rfl
  have hrest := h.rest live
  constructor
  · rw [hpulled, List.reverse_cons]
    refine cut_append_singleton h.cut ?_ ?_
    · intro empty
      rw [empty] at perm
      exact part perm.nil_eq.symm
    · have hstretch : Window.stretch config.buffer s.scanned s.dispatch.pulled.reverse.length =
          s.held.reverse := by
        rw [Window.stretch, List.length_reverse, hrest]
        exact List.take_of_length_le (by rw [List.length_reverse]; omega)
      show order.Perm (Window.stretch config.buffer s.scanned _)
      rw [hstretch]
      exact perm.trans (List.reverse_perm _).symm
  · intro _
    rw [hpulled, List.length_cons]
    refine List.drop_eq_nil_of_le ?_
    have hlength := congrArg List.length hrest
    rw [List.length_drop, List.length_reverse] at hlength
    rw [Nat.succ_mul]
    show s.scanned.length ≤ _
    omega
  · intro _ running
    dsimp only at running
    rw [ended] at running
    cases running

theorem Windowed.fault (h : Windowed config s) {failure : Failure}
    (yielded : s.scan.take.yielded = s.scan.yielded) :
    Windowed config { s with
      scan := s.scan.take
      held := []
      dispatch := s.dispatch.next (.sourceFail failure) } := by
  refine ⟨?_, fun live => (by cases live), fun live => (by cases live)⟩
  rw [State.scanned]
  dsimp only
  rw [yielded]
  exact h.cut

theorem Flow.held_lt (h : Flow config s) : s.held.length < config.buffer := by
  obtain ⟨lost, -, short, -⟩ := h.gathered
  rw [List.length_append] at short
  omega

theorem full_of_push {size : Nat} {held held' window : List Record} {record : Record}
    (short : held.length < size) (h : Window.push size held record = (some window, held')) :
    (record :: held).length = size := by
  unfold Window.push at h
  split at h
  · cases h
  · next full =>
    rw [List.length_cons] at full ⊢
    omega

theorem Windowed.collect (h : Windowed config s) (flow : Flow config s) {order : List Record}
    (enabled : s.Enabled (.collect order)) : Windowed config (s.next (.collect order)) := by
  obtain ⟨-, pulling, ⟨scanRunning, queue⟩, allowed⟩ := enabled
  have pulling := Dispatch.State.isPulling_iff.mp pulling
  have change := change_of_collect pulling scanRunning queue allowed
  have live : s.dispatch.puller.isLive = true := by rw [pulling]; rfl
  have running := Scan.State.isRunning_iff.mp scanRunning
  rw [State.next]
  generalize s.collect order = t at change
  cases change with
  | gather _ _ hq push =>
    obtain rfl := push_none push
    exact h.gather live running hq
  | fill _ _ hq push perm =>
    have full := full_of_push (by rw [flow.config_eq]; exact flow.held_lt) push
    rw [flow.config_eq] at full
    obtain ⟨rfl, rfl⟩ := push_some push
    exact h.fill live running hq full perm
  | mark _ _ hq =>
    obtain ⟨yielded, -, -⟩ := take_done hq
    exact h.of_unpulled ⟨yielded, rfl, rfl, id, fun _ => running⟩
  | fault _ _ hq failed =>
    exact h.fault (by simp [Scan.State.take, hq, Scan.State.shut])
  | lose event =>
    rcases event with ⟨event, -⟩ | event <;> cases event
  | move task => cases task
  | settle task => cases task

theorem step_preserves_windowed {e : Event} (h : Windowed config s) (flow : Flow config s)
    (step : FreeStep s e t) : Windowed config t := by
  rcases unpulled_of_step step with ⟨order, rfl⟩ | ⟨order, rfl⟩ | same
  · obtain ⟨enabled⟩ := step
    exact h.collect flow enabled
  · obtain ⟨-, pulling, ended, part, perm⟩ := step
    have pulling := Dispatch.State.isPulling_iff.mp pulling
    exact h.flush (by rw [pulling]; rfl) (State.scanEnded_iff.mp ended)
      (List.isEmpty_eq_false_iff.mp part) flow.held_lt
      ((List.isPerm_iff.mp perm).trans (List.reverse_perm _))
  · exact h.of_unpulled same

end Windowed

section Inspections
variable {config : Config} {s t : State}

/-- A step that gives the migrations a record takes it from the dispatcher, and no other does. -/
def Handed (s : State) (record : Option Record) (t : State) : Prop :=
  t.dispatch.delivered.map (·.record) = record.toList ++ s.dispatch.delivered.map (·.record)

theorem migrate_delivered (s : State) (e : Migration.Event) :
    (s.migrate e).dispatch.delivered = s.dispatch.delivered := by
  obtain ⟨free, inFlight, slots, hframe⟩ :=
    marks_frame s.dispatch ((s.migration.next e).settledSince s.migration)
  unfold State.migrate State.close
  dsimp only
  rw [hframe]
  cases (s.migration.next e).status with
  | running | finished => rfl
  | failed | cancelled =>
    dsimp only
    split <;> rfl

theorem deliver_none_delivered {e : Dispatch.Event Record}
    (same : (s.dispatch.next e).delivered = s.dispatch.delivered) :
    (s.deliver none e).dispatch.delivered = s.dispatch.delivered := by
  cases hs : (s.dispatch.next e).status with
  | failed failure => rw [deliver_failed hs, migrate_delivered, same]
  | running | ended | closed =>
    unfold State.deliver
    simp only [hs]
    exact same

theorem Handed.request (s : State) : Handed s (s.inspection? .request) (s.next .request) := by
  unfold Handed State.next State.inspection? State.migrationEvent?
  cases hc : s.dispatch.current with
  | nil =>
    have same : (s.dispatch.next .request).delivered = s.dispatch.delivered := by
      simp only [Dispatch.State.next, hc]
      exact await_delivered _
    dsimp only
    rw [List.head?_nil, deliver_none_delivered same]
    cases s.dispatch.puller <;> rfl
  | cons record current =>
    simp [deliver_some, Dispatch.State.next, Dispatch.State.deliver, hc]

theorem Handed.begin (s : State) : Handed s (s.inspection? .begin) (s.next .begin) := by
  unfold Handed State.next State.inspection? State.migrationEvent?
  cases hr : s.dispatch.ready with
  | nil =>
    dsimp only
    rw [List.head?_nil, Option.bind_none, deliver_none_delivered]
    · rfl
    · simp [Dispatch.State.next, Dispatch.State.begin, hr]
  | cons window later =>
    cases window with
    | nil =>
      dsimp only
      rw [List.head?_cons, Option.bind_some, List.head?_nil, deliver_none_delivered]
      · rfl
      · simp only [Dispatch.State.next, Dispatch.State.begin, hr, List.isEmpty_nil, if_true]
        exact await_delivered _
    | cons record current =>
      simp [deliver_some, Dispatch.State.next, Dispatch.begin_eq hr]

theorem handed_of_step {e : Event} (step : FreeStep s e t) : Handed s (s.inspection? e) t := by
  obtain ⟨-⟩ := step
  cases e with
  | request => exact .request s
  | begin => exact .begin s
  | surrender =>
    have same : (s.dispatch.next .surrender).delivered = s.dispatch.delivered := await_delivered _
    rw [Handed, State.next, deliver_none_delivered same, State.inspection?, State.migrationEvent?]
    cases s.dispatch.puller <;> rfl
  | collect order =>
    unfold Handed
    simp only [State.next, State.collect]
    repeat' split
    all_goals rfl
  | read | put | acquire | flush | exhaust | conclude | assign | finish => rfl
  | start number => exact congrArg (List.map (·.record)) (migrate_delivered s (.start number))
  | answer number outcome fraction =>
    exact congrArg (List.map (·.record)) (migrate_delivered s (.answer number outcome fraction))
  | wake number => exact congrArg (List.map (·.record)) (migrate_delivered s (.wake number))
  | cancel => exact congrArg (List.map (·.record)) (migrate_delivered s .cancel)

theorem inspections_cons (s : State) (e : Event) (moves : List (State × Event)) :
    inspections ((s, e) :: moves) = inspections moves ++ (s.inspection? e).toList := by
  unfold inspections
  cases h : s.inspection? e <;> simp [h]

end Inspections

section Runs
variable {config : Config} {baseline : Tally} {labelledDry : Value} {startedAt : Float}
  {moves : List (State × Event)} {t : State}

theorem trace_windowed (positive : config.Positive)
    (trace : Trace FreeStep (start config labelledDry baseline startedAt) moves t) :
    Flow config t ∧ Windowed config t :=
  (trace.strengthen (P := fun t => Flow config t ∧ Windowed config t)
    ⟨start_flow positive labelledDry baseline startedAt,
      start_windowed config labelledDry baseline startedAt⟩
    fun _ _ _ h step =>
      ⟨⟨step_preserves_flow h.1 step, step_preserves_windowed h.2 h.1 step⟩, step⟩).2

theorem trace_inspections
    (trace : Trace FreeStep (start config labelledDry baseline startedAt) moves t) :
    inspections moves = t.dispatch.deliveries.map (·.record) := by
  refine trace.preserves (P := fun moves t =>
    inspections moves = t.dispatch.deliveries.map (·.record)) rfl ?_
  intro moves t e u _ ih step
  have handed := handed_of_step step
  unfold Handed at handed
  rw [inspections_cons, ih, Dispatch.State.deliveries, Dispatch.State.deliveries, List.map_reverse,
    List.map_reverse, handed, List.reverse_append]
  cases t.inspection? e <;> rfl

/-- A record is inspected in the window in which it was scanned, so that windows are inspected one
after the other. -/
theorem inspected_near_scanned (positive : config.Positive)
    (trace : Trace FreeStep (start config labelledDry baseline startedAt) moves t) :
    ∃ places, Window.Local config.buffer t.scanned (inspections moves) places ∧
      (t.scanned.Nodup → ∀ k p record, (inspections moves)[k]? = some record →
        t.scanned[p]? = some record → k / config.buffer = p / config.buffer) := by
  obtain ⟨flow, windowed⟩ := trace_windowed positive trace
  obtain ⟨places, placed⟩ := windowed.cut.placed
  have hrecords := flow.load.records_eq
  rw [List.append_assoc] at hrecords
  have hgiven : (t.dispatch.pulled.reverse.flatten).take (inspections moves).length =
      inspections moves := by
    rw [← hrecords, ← trace_inspections trace, List.take_left]
  have hlength : t.dispatch.pulled.reverse.flatten.length ≤ t.scanned.length := by
    obtain ⟨lost, perm, -⟩ := flow.gathered
    have hall := perm.length_eq
    rw [List.length_append] at hall
    rw [State.scanned, List.length_reverse, hall, (List.reverse_perm _).flatten.length_eq]
    exact Nat.le_add_right _ _
  have near := placed.take positive.buffer hlength (inspections moves).length
  rw [hgiven] at near
  exact ⟨_, near, fun different _ _ _ hk hp => near.window_of_nodup different hk hp⟩

end Runs

def crossedConfig : Config := ⟨.bool false, 1, 1, 2, 1, steadyPolicy⟩

theorem crossed_positive : crossedConfig.Positive := ⟨by decide, by decide, by decide, by decide⟩

def crossedStart : State := start crossedConfig (.bool false) .zero 0

/-- Two records fill a window, which comes out the other way round. -/
def crossedEvents : List Event :=
  [.request, .assign, .begin, .collect [cleo, ada], .put 0, .read 0 (.item cleo), .collect [],
    .put 0, .read 0 (.item ada), .acquire, .request]

def crossedEnd : State := Trace.reached State.next crossedStart crossedEvents

theorem pair_near : crossedConfig.Positive ∧ ∃ moves, Trace FreeStep crossedStart moves crossedEnd ∧
    crossedEnd.scanned = [ada, cleo] ∧ inspections moves = [cleo, ada] ∧
    ∃ places, Window.Local 2 crossedEnd.scanned (inspections moves) places := by
  have trace : Trace FreeStep crossedStart (Trace.replay State.next crossedStart crossedEvents) crossedEnd := by
    apply Trace.of_replays State.next
    refine ⟨⟨?_⟩, ⟨?_⟩, ⟨?_⟩, ⟨?_⟩, ⟨?_⟩, ⟨?_⟩, ⟨?_⟩, ⟨?_⟩, ⟨?_⟩, ⟨?_⟩, ⟨?_⟩, trivial⟩
    all_goals decide +kernel
  obtain ⟨places, near, -⟩ := inspected_near_scanned crossed_positive trace
  exact ⟨crossed_positive, _, trace, by decide +kernel, by decide +kernel, places, near⟩

end Rekey.Run
