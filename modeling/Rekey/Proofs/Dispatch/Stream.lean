import Rekey.Proofs.Dispatch.Load
import Rekey.Proofs.Scan.Markers
import Rekey.Proofs.Trace

/-! # Windows from a source

A source answers each pull with a window, with its end or with a failure, or it never answers. What
is delivered is a first part of what the source gave, and the stream comes out as the source did.
Once pulling has failed, the consumer is given the rest of the window it has begun and then the
failure. -/
namespace Rekey.Dispatch

variable {α : Type} {cap : Nat} {s t : State α} {answers : Nat → Answer (List α)}

/-- The answers that an event brings are those of the source. -/
def Event.Told (answers : Nat → Answer (List α)) (s : State α) : Event α → Prop
  | .arrive window => answers s.pulled.length = .item window
  | .sourceEnd => answers s.pulled.length = .exhausted
  | .sourceFail failure => answers s.pulled.length = .failed failure
  | .request | .begin | .surrender | .conclude | .acquire | .done _ | .close => True

/-- A step over the windows of a source. The consumer may be broken off while it waits, too. -/
inductive SourcedStep (answers : Nat → Answer (List α)) : State α → Event α → State α → Prop where
  | own {s t : State α} {e : Event α} (step : Step s e t) (told : e.Told answers s) :
    SourcedStep answers s e t
  | breakOff {s : State α} (running : s.status = .running) :
    SourcedStep answers s .close (s.shut .closed)

/-- What is known of a dispatcher whose windows come from a source. -/
structure Sourced (answers : Nat → Answer (List α)) (cap : Nat) (s : State α) : Prop
    extends Invariant cap s where
  halted : s.Halted
  told : ∀ k window, s.pulled.reverse[k]? = some window → answers k = .item window
  exhausted : s.puller = .ended → answers s.pulled.length = .exhausted
  raised : ∀ failure, s.puller = .failed failure → answers s.pulled.length = .failed failure
  emptied : ∀ failure, s.status = .failed failure → s.current = []

/-- From `s` to `t` the source has said nothing. -/
structure Unheard (s t : State α) : Prop where
  pulled : t.pulled = s.pulled
  ended : t.puller = .ended → s.puller = .ended
  failed : ∀ failure, t.puller = .failed failure → s.puller = .failed failure

section Unheard
variable {u : State α}

theorem Unheard.of_eq (pulled : t.pulled = s.pulled) (puller : t.puller = s.puller) :
    Unheard s t :=
  ⟨pulled, fun h => puller ▸ h, fun _ h => puller ▸ h⟩

theorem Unheard.trans (h : Unheard s t) (h' : Unheard t u) : Unheard s u :=
  ⟨h'.pulled.trans h.pulled, fun he => h.ended (h'.ended he),
    fun f hf => h.failed f (h'.failed f hf)⟩

theorem shut_unheard (s : State α) (status : Status) : Unheard s (s.shut status) := by
  refine ⟨rfl, ?_, fun failure => ?_⟩
  all_goals
    unfold State.shut
    dsimp only
    split
    · intro stopped
      cases stopped
    · exact fun h => h

theorem await_unheard (s : State α) : Unheard s s.await := by
  unfold State.await
  split
  · exact shut_unheard s _
  · refine ⟨rfl, fun ended => ?_, fun _ failed => ?_⟩
    · cases ended
    · cases failed
  · exact .of_eq rfl rfl

theorem deliver_unheard (s : State α) : Unheard s s.deliver := by
  obtain ⟨current, delivered, consumer, heq⟩ := deliver_frame s
  rw [heq]
  exact .of_eq rfl rfl

theorem begin_unheard (s : State α) : Unheard s s.begin := by
  unfold State.begin
  split
  · exact .of_eq rfl rfl
  · dsimp only
    split
    · refine Unheard.trans ?_ (await_unheard _)
      exact .of_eq rfl rfl
    · refine Unheard.trans ?_ (deliver_unheard _)
      exact .of_eq rfl rfl

theorem done_unheard (s : State α) (index : Nat) : Unheard s (s.next (.done index)) := by
  obtain ⟨free, inFlight, slots, heq, -⟩ := done_frame s index
  rw [heq]
  exact .of_eq rfl rfl

end Unheard

section Sourced

theorem start_sourced (answers : Nat → Answer (List α)) (cap : Nat) :
    Sourced answers cap (start cap) := by
  refine { start_invariant cap with
    halted := ?_, told := ?_, exhausted := ?_, raised := ?_, emptied := ?_ }
  all_goals simp [start, State.Halted]

theorem Sourced.of_unheard (h : Sourced answers cap s) (quiet : Unheard s t)
    (inv : Invariant cap t) (halted : t.Halted)
    (emptied : ∀ failure, t.status = .failed failure → t.current = []) : Sourced answers cap t := by
  refine { inv with halted := halted, told := ?_, exhausted := ?_, raised := ?_, emptied := emptied }
  · rw [quiet.pulled]
    exact h.told
  · rw [quiet.pulled]
    exact fun ended => h.exhausted (quiet.ended ended)
  · rw [quiet.pulled]
    exact fun failure failed => h.raised failure (quiet.failed failure failed)

theorem await_current (s : State α) : s.await.current = s.current := by
  obtain ⟨puller, consumer, status, heq⟩ := await_frame s
  rw [heq]

theorem deliver_status (s : State α) : s.deliver.status = s.status := by
  obtain ⟨current, delivered, consumer, heq⟩ := deliver_frame s
  rw [heq]

/-- Only a request that needs a new window fails a stream. -/
theorem begin_emptied (running : s.status = .running) :
    ∀ failure, s.begin.status = .failed failure → s.begin.current = [] := by
  intro failure
  unfold State.begin
  split
  · intro failed
    rw [running] at failed
    cases failed
  · next window ready hr =>
    dsimp only
    split
    · next empty =>
      intro _
      rw [await_current]
      exact List.isEmpty_iff.mp empty
    · rw [deliver_status]
      intro failed
      rw [running] at failed
      cases failed

theorem Sourced.arrive (h : Sourced answers cap s) (pulling : s.puller = .pulling)
    {window : List α} (told : answers s.pulled.length = .item window) :
    Sourced answers cap (s.arrive window) := by
  have running := Halted.running h.halted (by rw [pulling]; rfl)
  refine { h.toInvariant.arrive pulling window with
    halted := fun stopped => absurd running stopped
    told := ?_
    exhausted := fun ended => by cases ended
    raised := fun _ failed => by cases failed
    emptied := h.emptied }
  intro k w hw
  simp only [State.arrive, List.reverse_cons] at hw
  rcases Nat.lt_trichotomy k s.pulled.length with hlt | rfl | hgt
  · rw [List.getElem?_append_left (by simpa using hlt)] at hw
    exact h.told k w hw
  · simp at hw
    rw [told, hw]
  · rw [List.getElem?_eq_none (by simp; omega)] at hw
    cases hw

theorem Sourced.next (h : Sourced answers cap s) {e : Event α} (step : Step s e t)
    (told : e.Told answers s) : Sourced answers cap t := by
  have inv := step_preserves_invariant h.toInvariant step
  obtain ⟨enabled⟩ := step
  have halted := next_halted h.halted enabled
  cases e with
  | request =>
    have running := State.isRunning_iff.mp enabled.1
    by_cases empty : s.current.isEmpty = true
    · rw [State.next, if_pos empty] at inv halted ⊢
      refine h.of_unheard (await_unheard s) inv halted fun _ _ => ?_
      rw [await_current]
      exact List.isEmpty_iff.mp empty
    · rw [State.next, if_neg empty] at inv halted ⊢
      refine h.of_unheard (deliver_unheard s) inv halted fun _ failed => ?_
      rw [deliver_status, running] at failed
      cases failed
  | begin =>
    have running := State.isRunning_iff.mp enabled.1
    exact h.of_unheard (begin_unheard s) inv halted (begin_emptied running)
  | surrender =>
    refine h.of_unheard (await_unheard s) inv halted fun _ _ => ?_
    rw [State.next, await_current]
    exact (h.waiting enabled.2.1).2.1
  | conclude =>
    exact h.of_unheard (shut_unheard s .ended) inv halted fun _ failed => by cases failed
  | acquire =>
    refine h.of_unheard ⟨rfl, fun ended => ?_, fun _ failed => ?_⟩ inv halted h.emptied
    · cases ended
    · cases failed
  | arrive window => exact h.arrive (State.isPulling_iff.mp enabled) told
  | sourceEnd =>
    exact { inv with
      halted := halted
      told := h.told
      exhausted := fun _ => told
      raised := fun _ failed => by cases failed
      emptied := h.emptied }
  | sourceFail failure =>
    refine { inv with
      halted := halted
      told := h.told
      exhausted := fun ended => by cases ended
      raised := ?_
      emptied := h.emptied }
    rintro _ ⟨⟩
    exact told
  | done index =>
    obtain ⟨free, inFlight, slots, heq, -⟩ := done_frame s index
    refine h.of_unheard (done_unheard s index) inv halted ?_
    rw [heq]
    exact h.emptied
  | close => exact h.of_unheard (shut_unheard s .closed) inv halted fun _ failed => by cases failed

theorem step_preserves_sourced (h : Sourced answers cap s) {e : Event α}
    (step : SourcedStep answers s e t) : Sourced answers cap t := by
  cases step with
  | own step told => exact h.next step told
  | breakOff running =>
    refine h.of_unheard (shut_unheard s .closed) ?_ (fun _ => shut_halted s .closed)
      fun _ failed => by cases failed
    exact h.toInvariant.shut (by simp) (by simp) (by simp)

theorem trace_sourced {moves : List (State α × Event α)}
    (trace : Trace (SourcedStep answers) (start cap) moves s) : Sourced answers cap s :=
  (trace.strengthen (start_sourced answers cap)
    fun _ _ _ h step => ⟨step_preserves_sourced h step, step⟩).2

theorem Sourced.items (h : Sourced answers cap s) :
    ∀ k < s.pulled.length, ∃ window, answers k = .item window := by
  intro k hk
  have hlt : k < s.pulled.reverse.length := by simpa using hk
  exact ⟨_, h.told k _ (List.getElem?_eq_getElem hlt)⟩

theorem Sourced.exhausts (h : Sourced answers cap s) (ended : s.puller = .ended) :
    Scan.Exhausts answers :=
  ⟨_, h.items, h.exhausted ended⟩

theorem Sourced.raises (h : Sourced answers cap s) {failure : Failure}
    (failed : s.puller = .failed failure) : Scan.Raises answers failure :=
  ⟨_, h.items, h.raised failure failed⟩

end Sourced

section Failing

/-- What the consumer does next: it asks for a record, or it is told what has come of that. -/
def State.turn (s : State α) : Event α :=
  match s.consumer with
  | .idle => .request
  | .waiting => if s.ready.isEmpty then .surrender else .begin

/-- How a stream goes on whose source has failed. A request that was waiting by then may still be
given the windows that had come before. -/
structure Fails (failure : Failure) (s : State α) : Prop where
  enabled : s.Enabled s.turn
  rest : ∀ record current, s.current = record :: current → s.next s.turn =
    { s with current, delivered := ⟨record, s.begun - 1⟩ :: s.delivered, consumer := .idle }
  waited : ∀ record window ready, s.consumer = .waiting → s.ready = (record :: window) :: ready →
    (s.next s.turn).deliveries = s.deliveries ++ [⟨record, s.begun⟩] ∧
      (s.next s.turn).status = .running
  raises : s.current = [] →
    (s.consumer = .waiting → s.ready = [] ∨ ∃ ready, s.ready = [] :: ready) →
    (s.next s.turn).status = .failed failure

theorem await_failed {failure : Failure} (failed : s.puller = .failed failure) :
    s.await.status = .failed failure := by
  simp [State.await, failed, State.shut]

theorem turn_of_idle (idle : s.consumer = .idle) : s.turn = .request := by
  simp only [State.turn, idle]

theorem turn_of_none (waiting : s.consumer = .waiting) (none : s.ready = []) :
    s.turn = .surrender := by
  simp [State.turn, waiting, none]

theorem turn_of_ready (waiting : s.consumer = .waiting) {window : List α}
    {ready : List (List α)} (hr : s.ready = window :: ready) : s.turn = .begin := by
  simp [State.turn, waiting, hr]

theorem turn_enabled (running : s.status = .running) {failure : Failure}
    (failed : s.puller = .failed failure) : s.Enabled s.turn := by
  have isRunning := State.isRunning_iff.mpr running
  cases hc : s.consumer with
  | idle =>
    rw [turn_of_idle hc]
    exact ⟨isRunning, hc⟩
  | waiting =>
    cases hr : s.ready with
    | nil =>
      rw [turn_of_none hc hr]
      exact ⟨isRunning, hc, by rw [hr]; rfl, by simp only [failed]⟩
    | cons window ready =>
      rw [turn_of_ready hc hr]
      exact ⟨isRunning, hc, by rw [hr]; rfl⟩

theorem Invariant.fails (h : Invariant cap s) (running : s.status = .running) {failure : Failure}
    (failed : s.puller = .failed failure) : Fails failure s := by
  constructor
  · exact turn_enabled running failed
  · intro record current more
    cases hc : s.consumer with
    | idle =>
      rw [turn_of_idle hc]
      simp [State.next, State.deliver, more]
    | waiting =>
      have empty := (h.waiting hc).2.1
      rw [more] at empty
      cases empty
  · intro record window ready waiting hr
    rw [turn_of_ready waiting hr]
    simp [State.next, begin_eq hr, State.deliveries, running]
  · intro empty none
    cases hc : s.consumer with
    | idle =>
      rw [turn_of_idle hc]
      simp only [State.next, empty, List.isEmpty_nil, if_true]
      exact await_failed failed
    | waiting =>
      rcases none hc with hr | ⟨ready, hr⟩
      · rw [turn_of_none hc hr]
        exact await_failed failed
      · rw [turn_of_ready hc hr]
        simp only [State.next, State.begin, hr, List.isEmpty_nil, if_true]
        exact await_failed failed

end Failing

section Over

/-- After the end of a stream nothing happens to it but that records are marked. -/
theorem step_over (halted : s.Halted) (stopped : s.status ≠ .running) {e : Event α}
    (step : SourcedStep answers s e t) : ∃ index, e = .done index ∧ t = s.next (.done index) := by
  have dead := halted stopped
  have idle : s.isRunning = true → False := fun h => stopped (State.isRunning_iff.mp h)
  cases step with
  | breakOff running => exact absurd running stopped
  | own step =>
    obtain ⟨enabled⟩ := step
    cases e with
    | done index => exact ⟨index, rfl, rfl⟩
    | request | begin | surrender | conclude | close => exact (idle enabled.1).elim
    | acquire =>
      rw [State.isSeeking_iff.mp enabled.1] at dead
      cases dead
    | arrive | sourceEnd | sourceFail =>
      rw [State.isPulling_iff.mp enabled] at dead
      cases dead

theorem trace_over (halted : s.Halted) (stopped : s.status ≠ .running)
    {more : List (State α × Event α)} (trace : Trace (SourcedStep answers) s more t) :
    t.pulled = s.pulled ∧ t.delivered = s.delivered ∧ t.status = s.status := by
  have frame : (t.puller = s.puller ∧ t.status = s.status) ∧
      t.pulled = s.pulled ∧ t.delivered = s.delivered := by
    apply trace.preserves (P := fun _ t => (t.puller = s.puller ∧ t.status = s.status) ∧
      t.pulled = s.pulled ∧ t.delivered = s.delivered)
    · exact ⟨⟨rfl, rfl⟩, rfl, rfl⟩
    · rintro - t e u - ⟨⟨puller, status⟩, kept⟩ step
      have dead : t.Halted := by rwa [State.Halted, puller, status]
      obtain ⟨index, -, rfl⟩ := step_over dead (by rwa [status]) step
      obtain ⟨free, inFlight, slots, heq, -⟩ := done_frame t index
      rw [heq]
      exact ⟨⟨puller, status⟩, kept⟩
  exact ⟨frame.2.1, frame.2.2, frame.1.2⟩

end Over

section InOrder

/-- The record delivered as number `index` is one of its window, and marks the slot of that. -/
structure Bound (s : State α) (index : Nat) (d : Delivery α) : Prop where
  window : ∃ window, s.pulled.reverse[d.window]? = some window ∧ d.record ∈ window
  slot : d.window < s.slots.length
  others : ∀ k, k ≠ d.window → (s.next (.done index)).slots[k]? = s.slots[k]?

/-- The stream of the records of a source's windows, in the state `s`. -/
structure InOrder (answers : Nat → Answer (List α)) (s : State α) : Prop where
  pulled : ∀ k window, s.pulled.reverse[k]? = some window → answers k = .item window
  delivered : (s.deliveries.map fun d => (d.record, d.window)) <+: numbered s.pulled.reverse
  records : s.deliveries.map (·.record) <+: s.pulled.reverse.flatten
  bound : ∀ index d, s.delivery? index = some d → Bound s index d
  ended : s.status = .ended →
    Scan.Exhausts answers ∧ s.deliveries.map (·.record) = s.pulled.reverse.flatten
  not_ended : ∀ failure, Scan.Raises answers failure → s.status ≠ .ended
  failing : ∀ failure, s.puller = .failed failure →
    Scan.Raises answers failure ∧ (s.status = .running → Fails failure s)
  failed : ∀ failure, s.status = .failed failure → Scan.Raises answers failure ∧
    s.deliveries.map (fun d => (d.record, d.window)) = numbered s.begunWindows
  stopped : s.status ≠ .running → ∀ more t, Trace (SourcedStep answers) s more t →
    t.pulled = s.pulled ∧ t.delivered = s.delivered ∧ t.status = s.status

theorem numbered_take (windows : List (List α)) (n : Nat) :
    numbered (windows.take n) <+: numbered windows := by
  unfold numbered
  conv_rhs => rw [← List.take_append_drop n windows, List.zipIdx_append, List.flatMap_append]
  exact List.prefix_append _ _

theorem Invariant.delivered_prefix (h : Invariant cap s) :
    (s.deliveries.map fun d => (d.record, d.window)) <+: numbered s.pulled.reverse :=
  List.IsPrefix.trans ⟨_, h.order⟩ (numbered_take _ _)

theorem mem_numbered {windows : List (List α)} {x : α × Nat} (h : x ∈ numbered windows) :
    ∃ window, windows[x.2]? = some window ∧ x.1 ∈ window := by
  obtain ⟨⟨window, k⟩, mem, hx⟩ := List.mem_flatMap.mp h
  obtain ⟨a, ha, rfl⟩ := List.mem_map.mp hx
  exact ⟨window, List.mem_zipIdx_iff_getElem?.mp mem, ha⟩

theorem done_others {index k : Nat} {d : Delivery α} (delivery : s.delivery? index = some d)
    (other : k ≠ d.window) : (s.next (.done index)).slots[k]? = s.slots[k]? := by
  rcases done_cases s index with ⟨heq, -⟩ | ⟨d', slot, hd, -, -, heq⟩
  · rw [heq]
  · obtain rfl : d = d' := Option.some.inj (delivery.symm.trans hd)
    rw [heq, State.countDown_slots, List.getElem?_set_ne (Ne.symm other)]

theorem Invariant.bound (h : Invariant cap s) {index : Nat} {d : Delivery α}
    (delivery : s.delivery? index = some d) : Bound s index d := by
  have mem : d ∈ s.deliveries := by
    rw [State.delivery?_eq] at delivery
    exact List.mem_of_getElem? delivery
  have hbegun : (d.record, d.window) ∈ numbered s.begunWindows := by
    rw [← h.order]
    exact List.mem_append_left _ (List.mem_map_of_mem mem)
  constructor
  · exact mem_numbered ((numbered_take _ _).subset hbegun)
  · have hlt := snd_lt_of_mem_numbered hbegun
    rw [State.begunWindows, List.length_take] at hlt
    exact Nat.lt_of_lt_of_le hlt (Nat.min_le_left _ _)
  · exact fun k other => done_others delivery other

theorem windows_delivered_in_order {moves : List (State α × Event α)}
    (trace : Trace (SourcedStep answers) (start cap) moves s) : InOrder answers s := by
  have h := trace_sourced trace
  have ended : s.status = .ended → s.puller = .ended := fun he => (h.ended he).2.2
  constructor
  · exact h.told
  · exact h.delivered_prefix
  · have hprefix := h.delivered_prefix.map (·.1)
    rwa [List.map_map, numbered_map_fst] at hprefix
  · exact fun index d delivery => h.bound delivery
  · intro he
    obtain ⟨hready, hcurrent, hpuller⟩ := h.ended he
    have hrecords := h.records_eq
    rw [hready, hcurrent, List.flatten_nil, List.append_nil, List.append_nil] at hrecords
    exact ⟨h.exhausts hpuller, hrecords⟩
  · intro failure raises he
    exact (h.exhausts (ended he)).not_raises failure raises
  · intro failure hp
    exact ⟨h.raises hp, fun running => h.fails running hp⟩
  · intro failure hf
    have horder := h.order
    rw [h.emptied failure hf, List.map_nil, List.append_nil] at horder
    exact ⟨h.raises (h.failed failure hf), horder⟩
  · exact fun stopped more t later => trace_over h.halted stopped later

/-- A window, an empty one, and a failure for which the consumer waits. -/
def faultyWindows : Stream (List Nat) := ⟨[[1, 2], []], some (.transient "busy" none)⟩

def faultyEvents : List (Event Nat) :=
  [.surrender, .sourceFail (.transient "busy" none), .acquire, .begin, .request, .request,
    .arrive [], .acquire, .begin, .arrive [1, 2], .acquire, .request]

def faultyEnd : State Nat := Trace.reached State.next (start 2) faultyEvents

theorem faulty_windows_in_order : ∃ moves,
    Trace (SourcedStep faultyWindows.answer) (start 2) moves faultyEnd ∧
      faultyEnd.status = .failed (.transient "busy" none) ∧
      faultyEnd.deliveries.map (·.record) = [1, 2] ∧ InOrder faultyWindows.answer faultyEnd := by
  have trace : Trace (SourcedStep faultyWindows.answer) (start 2)
      (Trace.replay State.next (start 2) faultyEvents) faultyEnd := by
    apply Trace.of_replays State.next
    refine ⟨.own ⟨?_⟩ ?_, .own ⟨?_⟩ ?_, .own ⟨?_⟩ ?_, .own ⟨?_⟩ ?_, .own ⟨?_⟩ ?_, .own ⟨?_⟩ ?_,
      .own ⟨?_⟩ ?_, .own ⟨?_⟩ ?_, .own ⟨?_⟩ ?_, .own ⟨?_⟩ ?_, .own ⟨?_⟩ ?_, .own ⟨?_⟩ ?_, trivial⟩
    all_goals first | decide +kernel | exact trivial | rfl
  exact ⟨_, trace, rfl, rfl, windows_delivered_in_order trace⟩

end InOrder

end Rekey.Dispatch
