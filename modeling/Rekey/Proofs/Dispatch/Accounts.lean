import Rekey.Proofs.Dispatch.Stream

/-! # The accounts of window slots

A window pulled is in flight until its slot has been given back, and every slot of the dispatcher is
free, held by a window in flight or held by a pull that waits. The slot of a window of `n` records
takes `n` marks, is given back with the last of them, and refuses any more. -/
namespace Rekey.Dispatch

variable {α : Type} {cap : Nat} {s t : State α} {moves : List (State α × Event α)}

/-- The slot of a window of `size` records after `marks` marks. -/
def Slot.after (size marks : Nat) : Slot := ⟨(size - marks : Nat), if size ≤ marks then 1 else 0⟩

section Slot
variable {size marks : Nat}

theorem Slot.opened_eq (size : Nat) : Slot.opened size = Slot.after size 0 := by
  simp [Slot.opened, Slot.after]

theorem Slot.counted_after (left : marks < size) :
    (Slot.after size marks).counted = Slot.after size (marks + 1) := by
  unfold Slot.counted Slot.after
  by_cases last : marks + 1 = size
  · subst last
    simp
  · have : ¬ ((size - marks : Nat) : Int) = 1 := by omega
    simp only [this, if_false]
    congr 1
    · omega
    · rw [if_neg (by omega), if_neg (by omega)]

theorem Slot.after_pending : 0 < (Slot.after size marks).pending ↔ marks < size := by
  show 0 < ((size - marks : Nat) : Int) ↔ marks < size
  omega

theorem Slot.after_succ (none : size ≤ marks) :
    Slot.after size (marks + 1) = Slot.after size marks := by
  unfold Slot.after
  rw [if_pos (by omega), if_pos none]
  congr 1
  omega

theorem Slot.recordDone_after : (Slot.after size marks).recordDone =
    if marks < size then .ok (Slot.after size (marks + 1)) else .error Slot.surplus := by
  split
  · next left =>
    rw [Slot.recordDone_eq (Slot.after_pending.mpr left), Slot.counted_after left]
  · next none =>
    have hpending := mt Slot.after_pending.mp none
    rw [Slot.recordDone, if_pos (Int.not_lt.mp hpending)]

end Slot

namespace State

/-- The number of the window of which an event marks a record. -/
def marked? (s : State α) : Event α → Option Nat
  | .done index => (s.delivery? index).map (·.window)
  | _ => none

/-- The mark is taken. -/
def accepts (s : State α) : Event α → Bool
  | .done index => (s.done index).isOk
  | _ => true

/-- How often slots have been given back. -/
def releases (s : State α) : Nat := (s.slots.map (·.released)).sum

end State

/-- The marks of records of the window with number `k`. -/
def marks (k : Nat) (moves : List (State α × Event α)) : Nat :=
  moves.countP fun m => m.1.marked? m.2 = some k

def accepted (k : Nat) (moves : List (State α × Event α)) : Nat :=
  moves.countP fun m => m.1.marked? m.2 = some k ∧ m.1.accepts m.2

theorem marked?_done {index : Nat} {d : Delivery α} (delivery : s.delivery? index = some d) :
    s.marked? (.done index) = some d.window := by
  rw [State.marked?, delivery, Option.map_some]

theorem marks_cons (k : Nat) (s : State α) (e : Event α) (moves : List (State α × Event α)) :
    marks k ((s, e) :: moves) = marks k moves + if s.marked? e = some k then 1 else 0 := by
  simp [marks, List.countP_cons]

theorem accepted_cons (k : Nat) (s : State α) (e : Event α) (moves : List (State α × Event α)) :
    accepted k ((s, e) :: moves) =
      accepted k moves + if s.marked? e = some k ∧ s.accepts e then 1 else 0 := by
  simp [accepted, List.countP_cons]

section Releases

theorem releases_add_held {slots : List Slot} (sound : ∀ slot ∈ slots, slot.Sound) :
    (slots.map (·.released)).sum + slots.countP (fun slot => slot.released = 0) = slots.length := by
  induction slots with
  | nil => rfl
  | cons slot slots ih =>
    obtain ⟨first, rest⟩ := List.forall_mem_cons.mp sound
    have ih := ih rest
    have hreleased := first.released_eq
    rw [List.map_cons, List.sum_cons, List.countP_cons, List.length_cons]
    split at hreleased
    all_goals
      simp only [hreleased, decide_true, decide_false, if_true, if_false, Bool.false_eq_true,
        Nat.one_ne_zero]
      omega

/-- The windows pulled are those in flight and those whose slots have been given back. -/
theorem Invariant.pulled_eq (h : Invariant cap s) : s.pulled.length = s.inFlight + s.releases := by
  have hready := congrArg List.length h.ready_eq
  have hbegun := h.begun_le
  have hheld := releases_add_held h.slots
  rw [List.length_drop, List.length_reverse] at hready
  rw [h.inFlight_eq, State.releases, State.held]
  unfold State.begun at hready hbegun
  omega

end Releases

/-- What an event does to the slots of the windows begun. -/
inductive SlotChange (s : State α) : Event α → State α → Prop where
  | kept {e : Event α} {t : State α} (unmarked : s.marked? e = none) (slots : t.slots = s.slots)
    (windows : t.begunWindows = s.begunWindows) : SlotChange s e t
  | opened {window : List α} {t : State α} (opened : Opened s window t) : SlotChange s .begin t
  | mark {index : Nat} {d : Delivery α} (delivery : s.delivery? index = some d) :
    SlotChange s (.done index) (s.next (.done index))

section Change

theorem begunWindows_congr (slots : t.slots = s.slots) (pulled : t.pulled = s.pulled) :
    t.begunWindows = s.begunWindows := by
  rw [State.begunWindows, State.begun, slots, pulled, State.begunWindows, State.begun]

theorem slotChange_of_enabled (h : Invariant cap s) {e : Event α} (enabled : s.Enabled e) :
    SlotChange s e (s.next e) := by
  have still : ∀ {e : Event α} {t : State α}, s.marked? e = none → t.slots = s.slots →
      t.pulled = s.pulled → SlotChange s e t :=
    fun unmarked slots pulled => .kept unmarked slots (begunWindows_congr slots pulled)
  have awaiting : ∀ {e : Event α}, s.marked? e = none → SlotChange s e s.await :=
    fun unmarked => still unmarked (await_slots s).1 (await_unheard s).pulled
  cases e with
  | request =>
    simp only [State.next]
    split
    · exact awaiting rfl
    · exact still rfl (deliver_slots s).1 (deliver_unheard s).pulled
  | begin =>
    obtain ⟨window, opened⟩ := begin_opened enabled.2.2
    exact .opened opened
  | surrender => exact awaiting rfl
  | arrive window =>
    refine .kept rfl rfl ?_
    have hle := h.begun_le
    simp only [State.begunWindows, State.begun, State.next, State.arrive, List.reverse_cons]
    rw [List.take_append_of_le_length]
    simpa [State.begun] using hle
  | conclude | acquire | sourceEnd | sourceFail | close => exact still rfl rfl rfl
  | done index =>
    have hlt : index < s.deliveries.length := by
      rw [State.deliveries, List.length_reverse]
      exact enabled
    exact .mark (by rw [State.delivery?_eq, List.getElem?_eq_getElem hlt])

end Change

/-- What holds of a dispatcher with `cap` slots after the events `moves`. -/
structure Recorded (cap : Nat) (moves : List (State α × Event α)) (s : State α) : Prop
    extends Invariant cap s where
  halted : s.Halted
  inFlight_le : s.inFlight ≤ cap
  peak_le : s.peak ≤ cap
  peak_eq : ((s :: moves.map (·.1)).map State.inFlight).max? = some s.peak
  counted : ∀ k, s.slots[k]? =
    s.begunWindows[k]?.map fun window => Slot.after window.length (marks k moves)
  unmarked : ∀ k, s.begun ≤ k → marks k moves = 0
  accepted_eq : ∀ k window, s.begunWindows[k]? = some window →
    accepted k moves = min (marks k moves) window.length

section Recorded

theorem start_recorded (cap : Nat) : Recorded cap [] (start cap : State α) := by
  refine { start_invariant cap with
    halted := fun stopped => absurd rfl stopped
    inFlight_le := Nat.zero_le _
    peak_le := Nat.zero_le _
    peak_eq := rfl
    counted := ?_, unmarked := fun _ _ => rfl, accepted_eq := ?_ }
  all_goals simp [start, State.begunWindows]

/-- The slot of a window of which a record has been delivered. -/
theorem Recorded.slot (h : Recorded cap moves s) {index : Nat} {d : Delivery α}
    (delivery : s.delivery? index = some d) : ∃ window, s.begunWindows[d.window]? = some window ∧
      s.slots[d.window]? = some (Slot.after window.length (marks d.window moves)) := by
  have hlt : d.window < s.begunWindows.length := by
    rw [h.begunWindows_length]
    exact (h.toInvariant.bound delivery).slot
  refine ⟨_, List.getElem?_eq_getElem hlt, ?_⟩
  rw [h.counted, List.getElem?_eq_getElem hlt, Option.map_some]

theorem Recorded.done_eq (h : Recorded cap moves s) {index : Nat} {d : Delivery α}
    {window : List α} (delivery : s.delivery? index = some d)
    (begun : s.begunWindows[d.window]? = some window) : s.done index =
      if marks d.window moves < window.length then
        .ok (s.countDown d.window (Slot.after window.length (marks d.window moves)))
      else .error Slot.surplus := by
  have hslot : s.slots[d.window]? = some (Slot.after window.length (marks d.window moves)) := by
    rw [h.counted, begun, Option.map_some]
  rw [Dispatch.done_eq delivery hslot]
  simp only [Slot.after_pending]

/-- A mark is taken as long as the window has records left; one too many changes nothing. -/
theorem Recorded.mark_cases (h : Recorded cap moves s) {index : Nat} {d : Delivery α}
    {window : List α} (delivery : s.delivery? index = some d)
    (begun : s.begunWindows[d.window]? = some window) :
    (marks d.window moves < window.length ∧ s.accepts (.done index) = true ∧
      s.next (.done index) =
        s.countDown d.window (Slot.after window.length (marks d.window moves))) ∨
    (window.length ≤ marks d.window moves ∧ s.accepts (.done index) = false ∧
      s.next (.done index) = s) := by
  have hdone := h.done_eq delivery begun
  split at hdone
  · next left =>
    exact .inl ⟨left, by simp only [State.accepts, hdone]; rfl, by simp only [State.next, hdone]⟩
  · next none =>
    exact .inr ⟨Nat.not_lt.mp none, by simp only [State.accepts, hdone]; rfl,
      by simp only [State.next, hdone]⟩

theorem await_peak (s : State α) : s.await.peak = s.peak := by
  obtain ⟨puller, consumer, status, heq⟩ := await_frame s
  rw [heq]

theorem deliver_peak (s : State α) : s.deliver.peak = s.peak := by
  obtain ⟨current, delivered, consumer, heq⟩ := deliver_frame s
  rw [heq]

theorem begin_peak (s : State α) : s.begin.peak = s.peak := by
  unfold State.begin
  split
  · rfl
  · dsimp only
    split
    · exact await_peak _
    · exact deliver_peak _

theorem done_peak (s : State α) (index : Nat) : (s.next (.done index)).peak = s.peak := by
  obtain ⟨free, inFlight, slots, heq, -⟩ := done_frame s index
  rw [heq]

/-- Only an arrival can raise the peak, to one window more than were in flight. -/
theorem peak_of_enabled {e : Event α} (enabled : s.Enabled e) :
    ((s.next e).inFlight ≤ s.inFlight ∧ (s.next e).peak = s.peak) ∨
      s.puller = .pulling ∧ (s.next e).inFlight = s.inFlight + 1 ∧
        (s.next e).peak = max s.peak (s.inFlight + 1) := by
  cases e with
  | arrive window => exact .inr ⟨State.isPulling_iff.mp enabled, rfl, rfl⟩
  | done index => exact .inl ⟨(done_eased s index).inFlight, done_peak s index⟩
  | request =>
    refine .inl ⟨(next_eased enabled rfl).inFlight, ?_⟩
    simp only [State.next]
    split
    · exact await_peak s
    · exact deliver_peak s
  | begin => exact .inl ⟨(next_eased enabled rfl).inFlight, begin_peak s⟩
  | surrender => exact .inl ⟨(next_eased enabled rfl).inFlight, await_peak s⟩
  | conclude | acquire | sourceEnd | sourceFail | close =>
    exact .inl ⟨(next_eased enabled rfl).inFlight, rfl⟩

theorem Recorded.inFlight_le_peak (h : Recorded cap moves s) : s.inFlight ≤ s.peak :=
  (List.max?_eq_some_iff.mp h.peak_eq).2 _ (by simp)

theorem done_begunWindows (s : State α) (index : Nat) :
    (s.next (.done index)).begunWindows = s.begunWindows := by
  obtain ⟨free, inFlight, slots, heq, length⟩ := done_frame s index
  rw [heq, State.begunWindows, State.begun, length, State.begunWindows, State.begun]

/-- The slots of the windows begun after one event more. -/
theorem Recorded.counted_of_change (h : Recorded cap moves s) {e : Event α}
    (change : SlotChange s e t) (k : Nat) : t.slots[k]? =
      t.begunWindows[k]?.map fun window => Slot.after window.length (marks k ((s, e) :: moves)) := by
  rw [marks_cons]
  cases change with
  | kept unmarked slots windows =>
    rw [slots, windows, h.counted]
    simp [unmarked]
  | @opened window t opened =>
    have hlen := h.begunWindows_length
    have hslots : s.slots.length = s.begun := rfl
    rw [h.begunWindows_of_opened opened, opened.slots, Slot.opened_eq]
    simp only [State.marked?, reduceCtorEq, if_false, Nat.add_zero]
    rcases Nat.lt_trichotomy k s.begun with hlt | rfl | hgt
    · rw [List.getElem?_append_left hlt, List.getElem?_append_left (by omega), h.counted]
    · rw [List.getElem?_append_right (by omega), List.getElem?_append_right (by omega), hlen,
        hslots, h.unmarked _ (Nat.le_refl _)]
      simp
    · rw [List.getElem?_eq_none (by simp; omega), List.getElem?_eq_none (by simp; omega),
        Option.map_none]
  | @mark index d delivery =>
    obtain ⟨window, begun, hslot⟩ := h.slot delivery
    rw [done_begunWindows, marked?_done delivery]
    by_cases hk : d.window = k
    · subst hk
      rw [if_pos rfl, begun, Option.map_some]
      rcases h.mark_cases delivery begun with ⟨left, -, hnext⟩ | ⟨none, -, hnext⟩
      · obtain ⟨hlt, -⟩ := List.getElem?_eq_some_iff.mp hslot
        rw [hnext, State.countDown_slots, List.getElem?_set_self hlt, Slot.counted_after left]
      · rw [hnext, hslot, Slot.after_succ none]
    · have hother : ¬ some d.window = some k := fun heq => hk (Option.some.inj heq)
      rw [if_neg hother, done_others delivery (Ne.symm hk), h.counted, Nat.add_zero]

theorem begun_mono {e : Event α} (change : SlotChange s e t) : s.begun ≤ t.begun := by
  cases change with
  | kept _ slots => exact Nat.le_of_eq (congrArg List.length slots).symm
  | opened opened =>
    rw [opened.begun]
    exact Nat.le_succ _
  | mark =>
    obtain ⟨free, inFlight, slots, heq, length⟩ := done_frame s _
    rw [heq]
    exact Nat.le_of_eq length.symm

theorem Recorded.unmarked_of_change (h : Recorded cap moves s) {e : Event α}
    (change : SlotChange s e t) (k : Nat) (unbegun : t.begun ≤ k) :
    marks k ((s, e) :: moves) = 0 := by
  have hle := Nat.le_trans (begun_mono change) unbegun
  have hmarked : s.marked? e ≠ some k := by
    cases change with
    | kept unmarked => simp [unmarked]
    | opened => simp [State.marked?]
    | @mark index d delivery =>
      have hlt : d.window < s.begun := (h.toInvariant.bound delivery).slot
      rw [marked?_done delivery]
      intro heq
      have := Option.some.inj heq
      omega
  rw [marks_cons, h.unmarked k hle, if_neg hmarked]

theorem accepted_le_marks (k : Nat) (moves : List (State α × Event α)) :
    accepted k moves ≤ marks k moves := by
  apply List.countP_mono_left
  simp
  exact fun _ _ _ h _ => h

theorem Recorded.accepted_of_change (h : Recorded cap moves s) {e : Event α}
    (change : SlotChange s e t) (k : Nat) (window : List α)
    (begun : t.begunWindows[k]? = some window) :
    accepted k ((s, e) :: moves) = min (marks k ((s, e) :: moves)) window.length := by
  rw [accepted_cons, marks_cons]
  cases change with
  | kept unmarked slots windows =>
    rw [windows] at begun
    simp [unmarked, h.accepted_eq k window begun]
  | @opened window' t opened =>
    rw [h.begunWindows_of_opened opened] at begun
    simp only [State.marked?, reduceCtorEq, false_and, if_false, Nat.add_zero]
    by_cases hlt : k < s.begunWindows.length
    · rw [List.getElem?_append_left hlt] at begun
      exact h.accepted_eq k window begun
    · have hmarks := h.unmarked k (h.begunWindows_length ▸ Nat.not_lt.mp hlt)
      have hle := accepted_le_marks k moves
      omega
  | @mark index d delivery =>
    rw [done_begunWindows] at begun
    rw [marked?_done delivery]
    have hbefore := h.accepted_eq k window begun
    by_cases hk : d.window = k
    · subst hk
      rcases h.mark_cases delivery begun with ⟨left, taken, -⟩ | ⟨none, refused, -⟩
      · rw [if_pos ⟨rfl, taken⟩, if_pos rfl]
        omega
      · rw [if_neg (by simp [refused]), if_pos rfl]
        omega
    · have hother : ¬ some d.window = some k := fun heq => hk (Option.some.inj heq)
      rw [if_neg fun both => hother both.1, if_neg hother]
      omega

theorem step_preserves_recorded (h : Recorded cap moves s) {e : Event α} (step : Step s e t) :
    Recorded cap ((s, e) :: moves) t := by
  have inv := step_preserves_invariant h.toInvariant step
  obtain ⟨enabled⟩ := step
  have change := slotChange_of_enabled h.toInvariant enabled
  have peaks := h.inFlight_le_peak
  have hpeak : (s.next e).inFlight ≤ cap ∧ (s.next e).peak = max (s.next e).inFlight s.peak := by
    have le := h.inFlight_le
    rcases peak_of_enabled enabled with ⟨hle, heq⟩ | ⟨pulling, hin, heq⟩
    · rw [heq]
      omega
    · have := h.inFlight_lt (Halted.running h.halted (by rw [pulling]; rfl)) pulling
      rw [heq, hin]
      omega
  refine { inv with
    halted := next_halted h.halted enabled
    inFlight_le := hpeak.1
    peak_le := ?_
    peak_eq := ?_
    counted := h.counted_of_change change
    unmarked := h.unmarked_of_change change
    accepted_eq := h.accepted_of_change change }
  · rw [hpeak.2]
    exact Nat.max_le.mpr ⟨hpeak.1, h.peak_le⟩
  · have hmax := h.peak_eq
    rw [List.map_cons] at hmax
    rw [List.map_cons, List.map_cons, List.map_cons, List.max?_cons, hmax, hpeak.2]
    rfl

theorem trace_recorded (trace : Trace Step (start cap) moves s) : Recorded cap moves s :=
  trace.preserves (P := Recorded cap) (start_recorded cap)
    fun _ _ _ _ _ h step => step_preserves_recorded h step

end Recorded

/-- The accounts of a dispatcher with `cap` slots, after the events `moves` and before the stream
is over. -/
structure Accounts (cap : Nat) (moves : List (State α × Event α)) (s : State α) : Prop where
  pulled : s.pulled.length = s.inFlight + s.releases
  slots : s.free + s.inFlight + (if s.isPulling then 1 else 0) = cap
  inFlight_le : s.inFlight ≤ cap
  peak_eq : ((s :: moves.map (·.1)).map State.inFlight).max? = some s.peak
  peak_le : s.peak ≤ cap
  once : ∀ slot ∈ s.slots, slot.released ≤ 1
  slot : ∀ k window, s.begunWindows[k]? = some window →
    s.slots[k]? = some (Slot.after window.length (marks k moves))
  accepted : ∀ k window, s.begunWindows[k]? = some window →
    accepted k moves = min (marks k moves) window.length
  recordDone : ∀ k window slot, s.begunWindows[k]? = some window → s.slots[k]? = some slot →
    slot.recordDone = if marks k moves < window.length then
      .ok (Slot.after window.length (marks k moves + 1)) else .error Slot.surplus
  taken : ∀ index d window, s.delivery? index = some d → s.begunWindows[d.window]? = some window →
    marks d.window moves < window.length → ∃ t, s.done index = .ok t ∧ s.next (.done index) = t ∧
      t.slots = s.slots.set d.window (Slot.after window.length (marks d.window moves + 1)) ∧
      t.inFlight + (if marks d.window moves + 1 = window.length then 1 else 0) = s.inFlight ∧
      t.free = s.free + if marks d.window moves + 1 = window.length then 1 else 0
  refused : ∀ index d window, s.delivery? index = some d →
    s.begunWindows[d.window]? = some window → window.length ≤ marks d.window moves →
    s.done index = .error Slot.surplus ∧ s.next (.done index) = s

section Accounts

theorem Slot.Sound.released_le {slot : Slot} (sound : slot.Sound) : slot.released ≤ 1 := by
  rw [sound.released_eq]
  split <;> simp

theorem countDown_after {k size done : Nat} (left : done < size) (inFlight : 0 < s.inFlight) :
    (s.countDown k (Slot.after size done)).inFlight + (if done + 1 = size then 1 else 0) =
        s.inFlight ∧
      (s.countDown k (Slot.after size done)).free =
        s.free + if done + 1 = size then 1 else 0 := by
  have hlast : (Slot.after size done).pending = 1 ↔ done + 1 = size := by
    show ((size - done : Nat) : Int) = 1 ↔ done + 1 = size
    omega
  unfold State.countDown
  by_cases last : done + 1 = size
  · rw [if_pos (hlast.mpr last), if_pos last]
    exact ⟨Nat.sub_add_cancel inFlight, rfl⟩
  · rw [if_neg (mt hlast.mp last), if_neg last]
    exact ⟨rfl, rfl⟩

/-- A window with records left has not given its slot back. -/
theorem Recorded.inFlight_pos (h : Recorded cap moves s) {k : Nat} {window : List α}
    (begun : s.begunWindows[k]? = some window) (left : marks k moves < window.length) :
    0 < s.inFlight := by
  have hslot : s.slots[k]? = some (Slot.after window.length (marks k moves)) := by
    rw [h.counted, begun, Option.map_some]
  have hheld : 0 < s.held := by
    apply List.countP_pos_iff.mpr
    refine ⟨_, List.mem_of_getElem? hslot, ?_⟩
    simp [Slot.after, left]
  rw [h.inFlight_eq]
  omega

theorem window_slots_accounted (trace : Trace Step (start cap) moves s)
    (running : s.status = .running) : Accounts cap moves s := by
  have h := trace_recorded trace
  have hslot : ∀ k window, s.begunWindows[k]? = some window →
      s.slots[k]? = some (Slot.after window.length (marks k moves)) := by
    intro k window begun
    rw [h.counted, begun, Option.map_some]
  constructor
  · exact h.pulled_eq
  · exact h.free_eq running
  · exact h.inFlight_le
  · exact h.peak_eq
  · exact h.peak_le
  · exact fun slot mem => (h.slots slot mem).released_le
  · exact hslot
  · exact h.accepted_eq
  · intro k window slot begun hk
    obtain rfl := Option.some.inj (hk.symm.trans (hslot k window begun))
    exact Slot.recordDone_after
  · intro index d window delivery begun left
    have hdone := h.done_eq delivery begun
    rw [if_pos left] at hdone
    refine ⟨_, hdone, by simp only [State.next, hdone], ?_,
      countDown_after left (h.inFlight_pos begun left)⟩
    rw [State.countDown_slots, Slot.counted_after left]
  · intro index d window delivery begun none
    have hdone := h.done_eq delivery begun
    rw [if_neg (Nat.not_lt.mpr none)] at hdone
    exact ⟨hdone, by simp only [State.next, hdone]⟩

/-- The first record of a window of two is marked three times, and the next pull waits. -/
def remarkedEvents : List (Event Nat) :=
  [.acquire, .done 0, .done 0, .done 0, .begin, .arrive [1, 2], .acquire, .request]

def remarked : State Nat := Trace.reached State.next (start 2) remarkedEvents

theorem remarked_accounted : ∃ moves, Trace Step (start 2) moves remarked ∧
    remarked.status = .running ∧ marks 0 moves = 3 ∧ Accounts 2 moves remarked := by
  have trace : Trace Step (start 2) (Trace.replay State.next (start 2) remarkedEvents) remarked := by
    apply Trace.of_replays State.next
    refine ⟨⟨?_⟩, ⟨?_⟩, ⟨?_⟩, ⟨?_⟩, ⟨?_⟩, ⟨?_⟩, ⟨?_⟩, ⟨?_⟩, trivial⟩
    all_goals decide +kernel
  exact ⟨_, trace, rfl, by decide +kernel, window_slots_accounted trace rfl⟩

end Accounts

end Rekey.Dispatch
