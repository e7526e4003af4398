import Rekey.Proofs.Dispatch.Delivery
import Mathlib.Algebra.GroupWithZero.Nat

/-! # The records owed

A record of a window pulled is owed until it is marked done. As long as no window is larger than a
given size, the records owed are at most that size for each window in flight. Only a window that
arrives makes more of them, and a mark pays at most one. None arrives when the stream is over. -/
namespace Rekey.Dispatch

variable {α : Type} {cap size marks : Nat} {s t u : State α}

/-- Nothing is pulled for a stream that is over. -/
def State.Halted (s : State α) : Prop := s.status ≠ .running → s.puller.isLive = false

section Halted

theorem shut_halted (s : State α) (status : Status) : (s.shut status).puller.isLive = false := by
  unfold State.shut
  dsimp only
  split
  · rfl
  · next dead => simpa using dead

theorem await_halted (halted : s.Halted) : s.await.Halted := by
  unfold State.await
  split
  · exact fun _ => shut_halted s _
  · next resting =>
    intro stopped
    have := halted stopped
    rw [resting] at this
    cases this
  · exact halted

theorem deliver_halted (halted : s.Halted) : s.deliver.Halted := by
  unfold State.deliver
  split <;> exact halted

theorem Halted.running (h : s.Halted) (live : s.puller.isLive = true) : s.status = .running := by
  by_contra stopped
  rw [h stopped] at live
  cases live

theorem begin_halted (h : s.Halted) : s.begin.Halted := by
  unfold State.begin
  split
  · exact h
  · dsimp only
    split
    · exact await_halted h
    · exact deliver_halted h

theorem next_halted (h : s.Halted) {e : Event α} (enabled : s.Enabled e) : (s.next e).Halted := by
  cases e with
  | request =>
    simp only [State.next]
    split
    · exact await_halted h
    · exact deliver_halted h
  | begin => exact begin_halted h
  | surrender => exact await_halted h
  | conclude => exact fun _ => shut_halted s .ended
  | acquire =>
    have seeking := State.isSeeking_iff.mp enabled.1
    exact fun stopped => absurd (Halted.running h (by rw [seeking]; rfl)) stopped
  | arrive window =>
    have pulling := State.isPulling_iff.mp enabled
    exact fun stopped => absurd (Halted.running h (by rw [pulling]; rfl)) stopped
  | sourceEnd => exact fun _ => rfl
  | sourceFail failure => exact fun _ => rfl
  | done index =>
    obtain ⟨free, inFlight, slots, heq, -⟩ := done_frame s index
    rw [heq]
    exact h
  | close => exact fun _ => shut_halted s .closed

end Halted

def unpaid (slots : List Slot) : Nat := (slots.map fun slot => slot.pending.toNat).sum

def State.owed (s : State α) : Nat := unpaid s.slots + s.ready.flatten.length

/-- What holds of a dispatcher at any time when no window is empty or larger than `size`. -/
structure Load (cap size : Nat) (s : State α) : Prop extends Invariant cap s where
  slot_le : ∀ slot ∈ s.slots, slot.pending ≤ size
  sized : ∀ window ∈ s.ready, 0 < window.length ∧ window.length ≤ size
  inFlight_le : s.inFlight ≤ cap
  halted : s.status ≠ .running → s.puller.isLive = false

/-- From `s` to `t` no window has come, and at most `marks` records have been paid. -/
structure Eased (marks : Nat) (s t : State α) : Prop where
  pulled : t.pulled = s.pulled
  owed : s.owed ≤ t.owed + marks
  inFlight : t.inFlight ≤ s.inFlight
  live : t.puller.isLive = true → s.puller.isLive = true

theorem unpaid_append (slots : List Slot) (slot : Slot) :
    unpaid (slots ++ [slot]) = unpaid slots + slot.pending.toNat := by
  simp [unpaid]

theorem unpaid_le {slots : List Slot} (sound : ∀ slot ∈ slots, slot.Sound)
    (bounded : ∀ slot ∈ slots, slot.pending ≤ size) :
    unpaid slots ≤ (slots.countP fun slot => slot.released = 0) * size := by
  induction slots with
  | nil => simp [unpaid]
  | cons slot slots ih =>
    obtain ⟨first, rest⟩ := List.forall_mem_cons.mp sound
    obtain ⟨firstLe, restLe⟩ := List.forall_mem_cons.mp bounded
    have ih := ih rest restLe
    unfold unpaid at ih ⊢
    rw [List.map_cons, List.sum_cons, List.countP_cons, Nat.add_mul]
    have hreleased := first.released_eq
    have hpending := first.pending_nonneg
    by_cases none : slot.pending = 0
    · rw [none]
      simp only [Int.toNat_zero]
      omega
    · rw [if_neg none] at hreleased
      simp only [hreleased, decide_true, if_true, Nat.one_mul]
      omega

theorem flatten_length_le {windows : List (List α)}
    (bounded : ∀ window ∈ windows, window.length ≤ size) :
    windows.flatten.length ≤ windows.length * size := by
  induction windows with
  | nil => simp
  | cons window windows ih =>
    obtain ⟨first, rest⟩ := List.forall_mem_cons.mp bounded
    have ih := ih rest
    rw [List.flatten_cons, List.length_append, List.length_cons, Nat.add_mul]
    omega

theorem Load.owed_le (h : Load cap size s) : s.owed ≤ s.inFlight * size := by
  have hslots := unpaid_le h.slots h.slot_le
  have hready := flatten_length_le fun window hw => (h.sized window hw).2
  rw [h.inFlight_eq, Nat.add_mul, State.owed, State.held]
  omega

theorem Load.running (h : Load cap size s) (live : s.puller.isLive = true) :
    s.status = .running := Halted.running h.halted live

theorem Load.inFlight_lt (h : Load cap size s) (pulling : s.puller = .pulling) :
    s.inFlight < cap :=
  h.toInvariant.inFlight_lt (h.running (by rw [pulling]; rfl)) pulling

section Eased

theorem Eased.refl (s : State α) : Eased 0 s s :=
  ⟨rfl, Nat.le_refl _, Nat.le_refl _, fun live => live⟩

theorem Eased.trans {more : Nat} (h : Eased marks s t) (h' : Eased more t u) :
    Eased (marks + more) s u := by
  have := h.owed
  have := h'.owed
  exact ⟨h'.pulled.trans h.pulled, by omega, Nat.le_trans h'.inFlight h.inFlight,
    fun live => h.live (h'.live live)⟩

theorem shut_eased (s : State α) (status : Status) : Eased 0 s (s.shut status) := by
  refine ⟨rfl, Nat.le_refl _, Nat.le_refl _, fun live => ?_⟩
  by_contra dead
  simp [State.shut, dead] at live

theorem await_eased (s : State α) : Eased 0 s s.await := by
  unfold State.await
  split
  · exact shut_eased s _
  · next resting => exact ⟨rfl, Nat.le_refl _, Nat.le_refl _, fun _ => by rw [resting]; rfl⟩
  · exact ⟨rfl, Nat.le_refl _, Nat.le_refl _, fun live => live⟩

theorem deliver_eased (s : State α) : Eased 0 s s.deliver := by
  unfold State.deliver
  split
  · exact .refl s
  · exact ⟨rfl, Nat.le_refl _, Nat.le_refl _, fun live => live⟩

theorem begin_eased (s : State α) : Eased 0 s s.begin := by
  unfold State.begin
  split
  · exact .refl s
  · next window ready hr =>
    -- What the window owes moves from the list of windows ready to its slot.
    have hopen : ∀ inFlight free, inFlight ≤ s.inFlight → Eased 0 s { s with
        ready, current := window, slots := s.slots ++ [Slot.opened window.length]
        inFlight, free } := by
      intro inFlight free le
      refine ⟨rfl, ?_, le, fun live => live⟩
      rw [State.owed, State.owed, hr, unpaid_append, List.flatten_cons, List.length_append]
      simp only [Slot.opened, Int.toNat_natCast]
      omega
    dsimp only
    split
    · exact (hopen _ _ (Nat.sub_le _ _)).trans (await_eased _)
    · exact (hopen _ _ (Nat.le_refl _)).trans (deliver_eased _)

theorem unpaid_set {slots : List Slot} {i : Nat} {slot : Slot} (h : slots[i]? = some slot) :
    unpaid slots ≤ unpaid (slots.set i slot.counted) + 1 := by
  induction slots generalizing i with
  | nil => cases h
  | cons first slots ih =>
    unfold unpaid at ih ⊢
    cases i with
    | zero =>
      obtain rfl : first = slot := by simpa using h
      rw [List.set_cons_zero, List.map_cons, List.map_cons, List.sum_cons, List.sum_cons,
        Slot.counted_pending]
      omega
    | succ i =>
      have := ih (i := i) (by simpa using h)
      rw [List.set_cons_succ, List.map_cons, List.map_cons, List.sum_cons, List.sum_cons]
      omega

theorem done_eased (s : State α) (index : Nat) : Eased 1 s (s.next (.done index)) := by
  rcases done_cases s index with ⟨heq, -⟩ | ⟨d, slot, -, hslot, -, heq⟩
  · rw [heq]
    exact ⟨rfl, Nat.le_succ _, Nat.le_refl _, fun live => live⟩
  · have hunpaid := unpaid_set hslot
    rw [heq, State.countDown]
    split
    · refine ⟨rfl, ?_, Nat.sub_le _ _, fun live => live⟩
      simp only [State.owed, State.release]
      omega
    · refine ⟨rfl, ?_, Nat.le_refl _, fun live => live⟩
      simp only [State.owed]
      omega

end Eased

section Load

/-- Nothing but an arrival brings windows, and slots only count down. -/
theorem Load.of_eased (h : Load cap size s) (eased : Eased marks s t) (inv : Invariant cap t)
    (slots : ∀ slot ∈ t.slots, slot.pending ≤ size) (ready : ∀ window ∈ t.ready, window ∈ s.ready)
    (halted : t.status ≠ .running → t.puller.isLive = false) : Load cap size t :=
  { inv with
    slot_le := slots
    sized := fun window hw => h.sized window (ready window hw)
    inFlight_le := Nat.le_trans eased.inFlight h.inFlight_le
    halted := halted }

theorem start_load (cap size : Nat) : Load cap size (start cap : State α) :=
  { start_invariant cap with
    slot_le := by simp [start]
    sized := by simp [start]
    inFlight_le := Nat.zero_le _
    halted := fun stopped => absurd rfl stopped }

/-- A dispatcher that is closed from outside, whatever its consumer does. -/
theorem Load.close (h : Load cap size s) : Load cap size (s.shut .closed) :=
  h.of_eased (shut_eased s _) (h.toInvariant.shut (by simp) (by simp) (by simp)) h.slot_le
    (fun _ hw => hw) fun _ => shut_halted s _

theorem await_slots (s : State α) : s.await.slots = s.slots ∧ s.await.ready = s.ready := by
  obtain ⟨puller, consumer, status, heq⟩ := await_frame s
  rw [heq]
  exact ⟨rfl, rfl⟩

theorem deliver_slots (s : State α) : s.deliver.slots = s.slots ∧ s.deliver.ready = s.ready := by
  obtain ⟨current, delivered, consumer, heq⟩ := deliver_frame s
  rw [heq]
  exact ⟨rfl, rfl⟩

theorem Load.deliver (h : Load cap size s) (inv : Invariant cap s.deliver) :
    Load cap size s.deliver := by
  obtain ⟨slots, ready⟩ := deliver_slots s
  refine h.of_eased (deliver_eased s) inv ?_ ?_ (deliver_halted h.halted)
  · rw [slots]; exact h.slot_le
  · rw [ready]; exact fun _ hw => hw

theorem Load.await (h : Load cap size s) (inv : Invariant cap s.await) : Load cap size s.await := by
  obtain ⟨slots, ready⟩ := await_slots s
  refine h.of_eased (await_eased s) inv ?_ ?_ (await_halted h.halted)
  · rw [slots]; exact h.slot_le
  · rw [ready]; exact fun _ hw => hw

theorem Load.begin (h : Load cap size s) (inv : Invariant cap s.begin)
    (more : s.ready.isEmpty = false) : Load cap size s.begin := by
  obtain ⟨window, opened⟩ := begin_opened more
  refine h.of_eased (begin_eased s) inv ?_ ?_ (begin_halted h.halted)
  · intro slot hslot
    rw [opened.slots] at hslot
    rcases List.mem_append.mp hslot with hslot | hslot
    · exact h.slot_le slot hslot
    · obtain rfl := List.mem_singleton.mp hslot
      exact Int.ofNat_le.mpr (h.sized window (by rw [opened.ready]; exact List.mem_cons_self)).2
  · rw [opened.ready]
    exact fun w hw => List.mem_cons_of_mem _ hw

theorem Load.done (h : Load cap size s) (index : Nat) : Load cap size (s.next (.done index)) := by
  refine h.of_eased (done_eased s index) (h.toInvariant.done index) ?_ ?_ ?_
  · rcases done_cases s index with ⟨heq, -⟩ | ⟨d, slot, -, hslot, -, heq⟩
    · rw [heq]; exact h.slot_le
    · rw [heq, State.countDown_slots]
      intro slot' mem
      rcases List.mem_or_eq_of_mem_set mem with mem | rfl
      · exact h.slot_le slot' mem
      · have := h.slot_le slot (List.mem_of_getElem? hslot)
        rw [Slot.counted_pending]
        omega
  · obtain ⟨free, inFlight, slots, heq, -⟩ := done_frame s index
    rw [heq]
    exact fun _ hw => hw
  · obtain ⟨free, inFlight, slots, heq, -⟩ := done_frame s index
    rw [heq]
    exact h.halted

theorem Load.arrive (h : Load cap size s) (pulling : s.puller = .pulling) {window : List α}
    (sized : 0 < window.length ∧ window.length ≤ size) : Load cap size (s.arrive window) :=
  { h.toInvariant.arrive pulling window with
    slot_le := h.slot_le
    sized := by
      intro w hw
      rcases List.mem_append.mp hw with hw | hw
      · exact h.sized w hw
      · obtain rfl := List.mem_singleton.mp hw
        exact sized
    inFlight_le := h.inFlight_lt pulling
    halted := fun stopped => absurd (h.running (by rw [pulling]; rfl)) stopped }

theorem arrive_owed (s : State α) (window : List α) :
    (s.arrive window).owed = s.owed + window.length := by
  simp [State.owed, State.arrive, Nat.add_assoc]

theorem Load.of_puller (h : Load cap size s) {free : Nat} {puller : Puller}
    (inv : Invariant cap { s with free := free, puller := puller })
    (live : s.puller.isLive = true) : Load cap size { s with free := free, puller := puller } :=
  { inv with
    slot_le := h.slot_le
    sized := h.sized
    inFlight_le := h.inFlight_le
    halted := fun stopped => absurd (h.running live) stopped }

end Load

/-- The events by which no window comes. -/
def Event.isQuiet : Event α → Bool
  | .arrive _ | .done _ => false
  | .request | .begin | .surrender | .conclude | .acquire | .sourceEnd | .sourceFail _
  | .close => true

theorem next_eased {e : Event α} (enabled : s.Enabled e) (quiet : e.isQuiet = true) :
    Eased 0 s (s.next e) := by
  cases e with
  | request =>
    simp only [State.next]
    split
    · exact await_eased s
    · exact deliver_eased s
  | begin => exact begin_eased s
  | surrender => exact await_eased s
  | conclude => exact shut_eased s _
  | close => exact shut_eased s _
  | acquire =>
    have seeking := State.isSeeking_iff.mp enabled.1
    exact ⟨rfl, Nat.le_refl _, Nat.le_refl _, fun _ => by rw [seeking]; rfl⟩
  | sourceEnd => exact ⟨rfl, Nat.le_refl _, Nat.le_refl _, fun live => by cases live⟩
  | sourceFail => exact ⟨rfl, Nat.le_refl _, Nat.le_refl _, fun live => by cases live⟩
  | arrive => cases quiet
  | done => cases quiet

theorem step_preserves_load {e : Event α} (h : Load cap size s) (step : Step s e t)
    (sized : ∀ window, e = .arrive window → 0 < window.length ∧ window.length ≤ size) :
    Load cap size t := by
  have inv := step_preserves_invariant h.toInvariant step
  obtain ⟨enabled⟩ := step
  cases e with
  | request =>
    by_cases empty : s.current.isEmpty = true
    · rw [State.next, if_pos empty] at inv ⊢
      exact h.await inv
    · rw [State.next, if_neg empty] at inv ⊢
      exact h.deliver inv
  | begin => exact h.begin inv enabled.2.2
  | surrender => exact h.await inv
  | conclude =>
    refine h.of_eased (shut_eased s .ended) inv h.slot_le ?_ fun _ => shut_halted s .ended
    exact fun _ hw => hw
  | acquire =>
    have seeking := State.isSeeking_iff.mp enabled.1
    exact h.of_puller inv (by rw [seeking]; rfl)
  | arrive window => exact h.arrive (State.isPulling_iff.mp enabled) (sized window rfl)
  | sourceEnd => exact h.of_puller inv (by rw [State.isPulling_iff.mp enabled]; rfl)
  | sourceFail => exact h.of_puller inv (by rw [State.isPulling_iff.mp enabled]; rfl)
  | done index => exact h.done index
  | close => exact h.close

end Rekey.Dispatch
