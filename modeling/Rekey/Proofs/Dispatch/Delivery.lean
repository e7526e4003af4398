import Rekey.Dispatch.Basic
import Mathlib.Data.List.Basic
import Mathlib.Data.List.Count

/-! # Delivery in order, and the slots of windows

The records delivered so far and those still to be delivered from the window begun last are, in this
order, the records of the windows begun, each with the number of its window. The windows pulled are
those begun and those ready. A window is in flight while it is ready and while its slot has not been
given back, and the slots that are neither free nor held by a window are held by a pull. -/
namespace Rekey.Dispatch

variable {α : Type}

/-- The records of windows, each with the number of its window. -/
def numbered (windows : List (List α)) : List (α × Nat) :=
  windows.zipIdx.flatMap fun w => w.1.map (·, w.2)

theorem numbered_append_singleton (windows : List (List α)) (window : List α) :
    numbered (windows ++ [window]) = numbered windows ++ window.map (·, windows.length) := by
  simp [numbered, List.zipIdx_append]

theorem numbered_map_fst (windows : List (List α)) :
    (numbered windows).map (·.1) = windows.flatten := by
  unfold numbered
  rw [List.map_flatMap]
  simp only [List.map_map, Function.comp_def, List.map_id']
  rw [← List.zipIdx_map_fst 0 windows, List.flatten_eq_flatMap, List.flatMap_map]
  simp

theorem snd_lt_of_mem_numbered {windows : List (List α)} {x : α × Nat} (h : x ∈ numbered windows) :
    x.2 < windows.length := by
  obtain ⟨⟨w, i⟩, hw, hx⟩ := List.mem_flatMap.mp h
  obtain ⟨a, -, rfl⟩ := List.mem_map.mp hx
  have := List.mem_zipIdx hw
  dsimp only at this ⊢
  omega

/-- A slot counts down to nothing left and is given back once, at that point. -/
structure Slot.Sound (slot : Slot) : Prop where
  pending_nonneg : 0 ≤ slot.pending
  released_eq : slot.released = if slot.pending = 0 then 1 else 0

theorem Slot.opened_sound (size : Nat) : (Slot.opened size).Sound := by
  constructor <;> simp [Slot.opened]

def Slot.counted (slot : Slot) : Slot :=
  if slot.pending = 1 then ⟨0, slot.released + 1⟩ else { slot with pending := slot.pending - 1 }

theorem Slot.recordDone_eq {slot : Slot} (h : 0 < slot.pending) :
    slot.recordDone = .ok slot.counted := by
  unfold Slot.recordDone Slot.counted
  rw [if_neg (by omega)]
  split <;> rfl

theorem Slot.counted_pending {slot : Slot} : slot.counted.pending = slot.pending - 1 := by
  unfold Slot.counted
  split
  · next h => simp [h]
  · rfl

theorem Slot.counted_sound {slot : Slot} (sound : slot.Sound) (h : 0 < slot.pending) :
    slot.counted.Sound := by
  have hrel := sound.released_eq
  unfold Slot.counted
  split
  · next h1 =>
    rw [if_neg (by omega)] at hrel
    exact ⟨Int.le_refl _, by simp [hrel]⟩
  · next h1 =>
    rw [if_neg (by omega)] at hrel
    refine ⟨by dsimp only; omega, ?_⟩
    dsimp only
    rw [if_neg (by omega), hrel]

namespace State

def deliveries (s : State α) : List (Delivery α) := s.delivered.reverse

def begunWindows (s : State α) : List (List α) := s.pulled.reverse.take s.begun

def held (s : State α) : Nat := s.slots.countP fun slot => slot.released = 0

theorem delivery?_eq (s : State α) (index : Nat) :
    s.delivery? index = s.deliveries[index]? := by
  unfold delivery? deliveries
  split
  · next h => rw [List.getElem?_reverse h]
  · next h =>
    rw [List.getElem?_eq_none]
    simpa using h

theorem isRunning_iff {s : State α} : s.isRunning = true ↔ s.status = .running := by
  unfold isRunning; cases s.status <;> simp

theorem isPulling_iff {s : State α} : s.isPulling = true ↔ s.puller = .pulling := by
  unfold isPulling; cases s.puller <;> simp

theorem isSeeking_iff {s : State α} : s.isSeeking = true ↔ s.puller = .seeking := by
  unfold isSeeking; cases s.puller <;> simp

end State

theorem await_frame (s : State α) :
    ∃ puller consumer status, s.await = { s with puller, consumer, status } := by
  unfold State.await
  split <;> exact ⟨_, _, _, rfl⟩

theorem deliver_frame (s : State α) :
    ∃ current delivered consumer, s.deliver = { s with current, delivered, consumer } := by
  unfold State.deliver
  split <;> exact ⟨_, _, _, rfl⟩

/-- What holds of a dispatcher with `cap` slots at any time. -/
structure Invariant (cap : Nat) (s : State α) : Prop where
  begun_le : s.begun ≤ s.pulled.length
  ready_eq : s.pulled.reverse.drop s.begun = s.ready
  order : (s.deliveries.map fun d => (d.record, d.window)) ++ s.current.map (·, s.begun - 1) =
    numbered s.begunWindows
  slots : ∀ slot ∈ s.slots, slot.Sound
  inFlight_eq : s.inFlight = s.ready.length + s.held
  free_eq : s.status = .running → s.free + s.inFlight + (if s.isPulling then 1 else 0) = cap
  waiting : s.consumer = .waiting →
    s.status = .running ∧ s.current = [] ∧ s.puller ≠ .resting
  stopped : s.status = .running → s.puller ≠ .stopped
  ended : s.status = .ended → s.ready = [] ∧ s.current = [] ∧ s.puller = .ended
  failed : ∀ failure, s.status = .failed failure → s.puller = .failed failure

/-- The records delivered, those left of the window begun last and those of the windows ready are
all records pulled, in this order. -/
theorem Invariant.records_eq {cap : Nat} {s : State α} (h : Invariant cap s) :
    s.deliveries.map (·.record) ++ s.current ++ s.ready.flatten = s.pulled.reverse.flatten := by
  have hbegun := congrArg (List.map (·.1)) h.order
  simp only [List.map_append, List.map_map, Function.comp_def, List.map_id', numbered_map_fst]
    at hbegun
  rw [hbegun, ← h.ready_eq, State.begunWindows, ← List.flatten_append, List.take_append_drop]

theorem start_invariant (cap : Nat) : Invariant cap (start cap : State α) := by
  constructor <;> simp [start, State.begun, State.deliveries, State.begunWindows, numbered,
    State.held, State.isPulling]

variable {cap : Nat} {s : State α}

/-- A pull that waits holds a slot, so that a window more is not one too many. -/
theorem Invariant.inFlight_lt (h : Invariant cap s) (running : s.status = .running)
    (pulling : s.puller = .pulling) : s.inFlight < cap := by
  have hfree := h.free_eq running
  rw [State.isPulling_iff.mpr pulling, if_pos rfl] at hfree
  omega

theorem Invariant.shut (h : Invariant cap s) {status : Status} (stopped : status ≠ .running)
    (ended : status = .ended → s.ready = [] ∧ s.current = [] ∧ s.puller = .ended)
    (failed : ∀ failure, status = .failed failure → s.puller = .failed failure) :
    Invariant cap (s.shut status) := by
  refine ⟨h.begun_le, h.ready_eq, h.order, h.slots, h.inFlight_eq, fun hr => absurd hr stopped,
    fun hw => by simp [State.shut] at hw, fun hr => absurd hr stopped, ?_, ?_⟩
  · intro he
    obtain ⟨hready, hcurrent, hpuller⟩ := ended he
    exact ⟨hready, hcurrent, by simp [State.shut, hpuller, Puller.isLive]⟩
  · intro f hf
    simp [State.shut, failed f hf, Puller.isLive]

theorem Invariant.await (h : Invariant cap s) (running : s.status = .running)
    (empty : s.current = []) : Invariant cap s.await := by
  unfold State.await
  split
  · next failure hp => exact h.shut (by simp) (by simp) (by rintro _ ⟨⟩; exact hp)
  · next hp =>
    refine { h with
      free_eq := ?_, waiting := ?_, stopped := by simp, ended := ?_, failed := ?_ }
    · intro _
      have := h.free_eq running
      simpa [State.isPulling, hp] using this
    · intro _; exact ⟨running, empty, by simp⟩
    · intro he; rw [running] at he; cases he
    · intro f hf; rw [running] at hf; cases hf
  · next hp =>
    exact { h with waiting := fun _ => ⟨running, empty, fun hr => hp hr⟩ }

theorem Invariant.deliver (h : Invariant cap s) (running : s.status = .running)
    (nonempty : s.current ≠ []) : Invariant cap s.deliver := by
  obtain ⟨record, current, hc⟩ := List.exists_cons_of_ne_nil nonempty
  have horder := h.order
  rw [hc, List.map_cons] at horder
  unfold State.deliver
  rw [hc]
  refine { h with order := ?_, waiting := by simp, ended := ?_ }
  · rw [State.deliveries] at horder ⊢
    simpa [State.begunWindows, State.begun] using horder
  · intro he; rw [running] at he; cases he

theorem Invariant.begun_pos (h : Invariant cap s) (nonempty : s.current ≠ []) : 0 < s.begun := by
  obtain ⟨record, current, hc⟩ := List.exists_cons_of_ne_nil nonempty
  have hmem : (record, s.begun - 1) ∈ numbered s.begunWindows := by
    rw [← h.order, hc]
    simp
  have hlt := snd_lt_of_mem_numbered hmem
  rw [State.begunWindows, List.length_take] at hlt
  omega

theorem Invariant.request (h : Invariant cap s) (running : s.status = .running) :
    Invariant cap (s.next .request) := by
  simp only [State.next]
  split
  · next hempty => exact h.await running (List.isEmpty_iff.mp hempty)
  · next hmore => exact h.deliver running (fun he => hmore (by rw [he]; rfl))

/-- A state in which the slot of the first ready window has been opened. -/
structure Opened (s : State α) (window : List α) (t : State α) : Prop where
  ready : s.ready = window :: t.ready
  pulled : t.pulled = s.pulled
  slots : t.slots = s.slots ++ [Slot.opened window.length]

section Opened
variable {t : State α} {window : List α}

theorem Opened.begun (opened : Opened s window t) : t.begun = s.begun + 1 := by
  simp [State.begun, opened.slots]

theorem begin_opened (more : s.ready.isEmpty = false) : ∃ window, Opened s window s.begin := by
  cases hr : s.ready with
  | nil => simp [hr] at more
  | cons window ready =>
    refine ⟨window, ?_⟩
    unfold State.begin
    simp only [hr]
    split
    · obtain ⟨puller, consumer, status, heq⟩ := await_frame (State.release { s with
        ready, current := window, slots := s.slots ++ [Slot.opened window.length] })
      rw [heq]
      exact ⟨hr, rfl, rfl⟩
    · obtain ⟨current, delivered, consumer, heq⟩ := deliver_frame { s with
        ready, current := window, slots := s.slots ++ [Slot.opened window.length] }
      rw [heq]
      exact ⟨hr, rfl, rfl⟩

theorem Invariant.drop_of_opened (h : Invariant cap s) (opened : Opened s window t) :
    t.pulled.reverse.drop s.begun = window :: t.ready := by
  rw [opened.pulled, h.ready_eq, opened.ready]

theorem Invariant.ready_of_opened (h : Invariant cap s) (opened : Opened s window t) :
    t.pulled.reverse.drop t.begun = t.ready := by
  rw [opened.begun, ← List.drop_drop, h.drop_of_opened opened, List.drop_one, List.tail_cons]

theorem Invariant.begun_lt (h : Invariant cap s) (opened : Opened s window t) :
    s.begun < s.pulled.length := by
  have := congrArg List.length (h.ready_eq.trans opened.ready)
  simp at this
  omega

theorem Invariant.begunWindows_length (h : Invariant cap s) : s.begunWindows.length = s.begun := by
  have hle := h.begun_le
  simp only [State.begunWindows, List.length_take, List.length_reverse]
  omega

theorem Invariant.begunWindows_of_opened (h : Invariant cap s) (opened : Opened s window t) :
    t.begunWindows = s.begunWindows ++ [window] := by
  have hdrop := h.drop_of_opened opened
  unfold State.begunWindows
  rw [opened.begun, opened.pulled] at *
  rw [List.take_add, hdrop, List.take_succ_cons, List.take_zero]

theorem Invariant.numbered_of_opened (h : Invariant cap s) (opened : Opened s window t) :
    numbered t.begunWindows = numbered s.begunWindows ++ window.map (·, s.begun) := by
  rw [h.begunWindows_of_opened opened, numbered_append_singleton, h.begunWindows_length]

theorem Invariant.slots_of_opened (h : Invariant cap s) (opened : Opened s window t) :
    ∀ slot ∈ t.slots, slot.Sound := by
  intro slot hslot
  rw [opened.slots] at hslot
  rcases List.mem_append.mp hslot with hslot | hslot
  · exact h.slots slot hslot
  · obtain rfl := List.mem_singleton.mp hslot
    exact Slot.opened_sound _

theorem held_of_opened (opened : Opened s window t) :
    t.held = s.held + if window = [] then 0 else 1 := by
  unfold State.held
  rw [opened.slots, List.countP_append]
  cases window with
  | nil => simp [Slot.opened]
  | cons a window =>
    have : ¬ ((window.length : Int) + 1 = 0) := by omega
    simp [Slot.opened, this]

/-- A window is begun. If it is empty, its slot is given back at once. -/
theorem Invariant.of_opened (h : Invariant cap s) (opened : Opened s window t)
    (running : s.status = .running) (status : t.status = s.status) (puller : t.puller = s.puller)
    (order : (t.deliveries.map fun d => (d.record, d.window)) ++ t.current.map (·, s.begun) =
      numbered s.begunWindows ++ window.map (·, s.begun))
    (inFlight : t.inFlight = s.inFlight - if window = [] then 1 else 0)
    (free : t.free = s.free + if window = [] then 1 else 0)
    (waiting : t.consumer = .waiting → t.current = [] ∧ t.puller ≠ .resting) : Invariant cap t := by
  have hstatus : t.status = .running := status.trans running
  have hinFlight := h.inFlight_eq
  rw [opened.ready, List.length_cons] at hinFlight
  refine ⟨?_, h.ready_of_opened opened, ?_, h.slots_of_opened opened, ?_, fun _ => ?_,
    fun hw => ⟨hstatus, waiting hw⟩, fun _ => ?_, fun he => ?_, fun f hf => ?_⟩
  · rw [opened.begun, opened.pulled]
    exact h.begun_lt opened
  · rw [h.numbered_of_opened opened, opened.begun]
    exact order
  · rw [inFlight, held_of_opened opened]
    split <;> omega
  · have hfree := h.free_eq running
    rw [show t.isPulling = s.isPulling by simp only [State.isPulling, puller], free, inFlight]
    split <;> omega
  · rw [puller]
    exact h.stopped running
  · rw [hstatus] at he; cases he
  · rw [hstatus] at hf; cases hf

end Opened

theorem begin_eq {record : α} {current : List α} {ready : List (List α)}
    (hr : s.ready = (record :: current) :: ready) : s.begin =
      { s with
        ready := ready
        current := current
        slots := s.slots ++ [Slot.opened (record :: current).length]
        delivered := ⟨record, s.begun⟩ :: s.delivered
        consumer := .idle } := by
  simp [State.begin, hr, State.deliver, State.begun]

theorem Invariant.begin (h : Invariant cap s) (waiting : s.consumer = .waiting)
    (more : s.ready.isEmpty = false) : Invariant cap s.begin := by
  obtain ⟨running, hcurrent, hresting⟩ := h.waiting waiting
  have horder := h.order
  rw [hcurrent, List.map_nil, List.append_nil] at horder
  cases hready : s.ready with
  | nil => simp [hready] at more
  | cons window ready =>
    cases window with
    | nil =>
      have opened : Opened s [] (State.release { s with
          ready := ready
          current := []
          slots := s.slots ++ [Slot.opened ([] : List α).length] }) := ⟨hready, rfl, rfl⟩
      have h := h.of_opened opened running rfl rfl
        (by simpa [State.release, State.deliveries] using horder) rfl rfl fun _ => ⟨rfl, hresting⟩
      simp only [State.begin, hready, List.isEmpty_nil, if_true]
      exact h.await running rfl
    | cons record current =>
      rw [begin_eq hready]
      refine h.of_opened ⟨hready, rfl, rfl⟩ running rfl rfl ?_ rfl rfl fun hw => by cases hw
      rw [← horder]
      simp [State.deliveries]

/-- The puller's own steps leave everything but the puller and the free slots alone. -/
theorem Invariant.of_puller (h : Invariant cap s) {free : Nat} {puller : Puller}
    (free_eq : s.status = .running →
      free + s.inFlight + (if puller matches .pulling then 1 else 0) = cap)
    (live : s.puller = .seeking ∨ s.puller = .pulling)
    (started : puller ≠ .resting ∧ puller ≠ .stopped) :
    Invariant cap { s with free := free, puller := puller } := by
  have hended : s.puller ≠ .ended := by rcases live with hp | hp <;> simp [hp]
  have hfailed : ∀ failure, s.puller ≠ .failed failure := by
    intro f; rcases live with hp | hp <;> simp [hp]
  refine { h with
    free_eq := ?_
    waiting := fun hw => ⟨(h.waiting hw).1, (h.waiting hw).2.1, started.1⟩
    stopped := fun _ => started.2
    ended := fun he => absurd (h.ended he).2.2 hended
    failed := fun f hf => absurd (h.failed f hf) (hfailed f) }
  intro hr
  rw [← free_eq hr]
  cases puller <;> simp [State.isPulling]

theorem Invariant.acquire (h : Invariant cap s) (seeking : s.puller = .seeking)
    (free : 0 < s.free) : Invariant cap (s.next .acquire) := by
  refine h.of_puller (fun hr => ?_) (.inl seeking) (by simp)
  have := h.free_eq hr
  simp only [State.isPulling, seeking, Bool.false_eq_true, if_false] at this
  show s.free - 1 + s.inFlight + 1 = cap
  omega

theorem Invariant.source_over (h : Invariant cap s) (pulling : s.puller = .pulling)
    {puller : Puller} (noMore : puller = .ended ∨ ∃ failure, puller = .failed failure) :
    Invariant cap { s with free := s.free + 1, puller := puller } := by
  have hfree : s.status = .running → s.free + 1 + s.inFlight = cap := by
    intro hr
    have := h.free_eq hr
    simp only [State.isPulling, pulling, if_true] at this
    omega
  rcases noMore with rfl | ⟨f, rfl⟩
  · exact h.of_puller hfree (.inr pulling) (by simp)
  · exact h.of_puller hfree (.inr pulling) (by simp)

theorem Invariant.arrive (h : Invariant cap s) (pulling : s.puller = .pulling)
    (window : List α) : Invariant cap (s.arrive window) := by
  have hle := h.begun_le
  have hdrop := h.ready_eq
  have hbegun : (s.arrive window).begunWindows = s.begunWindows := by
    simp only [State.begunWindows, State.begun, State.arrive, List.reverse_cons]
    rw [List.take_append_of_le_length]
    simpa [State.begun] using hle
  refine ⟨?_, ?_, ?_, h.slots, ?_, ?_, ?_, by simp [State.arrive], ?_, ?_⟩
  · simp only [State.begun, State.arrive, List.length_cons] at hle ⊢
    omega
  · simp only [State.begun, State.arrive, List.reverse_cons]
    rw [List.drop_append_of_le_length (by simpa [State.begun] using hle)]
    rw [← hdrop, State.begun]
  · rw [hbegun]
    exact h.order
  · have := h.inFlight_eq
    simp only [State.arrive, State.held, List.length_append, List.length_singleton] at this ⊢
    omega
  · intro hr
    have := h.free_eq hr
    simp only [State.isPulling, pulling, if_true] at this
    simp only [State.arrive, State.isPulling, Bool.false_eq_true, if_false]
    omega
  · intro hw
    obtain ⟨hr, hc, -⟩ := h.waiting hw
    exact ⟨hr, hc, by simp [State.arrive]⟩
  · intro he
    have := (h.ended he).2.2
    rw [pulling] at this; cases this
  · intro f hf
    have := h.failed f hf
    rw [pulling] at this; cases this

def State.countDown (s : State α) (window : Nat) (slot : Slot) : State α :=
  let t := { s with slots := s.slots.set window slot.counted }
  if slot.pending = 1 then t.release else t

theorem State.countDown_slots (s : State α) (window : Nat) (slot : Slot) :
    (s.countDown window slot).slots = s.slots.set window slot.counted := by
  unfold State.countDown
  split <;> rfl

/-- Marking a record done counts the slot of its window down, if that has records left. -/
theorem done_eq {index : Nat} {d : Delivery α} {slot : Slot}
    (delivery : s.delivery? index = some d) (hslot : s.slots[d.window]? = some slot) :
    s.done index =
      if 0 < slot.pending then .ok (s.countDown d.window slot) else .error Slot.surplus := by
  simp only [State.done, delivery, State.resolve, hslot]
  split
  · next hpos =>
    simp only [Slot.recordDone_eq hpos, Except.map, State.countDown, Slot.counted]
    by_cases hone : slot.pending = 1 <;> simp [hone]
  · next hnone =>
    simp only [Slot.recordDone, if_pos (Int.not_lt.mp hnone), Except.map]

theorem done_cases (s : State α) (index : Nat) :
    (s.next (.done index) = s ∧ ∀ d slot, s.delivery? index = some d →
      s.slots[d.window]? = some slot → slot.pending ≤ 0) ∨
    ∃ d slot, s.delivery? index = some d ∧ s.slots[d.window]? = some slot ∧ 0 < slot.pending ∧
      s.next (.done index) = s.countDown d.window slot := by
  cases hd : s.delivery? index with
  | none => exact .inl ⟨by simp [State.next, State.done, hd], by simp⟩
  | some d =>
    cases hslot : s.slots[d.window]? with
    | none =>
      refine .inl ⟨by simp [State.next, State.done, hd, State.resolve, hslot], ?_⟩
      rintro _ slot ⟨⟩ hs
      rw [hslot] at hs; cases hs
    | some slot =>
      have hdone := done_eq hd hslot
      by_cases hpos : 0 < slot.pending
      · rw [if_pos hpos] at hdone
        exact .inr ⟨d, slot, rfl, hslot, hpos, by simp only [State.next, hdone]⟩
      · rw [if_neg hpos] at hdone
        refine .inl ⟨by simp only [State.next, hdone], ?_⟩
        rintro _ _ ⟨⟩ hs
        rw [hslot] at hs
        cases hs
        omega

theorem done_frame (s : State α) (index : Nat) : ∃ free inFlight slots,
    s.next (.done index) = { s with free, inFlight, slots } ∧ slots.length = s.slots.length := by
  rcases done_cases s index with ⟨heq, -⟩ | ⟨d, slot, -, -, -, heq⟩
  · exact ⟨s.free, s.inFlight, s.slots, heq, rfl⟩
  · rw [heq, State.countDown]
    split
    · exact ⟨s.free + 1, s.inFlight - 1, s.slots.set d.window slot.counted, rfl, by simp⟩
    · exact ⟨s.free, s.inFlight, s.slots.set d.window slot.counted, rfl, by simp⟩

/-- Counting slots down moves slots between those free and those of windows in flight. -/
theorem Invariant.of_slots (h : Invariant cap s) {free inFlight : Nat} {slots : List Slot}
    (length : slots.length = s.slots.length) (sound : ∀ slot ∈ slots, slot.Sound)
    (inFlight_eq : inFlight = s.ready.length + slots.countP fun slot => slot.released = 0)
    (free_eq : free + inFlight = s.free + s.inFlight) :
    Invariant cap { s with free, inFlight, slots } := by
  have hbegun : State.begun { s with free, inFlight, slots } = s.begun := length
  have hwindows : State.begunWindows { s with free, inFlight, slots } = s.begunWindows := by
    rw [State.begunWindows, hbegun, State.begunWindows]
  refine { h with
    begun_le := by rw [hbegun]; exact h.begun_le
    ready_eq := by rw [hbegun]; exact h.ready_eq
    order := by rw [hbegun, hwindows]; exact h.order
    slots := sound
    inFlight_eq := inFlight_eq
    free_eq := fun running => ?_ }
  rw [free_eq]
  exact h.free_eq running

theorem Invariant.done (h : Invariant cap s) (index : Nat) :
    Invariant cap (s.next (.done index)) := by
  rcases done_cases s index with ⟨heq, -⟩ | ⟨d, slot, -, hslot, hpos, heq⟩
  · rwa [heq]
  · obtain ⟨hlt, hget⟩ := List.getElem?_eq_some_iff.mp hslot
    have mem := List.mem_of_getElem? hslot
    have hreleased : slot.released = 0 := by
      rw [(h.slots slot mem).released_eq, if_neg (by omega)]
    have hslots : ∀ slot' ∈ s.slots.set d.window slot.counted, slot'.Sound := by
      intro slot' hmem
      rcases List.mem_or_eq_of_mem_set hmem with hmem | rfl
      · exact h.slots slot' hmem
      · exact Slot.counted_sound (h.slots slot mem) hpos
    have hheld := List.countP_set (p := fun slot : Slot => slot.released = 0)
      (a := slot.counted) hlt
    rw [hget, if_pos (by simpa using hreleased)] at hheld
    have hbound := h.inFlight_eq
    have hmember : 0 < s.slots.countP fun slot : Slot => slot.released = 0 :=
      List.countP_pos_iff.mpr ⟨slot, mem, by simpa using hreleased⟩
    rw [State.held] at hbound
    -- The last record of a window gives its slot back; the others only count it down.
    rw [heq, State.countDown]
    split
    · next hone =>
      rw [if_neg (by simp [Slot.counted, hone])] at hheld
      exact h.of_slots (by simp) hslots (by dsimp only; omega) (by dsimp only; omega)
    · next hmore =>
      rw [if_pos (by simp [Slot.counted, hmore, hreleased])] at hheld
      exact h.of_slots (by simp) hslots (by omega) rfl

theorem step_preserves_invariant {e : Event α} {t : State α} (h : Invariant cap s)
    (step : Step s e t) : Invariant cap t := by
  obtain ⟨enabled⟩ := step
  cases e with
  | request => exact h.request (State.isRunning_iff.mp enabled.1)
  | begin => exact h.begin enabled.2.1 enabled.2.2
  | surrender =>
    obtain ⟨running, current, -⟩ := h.waiting enabled.2.1
    exact h.await running current
  | conclude =>
    obtain ⟨-, current, -⟩ := h.waiting enabled.2.1
    obtain ⟨-, -, ready, noMore⟩ := enabled
    refine h.shut (by simp) (fun _ => ⟨List.isEmpty_iff.mp ready, current, ?_⟩) (by simp)
    split at noMore
    · next hp => exact hp
    · exact noMore.elim
  | acquire => exact h.acquire (State.isSeeking_iff.mp enabled.1) enabled.2
  | arrive window => exact h.arrive (State.isPulling_iff.mp enabled) window
  | sourceEnd => exact h.source_over (State.isPulling_iff.mp enabled) (.inl rfl)
  | sourceFail failure =>
    exact h.source_over (State.isPulling_iff.mp enabled) (.inr ⟨failure, rfl⟩)
  | done index => exact h.done index
  | close => exact h.shut (by simp) (by simp) (by simp)

/-- The number of records of a window begun that are not resolved. -/
def State.unresolved (s : State α) (window : Nat) : Int :=
  (s.slots[window]?.map (·.pending)).getD 0

/-- Marking a record done resolves one record of its window and no other. -/
theorem unresolved_done {d : Delivery α} {index : Nat}
    (delivery : s.delivery? index = some d) (left : 0 < s.unresolved d.window) (window : Nat) :
    (s.next (.done index)).unresolved window =
      s.unresolved window - if window = d.window then 1 else 0 := by
  obtain ⟨slot, hslot⟩ : ∃ slot, s.slots[d.window]? = some slot := by
    cases hs : s.slots[d.window]? with
    | none => simp [State.unresolved, hs] at left
    | some slot => exact ⟨slot, rfl⟩
  rcases done_cases s index with ⟨-, hnone⟩ | ⟨d', slot', hd', hslot', hpos, heq⟩
  · have := hnone d slot delivery hslot
    simp only [State.unresolved, hslot, Option.map_some, Option.getD_some] at left
    omega
  · obtain rfl : d' = d := by rw [delivery] at hd'; exact (Option.some.inj hd').symm
    obtain ⟨hlt, -⟩ := List.getElem?_eq_some_iff.mp hslot'
    have hslots : (s.next (.done index)).slots = s.slots.set d'.window slot'.counted := by
      rw [heq, State.countDown_slots]
    unfold State.unresolved
    rw [hslots]
    by_cases hw : window = d'.window
    · subst hw
      simp [List.getElem?_set_self hlt, hslot', Slot.counted_pending]
    · simp [List.getElem?_set_ne (Ne.symm hw), hw]

end Rekey.Dispatch
