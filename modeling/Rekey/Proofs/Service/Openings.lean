import Rekey.Proofs.Trace
import Rekey.Service.Repository
import Mathlib.Data.List.Nodup

/-! # When a client leaks

Between two closings the operations of a repository open one client and share it, unless one of them
asks for a client while another is still opening one. Then both open one, and all but the last are lost:
no closing exits them. -/
namespace Rekey.Service.Sharing

inductive Step : Sharing → Event → Sharing → Prop where
  | intro {s : Sharing} {e : Event} (enabled : s.Enabled e) : Step s e (s.next e)

/-- What a step does. An operation that finds a client shares it, and else begins to open one. -/
inductive Move : Sharing → Event → Sharing → Prop where
  | shares {s : Sharing} {operation client : Nat} (found : s.connection.current = some client) :
    Move s (.demand operation) { s with holding := (operation, client) :: s.holding }
  | begins {s : Sharing} {operation : Nat} (missing : s.connection.current = none)
      (new : operation ∉ s.opening) :
    Move s (.demand operation) { s with opening := s.opening ++ [operation] }
  | opens {s : Sharing} {operation : Nat} (begun : operation ∈ s.opening) :
    Move s (.opened operation)
      ⟨s.connection.opening, s.opening.filter (· != operation),
        (operation, s.connection.opened) :: s.holding⟩
  | closes {s : Sharing} (idle : s.opening = []) :
    Move s .close { s with connection := s.connection.closing }

variable {s s₀ s' : Sharing} {e : Event} {moves later : List (Sharing × Event)} {client : Nat}

theorem Step.move (step : Step s e s') : Move s e s' := by
  obtain ⟨enabled⟩ := step
  cases e with
  | demand operation =>
    rw [next]
    cases kept : s.connection.current with
    | some client => exact .shares kept
    | none => exact .begins kept enabled.1
  | opened operation => exact .opens enabled
  | close => exact .closes enabled

/-! ## Clients that are lost -/

theorem opened_closing (c : Connection) : c.closing.opened = c.opened := by
  unfold Connection.closing
  split <;> rfl

theorem current_closing (c : Connection) : c.closing.current = none := by
  unfold Connection.closing
  split
  · rfl
  · assumption

theorem exited_closing (c : Connection) : c.closing.exited = c.current.toList ++ c.exited := by
  unfold Connection.closing
  split <;> simp [*]

/-- A client that was opened, is not kept any more, and has not been exited. -/
structure Lost (s : Sharing) (client : Nat) : Prop where
  was_opened : client < s.connection.opened
  replaced : s.connection.current ≠ some client
  not_exited : client ∉ s.connection.exited

theorem Lost.step (h : Lost s client) (step : Step s e s') : Lost s' client := by
  obtain ⟨was_opened, replaced, not_exited⟩ := h
  cases step.move with
  | shares | begins => exact ⟨was_opened, replaced, not_exited⟩
  | opens =>
    refine ⟨Nat.lt_succ_of_lt was_opened, fun same => ?_, not_exited⟩
    exact Nat.ne_of_gt was_opened (Option.some.inj same)
  | closes =>
    constructor
    · rw [opened_closing]
      exact was_opened
    · rw [current_closing]
      exact nofun
    · rw [exited_closing, List.mem_append, Option.mem_toList]
      rintro (kept | exited)
      · exact replaced kept
      · exact not_exited exited

/-- No closing exits a client that is lost. -/
theorem Lost.never_exited (h : Lost s client) (trace : Trace Step s moves s') :
    client ∉ s'.connection.exited := by
  have lost : Lost s' client :=
    trace.preserves (P := fun _ t => Lost t client) h fun _ _ _ _ _ before step => before.step step
  exact lost.not_exited

/-! ## Rounds -/

/-- Every client that was exited has been opened. -/
def Sound (s : Sharing) : Prop :=
  (∀ client ∈ s.connection.exited, client < s.connection.opened) ∧
    ∀ client ∈ s.connection.current, client < s.connection.opened

theorem Sound.step (h : Sound s) (step : Step s e s') : Sound s' := by
  obtain ⟨exited_lt, current_lt⟩ := h
  cases step.move with
  | shares | begins => exact ⟨exited_lt, current_lt⟩
  | opens =>
    refine ⟨fun client mem => Nat.lt_succ_of_lt (exited_lt client mem), ?_⟩
    rintro client ⟨⟩
    exact Nat.lt_succ_self _
  | closes =>
    constructor
    · intro client mem
      rw [exited_closing, List.mem_append, Option.mem_toList] at mem
      rw [opened_closing]
      exact mem.elim (current_lt client) (exited_lt client)
    · intro client mem
      rw [current_closing] at mem
      cases mem

theorem Reachable.sound (h : Reachable s) : Sound s := by
  induction h with
  | start => exact ⟨nofun, nofun⟩
  | step _ enabled ih => exact ih.step (.intro enabled)

/-- A state in which a repository is new or has been closed, and nothing is under way. -/
structure Closed (s : Sharing) : Prop where
  current_eq : s.connection.current = none
  opening_eq : s.opening = []

/-- How many clients have been opened since a state. -/
def openedSince (s₀ s : Sharing) : Nat := s.connection.opened - s₀.connection.opened

/-- Whether an operation has asked for a client while another was opening one. -/
def Overlapping (moves : List (Sharing × Event)) (s : Sharing) : Prop :=
  (∃ m ∈ moves, 2 ≤ m.1.opening.length) ∨ 2 ≤ s.opening.length

/-- What is known since a repository was closed. The clients opened since then and those that are being
opened are together two or more only by openings that overlap. -/
structure Round (s₀ : Sharing) (moves : List (Sharing × Event)) (s : Sharing) : Prop where
  opened_le : s₀.connection.opened ≤ s.connection.opened
  exited_eq : s.connection.exited = s₀.connection.exited
  current_eq : s.connection.current =
    if openedSince s₀ s = 0 then none else some (s.connection.opened - 1)
  nodup : s.opening.Nodup
  overlapping_iff : Overlapping moves s ↔ 2 ≤ openedSince s₀ s + s.opening.length
  holding_eq : ∃ new, s.holding = new ++ s₀.holding ∧
    ∀ held ∈ new, s₀.connection.opened ≤ held.2 ∧ held.2 < s.connection.opened

theorem overlapping_cons : Overlapping ((s, e) :: moves) s' ↔
    Overlapping moves s ∨ 2 ≤ s'.opening.length := by
  rw [Overlapping, List.exists_mem_cons_iff, Overlapping, or_comm (a := 2 ≤ s.opening.length)]

theorem Round.start (closed : Closed s₀) : Round s₀ [] s₀ where
  opened_le := Nat.le_refl _
  exited_eq := rfl
  current_eq := by simp [openedSince, closed.current_eq]
  nodup := by simp [closed.opening_eq]
  overlapping_iff := by simp [Overlapping, openedSince, closed.opening_eq]
  holding_eq := ⟨[], rfl, nofun⟩

theorem Round.shares (h : Round s₀ moves s) {operation : Nat}
    (found : s.connection.current = some client) :
    Round s₀ ((s, .demand operation) :: moves)
      { s with holding := (operation, client) :: s.holding } := by
  obtain ⟨opened_le, exited_eq, current_eq, nodup, overlapping_iff, new, holding_eq, within⟩ := h
  refine ⟨opened_le, exited_eq, current_eq, nodup, ?_, (operation, client) :: new, ?_, ?_⟩
  · exact (overlapping_cons.trans (or_iff_left_of_imp .inr)).trans overlapping_iff
  · rw [holding_eq]
    rfl
  · rw [found] at current_eq
    split at current_eq
    · cases current_eq
    · next opened =>
      obtain rfl := Option.some.inj current_eq
      unfold openedSince at opened
      refine List.forall_mem_cons.mpr ⟨⟨?_, ?_⟩, within⟩ <;> dsimp only <;> omega

theorem Round.begins (h : Round s₀ moves s) {operation : Nat}
    (missing : s.connection.current = none) (new_operation : operation ∉ s.opening) :
    Round s₀ ((s, .demand operation) :: moves)
      { s with opening := s.opening ++ [operation] } := by
  obtain ⟨opened_le, exited_eq, current_eq, nodup, overlapping_iff, holding_eq⟩ := h
  refine ⟨opened_le, exited_eq, current_eq, ?_, ?_, holding_eq⟩
  · exact List.nodup_append.mpr ⟨nodup, List.nodup_singleton _, by grind⟩
  · rw [missing] at current_eq
    split at current_eq
    · next unopened =>
      have same : openedSince s₀ { s with opening := s.opening ++ [operation] } = 0 := unopened
      rw [overlapping_cons, overlapping_iff, same, unopened, List.length_append,
        List.length_singleton]
      omega
    · cases current_eq

theorem Round.opens (h : Round s₀ moves s) {operation : Nat} (begun : operation ∈ s.opening) :
    Round s₀ ((s, .opened operation) :: moves)
      ⟨s.connection.opening, s.opening.filter (· != operation),
        (operation, s.connection.opened) :: s.holding⟩ := by
  obtain ⟨opened_le, exited_eq, -, nodup, overlapping_iff, new, holding_eq, within⟩ := h
  have positive := List.length_pos_of_mem begun
  have fewer : (s.opening.filter (· != operation)).length = s.opening.length - 1 := by
    rw [← nodup.erase_eq_filter, List.length_erase_of_mem begun]
  refine ⟨Nat.le_succ_of_le opened_le, exited_eq, ?_, nodup.filter _, ?_,
    (operation, s.connection.opened) :: new, ?_, ?_⟩
  · have more : openedSince s₀ ⟨s.connection.opening, s.opening.filter (· != operation),
        (operation, s.connection.opened) :: s.holding⟩ ≠ 0 := by
      simp only [openedSince, Connection.opening]
      omega
    rw [if_neg more]
    rfl
  · rw [overlapping_cons, overlapping_iff, fewer]
    simp only [openedSince, Connection.opening]
    omega
  · rw [holding_eq]
    rfl
  · rw [List.forall_mem_cons]
    refine ⟨⟨opened_le, Nat.lt_succ_self _⟩, fun held mem => ?_⟩
    exact ⟨(within held mem).1, Nat.lt_succ_of_lt (within held mem).2⟩

theorem Round.of_trace (closed : Closed s₀) (trace : Trace Step s₀ moves s)
    (open_all_along : ∀ m ∈ moves, m.2 ≠ .close) : Round s₀ moves s := by
  induction trace with
  | nil => exact .start closed
  | snoc earlier step ih =>
    obtain ⟨not_close, before⟩ := List.forall_mem_cons.mp open_all_along
    have round := ih before
    cases step.move with
    | shares found => exact round.shares found
    | begins missing new_operation => exact round.begins missing new_operation
    | opens begun => exact round.opens begun
    | closes => exact absurd rfl not_close

/-- What is wanted of a round that has come to its end: at most one client has been opened, which all
its operations have got, and the closing exits it. -/
structure OneClient (s₀ s : Sharing) : Prop where
  at_most_one : openedSince s₀ s ≤ 1
  same : ∀ held ∈ s.holding, held ∈ s₀.holding ∨ held.2 = s₀.connection.opened
  exited : ∀ client, s₀.connection.opened ≤ client → client < s.connection.opened →
    client ∈ (s.next .close).connection.exited

theorem Round.oneClient_iff (round : Round s₀ moves s) (ended : s.opening = []) :
    OneClient s₀ s ↔ ∀ m ∈ moves, m.1.opening.length ≤ 1 := by
  obtain ⟨opened_le, exited_eq, current_eq, -, overlapping_iff, new, holding_eq, within⟩ := round
  have overlapped : (∃ m ∈ moves, 2 ≤ m.1.opening.length) ↔ 2 ≤ openedSince s₀ s := by
    simpa [Overlapping, ended] using overlapping_iff
  constructor
  · intro one m mem
    refine Nat.le_of_not_lt fun many => ?_
    have two := overlapped.mp ⟨m, mem, many⟩
    have at_most_one := one.at_most_one
    omega
  · intro alone
    have at_most_one : openedSince s₀ s ≤ 1 := by
      refine Nat.le_of_not_lt fun many => ?_
      obtain ⟨m, mem, two⟩ := overlapped.mpr many
      have one := alone m mem
      omega
    refine ⟨at_most_one, fun held mem => ?_, fun client from_start opened => ?_⟩
    · rw [holding_eq, List.mem_append] at mem
      refine mem.symm.imp id fun mem => ?_
      have bounds := within held mem
      simp only [openedSince] at at_most_one
      omega
    · have some_opened : openedSince s₀ s ≠ 0 := by
        simp only [openedSince]
        omega
      rw [if_neg some_opened] at current_eq
      rw [next, exited_closing, current_eq]
      refine List.mem_append_left _ (Option.mem_toList.mpr (congrArg some ?_))
      simp only [openedSince] at at_most_one
      omega

theorem Round.lost (round : Round s₀ moves s) (sound : Sound s₀)
    (from_start : s₀.connection.opened ≤ client) (replaced : client + 1 < s.connection.opened) :
    Lost s client := by
  refine ⟨by omega, fun kept => ?_, fun mem => ?_⟩
  · rw [round.current_eq] at kept
    split at kept
    · cases kept
    · have same := Option.some.inj kept
      omega
  · rw [round.exited_eq] at mem
    have older := sound.1 client mem
    omega

/-- **When a client leaks.** Take any operations on a repository that is new or has been closed, and let
all of them come to their end before it is closed again. They have opened one client at most, have all
got this one, and the closing exits it, if and only if none of them asked for a client while another
was opening one. Else each client that was opened but the last is never exited. -/
theorem one_client_iff (reached : Reachable s₀) (closed : Closed s₀) (trace : Trace Step s₀ moves s)
    (open_all_along : ∀ m ∈ moves, m.2 ≠ .close) (ended : s.opening = []) :
    (OneClient s₀ s ↔ ∀ m ∈ moves, m.1.opening.length ≤ 1) ∧
      ∀ client, s₀.connection.opened ≤ client → client + 1 < s.connection.opened →
        ∀ later s', Trace Step s later s' → client ∉ s'.connection.exited := by
  have round := Round.of_trace closed trace open_all_along
  refine ⟨round.oneClient_iff ended, ?_⟩
  intro client from_start replaced later s' onwards
  exact (round.lost reached.sound from_start replaced).never_exited onwards

/-- An operation that nothing interrupts asks for a client and opens it at once if there is none. -/
theorem connect_uninterrupted {μ : Type} [Client μ] (r : Repository μ) (operation : Nat) :
    ∃ moves s, Trace Step ⟨r.connection, [], []⟩ moves s ∧ s.connection = r.connect.connection ∧
      s.opening = [] ∧ ∀ m ∈ moves, m.1.opening.length ≤ 1 := by
  have asks : Enabled ⟨r.connection, [], []⟩ (.demand operation) := ⟨List.not_mem_nil, rfl⟩
  have asked := Trace.nil.snoc (Step.intro asks)
  cases kept : r.connection.current with
  | some client =>
    have same : r.connect = r := if_pos (by rw [Connection.isOpen, kept]; rfl)
    rw [next, kept] at asked
    exact ⟨_, _, asked, by rw [same], rfl, by simp⟩
  | none =>
    have opened : r.connect.connection = r.connection.opening := by
      rw [Repository.connect, if_neg (by rw [Connection.isOpen, kept]; nofun)]
    rw [next, kept] at asked
    refine ⟨_, _, asked.snoc (.intro (e := .opened operation) List.mem_cons_self), ?_, ?_, ?_⟩
    · rw [opened]
      rfl
    · simp [next]
    · simp

/-! ## Two operations -/

theorem closed_start : Closed start := ⟨rfl, rfl⟩

/-- The last event comes first. The second operation asks for a client when the first has one. -/
def inTurn : List Event := [.demand 1, .opened 0, .demand 0]

/-- Both operations ask for a client before either has one. -/
def atOnce : List Event := [.opened 1, .opened 0, .demand 1, .demand 0]

theorem inTurn_trace :
    Trace Step start (Trace.replay next start inTurn) (Trace.reached next start inTurn) :=
  Trace.of_replays _ ⟨.intro (by decide), .intro (by decide), .intro (by decide), trivial⟩

theorem atOnce_trace :
    Trace Step start (Trace.replay next start atOnce) (Trace.reached next start atOnce) :=
  Trace.of_replays _
    ⟨.intro (by decide), .intro (by decide), .intro (by decide), .intro (by decide), trivial⟩

theorem openings_in_turn_shared : OneClient start (Trace.reached next start inTurn) := by
  have shared := (one_client_iff .start closed_start inTurn_trace (by decide) (by decide)).1
  exact shared.mpr (by decide)

/-- Of two clients that are opened at once, the first is not exited by the closing, and by no later one. -/
theorem openings_at_once_leak :
    (Trace.reached next start atOnce).opening = [] ∧
    ¬ OneClient start (Trace.reached next start atOnce) ∧
    ∀ later s', Trace Step (Trace.reached next start atOnce) later s' →
      0 ∉ s'.connection.exited := by
  obtain ⟨shared, leaks⟩ := one_client_iff .start closed_start atOnce_trace (by decide) (by decide)
  refine ⟨by decide, fun one => ?_, leaks 0 (Nat.zero_le _) (by decide)⟩
  exact absurd (shared.mp one) (by decide)

end Rekey.Service.Sharing
