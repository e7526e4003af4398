import Rekey.Proofs.Trace
import Rekey.Proofs.Window.Chunks
import Rekey.Scripted.Chance

/-! # Windows on demand

A reader asks for one window after another. Only while it waits for a window is the stream asked for
items, one at a time, and what comes out is what `pull` says of so many windows. -/
namespace Rekey.Window

variable {α γ : Type}

/-- A stream is drained when it has ended with a short window. -/
inductive Phase where
  | flowing
  | drained
  | closed (failure? : Option Failure)
  deriving Repr

/-- A reader on its way. `asked` counts the windows it has asked for and `taken` the items that the
stream has given. The part `held` is newest first, the windows that came out oldest first. -/
structure Demand (α γ : Type) where
  asked : Nat
  taken : Nat
  held : List α
  chance : γ
  yields : List (Yield α)
  phase : Phase
  deriving Repr

namespace Demand

inductive Event where
  | ask
  | take
  deriving DecidableEq, Repr

def start (chance : γ) : Demand α γ := ⟨0, 0, [], chance, [], .flowing⟩

def isFlowing (d : Demand α γ) : Bool := d.phase matches .flowing

def isClosed (d : Demand α γ) : Bool := d.phase matches .closed _

/-- Whether the reader has what it asked for. -/
def isServed (d : Demand α γ) : Bool := d.isClosed || d.yields.length == d.asked

def failure? (d : Demand α γ) : Option Failure :=
  match d.phase with
  | .closed failure? => failure?
  | .flowing | .drained => none

def Enabled (d : Demand α γ) : Event → Prop
  | .ask => d.isClosed = false ∧ d.yields.length = d.asked
  | .take => d.isFlowing = true ∧ d.yields.length < d.asked

instance (d : Demand α γ) (e : Event) : Decidable (d.Enabled e) := by
  cases e <;> unfold Enabled <;> infer_instance

def next (size : Nat) (reorder : γ → List α → List α × γ) (s : Stream α) (d : Demand α γ) :
    Event → Demand α γ
  | .ask =>
    match d.phase with
    | .drained => { d with asked := d.asked + 1, phase := .closed none }
    | .flowing | .closed _ => { d with asked := d.asked + 1 }
  | .take =>
    match s.answer d.taken with
    | .item item =>
      match push size d.held item with
      | (none, held) => { d with taken := d.taken + 1, held }
      | (some window, held) =>
        let (window, chance) := reorder d.chance window
        { d with
          taken := d.taken + 1, held, chance, yields := d.yields ++ [⟨window, d.taken + 1⟩] }
    | .exhausted =>
      match flush d.held with
      | none => { d with phase := .closed none }
      | some window =>
        let (window, chance) := reorder d.chance window
        { d with held := [], chance, yields := d.yields ++ [⟨window, d.taken⟩], phase := .drained }
    | .failed failure => { d with held := [], phase := .closed (some failure) }

inductive Step (size : Nat) (reorder : γ → List α → List α × γ) (s : Stream α) :
    Demand α γ → Event → Demand α γ → Prop where
  | intro {d : Demand α γ} {e : Event} (enabled : d.Enabled e) :
    Step size reorder s d e (d.next size reorder s e)

variable {size : Nat} {reorder : γ → List α → List α × γ} {s : Stream α} {chance : γ}
  {d d' : Demand α γ} {e : Event} {moves : List (Demand α γ × Event)}

def yield (reorder : γ → List α → List α × γ) (d : Demand α γ) (window : List α) : Demand α γ :=
  { d with
    held := []
    chance := (reorder d.chance window).2
    yields := d.yields ++ [⟨(reorder d.chance window).1, d.taken⟩] }

/-- What comes of asking the stream for an item. -/
inductive Takes (size : Nat) (reorder : γ → List α → List α × γ) (s : Stream α) (d : Demand α γ) :
    Demand α γ → Prop where
  | gathers {item : α} (answer : s.answer d.taken = .item item)
    (room : (item :: d.held).length < size) :
    Takes size reorder s d { d with taken := d.taken + 1, held := item :: d.held }
  | completes {item : α} (answer : s.answer d.taken = .item item)
    (full : size ≤ (item :: d.held).length) :
    Takes size reorder s d
      (yield reorder { d with taken := d.taken + 1 } (item :: d.held).reverse)
  | drains (answer : s.answer d.taken = .exhausted) (left : d.held ≠ []) :
    Takes size reorder s d { yield reorder d d.held.reverse with phase := .drained }
  | closes (answer : s.answer d.taken = .exhausted) (nothing : d.held = []) :
    Takes size reorder s d { d with phase := .closed none }
  | fails {failure : Failure} (answer : s.answer d.taken = .failed failure) :
    Takes size reorder s d { d with held := [], phase := .closed (some failure) }

theorem takes (size : Nat) (reorder : γ → List α → List α × γ) (s : Stream α) (d : Demand α γ) :
    Takes size reorder s d (d.next size reorder s .take) := by
  cases answer : s.answer d.taken with
  | item item =>
    by_cases room : (item :: d.held).length < size
    · simp only [next, answer, push_of_lt room]
      exact .gathers answer room
    · simp only [next, answer, push_of_ge (Nat.not_lt.mp room)]
      exact .completes answer (Nat.not_lt.mp room)
  | exhausted =>
    by_cases nothing : d.held = []
    · simp only [next, answer, nothing, flush, List.isEmpty_nil, if_true]
      rw [← nothing]
      exact .closes answer nothing
    · have flushed : flush d.held = some d.held.reverse := by simp [flush, nothing]
      simp only [next, answer, flushed]
      exact .drains answer nothing
  | failed failure =>
    simp only [next, answer]
    exact .fails answer

/-! ## Where a reader stands -/

/-- What has been taken, by how far the reader has come. -/
inductive Stage (size : Nat) (s : Stream α) (d : Demand α γ) : Prop where
  | flowing (phase : d.phase = .flowing)
    (taken : d.taken = d.yields.length * size + d.held.length)
    (short : d.held.length < size)
    (ahead : d.held.reverse ++ s.items.drop d.taken = s.items.drop (d.yields.length * size))
    (inside : d.taken ≤ s.items.length)
    (idle : d.yields.length = d.asked → d.held = [])
    (asked : d.yields.length ≤ d.asked ∧ d.asked ≤ d.yields.length + 1)
  | drained (phase : d.phase = .drained) (sound : s.failure = none)
    (count : d.yields.length = windowCount size s) (taken : d.taken = s.items.length)
    (asked : d.asked = d.yields.length)
  | closed (phase : d.phase = .closed s.failure) (count : d.yields.length = windowCount size s)
    (taken : d.taken = s.items.length) (asked : d.asked = d.yields.length + 1)

/-- The windows that came out are the first ones of the stream. -/
structure Standing (size : Nat) (reorder : γ → List α → List α × γ) (s : Stream α) (chance : γ)
    (d : Demand α γ) : Prop where
  yields : shuffled reorder chance (chunks size s.items d.yields.length) = (d.yields, d.chance)
  stage : Stage size s d

theorem shuffled_append (reorder : γ → List α → List α × γ) (chance : γ) (yields : List (Yield α))
    (y : Yield α) :
    shuffled reorder chance (yields ++ [y]) =
      ((shuffled reorder chance yields).1 ++
          [⟨(reorder (shuffled reorder chance yields).2 y.window).1, y.consumed⟩],
        (reorder (shuffled reorder chance yields).2 y.window).2) := by
  induction yields generalizing chance with
  | nil => rfl
  | cons first rest ih => simp only [List.cons_append, shuffled, ih]

theorem start_standing (positive : 0 < size) :
    Standing size reorder s chance (start chance : Demand α γ) where
  yields := rfl
  stage := .flowing rfl (Nat.zero_mul size).symm positive (by simp [start]) (Nat.zero_le _)
    (fun _ => rfl) ⟨Nat.le_refl _, Nat.zero_le _⟩

/-- One more window comes out, the next one of the stream. -/
theorem yields_succ (h : Standing size reorder s chance d) {window : List α} {consumed : Nat}
    (next : chunk size s.items d.yields.length = ⟨window, consumed⟩) {yields : List (Yield α)}
    (added : yields = d.yields ++ [⟨(reorder d.chance window).1, consumed⟩]) :
    shuffled reorder chance (chunks size s.items yields.length) =
      (yields, (reorder d.chance window).2) := by
  subst added
  rw [List.length_append, List.length_singleton, chunks_succ, shuffled_append, h.yields, next]

theorem Standing.ask (h : Standing size reorder s chance d) (enabled : d.Enabled .ask) :
    Standing size reorder s chance (d.next size reorder s .ask) := by
  obtain ⟨opened, asked⟩ := enabled
  cases h.stage with
  | flowing phase taken short ahead inside idle =>
    simp only [next, phase]
    exact ⟨h.yields, .flowing rfl taken short ahead inside (by dsimp only; omega)
      (by dsimp only; omega)⟩
  | drained phase sound count taken =>
    simp only [next, phase]
    exact ⟨h.yields, .closed (by rw [sound]) count taken (congrArg (· + 1) asked.symm)⟩
  | closed phase => simp [isClosed, phase] at opened

section Answers
variable {n : Nat}

theorem answer_eq_item {item : α} (h : s.answer n = .item item) :
    n < s.items.length ∧ s.items.drop n = item :: s.items.drop (n + 1) := by
  unfold Stream.answer at h
  cases hn : s.items[n]? with
  | none =>
    rw [hn] at h
    cases hf : s.failure <;> rw [hf] at h <;> cases h
  | some a =>
    rw [hn] at h
    cases h
    obtain ⟨hlt, rfl⟩ := List.getElem?_eq_some_iff.mp hn
    exact ⟨hlt, List.drop_eq_getElem_cons hlt⟩

theorem answer_eq_exhausted (h : s.answer n = .exhausted) :
    s.items.length ≤ n ∧ s.failure = none := by
  unfold Stream.answer at h
  cases hn : s.items[n]? with
  | some a => rw [hn] at h; cases h
  | none =>
    rw [hn] at h
    cases hf : s.failure with
    | some failure => rw [hf] at h; cases h
    | none => exact ⟨List.getElem?_eq_none_iff.mp hn, rfl⟩

theorem answer_eq_failed {failure : Failure} (h : s.answer n = .failed failure) :
    s.items.length ≤ n ∧ s.failure = some failure := by
  unfold Stream.answer at h
  cases hn : s.items[n]? with
  | some a => rw [hn] at h; cases h
  | none =>
    rw [hn] at h
    cases hf : s.failure with
    | none => rw [hf] at h; cases h
    | some failure' => rw [hf] at h; cases h; exact ⟨List.getElem?_eq_none_iff.mp hn, rfl⟩

end Answers

theorem windowCount_of_left {k left : Nat} (short : left < size)
    (length : s.items.length = k * size + left) :
    windowCount size s = if s.failure = none ∧ left ≠ 0 then k + 1 else k := by
  have positive := Nat.zero_lt_of_lt short
  have div : s.items.length / size = k := by
    rw [length, Nat.mul_comm, Nat.mul_add_div positive, Nat.div_eq_of_lt short, Nat.add_zero]
  have mod : s.items.length % size = left := by
    rw [length, Nat.mul_comm, Nat.mul_add_mod, Nat.mod_eq_of_lt short]
  unfold windowCount
  cases s.failure with
  | some failure => simpa using div
  | none =>
    dsimp only
    rw [ceil_eq positive, div, mod]
    by_cases whole : left = 0 <;> simp [whole]

theorem Standing.take (h : Standing size reorder s chance d) (enabled : d.Enabled .take)
    (takes : Takes size reorder s d d') : Standing size reorder s chance d' := by
  obtain ⟨flowing, awaiting⟩ := enabled
  cases h.stage with
  | drained phase | closed phase => simp [isFlowing, phase] at flowing
  | flowing phase taken short ahead inside idle asked =>
    have ahead' {item : α} (rest : s.items.drop d.taken = item :: s.items.drop (d.taken + 1)) :
        (item :: d.held).reverse ++ s.items.drop (d.taken + 1) =
          s.items.drop (d.yields.length * size) := by
      rw [List.reverse_cons, List.append_assoc, List.singleton_append, ← rest, ahead]
    cases takes with
    | @gathers item answer room =>
      obtain ⟨more, rest⟩ := answer_eq_item answer
      refine ⟨h.yields, .flowing phase ?_ room (ahead' rest) more ?_ asked⟩
      · rw [taken, List.length_cons, Nat.add_assoc]
      · exact fun idle => absurd idle (Nat.ne_of_lt awaiting)
    | @completes item answer full =>
      obtain ⟨more, rest⟩ := answer_eq_item answer
      rw [List.length_cons] at full
      have length : (item :: d.held).reverse.length = size := by
        rw [List.length_reverse, List.length_cons]
        omega
      have after : d.taken + 1 = (d.yields.length + 1) * size := by
        rw [Nat.succ_mul]
        omega
      have next_chunk : chunk size s.items d.yields.length =
          ⟨(item :: d.held).reverse, d.taken + 1⟩ := by
        rw [chunk_of_full (by omega), after, stretch, ← ahead' rest, List.take_left' length]
      refine ⟨yields_succ h next_chunk rfl, .flowing phase ?_ ?_ ?_ more (fun _ => rfl) ?_⟩
      · simpa [yield] using after
      · exact Nat.zero_lt_of_lt short
      · simp [yield, after]
      · simp only [yield, List.length_append, List.length_singleton]
        omega
    | drains answer left =>
      obtain ⟨past, sound⟩ := answer_eq_exhausted answer
      have all : d.taken = s.items.length := Nat.le_antisymm inside past
      have next_chunk : chunk size s.items d.yields.length = ⟨d.held.reverse, d.taken⟩ := by
        rw [chunk_of_short (by rw [Nat.succ_mul]; omega), all, ← ahead,
          List.drop_of_length_le past, List.append_nil]
      refine ⟨yields_succ h next_chunk rfl, .drained rfl sound ?_ all ?_⟩
      · rw [windowCount_of_left short (all.symm.trans taken),
          if_pos ⟨sound, fun none => left (List.length_eq_zero_iff.mp none)⟩]
        simp [yield]
      · simp only [yield, List.length_append, List.length_singleton]
        omega
    | closes answer nothing =>
      obtain ⟨past, sound⟩ := answer_eq_exhausted answer
      have all : d.taken = s.items.length := Nat.le_antisymm inside past
      refine ⟨h.yields, .closed (by rw [sound]) ?_ all ?_⟩
      · rw [windowCount_of_left short (all.symm.trans taken), if_neg (by simp [nothing])]
      · dsimp only
        omega
    | fails answer =>
      obtain ⟨past, failing⟩ := answer_eq_failed answer
      have all : d.taken = s.items.length := Nat.le_antisymm inside past
      refine ⟨h.yields, .closed (by rw [failing]) ?_ all ?_⟩
      · rw [windowCount_of_left short (all.symm.trans taken), if_neg (by simp [failing])]
      · dsimp only
        omega

theorem step_preserves_standing (h : Standing size reorder s chance d)
    (step : Step size reorder s d e d') : Standing size reorder s chance d' := by
  obtain ⟨enabled⟩ := step
  cases e with
  | ask => exact h.ask enabled
  | take => exact h.take enabled (takes size reorder s d)

theorem trace_standing (positive : 0 < size)
    (trace : Trace (Step size reorder s) (start chance) moves d) :
    Standing size reorder s chance d :=
  trace.preserves (P := fun _ d => Standing size reorder s chance d) (start_standing positive)
    fun _ _ _ _ _ h step => step_preserves_standing h step

/-! ## What a reader has been given -/

/-- A reader that has what it asked for has seen what `pull` says. -/
theorem Standing.pulled {size : Int} (positive : 1 ≤ size)
    (h : Standing size.toNat reorder s chance d) (served : d.isServed = true) :
    (d.yields, d.failure?, d.taken) = pullShuffled reorder chance size s (some d.asked) := by
  have positive' := Int.pos_iff_toNat_pos.mp positive
  have yields := congrArg Prod.fst h.yields
  cases h.stage with
  | flowing phase taken short ahead inside idle asked =>
    have settled : d.yields.length = d.asked := by simpa [isServed, isClosed, phase] using served
    rw [idle settled, List.length_nil, Nat.add_zero, settled] at taken
    have within : d.asked ≤ windowCount size.toNat s := le_windowCount positive' (by omega)
    rw [settled] at yields
    simp only [pullShuffled, pull_within positive within, yields, failure?, phase,
      Nat.min_eq_left (taken ▸ inside), taken]
  | drained phase sound count taken asked =>
    have total := asked.trans count
    have all := le_windowCount_mul positive' sound
    rw [← total] at all
    rw [← asked] at yields
    simp only [pullShuffled, pull_within positive (Nat.le_of_eq total), yields, failure?, phase,
      Nat.min_eq_right all, taken]
  | closed phase count taken asked =>
    have beyond : ∀ n, some d.asked = some n → windowCount size.toNat s < n := by
      rintro _ ⟨⟩
      omega
    rw [count] at yields
    simp only [pullShuffled, pull_beyond positive beyond, yields, failure?, phase, taken]

/-- Whoever asks the stream gets one more item, or is served. -/
theorem Standing.served_or_taken (h : Standing size reorder s chance d) (enabled : d.Enabled .take)
    (takes : Takes size reorder s d d') :
    d'.asked = d.asked ∧ (d'.isServed = true ∨ d'.taken = d.taken + 1) := by
  have after := (h.take enabled takes).stage
  cases takes with
  | gathers | completes => exact ⟨rfl, .inr rfl⟩
  | closes | fails => exact ⟨rfl, .inl rfl⟩
  | drains =>
    refine ⟨rfl, .inl ?_⟩
    cases after with
    | drained _ _ _ _ asked => simpa [isServed] using .inr asked.symm
    | flowing phase | closed phase => cases phase

theorem Standing.taken_le (h : Standing size reorder s chance d) : d.taken ≤ s.items.length := by
  cases h.stage with
  | flowing _ _ _ _ inside => exact inside
  | drained _ _ _ taken | closed _ _ taken => exact Nat.le_of_eq taken

theorem Standing.flowing_of_awaiting (h : Standing size reorder s chance d)
    (awaiting : d.isServed = false) : d.Enabled .take := by
  cases h.stage with
  | flowing phase _ _ _ _ _ asked =>
    have : d.yields.length ≠ d.asked := by simpa [isServed, isClosed, phase] using awaiting
    exact ⟨by rw [isFlowing, phase], by omega⟩
  | drained phase _ _ _ asked => simp [isServed, asked] at awaiting
  | closed phase => simp [isServed, isClosed, phase] at awaiting

/-- A reader that waits is served before it has asked the stream `left` times. -/
theorem trace_served (positive : 0 < size) {left : Nat}
    (trace : Trace (Step size reorder s) (start chance) moves d)
    (near : s.items.length < d.taken + left) :
    ∃ moves' d', Trace (Step size reorder s) (start chance) moves' d' ∧ d'.isServed = true ∧
      d'.asked = d.asked := by
  induction left generalizing moves d with
  | zero => exact absurd near (Nat.not_lt.mpr (trace_standing positive trace).taken_le)
  | succ left ih =>
    have h := trace_standing positive trace
    cases awaiting : d.isServed with
    | true => exact ⟨moves, d, trace, awaiting, rfl⟩
    | false =>
      have enabled := h.flowing_of_awaiting awaiting
      have step : Step size reorder s d .take _ := .intro enabled
      have further := trace.snoc step
      obtain ⟨asked, served | taken⟩ := h.served_or_taken enabled (takes size reorder s d)
      · exact ⟨_, _, further, served, asked⟩
      · obtain ⟨moves', d', trace', served, asked'⟩ := ih further (by omega)
        exact ⟨moves', d', trace', served, asked'.trans asked⟩

/-- A reader may ask for every window of the stream, and once more for its end. -/
theorem exists_served (positive : 0 < size) (reorder : γ → List α → List α × γ) (chance : γ)
    (s : Stream α) (asked : Nat) (within : asked ≤ windowCount size s + 1) :
    ∃ moves d, Trace (Step size reorder s) (start chance) moves d ∧ d.isServed = true ∧
      d.asked = asked := by
  induction asked with
  | zero => exact ⟨[], start chance, .nil, rfl, rfl⟩
  | succ asked ih =>
    obtain ⟨moves, d, trace, served, rfl⟩ := ih (Nat.le_of_succ_le within)
    have opened : d.isClosed = false := by
      cases (trace_standing positive trace).stage with
      | flowing phase | drained phase => rw [isClosed, phase]
      | closed _ count _ asked => omega
    have idle : d.yields.length = d.asked := by simpa [isServed, opened] using served
    have step : Step size reorder s d .ask _ := .intro ⟨opened, idle⟩
    have more : (d.next size reorder s .ask).asked = d.asked + 1 := by
      unfold next
      cases d.phase <;> rfl
    have near : s.items.length < (d.next size reorder s .ask).taken + (s.items.length + 1) := by
      omega
    obtain ⟨moves', d', trace', served', asked'⟩ := trace_served positive (trace.snoc step) near
    exact ⟨moves', d', trace', served', asked'.trans more⟩

end Demand

/-- A reader sees the stream in windows that are `like` its stretches, and gets them on demand: what
it sees of so many windows is what a reader is given that asks for one after another, so that no
item is taken before its window is asked for. -/
structure ComesInWindows (like : List α → List α → Prop) (reorder : γ → List α → List α × γ)
    (chance : γ) (size : Int) (s : Stream α)
    (view : Option Nat → List (Yield α) × Option Failure × Nat) : Prop where
  chunked : ∀ asked,
    Chunked like size.toNat s asked (view asked).1 (view asked).2.1 (view asked).2.2
  seen : ∀ moves d, Trace (Demand.Step size.toNat reorder s) (.start chance) moves d →
    d.isServed = true → (d.yields, d.failure?, d.taken) = view (some d.asked)
  reached : ∀ asked ≤ windowCount size.toNat s + 1, ∃ moves d,
    Trace (Demand.Step size.toNat reorder s) (.start chance) moves d ∧ d.isServed = true ∧
      d.asked = asked

section Law
variable {size : Int} {like : List α → List α → Prop} {reorder : γ → List α → List α × γ}

theorem comes_in_windows (positive : 1 ≤ size) (likeness : Likeness like)
    (kept : ∀ chance window, like (reorder chance window).1 window) (chance : γ) (s : Stream α) :
    ComesInWindows like reorder chance size s (pullShuffled reorder chance size s) where
  chunked := pullShuffled_chunked positive likeness kept chance s
  seen _ _ trace served :=
    (Demand.trace_standing (Int.pos_iff_toNat_pos.mp positive) trace).pulled positive served
  reached := Demand.exists_served (Int.pos_iff_toNat_pos.mp positive) reorder chance s

theorem stream_comes_in_windows (positive : 1 ≤ size)
    (permutes : ∀ chance window, (reorder chance window).1.Perm window) (chance : γ)
    (s : Stream α) :
    ComesInWindows (· = ·) keep () size s (pull size s) ∧
      ComesInWindows List.Perm reorder chance size s (pullShuffled reorder chance size s) := by
  have plain : ComesInWindows (· = ·) keep () size s (pullShuffled keep () size s) :=
    comes_in_windows positive .eq (fun _ _ => rfl) () s
  rw [funext (pullShuffled_keep () size s)] at plain
  exact ⟨plain, comes_in_windows positive .perm permutes chance s⟩

/-- A stream of five items that fails then. -/
def brokenStream : Stream Nat := ⟨[0, 1, 2, 3, 4], some (.plain .runtime "upstream failed")⟩

def reversing : Scripted.Chance := { Scripted.Chance.standard with shuffle := .reverse }

theorem broken_stream_comes_in_windows : (1 : Int) ≤ 2 ∧
    (∀ (chance : Scripted.Chance) (window : List Nat), (chance.reorder window).1.Perm window) ∧
    windowCount 2 brokenStream = 2 ∧
    (pullShuffled Scripted.Chance.reorder reversing 2 brokenStream none).1.map (·.window) =
      [[1, 0], [3, 2]] ∧
    ComesInWindows (· = ·) keep () 2 brokenStream (pull 2 brokenStream) ∧
    ComesInWindows List.Perm Scripted.Chance.reorder reversing 2 brokenStream
      (pullShuffled Scripted.Chance.reorder reversing 2 brokenStream) :=
  ⟨by decide, Scripted.Chance.reorder_perm, rfl, rfl,
    stream_comes_in_windows (by decide) Scripted.Chance.reorder_perm reversing brokenStream⟩

end Law

end Rekey.Window
