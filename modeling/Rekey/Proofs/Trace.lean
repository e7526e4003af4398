/-! # Traces

An execution together with its history: every event, newest first, with the state in which it
happened. A history is what statements about whole runs are about. -/
namespace Rekey

variable {σ ε : Type}

/-- Any number of steps from `s`, and their history. -/
inductive Trace (step : σ → ε → σ → Prop) (s : σ) : List (σ × ε) → σ → Prop where
  | nil : Trace step s [] s
  | snoc {moves : List (σ × ε)} {t u : σ} {e : ε} :
    Trace step s moves t → step t e u → Trace step s ((t, e) :: moves) u

namespace Trace

variable {step : σ → ε → σ → Prop} {s t : σ} {moves : List (σ × ε)}

/-- What holds at the start and is kept by every step holds all along. A step may use what is known
of the trace before it. -/
theorem preserves (h : Trace step s moves t) {P : List (σ × ε) → σ → Prop} (start : P [] s)
    (kept : ∀ moves t e u, Trace step s moves t → P moves t → step t e u → P ((t, e) :: moves) u) :
    P moves t := by
  induction h with
  | nil => exact start
  | snoc earlier one ih => exact kept _ _ _ _ earlier ih one

/-- A trace is one of any steps that its own steps are, as far as an invariant allows. -/
theorem strengthen (h : Trace step s moves t) {P : σ → Prop} {step' : σ → ε → σ → Prop}
    (start : P s) (kept : ∀ t e u, P t → step t e u → P u ∧ step' t e u) :
    Trace step' s moves t ∧ P t := by
  induction h with
  | nil => exact ⟨.nil, start⟩
  | snoc _ one ih =>
    obtain ⟨hu, one'⟩ := kept _ _ _ ih.2 one
    exact ⟨ih.1.snoc one', hu⟩

theorem mono (h : Trace step s moves t) {step' : σ → ε → σ → Prop}
    (weaker : ∀ t e u, step t e u → step' t e u) : Trace step' s moves t :=
  (h.strengthen (P := fun _ => True) trivial
    fun t e u _ one => ⟨trivial, weaker t e u one⟩).1

theorem append {u : σ} {more : List (σ × ε)} (h : Trace step s moves t) (h' : Trace step t more u) :
    Trace step s (more ++ moves) u := by
  induction h' with
  | nil => exact h
  | snoc _ one ih => exact ih.snoc one

/-- What has happened before one event of a history. -/
theorem before {m : σ × ε} {later earlier : List (σ × ε)}
    (h : Trace step s (later ++ m :: earlier) t) :
    Trace step s earlier m.1 ∧ ∃ u, step m.1 m.2 u := by
  induction later generalizing t with
  | nil =>
    cases h with
    | snoc earlier one => exact ⟨earlier, _, one⟩
  | cons _ _ ih =>
    cases h with
    | snoc earlier _ => exact ih earlier

theorem restrict (h : Trace step s moves t) {allowed : σ → ε → Prop}
    (all : ∀ m ∈ moves, allowed m.1 m.2) :
    Trace (fun s e t => step s e t ∧ allowed s e) s moves t := by
  induction h with
  | nil => exact .nil
  | snoc _ one ih =>
    obtain ⟨first, rest⟩ := List.forall_mem_cons.mp all
    exact (ih rest).snoc ⟨one, first⟩

variable {σ' ε' : Type}

def seen (view : σ → σ') (label : σ → ε → Option ε') (moves : List (σ × ε)) : List (σ' × ε') :=
  moves.filterMap fun m => (label m.1 m.2).map (view m.1, ·)

/-- A component that follows some events and rests at all others has a trace of its own. -/
theorem component (h : Trace step s moves t) (view : σ → σ') (label : σ → ε → Option ε')
    {step' : σ' → ε' → σ' → Prop}
    (follows : ∀ t e u, step t e u →
      (∃ e', label t e = some e' ∧ step' (view t) e' (view u)) ∨
        (label t e = none ∧ view u = view t)) :
    Trace step' (view s) (seen view label moves) (view t) := by
  induction h with
  | nil => exact .nil
  | snoc _ one ih =>
    rcases follows _ _ _ one with ⟨e', hlabel, one'⟩ | ⟨hlabel, hview⟩
    · simpa [seen, hlabel] using ih.snoc one'
    · simpa [seen, hlabel, hview] using ih

/-- Where every step uses up some of a potential, that bounds the number of steps. -/
theorem length_add_le (h : Trace step s moves t) (potential : σ → Nat)
    (falls : ∀ t e u, step t e u → potential u < potential t) :
    moves.length + potential t ≤ potential s := by
  induction h with
  | nil => simp
  | snoc _ one ih =>
    have := falls _ _ _ one
    simp only [List.length_cons]
    omega

/-- Where a step is decided by the part of its event that `choice` keeps, so is a trace. -/
theorem unique {γ : Type} (h : Trace step s moves t) (choice : ε → γ)
    (decided : ∀ t e u e' u', step t e u → step t e' u' → choice e = choice e' → e = e' ∧ u = u')
    {moves' : List (σ × ε)} {t' : σ} (h' : Trace step s moves' t')
    (same : moves'.map (fun m => choice m.2) = moves.map fun m => choice m.2) :
    moves' = moves ∧ t' = t := by
  induction h generalizing moves' t' with
  | nil =>
    cases h' with
    | nil => exact ⟨rfl, rfl⟩
    | snoc => cases same
  | snoc _ one ih =>
    cases h' with
    | nil => cases same
    | snoc earlier' one' =>
      obtain ⟨last, before⟩ := List.cons.inj same
      obtain ⟨rfl, rfl⟩ := ih earlier' before
      obtain ⟨rfl, rfl⟩ := decided _ _ _ _ _ one' one last
      exact ⟨rfl, rfl⟩

/-- A trace can be followed from a related state, if each of its steps can. -/
theorem follow {γ σ' : Type} (h : Trace step s moves t) (choice : ε → γ) {rel : σ → σ' → Prop}
    {step' : σ' → ε → σ' → Prop} {s' : σ'} (start : rel s s')
    (one : ∀ t t' e u, rel t t' → step t e u →
      ∃ e' u', step' t' e' u' ∧ choice e' = choice e ∧ rel u u') :
    ∃ moves' t', Trace step' s' moves' t' ∧
      moves'.map (fun m => choice m.2) = moves.map (fun m => choice m.2) ∧ rel t t' := by
  induction h with
  | nil => exact ⟨[], s', .nil, rfl, start⟩
  | snoc _ last ih =>
    obtain ⟨moves', t', earlier', before, related⟩ := ih
    obtain ⟨e', u', last', same, related⟩ := one _ _ _ _ related last
    exact ⟨_, u', earlier'.snoc last', by rw [List.map_cons, List.map_cons, before, same], related⟩

section Replay
variable (next : σ → ε → σ)

def reached (s : σ) (events : List ε) : σ := events.foldr (fun e t => next t e) s

def replay (s : σ) : List ε → List (σ × ε)
  | [] => []
  | e :: events => (reached next s events, e) :: replay s events

def Replays (step : σ → ε → σ → Prop) (s : σ) : List ε → Prop
  | [] => True
  | e :: events =>
    step (reached next s events) e (next (reached next s events) e) ∧ Replays step s events

theorem of_replays {events : List ε} (h : Replays next step s events) :
    Trace step s (replay next s events) (reached next s events) := by
  induction events with
  | nil => exact .nil
  | cons e events ih => exact (ih h.2).snoc h.1

/-- Each event is enabled where it happens. -/
def Runs (enabled : σ → ε → Prop) (s : σ) : List ε → Prop
  | [] => True
  | e :: events => enabled (reached next s events) e ∧ Runs enabled s events

instance decidableRuns {enabled : σ → ε → Prop} [∀ s e, Decidable (enabled s e)] (s : σ) :
    (events : List ε) → Decidable (Runs next enabled s events)
  | [] => .isTrue trivial
  | e :: events =>
    have : Decidable (Runs next enabled s events) := decidableRuns s events
    inferInstanceAs (Decidable (enabled (reached next s events) e ∧ Runs next enabled s events))

theorem of_runs {enabled : σ → ε → Prop} (free : ∀ s e, enabled s e → step s e (next s e))
    {events : List ε} (h : Runs next enabled s events) :
    Trace step s (replay next s events) (reached next s events) := by
  induction events with
  | nil => exact .nil
  | cons e events ih => exact (ih h.2).snoc (free _ _ h.1)

end Replay

end Trace
end Rekey
