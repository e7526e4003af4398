import Mathlib.Data.ENat.Lattice
import Rekey.Proofs.Retry.Series

/-! # The course of a series

A policy allows for one attempt and its retries. What is made of them depends on the first outcome
that is not a failure to be retried. -/
namespace Rekey.Retry

variable {α β : Type}

section First
variable {retryable : Failure → Bool} {outcome : Nat → Except Failure β}

/-- The number of the first outcome that is no failure to be retried, infinite when there is none. -/
noncomputable def firstFinal (retryable : Failure → Bool) (outcome : Nat → Except Failure β) : ℕ∞ :=
  sInf (Nat.cast '' {n : Nat | ¬ MayPass retryable (outcome n)})

theorem mayPass_of_lt_firstFinal {n : Nat} (h : (n : ℕ∞) < firstFinal retryable outcome) :
    MayPass retryable (outcome n) := by
  by_contra final
  have hle : firstFinal retryable outcome ≤ n := sInf_le ⟨n, final, rfl⟩
  exact absurd h (not_lt.mpr hle)

theorem not_mayPass_of_firstFinal {n : Nat} (h : firstFinal retryable outcome = n) :
    ¬ MayPass retryable (outcome n) := by
  have some : (Nat.cast '' {n : Nat | ¬ MayPass retryable (outcome n)} : Set ℕ∞).Nonempty := by
    rw [Set.nonempty_iff_ne_empty]
    intro none
    rw [firstFinal, none, sInf_empty] at h
    exact ENat.top_ne_natCast n h
  obtain ⟨m, final, hm⟩ : firstFinal retryable outcome ∈ _ := csInf_mem some
  rw [h, Nat.cast_inj] at hm
  exact hm ▸ final

theorem firstFinal_eq {n : Nat} (before : ∀ i < n, MayPass retryable (outcome i))
    (final : ¬ MayPass retryable (outcome n)) : firstFinal retryable outcome = n := by
  refine le_antisymm (sInf_le ⟨n, final, rfl⟩) (le_sInf ?_)
  rintro _ ⟨m, hm, rfl⟩
  exact Nat.cast_le.mpr (not_lt.mp fun hlt => hm (before m hlt))

end First

/-- What is done to the operation and to the clock. -/
inductive Act (α : Type) where
  | call
  | sleep (delay : α)
  deriving DecidableEq, Repr

def Act.isCall : Act α → Bool
  | call => true
  | sleep _ => false

/-- An operation with a sequence of outcomes, each call of which goes on record. -/
def called (outcome : Nat → Except Failure β) (acts : List (Act α)) :
    Except Failure β × List (Act α) :=
  (outcome (acts.countP Act.isCall), acts ++ [.call])

def slept (acts : List (Act α)) (delay : α) : List (Act α) := acts ++ [.sleep delay]

variable [Duration α]

/-- The calls of a series with `n` retries and its sleeps, in their order. -/
def alternation (p : Policy α) (fraction : Nat → α) (n : Nat) : List (Act α) :=
  (List.range n).flatMap (fun i => [.call, .sleep (p.delayBefore fraction i)]) ++ [.call]

theorem alternation_succ (p : Policy α) (fraction : Nat → α) (n : Nat) :
    alternation p fraction (n + 1) =
      slept (alternation p fraction n) (p.delayBefore fraction n) ++ [.call] := by
  simp [alternation, slept, List.range_succ]

theorem countP_alternation (p : Policy α) (fraction : Nat → α) (n : Nat) :
    (alternation p fraction n).countP Act.isCall = n + 1 := by
  induction n with
  | zero => rfl
  | succ n ih =>
    rw [alternation_succ, slept, List.countP_append, List.countP_append, ih]
    rfl

theorem attempt_called (p : Policy α) (outcome : Nat → Except Failure β) (fraction : Nat → α)
    (n : Nat) :
    attempt p (called outcome) slept fraction [] n = (outcome n, alternation p fraction n) := by
  induction n with
  | zero => rfl
  | succ n ih =>
    have calls : (slept (alternation p fraction n) (p.delayBefore fraction n)).countP Act.isCall =
        n + 1 := by
      rw [slept, List.countP_append, countP_alternation]
      rfl
    rw [attempt, ih, called, calls, alternation_succ]

/-- A series with `n` retries, each after the delay that is due and with its log line. -/
structure Course (p : Policy Float) (outcome : Nat → Except Failure β) (fraction : Nat → Float)
    (description : String) (n : Nat) (t : Transcript Float β (List (Act Float))) : Prop where
  calls : t.calls = n + 1
  ends : t.outcome = outcome n
  acts : t.world = alternation p fraction n
  sleeps : t.delays = (List.range n).map (p.delayBefore fraction)
  due : ∀ i < n, p.delay i (fraction (p.drawsBefore i)) =
    .ok (p.delayBefore fraction i, p.draws i)
  lines : (t.notices p description).length = n
  line : ∀ i < n, ∃ notice failure, (t.notices p description)[i]? = some notice ∧
    outcome i = .error failure ∧ notice.level = .info ∧
    notice.message = "Retrying " ++ description ++ " (attempt " ++ toString (i + 2) ++ "/" ++
      toString (p.maxRetries + 1) ++ ") in " ++ Decimal.fixed 2 (p.delayBefore fraction i) ++
      "s after: " ++ failure.message

theorem Series.course {p : Policy Float} {retryable : Failure → Bool}
    {outcome : Nat → Except Failure β} {fraction : Nat → Float} {n : Nat}
    {t : Transcript Float β (List (Act Float))}
    (h : Series p retryable fraction (attempt p (called outcome) slept fraction []) 0 n t)
    (concludes : p.conclusion retryable n (outcome n) = outcome n) (description : String) :
    Course p outcome fraction description n t := by
  have wait : ∀ i < n, ∃ failure, outcome i = .error failure ∧
      p.delay i (fraction (p.drawsBefore i)) = .ok (p.delayBefore fraction i, p.draws i) ∧
      t.waits[i]? = some ⟨i + 2, p.delayBefore fraction i, failure⟩ := by
    intro i hi
    simpa only [attempt_called, Nat.zero_add] using h.pause i (by omega)
  have length : t.waits.length = n := h.pauses
  refine ⟨h.calls, ?_, ?_, ?_, ?_, ?_, ?_⟩
  · rw [h.outcome, attempt_called, concludes]
  · rw [h.world, attempt_called]
  · exact h.delays_eq
  · intro i hi
    obtain ⟨failure, -, hdue, -⟩ := wait i hi
    exact hdue
  · rw [Transcript.notices, List.length_map, length]
  · intro i hi
    obtain ⟨failure, failed, -, hw⟩ := wait i hi
    refine ⟨.retrying description (i + 2) p.maxAttempts (p.delayBefore fraction i) failure, failure,
      ?_, failed, rfl, rfl⟩
    rw [Transcript.notices, List.getElem?_map, hw, Option.map_some]

/-- The operation is called until its first outcome that is no failure to be retried, or until the
retries are used up, and the last outcome stands. -/
theorem attempts_follow_policy {p : Policy Float} (computes : p.Computes) (retryOn : List Kind)
    (outcome : Nat → Except Failure β) (fraction : Nat → Float) (description : String) :
    ∃ n : Nat, (n : ℕ∞) = min (firstFinal (Failure.isOneOf retryOn) outcome) p.maxRetries ∧
      Course p outcome fraction description n
        (run p (Failure.isOneOf retryOn) (called outcome) slept fraction []) := by
  have bounded : min (firstFinal (Failure.isOneOf retryOn) outcome) p.maxRetries ≠ ⊤ :=
    ne_top_of_le_ne_top (ENat.natCast_ne_top _) (min_le_right _ _)
  obtain ⟨n, hn⟩ := ENat.ne_top_iff_exists.mp bounded
  have before : ∀ i < n, (i : ℕ∞) < min (firstFinal (Failure.isOneOf retryOn) outcome)
      p.maxRetries := fun i hi => hn ▸ Nat.cast_lt.mpr hi
  have last : ¬ p.GoesOn (Failure.isOneOf retryOn) n (outcome n) := by
    rw [computes.goesOn_iff]
    rintro ⟨passes, hlt⟩
    have hmin : firstFinal (Failure.isOneOf retryOn) outcome = n := by
      rcases min_choice (firstFinal (Failure.isOneOf retryOn) outcome) p.maxRetries with h | h
      · rw [← h, hn]
      · rw [h, Nat.cast_inj] at hn
        omega
    exact not_mayPass_of_firstFinal hmin passes
  have concludes : p.conclusion (Failure.isOneOf retryOn) n (outcome n) = outcome n := by
    cases ho : outcome n with
    | ok value => rfl
    | error failure =>
      rw [ho] at last
      rw [Policy.conclusion]
      rw [Policy.GoesOn, computes.surfaced?_eq] at last
      rw [computes.surfaced?_eq]
      split at last
      · exact absurd rfl last
      · next h => rw [if_neg h, Option.getD_some]
  refine ⟨n, hn, Series.course ?_ concludes description⟩
  refine attempts_series (by rwa [attempt_called]) (Nat.zero_le n) (fun i _ hi => ?_) rfl
  rw [attempt_called, computes.goesOn_iff]
  have hlt := lt_min_iff.mp (before i hi)
  exact ⟨mayPass_of_lt_firstFinal hlt.1, Nat.cast_lt.mp hlt.2⟩

def unsteadyPolicy : Policy Float := ⟨2, 1, 1, none, 0.5⟩

def dropped : Failure := .transient "Read timeout" none

def onceDropped (n : Nat) : Except Failure Nat := if n = 0 then .error dropped else .ok n

/-- The second attempt succeeds, before the retries are used up. -/
theorem second_attempt_succeeds :
    Course unsteadyPolicy onceDropped (fun _ => 0.25) "write" 1
      (run unsteadyPolicy (Failure.isOneOf [.store]) (called onceDropped) slept
        (fun _ => 0.25) []) := by
  have computes : unsteadyPolicy.Computes := Policy.computes_of_plain (by decide +kernel)
  obtain ⟨n, hn, course⟩ :=
    attempts_follow_policy computes [.store] onceDropped (fun _ => 0.25) "write"
  have first : firstFinal (Failure.isOneOf [.store]) onceDropped = (1 : Nat) := by
    refine firstFinal_eq (fun i hi => ⟨dropped, by simp [onceDropped]; omega, by decide⟩) ?_
    rintro ⟨failure, h, -⟩
    cases h
  have one : n = 1 := by
    rw [first] at hn
    exact Nat.cast_injective (hn.trans (min_eq_left (by decide)))
  exact one ▸ course

end Rekey.Retry
