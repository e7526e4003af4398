import Mathlib.Algebra.BigOperators.Ring.List
import Mathlib.Algebra.Order.BigOperators.Group.List
import Mathlib.Algebra.Order.Field.Power
import Mathlib.Algebra.Order.Ring.Rat
import Mathlib.Data.Int.ConditionallyCompleteOrder
import Mathlib.Tactic.Linarith
import Mathlib.Tactic.Positivity
import Rekey.Proofs.Retry.Delay
import Rekey.Proofs.Retry.Series

/-! # The envelope of the delays

Without rounding, a delay stays within the jitter of its nominal value, which grows from retry to
retry until it is cut. So do the delays of a whole series, taken together. -/
namespace Rekey.Retry

variable {p : Policy ℚ}

/-- The delay before a retry as it is before chance moves it. -/
def Policy.nominal (p : Policy ℚ) (retry : ℤ) : ℚ :=
  match p.maxDelay with
  | none => p.baseDelay * p.multiplier ^ retry
  | some most => min (p.baseDelay * p.multiplier ^ retry) most

/-- The sum of the nominal delays before the first retries. -/
def Policy.nominalSum (p : Policy ℚ) (retries : ℕ) : ℚ :=
  ((List.range retries).map fun retry : ℕ => p.nominal retry).sum

/-- Chance has a part in the delay before a retry. -/
def Policy.Moves (p : Policy ℚ) (retry : ℤ) : Prop := 0 < p.jitter ∧ 0 < p.nominal retry

instance (p : Policy ℚ) (retry : ℤ) : Decidable (p.Moves retry) :=
  inferInstanceAs (Decidable (_ ∧ _))

/-- A random fraction of a series. -/
def IsFraction (fraction : ℚ) : Prop := 0 ≤ fraction ∧ fraction ≤ 1

/-- The settings of an accepted policy. -/
structure Policy.Sound (p : Policy ℚ) : Prop where
  base : 0 ≤ p.baseDelay
  multiplier : 1 ≤ p.multiplier
  most : ∀ most, p.maxDelay = some most → 0 ≤ most
  jitter : 0 ≤ p.jitter
  jitter_le : p.jitter ≤ 1

theorem Policy.Accepted.sound (accepted : p.Accepted) : p.Sound := by
  obtain ⟨base, multiplier, most, jitter, jitter_le⟩ := Policy.accepted_iff.mp accepted
  exact ⟨not_lt.mp (of_decide_eq_false base), not_lt.mp (of_decide_eq_false multiplier),
    fun m hm => not_lt.mp (of_decide_eq_false (most m hm)), of_decide_eq_true jitter,
    of_decide_eq_true jitter_le⟩

section Nominal

theorem powerRat_eq (base : ℚ) (exponent : ℤ) : powerRat base exponent = base ^ exponent := by
  unfold powerRat
  split
  · next hneg =>
    rw [← zpow_natCast, ← zpow_neg, Int.natCast_natAbs, abs_of_neg hneg, neg_neg]
  · next hpos =>
    rw [← zpow_natCast, Int.natCast_natAbs, abs_of_nonneg (not_lt.mp hpos)]

theorem Policy.plainDelay_eq (p : Policy ℚ) (retry : ℤ) :
    p.plainDelay retry = .ok (p.nominal retry) := by
  have hpower : (Duration.power p.multiplier retry : Except Failure ℚ) =
      .ok (p.multiplier ^ retry) := congrArg Except.ok (powerRat_eq _ _)
  rw [plainDelay, hpower, nominal]
  cases p.maxDelay with
  | none => rfl
  | some most =>
    simp only [Except.map, Duration.lt, decide_eq_true_eq]
    split
    · next hlt => rw [min_eq_right (le_of_lt hlt)]
    · next hle => rw [min_eq_left (not_lt.mp hle)]

theorem Policy.nominal_mono (sound : p.Sound) : Monotone p.nominal := by
  intro first later hle
  have growth : p.baseDelay * p.multiplier ^ first ≤ p.baseDelay * p.multiplier ^ later :=
    mul_le_mul_of_nonneg_left (zpow_le_zpow_right₀ sound.multiplier hle) sound.base
  unfold nominal
  cases p.maxDelay with
  | none => exact growth
  | some most => exact min_le_min_right most growth

theorem Policy.nominal_nonneg (sound : p.Sound) (retry : ℤ) : 0 ≤ p.nominal retry := by
  have growth : 0 ≤ p.baseDelay * p.multiplier ^ retry :=
    mul_nonneg sound.base (zpow_nonneg (le_trans zero_le_one sound.multiplier) _)
  unfold nominal
  cases hmost : p.maxDelay with
  | none => exact growth
  | some most => exact le_min growth (sound.most most hmost)

end Nominal

section Moved

theorem Policy.jitters_eq (sound : p.Sound) (retry : ℤ) :
    p.jitters (p.nominal retry) = decide (p.Moves retry) := by
  have hjitter : 0 < p.jitter ↔ p.jitter ≠ 0 := by
    rw [lt_iff_le_and_ne]
    simp [sound.jitter, eq_comm]
  have hdelay : 0 < p.nominal retry ↔ p.nominal retry ≠ 0 := by
    rw [lt_iff_le_and_ne]
    simp [Policy.nominal_nonneg sound retry, eq_comm]
  simp [Policy.jitters, Policy.Moves, Duration.isZero, hjitter, hdelay]

theorem Policy.clamp_of_nonneg {delay : ℚ} (h : 0 ≤ delay) : Policy.clamp delay = delay := by
  simp [Policy.clamp, Duration.lt, Duration.zero, not_lt.mpr h]

/-- A uniform number lies between its ends. -/
theorem Policy.between_mem {spread fraction : ℚ} (hs : 0 ≤ spread) (hf : IsFraction fraction) :
    -spread ≤ Policy.between (-spread) spread fraction ∧
      Policy.between (-spread) spread fraction ≤ spread := by
  have heq : Policy.between (-spread) spread fraction = -spread + (spread - -spread) * fraction :=
    rfl
  have low : 0 ≤ (spread - -spread) * fraction := mul_nonneg (by linarith) hf.1
  have high : (spread - -spread) * fraction ≤ (spread - -spread) * 1 :=
    mul_le_mul_of_nonneg_left hf.2 (by linarith)
  rw [heq]
  constructor <;> linarith

/-- A delay of an accepted policy, with the part that chance has in it. -/
structure Policy.Near (p : Policy ℚ) (retry : ℤ) (delay : ℚ) : Prop where
  low : (1 - p.jitter) * p.nominal retry ≤ delay
  high : delay ≤ (1 + p.jitter) * p.nominal retry
  nonneg : 0 ≤ delay

theorem Policy.Sound.delay (sound : p.Sound) (retry : ℤ) {fraction : ℚ} (hf : IsFraction fraction) :
    ∃ delay, p.delay retry fraction = .ok (delay, decide (p.Moves retry)) ∧ p.Near retry delay := by
  have hnominal := Policy.nominal_nonneg sound retry
  have hspread : 0 ≤ p.nominal retry * p.jitter := mul_nonneg hnominal sound.jitter
  have hle : p.nominal retry * p.jitter ≤ p.nominal retry * 1 :=
    mul_le_mul_of_nonneg_left sound.jitter_le hnominal
  rw [Policy.delay_eq, Policy.plainDelay_eq, Except.map, Policy.moved, Policy.jitters_eq sound]
  by_cases moves : p.Moves retry
  · obtain ⟨hlow, hhigh⟩ := Policy.between_mem hspread hf
    rw [if_pos (decide_eq_true moves), decide_eq_true moves]
    rw [Policy.clamp_of_nonneg (by linarith)]
    exact ⟨_, rfl, by linarith, by linarith, by linarith⟩
  · rw [if_neg (by simpa using moves), decide_eq_false moves, Policy.clamp_of_nonneg hnominal]
    exact ⟨_, rfl, by linarith, by linarith, hnominal⟩

/-- Where chance has no part in a delay, the fraction does not matter. -/
theorem Policy.Sound.delay_of_not_moves (sound : p.Sound) {retry : ℤ} (still : ¬ p.Moves retry)
    (fraction : ℚ) : p.delay retry fraction = .ok (p.nominal retry, false) := by
  have hjitters : p.jitters (p.nominal retry) ≠ true := by
    rw [Policy.jitters_eq sound]
    simpa using still
  rw [Policy.delay_eq, Policy.plainDelay_eq, Except.map, Policy.moved, if_neg hjitters,
    Policy.clamp_of_nonneg (Policy.nominal_nonneg sound retry)]

end Moved

section Sums
variable {fraction : ℕ → ℚ}

theorem Policy.Sound.delayBefore (sound : p.Sound) (hf : ∀ i, IsFraction (fraction i)) (retry : ℕ) :
    p.Near retry (p.delayBefore fraction retry) := by
  obtain ⟨delay, hdelay, near⟩ := sound.delay retry (hf (p.drawsBefore retry))
  rw [Policy.delayBefore, hdelay]
  exact near

theorem Policy.Sound.draws_eq (sound : p.Sound) (retry : ℕ) :
    p.draws retry = decide (p.Moves retry) := by
  obtain ⟨delay, hdelay, -⟩ := sound.delay retry (show IsFraction 0 from ⟨le_refl _, zero_le_one⟩)
  exact (Policy.draws_of_delay hdelay).symm

theorem Policy.nominalSum_le (sound : p.Sound) (hf : ∀ i, IsFraction (fraction i)) (retries : ℕ) :
    (1 - p.jitter) * p.nominalSum retries ≤
        ((List.range retries).map (p.delayBefore fraction)).sum ∧
      ((List.range retries).map (p.delayBefore fraction)).sum ≤
        (1 + p.jitter) * p.nominalSum retries := by
  rw [Policy.nominalSum, ← List.sum_map_mul_left, ← List.sum_map_mul_left]
  exact ⟨List.sum_le_sum fun retry _ => (sound.delayBefore hf retry).low,
    List.sum_le_sum fun retry _ => (sound.delayBefore hf retry).high⟩

end Sums

/-- The delays of a policy, one by one and over a series. -/
structure Enveloped (p : Policy ℚ) : Prop where
  grows : Monotone p.nominal
  near : ∀ retry fraction, IsFraction fraction → ∃ delay,
    p.delay retry fraction = .ok (delay, decide (p.Moves retry)) ∧ p.Near retry delay
  still : ∀ retry, ¬ p.Moves retry → ∀ fraction,
    p.delay retry fraction = .ok (p.nominal retry, false)
  series : ∀ {β σ : Type} (retryable : Failure → Bool) (operation : σ → Except Failure β × σ)
    (sleep : σ → ℚ → σ) (fraction : ℕ → ℚ) (world : σ), (∀ i, IsFraction (fraction i)) →
    ∃ retries,
      (run p retryable operation sleep fraction world).calls = retries + 1 ∧
      (run p retryable operation sleep fraction world).delays.length = retries ∧
      (1 - p.jitter) * p.nominalSum retries ≤
        (run p retryable operation sleep fraction world).delays.sum ∧
      (run p retryable operation sleep fraction world).delays.sum ≤
        (1 + p.jitter) * p.nominalSum retries ∧
      (run p retryable operation sleep fraction world).draws =
        (List.range retries).countP fun retry : ℕ => p.Moves retry

theorem backoff_enveloped (accepted : p.Accepted) : Enveloped p := by
  have sound := accepted.sound
  refine ⟨Policy.nominal_mono sound, fun retry _ hf => sound.delay retry hf,
    fun retry still => sound.delay_of_not_moves still, ?_⟩
  intro β σ retryable operation sleep fraction world hf
  obtain ⟨n, -, -, -, series⟩ := run_series p retryable operation sleep fraction world
  have sums := Policy.nominalSum_le sound hf n
  rw [← series.delays_eq] at sums
  refine ⟨n, series.calls, ?_, sums.1, sums.2, ?_⟩
  · rw [Transcript.delays, List.length_map]
    exact series.pauses
  · rw [series.draws, Policy.drawsBefore]
    exact List.countP_congr fun retry _ => by rw [sound.draws_eq]

def doublingPolicy : Policy ℚ := ⟨3, 1, 2, some 5, 1 / 2⟩

example : [0, 1, 2, 3].map doublingPolicy.nominal = [1, 2, 4, 5] := by decide +kernel

theorem doubling_policy_enveloped : doublingPolicy.Accepted ∧ Enveloped doublingPolicy :=
  have accepted : doublingPolicy.Accepted := by decide +kernel
  ⟨accepted, backoff_enveloped accepted⟩

end Rekey.Retry
