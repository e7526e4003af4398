import Rekey.Retry.Policy

/-! # Delays of accepted policies

What the check of the settings leaves, and the stages of a delay: the plain delay, the random part,
the cut at zero. -/
namespace Rekey.Retry

variable {α : Type} [Duration α] {p : Policy α}

/-- A policy is accepted when no comparison refuses one of its settings. -/
theorem Policy.accepted_iff : p.Accepted ↔
    Duration.lt p.baseDelay Duration.zero = false ∧ Duration.lt p.multiplier Duration.one = false ∧
      (∀ most, p.maxDelay = some most → Duration.lt most Duration.zero = false) ∧
      Duration.le Duration.zero p.jitter = true ∧ Duration.le p.jitter Duration.one = true := by
  have retries : ¬ ((p.maxRetries : Int) < 0) := Int.not_lt.mpr (Int.natCast_nonneg _)
  unfold Policy.Accepted Settings.refusal?
  rw [Policy.settings, if_neg retries]
  by_cases hbase : Duration.lt p.baseDelay Duration.zero = true
  · simp [hbase]
  by_cases hmultiplier : Duration.lt p.multiplier Duration.one = true
  · simp [hbase, hmultiplier]
  cases hmost : p.maxDelay with
  | none => simp [hbase, hmultiplier]
  | some most => by_cases hzero : Duration.lt most Duration.zero = true <;>
      simp [hbase, hmultiplier, hzero]

/-- Settings are accepted as the policy that has them. -/
theorem Settings.accept_eq_ok_iff {s : Settings α} :
    s.accept = .ok p ↔ p.settings = s ∧ p.Accepted := by
  unfold accept
  cases refusal : s.refusal? with
  | some refusal' =>
    refine iff_of_false nofun ?_
    rintro ⟨rfl, accepted⟩
    rw [Policy.Accepted, refusal] at accepted
    cases accepted
  | none =>
    have retries : 0 ≤ s.maxRetries := by
      refine Int.not_lt.mp fun negative => ?_
      rw [refusal?, if_pos negative] at refusal
      cases refusal
    have settings : s.policy.settings = s := by
      rw [policy, Policy.settings, Int.toNat_of_nonneg retries]
    constructor
    · rintro ⟨⟩
      exact ⟨settings, by rw [Policy.Accepted, settings, refusal]⟩
    · rintro ⟨rfl, -⟩
      rfl

/-- A delay cut at the greatest one. -/
def Policy.capped (p : Policy α) (delay : α) : α :=
  match p.maxDelay with
  | none => delay
  | some most => if Duration.lt most delay then most else delay

/-- The delay that a plain delay becomes, and whether the random fraction was used for it. -/
def Policy.moved (p : Policy α) (plain fraction : α) : α × Bool :=
  if p.jitters plain then
    (Policy.clamp (plain + Policy.between (-(plain * p.jitter)) (plain * p.jitter) fraction), true)
  else (Policy.clamp plain, false)

theorem Policy.plainDelay_stages (p : Policy α) (retry : Int) : p.plainDelay retry =
    (Duration.power p.multiplier retry).map fun factor => p.capped (p.baseDelay * factor) := rfl

theorem Policy.delay_eq (p : Policy α) (retry : Int) (fraction : α) :
    p.delay retry fraction = (p.plainDelay retry).map fun plain => p.moved plain fraction := rfl

section Stages
variable {β γ : Type} {computed : Except Failure β} {stage : β → γ} {retry : Int} {fraction : α}
  {trouble : Failure}

theorem map_eq_ok_iff {result : γ} :
    computed.map stage = .ok result ↔ ∃ value, computed = .ok value ∧ stage value = result := by
  cases computed <;> simp [Except.map]

theorem map_eq_error_iff : computed.map stage = .error trouble ↔ computed = .error trouble := by
  cases computed <;> simp [Except.map]

theorem Policy.plainDelay_eq_ok_iff {plain : α} :
    p.plainDelay retry = .ok plain ↔ ∃ factor, Duration.power p.multiplier retry = .ok factor ∧
      p.capped (p.baseDelay * factor) = plain := by
  rw [plainDelay_stages, map_eq_ok_iff]

/-- Only the power can fail. -/
theorem Policy.plainDelay_eq_error_iff :
    p.plainDelay retry = .error trouble ↔
      Duration.power p.multiplier retry = .error trouble := by
  rw [plainDelay_stages, map_eq_error_iff]

theorem Policy.delay_eq_error_iff :
    p.delay retry fraction = .error trouble ↔ p.plainDelay retry = .error trouble := by
  rw [delay_eq, map_eq_error_iff]

theorem Policy.delay_eq_ok_iff {delay : α × Bool} :
    p.delay retry fraction = .ok delay ↔
      ∃ plain, p.plainDelay retry = .ok plain ∧ p.moved plain fraction = delay := by
  rw [delay_eq, map_eq_ok_iff]

end Stages

end Rekey.Retry
