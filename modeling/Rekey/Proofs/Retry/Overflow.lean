import Rekey.Proofs.Retry.Jitter
import Rekey.Proofs.Retry.Powers
import Rekey.Proofs.Retry.Series

/-! # Delays beyond the doubles

A delay is computed from a power before it is cut, so a power that no double can hold has no delay,
however small the greatest delay is, and neither has a number of retries that no double can hold.
Infinite settings, and NaN where a comparison that fails would refuse, make delays that are no
numbers. -/
namespace Rekey.Retry
open Decimal

section Plain
variable {pow : Float → Float → Float} {p : Policy Float} {b factor v f : Float} {n : ℕ}

/-- Zero or more, or no number. -/
def Nonneg (x : Float) : Prop := x.isNaN = true ∨ 0 ≤ place x

theorem isNaN_product (hb : Nonneg b) (one_le : factor.isNaN = true ∨ 1 ≤ place factor) :
    ((b * factor).isNaN = true ↔
      b.isNaN = true ∨ factor.isNaN = true ∨ factor.isInf = true ∧ place b = 0) ∧
      Nonneg (b * factor) := by
  by_cases hnan : b.isNaN = true ∨ factor.isNaN = true
  · have none := isNaN_mul_of_isNaN hnan
    exact ⟨iff_of_true none (hnan.imp_right Or.inl), Or.inl none⟩
  obtain ⟨numberb, numberf⟩ := not_or.mp hnan
  have nonneg := hb.resolve_left numberb
  have one := one_le.resolve_left numberf
  have defined (h : (b * factor).isNaN = false) (infinite : ¬ (factor.isInf = true ∧ place b = 0)) :
      (b * factor).isNaN = true ↔
        b.isNaN = true ∨ factor.isNaN = true ∨ factor.isInf = true ∧ place b = 0 := by
    rw [h]
    exact iff_of_false Bool.false_ne_true (not_or.mpr ⟨numberb, not_or.mpr ⟨numberf, infinite⟩⟩)
  by_cases infinite : factor.isInf = true
  · rcases nonneg.eq_or_lt with zero | positive
    · have none : (b * factor).isNaN = true := by
        rw [float_mul_comm]
        exact isNaN_mul_of_isInf infinite zero.symm
      exact ⟨iff_of_true none (Or.inr (Or.inr ⟨infinite, zero.symm⟩)), Or.inl none⟩
    · have same : (b * factor).toModel.unpack = factor.toModel.unpack := by
        rw [float_mul_comm]
        exact unpack_mul_of_isInf infinite positive
      have number : (b * factor).isNaN = false :=
        (isNaN_congr same).trans (by simpa using numberf)
      exact ⟨defined number fun h => positive.ne' h.2,
        Or.inr ((zero_le_one.trans one).trans_eq (place_congr same).symm)⟩
  · have finitef := isFinite_of_not numberf infinite
    by_cases infiniteb : b.isInf = true
    · have same := unpack_mul_of_isInf infiniteb (zero_lt_one.trans_le one)
      have number : (b * factor).isNaN = false :=
        (isNaN_congr same).trans (by simpa using numberb)
      exact ⟨defined number fun h => infinite h.1,
        Or.inr (nonneg.trans_eq (place_congr same).symm)⟩
    · have rounds := rounds_mul (isFinite_of_not numberb infiniteb) finitef
      have low := rounds.ge (y := 0) rfl
        (by rw [place_zero]; exact mul_nonneg nonneg (zero_le_one.trans one))
      rw [place_zero] at low
      exact ⟨defined rounds.number fun h => infinite h.1, Or.inr low⟩

/-- Cutting a delay keeps it what it is: a number, or none. -/
theorem Policy.Admits.capped (admits : p.Admits) (hv : Nonneg v) :
    (p.capped v).isNaN = v.isNaN ∧ Nonneg (p.capped v) := by
  unfold Policy.capped
  split
  · exact ⟨rfl, hv⟩
  · next most hmost =>
    split
    · next hlt =>
      obtain ⟨numbermost, numberv, -⟩ := lt_iff.mp (of_decide_eq_true hlt)
      exact ⟨numbermost.trans numberv.symm, admits.most most hmost⟩
    · exact ⟨rfl, hv⟩

/-- The settings from which no plain delay can be computed that is a number. -/
def Policy.Undefined (p : Policy Float) (n : ℕ) : Prop :=
  p.baseDelay.isNaN = true ∨ n ≠ 0 ∧
    (p.multiplier.isNaN = true ∨ p.multiplier.isInf = true ∧ place p.baseDelay = 0)

theorem Policy.Admits.plain (admits : p.Admits) (h : Factor p.multiplier n factor) :
    ((p.capped (p.baseDelay * factor)).isNaN = true ↔ p.Undefined n) ∧
      Nonneg (p.capped (p.baseDelay * factor)) := by
  obtain ⟨none, nonneg⟩ := isNaN_product admits.base h.one_le
  obtain ⟨same, nonneg'⟩ := admits.capped nonneg
  refine ⟨?_, nonneg'⟩
  rw [same, none, h.isNaN_iff, h.isInf_iff, Policy.Undefined, and_or_left, and_assoc]

/-- Chance makes no number of an infinite delay, and of one whose spread is too great when it gives
nothing. -/
def Policy.Upset (p : Policy Float) (plain fraction : Float) : Prop :=
  0 < place p.jitter ∧ (plain.isInf = true ∨
    place fraction = 0 ∧ (plain * p.jitter - -(plain * p.jitter)).isInf = true)

theorem Policy.upset_of_still (admits : p.Admits) (number : v.isNaN = false) (zero : place v = 0) :
    ¬ p.Upset v f := by
  have limit : (0 : ℚ) < 2 ^ 1024 := pow_pos zero_lt_two 1024
  have finite : v.isFinite = true := isFinite_of_abs_lt number (by rwa [zero, abs_zero])
  rintro ⟨-, infinite | ⟨-, infinite⟩⟩
  · rw [(isFinite_iff.mp finite).2] at infinite
    cases infinite
  · obtain ⟨ht, mem⟩ := mul_between finite admits.jitter admits.jitter_nonneg admits.jitter_le
    rw [zero, Set.uIcc_self, Set.mem_singleton_iff] at mem
    have size := abs_place_of_isInf infinite
    rw [(rounds_width ht).place_eq, mem, add_zero, rounded_zero, bounded_zero, abs_zero] at size
    exact limit.ne size

theorem nonneg_clamp (d : Float) : Nonneg (Policy.clamp d) := by
  cases hd : d.isNaN
  · exact Or.inr (by rw [place_clamp hd]; exact le_max_left _ _)
  · exact Or.inl (by rw [isNaN_clamp, hd])

theorem Policy.Admits.moved (admits : p.Admits) (hf : IsDraw f) :
    ((p.moved v f).1.isNaN = true ↔ v.isNaN = true ∨ p.Upset v f) ∧ Nonneg (p.moved v f).1 := by
  unfold Policy.moved
  by_cases jitters : p.jitters v = true
  · rw [if_pos jitters]
    refine ⟨?_, nonneg_clamp _⟩
    rw [isNaN_clamp]
    have jitter := ((admits.jitters_iff v).mp jitters).1
    by_cases none : v.isNaN = true
    · exact iff_of_true (isNaN_add_of_isNaN (Or.inl none)) (Or.inl none)
    by_cases infinite : v.isInf = true
    · exact iff_of_true (isNaN_add_of_infinite infinite jitter hf.place_nonneg)
        (Or.inr ⟨jitter, Or.inl infinite⟩)
    have finite := isFinite_of_not none infinite
    obtain ⟨ht, -⟩ := mul_between finite admits.jitter admits.jitter_nonneg admits.jitter_le
    by_cases wide : (v * p.jitter - -(v * p.jitter)).isInf = true
    · rcases hf.place_nonneg.eq_or_lt with zero | positive
      · exact iff_of_true (isNaN_add_between wide zero.symm)
          (Or.inr ⟨jitter, Or.inr ⟨zero.symm, wide⟩⟩)
      · rw [isNaN_congr (unpack_add_between finite ht wide positive), isNaN_of_isInf wide]
        refine iff_of_false Bool.false_ne_true (not_or.mpr ⟨none, ?_⟩)
        rintro ⟨-, h | h⟩
        · exact infinite h
        · exact positive.ne' h.1
    · obtain ⟨hx, -⟩ := between_spread ht (by simpa using wide) hf
      rw [(rounds_add finite hx).number]
      refine iff_of_false Bool.false_ne_true (not_or.mpr ⟨none, ?_⟩)
      rintro ⟨-, h | h⟩
      · exact infinite h
      · exact wide h.2
  · rw [if_neg jitters]
    refine ⟨?_, nonneg_clamp _⟩
    rw [isNaN_clamp]
    refine ⟨Or.inl, fun h => h.resolve_right fun upset => ?_⟩
    have still := mt (admits.jitters_iff v).mpr jitters
    obtain ⟨number, zero⟩ := not_not.mp (not_and.mp still upset.1)
    exact Policy.upset_of_still admits number zero upset

end Plain

section Delays
variable {pow : Float → Float → Float} {p : Policy Float} {n : ℕ} {f : Float} {β σ : Type}

/-- The delay before a retry, with a routine for powers. -/
def Policy.delayBy (pow : Float → Float → Float) (p : Policy Float) (retry : ℤ) (fraction : Float) :
    Except Failure (Float × Bool) :=
  @Policy.delay Float (Duration.float pow) p retry fraction

def Policy.plainBy (pow : Float → Float → Float) (p : Policy Float) (retry : ℤ) :
    Except Failure Float :=
  @Policy.plainDelay Float (Duration.float pow) p retry

def runBy (pow : Float → Float → Float) (p : Policy Float) (retryable : Failure → Bool)
    (operation : σ → Except Failure β × σ) (sleep : σ → Float → σ) (fraction : ℕ → Float)
    (world : σ) : Transcript Float β σ :=
  @run Float β σ (Duration.float pow) p retryable operation sleep fraction world

/-- What attempt number `n` comes to, with a routine for powers. -/
def attemptBy (pow : Float → Float → Float) (p : Policy Float)
    (operation : σ → Except Failure β × σ) (sleep : σ → Float → σ) (fraction : ℕ → Float)
    (world : σ) (n : ℕ) : Except Failure β × σ :=
  @attempt Float β (Duration.float pow) σ p operation sleep fraction world n

example : p.delayBy Float.pow n f = p.delay n f := rfl

/-- The routine for powers has no part in what follows the power. -/
theorem Policy.capped_by (pow : Float → Float → Float) (p : Policy Float) (delay : Float) :
    @Policy.capped Float (Duration.float pow) p delay = p.capped delay := by
  -- The arithmetic is written out, for two instances that differ in their powers compare badly.
  have plain (pow : Float → Float → Float) : @Policy.capped Float (Duration.float pow) p delay =
      p.maxDelay.elim delay fun most => if decide (most < delay) then most else delay := by
    unfold Policy.capped
    cases p.maxDelay <;> rfl
  exact (plain pow).trans (plain Float.pow).symm

theorem Policy.moved_by (pow : Float → Float → Float) (p : Policy Float) (plain fraction : Float) :
    @Policy.moved Float (Duration.float pow) p plain fraction = p.moved plain fraction := by
  let clamped (delay : Float) : Float := if decide (delay < 0) then 0 else delay
  let spread : Float := plain * p.jitter
  have explicit (pow : Float → Float → Float) :
      @Policy.moved Float (Duration.float pow) p plain fraction =
        if !(p.jitter == 0) && !(plain == 0) then
          (clamped (plain + (-spread + (spread - -spread) * fraction)), true)
        else (clamped plain, false) := rfl
  exact (explicit pow).trans (explicit Float.pow).symm

theorem Policy.plainBy_eq_ok_iff {plain : Float} : p.plainBy pow n = .ok plain ↔
    ∃ factor, powerFloat pow p.multiplier n = .ok factor ∧
      p.capped (p.baseDelay * factor) = plain := by
  have generic : p.plainBy pow n = .ok plain ↔
      ∃ factor, powerFloat pow p.multiplier n = .ok factor ∧
        @Policy.capped Float (Duration.float pow) p (p.baseDelay * factor) = plain :=
    @Policy.plainDelay_eq_ok_iff Float (Duration.float pow) p n plain
  simpa only [Policy.capped_by] using generic

theorem Policy.delayBy_eq_ok_iff {delay : Float × Bool} : p.delayBy pow n f = .ok delay ↔
    ∃ plain, p.plainBy pow n = .ok plain ∧ p.moved plain f = delay := by
  have generic : p.delayBy pow n f = .ok delay ↔ ∃ plain, p.plainBy pow n = .ok plain ∧
      @Policy.moved Float (Duration.float pow) p plain f = delay :=
    @Policy.delay_eq_ok_iff Float (Duration.float pow) p n f delay
  simpa only [Policy.moved_by] using generic

theorem Policy.plainBy_eq_error_iff {trouble : Failure} : p.plainBy pow n = .error trouble ↔
    powerFloat pow p.multiplier n = .error trouble :=
  @Policy.plainDelay_eq_error_iff Float (Duration.float pow) p n trouble

theorem Policy.delayBy_eq_error_iff {trouble : Failure} : p.delayBy pow n f = .error trouble ↔
    powerFloat pow p.multiplier n = .error trouble :=
  (@Policy.delay_eq_error_iff Float (Duration.float pow) p n f trouble).trans
    Policy.plainBy_eq_error_iff

/-- What is to be had of a policy whose powers `pow` gives. -/
structure Reckoned (pow : Float → Float → Float) (p : Policy Float) : Prop where
  uncountable : ∀ n : ℕ, ¬ Countable n → ∀ fraction,
    p.delayBy pow n fraction = .error .integerTooLarge
  overflow : ∀ n : ℕ, Countable n → p.multiplier.isFinite = true →
    2 ^ 1024 ≤ place p.multiplier ^ wholeNear n → ∀ fraction,
    p.delayBy pow n fraction = .error .powerTooLarge
  returns : ∀ n : ℕ, Countable n → (p.multiplier.isFinite = true →
    place p.multiplier ^ wholeNear n ≤ 2 ^ 1024 - 2 ^ 971) → ∀ fraction,
    ∃ delay, p.delayBy pow n fraction = .ok delay
  fails : ∀ (n : ℕ) fraction trouble, p.delayBy pow n fraction = .error trouble →
    ¬ Countable n ∧ trouble = .integerTooLarge ∨
      Countable n ∧ p.multiplier.isFinite = true ∧
        2 ^ 1024 - 2 ^ 971 < place p.multiplier ^ wholeNear n ∧ trouble = .powerTooLarge
  nonneg : ∀ (n : ℕ) fraction delay drew, IsDraw fraction →
    p.delayBy pow n fraction = .ok (delay, drew) → delay.isNaN = true ∨ 0 ≤ delay
  isNaN_iff : ∀ (n : ℕ) fraction delay drew, IsDraw fraction →
    p.delayBy pow n fraction = .ok (delay, drew) → (delay.isNaN = true ↔
      p.Undefined n ∨ ∃ plain, p.plainBy pow n = .ok plain ∧ p.Upset plain fraction)
  series : ∀ {β σ : Type} (retryable : Failure → Bool) (operation : σ → Except Failure β × σ)
    (sleep : σ → Float → σ) (fraction : ℕ → Float) (world : σ), ∃ n ≤ p.maxRetries,
    (runBy pow p retryable operation sleep fraction world).calls = n + 1 ∧
    (∀ i < n, MayPass retryable (attemptBy pow p operation sleep fraction world i).1) ∧
    ((runBy pow p retryable operation sleep fraction world).outcome =
          (attemptBy pow p operation sleep fraction world n).1 ∧
        ¬ (MayPass retryable (attemptBy pow p operation sleep fraction world n).1 ∧
          n < p.maxRetries) ∨
      ∃ failure trouble, (attemptBy pow p operation sleep fraction world n).1 = .error failure ∧
        retryable failure = true ∧ n < p.maxRetries ∧
        (∀ fraction, p.delayBy pow n fraction = .error trouble) ∧
        (runBy pow p retryable operation sleep fraction world).outcome =
          .error (.because trouble failure))

/-- A power is beyond the doubles, or it is a factor. -/
theorem Policy.Admits.power (admits : p.Admits) (laws : PowerLaws pow) (n : ℕ) :
    ¬ Countable n ∧ powerFloat pow p.multiplier n = .error .integerTooLarge ∨
      Countable n ∧ Overflows pow p.multiplier n ∧
        powerFloat pow p.multiplier n = .error .powerTooLarge ∨
      Countable n ∧ ¬ Overflows pow p.multiplier n ∧
        ∃ factor, powerFloat pow p.multiplier n = .ok factor ∧ Factor p.multiplier n factor := by
  by_cases countable : Countable n
  · by_cases overflows : Overflows pow p.multiplier n
    · exact Or.inr (Or.inl ⟨countable, overflows, power_of_overflows countable overflows⟩)
    · exact Or.inr (Or.inr ⟨countable, overflows,
        laws.exists_factor countable overflows admits.multiplier⟩)
  · exact Or.inl ⟨countable, power_of_not_countable countable⟩

theorem Policy.Admits.plainBy {plain : Float} (admits : p.Admits) (laws : PowerLaws pow)
    (h : p.plainBy pow n = .ok plain) :
    (plain.isNaN = true ↔ p.Undefined n) ∧ Nonneg plain := by
  obtain ⟨factor, hfactor, rfl⟩ := Policy.plainBy_eq_ok_iff.mp h
  refine admits.plain ?_
  rcases admits.power laws n with ⟨-, hpower⟩ | ⟨-, -, hpower⟩ | ⟨-, -, factor', hpower, spec⟩
  · cases hfactor.symm.trans hpower
  · cases hfactor.symm.trans hpower
  · exact Except.ok.inj (hfactor.symm.trans hpower) ▸ spec

/-- The plain delay can be computed when the exact power is no greater than the greatest double. -/
theorem Policy.Admits.exists_plainBy (admits : p.Admits) (laws : PowerLaws pow) (h : Countable n)
    (within : p.multiplier.isFinite = true →
      place p.multiplier ^ wholeNear n ≤ 2 ^ 1024 - 2 ^ 971) :
    ∃ plain, p.plainBy pow n = .ok plain := by
  have notOverflows : ¬ Overflows pow p.multiplier n := fun overflows =>
    absurd (within overflows.finite) (not_le.mpr (laws.lt_of_overflows h overflows))
  obtain ⟨factor, hfactor, -⟩ := laws.exists_factor h notOverflows admits.multiplier
  exact ⟨_, Policy.plainBy_eq_ok_iff.mpr ⟨factor, hfactor, rfl⟩⟩

/-- A delay fails to be computed where a power is beyond the doubles, however it would be cut. -/
theorem delays_reckoned (laws : PowerLaws pow) (accepted : p.Accepted) : Reckoned pow p := by
  have admits := accepted.admits
  refine ⟨fun n h _ => ?_, fun n h finite large _ => ?_, fun n h within fraction => ?_,
    fun n fraction trouble h => ?_, fun n fraction delay drew hf h => ?_,
    fun n fraction delay drew hf h => ?_, ?_⟩
  · exact Policy.delayBy_eq_error_iff.mpr (power_of_not_countable h)
  · have number := (isFinite_iff.mp finite).1
    have one := of_isNaN_or admits.multiplier number
    exact Policy.delayBy_eq_error_iff.mpr
      (power_of_overflows h (laws.overflows h finite one large))
  · obtain ⟨plain, hplain⟩ := admits.exists_plainBy laws h within
    exact ⟨_, Policy.delayBy_eq_ok_iff.mpr ⟨plain, hplain, rfl⟩⟩
  · rw [Policy.delayBy_eq_error_iff] at h
    rcases admits.power laws n with ⟨none, hpower⟩ | ⟨countable, overflows, hpower⟩ | h'
    · exact Or.inl ⟨none, Except.error.inj (h.symm.trans hpower)⟩
    · exact Or.inr ⟨countable, overflows.finite, laws.lt_of_overflows countable overflows,
        Except.error.inj (h.symm.trans hpower)⟩
    · obtain ⟨-, -, factor, hpower, -⟩ := h'
      cases h.symm.trans hpower
  · obtain ⟨plain, -, hmoved⟩ := Policy.delayBy_eq_ok_iff.mp h
    have nonneg := (admits.moved (v := plain) hf).2
    rw [hmoved] at nonneg
    refine isNaN_or fun number => le_iff.mpr ⟨rfl, number, ?_⟩
    rw [place_zero]
    exact of_isNaN_or nonneg number
  · obtain ⟨plain, hplain, hmoved⟩ := Policy.delayBy_eq_ok_iff.mp h
    have moved := (admits.moved (v := plain) hf).1
    rw [hmoved, (admits.plainBy laws hplain).1] at moved
    rw [moved, hplain]
    simp only [Except.ok.injEq, exists_eq_left']
  · intro β σ retryable operation sleep fraction world
    exact @run_concludes Float β (Duration.float pow) σ p retryable operation sleep fraction world

/-- Many retries, every delay of which is to be at most a minute. -/
def patientPolicy : Policy Float := ⟨2000, 1, 2, some 60, 0⟩

def boundlessPolicy : Policy Float := ⟨3, 1 / 0, 2, none, 0.5⟩

def lostReply : Failure := .transient "Read timeout" none

theorem patient_admits : patientPolicy.Admits :=
  Policy.Accepted.admits (by decide +kernel)

theorem patient_overflows : powerFloat exactPower patientPolicy.multiplier (1024 : ℕ) =
    .error .powerTooLarge := by
  have countable : Countable 1024 := countable_of_lt (by norm_num)
  refine power_of_overflows countable (exactPower_laws.overflows countable (by rfl) ?_ ?_)
  · rw [show patientPolicy.multiplier = 2 from rfl, place_two]
    exact one_le_two
  · rw [show patientPolicy.multiplier = 2 from rfl, place_two, wholeNear_of_lt (by norm_num)]

theorem patient_computes {i : ℕ} (hi : i < 1024) :
    ∃ plain, patientPolicy.plainBy exactPower i = .ok plain := by
  refine patient_admits.exists_plainBy exactPower_laws (countable_of_lt (by omega)) fun _ => ?_
  rw [show patientPolicy.multiplier = 2 from rfl, place_two, wholeNear_of_lt (by omega)]
  refine le_sub_iff_add_le.mpr ?_
  calc (2 : ℚ) ^ i + 2 ^ 971 ≤ 2 ^ 1023 + 2 ^ 1023 := by
        gcongr <;> first | exact one_le_two | omega
    _ = 2 ^ 1024 := by rw [← two_mul, ← pow_succ']

/-- The power is too large for a double from retry 1024 on, and the series ends there. -/
theorem patient_gives_up :
    patientPolicy.Accepted ∧ PowerLaws exactPower ∧ 1024 < patientPolicy.maxRetries ∧
      patientPolicy.delayBy exactPower 1024 0 = .error .powerTooLarge ∧
      (runBy exactPower patientPolicy (fun _ => true)
        (fun calls => ((.error lostReply : Except Failure Unit), calls + 1)) (fun calls _ => calls)
        (fun _ => 0) 0).calls = 1025 ∧
      (runBy exactPower patientPolicy (fun _ => true)
        (fun calls => ((.error lostReply : Except Failure Unit), calls + 1)) (fun calls _ => calls)
        (fun _ => 0) 0).outcome = .error (.because .powerTooLarge lostReply) ∧
      boundlessPolicy.Accepted ∧
      ∃ delay, boundlessPolicy.delay 0 0.5 = .ok (delay, true) ∧ delay.isNaN = true := by
  have few : 1024 < patientPolicy.maxRetries := by decide
  obtain ⟨calls, outcome⟩ := @runOutcomes_of_trouble Float Unit (Duration.float exactPower)
    patientPolicy (fun _ => true) 1024 lostReply .powerTooLarge rfl
    (fun i hi => patient_computes hi) (Policy.plainBy_eq_error_iff.mpr patient_overflows) few
    (fun _ => 0)
  exact ⟨by decide +kernel, exactPower_laws, few, Policy.delayBy_eq_error_iff.mpr patient_overflows,
    calls, outcome, by decide +kernel, _, rfl, by decide +kernel⟩

theorem patient_policy_reckoned :
    PowerLaws exactPower ∧ patientPolicy.Accepted ∧ Reckoned exactPower patientPolicy :=
  have accepted : patientPolicy.Accepted := by decide +kernel
  ⟨exactPower_laws, accepted, delays_reckoned exactPower_laws accepted⟩

end Delays

end Rekey.Retry
