import Rekey.Proofs.Decimal.Nearest
import Rekey.Retry.Duration

/-! # Powers of doubles

The power that a delay grows by is given by a routine of which little is known: what it gives is as
good as the exact power as far as its size goes. The exponent is a number of retries that has become
a double. -/
namespace Rekey.Retry
open Decimal

/-- What is known of a routine for the powers of doubles: it keeps NaN, and of a base above one it
gives a number that is no less than one, infinite if the exact power is beyond the doubles and
finite if the exact power is no greater than the greatest double. -/
structure PowerLaws (pow : Float → Float → Float) : Prop where
  nan : ∀ x y, x.isNaN = true → y.isFinite = true → place y ≠ 0 → (pow x y).isNaN = true
  number : ∀ x y, x.isFinite = true → 1 < place x → y.isFinite = true → ∀ k : ℕ, place y = k →
    (pow x y).isNaN = false ∧ 1 ≤ place (pow x y)
  overflow : ∀ x y, x.isFinite = true → 1 < place x → y.isFinite = true → ∀ k : ℕ, place y = k →
    2 ^ 1024 ≤ place x ^ k → (pow x y).isInf = true
  within : ∀ x y, x.isFinite = true → 1 < place x → y.isFinite = true → ∀ k : ℕ, place y = k →
    place x ^ k ≤ 2 ^ 1024 - 2 ^ 971 → (pow x y).isInf = false

section Powers
variable {pow : Float → Float → Float} {x : Float} {n : ℕ}

/-- The number of a retry is one that a double can hold. -/
def Countable (n : ℕ) : Prop := (n : ℚ) < 2 ^ 1024 - 2 ^ 970

theorem isInf_of_not_countable (h : ¬ Countable n) : (nearestInt n).isInf = true :=
  (nearestInt_isInf_iff n).mpr (not_lt.mp h)

theorem countable_of_lt (h : n < 2 ^ 53) : Countable n := by
  have short : (n : ℚ) < 2 ^ 53 := by exact_mod_cast h
  have below : (2 : ℚ) ^ 53 ≤ 2 ^ 970 := pow_le_pow_right₀ one_le_two (by norm_num)
  refine lt_sub_iff_add_lt.mpr ?_
  calc (n : ℚ) + 2 ^ 970 < 2 ^ 970 + 2 ^ 970 := by gcongr; exact short.trans_le below
    _ = 2 ^ 971 := by rw [← two_mul, ← pow_succ']
    _ ≤ 2 ^ 1024 := pow_le_pow_right₀ one_le_two (by norm_num)

/-- The exponent that a number of retries becomes. -/
theorem exponent_of_countable (h : Countable n) :
    (nearestInt n).isFinite = true ∧ place (nearestInt n) = wholeNear n := by
  have rounds : Rounds (nearestInt n) n := by exact_mod_cast rounds_nearestInt n
  have finite : (nearestInt n).isFinite = true := by
    refine isFinite_iff.mpr ⟨rounds.number, ?_⟩
    by_contra hinf
    exact not_le.mpr h ((nearestInt_isInf_iff n).mp (by simpa using hinf))
  have size := abs_place_lt finite
  rw [rounds.place_eq] at size
  refine ⟨finite, ?_⟩
  rw [rounds.place_eq, bounded_eq_self size, wholeNear_eq]

theorem wholeNear_pos (h : n ≠ 0) : 0 < wholeNear n := by
  have : rounded 1 ≤ rounded n := rounded_mono (by exact_mod_cast Nat.one_le_iff_ne_zero.mpr h)
  have one : rounded (2 ^ (0 : ℤ)) = 2 ^ (0 : ℤ) := rounded_pow_two (by norm_num)
  rw [zpow_zero] at one
  rw [one, ← wholeNear_eq] at this
  exact_mod_cast zero_lt_one.trans_le this

/-- The power that a factor is, is beyond what the routine can give. -/
structure Overflows (pow : Float → Float → Float) (x : Float) (n : ℕ) : Prop where
  some : n ≠ 0
  finite : x.isFinite = true
  grows : 1 < place x
  infinite : (pow x (nearestInt n)).isInf = true

/-- The exact power is at least the first one beyond the doubles. -/
theorem PowerLaws.overflows (laws : PowerLaws pow) (countable : Countable n)
    (finite : x.isFinite = true) (one : 1 ≤ place x) (large : 2 ^ 1024 ≤ place x ^ wholeNear n) :
    Overflows pow x n := by
  obtain ⟨hfinite, hplace⟩ := exponent_of_countable countable
  have grows : 1 < place x := by
    refine one.lt_of_ne fun h => ?_
    rw [← h, one_pow] at large
    exact absurd large (not_le.mpr (one_lt_pow₀ one_lt_two (by norm_num)))
  refine ⟨fun h => ?_, finite, grows, laws.overflow _ _ finite grows hfinite _ hplace large⟩
  subst h
  rw [wholeNear_of_lt (by norm_num), pow_zero] at large
  exact absurd large (not_le.mpr (one_lt_pow₀ one_lt_two (by norm_num)))

theorem PowerLaws.lt_of_overflows (laws : PowerLaws pow) (countable : Countable n)
    (h : Overflows pow x n) : 2 ^ 1024 - 2 ^ 971 < place x ^ wholeNear n := by
  obtain ⟨hfinite, hplace⟩ := exponent_of_countable countable
  by_contra within
  have := laws.within _ _ h.finite h.grows hfinite _ hplace (not_lt.mp within)
  rw [h.infinite] at this
  cases this

/-- The power of a double to a whole exponent, rounded once. -/
def exactPower (x y : Float) : Float :=
  if x.isNaN then x
  else nearest false (place x ^ ⌊place y⌋₊).num.toNat (place x ^ ⌊place y⌋₊).den

theorem rounds_exactPower {y : Float} {k : ℕ} (finite : x.isFinite = true) (grows : 1 < place x)
    (hk : place y = k) : Rounds (exactPower x y) (place x ^ k) := by
  have positive : 0 < place x ^ k := pow_pos (zero_lt_one.trans grows) k
  have rounds := rounds_nearest false (place x ^ k).num.toNat (place x ^ k).den_pos
  have whole : (((place x ^ k).num.toNat : ℕ) : ℚ) = (place x ^ k).num := by
    exact_mod_cast Int.toNat_of_nonneg (Rat.num_pos.mpr positive).le
  have value : signed (signOf false)
      (((place x ^ k).num.toNat : ℕ) / ((place x ^ k).den : ℚ)) = place x ^ k := by
    rw [whole, Rat.num_div_den]
    rfl
  rw [value] at rounds
  rw [exactPower, (isFinite_iff.mp finite).1, if_neg Bool.false_ne_true, hk, Nat.floor_natCast]
  exact rounds

/-- Rounding once keeps the laws. -/
theorem exactPower_laws : PowerLaws exactPower where
  nan x y hnan _ _ := by rw [exactPower, if_pos hnan, hnan]
  number x y finite grows _ k hk := by
    have rounds := rounds_exactPower finite grows hk
    have low := rounds.ge (y := 1) rfl (by rw [place_one]; exact one_le_pow₀ grows.le)
    rw [place_one] at low
    exact ⟨rounds.number, low⟩
  overflow x y finite grows _ k hk large := by
    have rounds := rounds_exactPower finite grows hk
    have beyond := rounded_mono large
    rw [limit_eq, rounded_pow_two (by norm_num), ← limit_eq] at beyond
    rw [isInf_iff rounds.number, rounds.place_eq, bounded_of_ge beyond,
      abs_of_pos (pow_pos zero_lt_two 1024)]
  within x y finite grows _ k hk within := by
    have rounds := rounds_exactPower finite grows hk
    have nonneg : 0 ≤ rounded (place x ^ k) :=
      rounded_nonneg (pow_pos (zero_lt_one.trans grows) k).le
    have small : rounded (place x ^ k) < 2 ^ 1024 := by
      rw [← not_le, le_rounded_iff, not_le]
      refine within.trans_lt (sub_lt_sub_left ?_ _)
      exact pow_lt_pow_right₀ one_lt_two (by norm_num)
    by_contra infinite
    have size := abs_place_of_isInf (Bool.not_eq_false _ ▸ infinite)
    rw [rounds.place_eq, bounded_of_abs_le (by rw [abs_of_nonneg nonneg]; exact small.le),
      abs_of_nonneg nonneg] at size
    exact small.ne size

theorem power_of_not_countable (h : ¬ Countable n) :
    powerFloat pow x n = .error .integerTooLarge := by
  simp only [powerFloat, isInf_of_not_countable h, if_true]

theorem power_of_countable (h : Countable n) : powerFloat pow x n =
    if n = 0 ∨ (x == 1) = true then .ok 1
    else if x.isInf then .ok x
    else if (pow x (nearestInt n)).isInf then .error .powerTooLarge
    else .ok (pow x (nearestInt n)) := by
  have notInf := (isFinite_iff.mp (exponent_of_countable h).1).2
  have nonneg : ¬ ((n : ℤ) < 0) := Int.not_lt.mpr (Int.natCast_nonneg n)
  simp only [powerFloat, notInf, nonneg, Bool.or_eq_true, decide_eq_true_eq, Nat.cast_eq_zero,
    Bool.false_eq_true, if_false]

theorem power_of_overflows (h : Countable n) (overflows : Overflows pow x n) :
    powerFloat pow x n = .error .powerTooLarge := by
  obtain ⟨some, finite, grows, infinite⟩ := overflows
  have notOne : ¬ (x == 1) = true := fun one => by
    have := (beq_iff.mp one).2.2
    rw [place_one] at this
    exact grows.ne' this
  rw [power_of_countable h, if_neg (not_or.mpr ⟨some, notOne⟩), (isFinite_iff.mp finite).2,
    if_neg Bool.false_ne_true, if_pos infinite]

/-- A factor, of a multiplier that is NaN or no less than one. -/
structure Factor (x : Float) (n : ℕ) (factor : Float) : Prop where
  isNaN_iff : factor.isNaN = true ↔ n ≠ 0 ∧ x.isNaN = true
  isInf_iff : factor.isInf = true ↔ n ≠ 0 ∧ x.isInf = true
  one_le : factor.isNaN = true ∨ 1 ≤ place factor

theorem factor_one (still : n = 0 ∨ (x == 1) = true) : Factor x n 1 := by
  have notOne (some : n ≠ 0) : place x = 1 := by
    rw [(beq_iff.mp (still.resolve_left some)).2.2, place_one]
  refine ⟨iff_of_false Bool.false_ne_true ?_, iff_of_false Bool.false_ne_true ?_,
    Or.inr place_one.ge⟩
  · rintro ⟨some, hnan⟩
    rw [(beq_iff.mp (still.resolve_left some)).1] at hnan
    cases hnan
  · rintro ⟨some, hinf⟩
    have size := abs_place_of_isInf hinf
    rw [notOne some, abs_one] at size
    exact (one_lt_pow₀ one_lt_two (by norm_num)).ne size

theorem PowerLaws.exists_factor (laws : PowerLaws pow) (h : Countable n)
    (overflows : ¬ Overflows pow x n) (admitted : x.isNaN = true ∨ 1 ≤ place x) :
    ∃ factor, powerFloat pow x n = .ok factor ∧ Factor x n factor := by
  obtain ⟨hfinite, hplace⟩ := exponent_of_countable h
  rw [power_of_countable h]
  by_cases still : n = 0 ∨ (x == 1) = true
  · rw [if_pos still]
    exact ⟨1, rfl, factor_one still⟩
  obtain ⟨some, notOne⟩ := not_or.mp still
  rw [if_neg still]
  by_cases hinf : x.isInf = true
  · rw [if_pos hinf]
    exact ⟨x, rfl, by simp [some], by simp [some], admitted⟩
  rw [if_neg hinf]
  by_cases hnan : x.isNaN = true
  · have kept := laws.nan x _ hnan hfinite (by
      rw [hplace]
      exact_mod_cast (wholeNear_pos some).ne')
    have notInf : (pow x (nearestInt n)).isInf = false := by
      by_contra infinite
      rw [isNaN_of_isInf (by simpa using infinite)] at kept
      cases kept
    rw [notInf, if_neg Bool.false_ne_true]
    exact ⟨_, rfl, iff_of_true kept ⟨some, hnan⟩,
      iff_of_false (ne_true_of_eq_false notInf) fun h => hinf h.2, Or.inl kept⟩
  · have number : x.isNaN = false := by simpa using hnan
    have finite : x.isFinite = true := isFinite_iff.mpr ⟨number, by simpa using hinf⟩
    have grows : 1 < place x := by
      refine (admitted.resolve_left hnan).lt_of_ne fun one => notOne (beq_iff.mpr ?_)
      exact ⟨number, rfl, by rw [place_one, one]⟩
    have notInf : (pow x (nearestInt n)).isInf = false := by
      by_contra infinite
      exact overflows ⟨some, finite, grows, by simpa using infinite⟩
    obtain ⟨power, le⟩ := laws.number x _ finite grows hfinite _ hplace
    rw [notInf, if_neg Bool.false_ne_true]
    exact ⟨_, rfl, iff_of_false (ne_true_of_eq_false power) fun h => hnan h.2,
      iff_of_false (ne_true_of_eq_false notInf) fun h => hinf h.2, Or.inr le⟩

end Powers

end Rekey.Retry
