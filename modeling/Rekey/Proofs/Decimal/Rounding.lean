import Mathlib.Data.Int.Log
import Mathlib.Data.Rat.Floor
import Mathlib.Algebra.Order.Floor.Ring
import Mathlib.Algebra.Order.Ring.Int
import Mathlib.Algebra.Ring.Int.Parity
import Mathlib.Tactic.FieldSimp
import Mathlib.Tactic.Linarith
import Mathlib.Tactic.Positivity
import Mathlib.Tactic.Push
import Mathlib.Tactic.Ring

/-! # Rounding to doubles

A rational is rounded to a whole number of units, a unit being the step between doubles of its size;
of two equally near numbers the even one is taken. Rounding keeps the order and leaves doubles
alone. -/
namespace Rekey.Decimal

/-- A whole number that is nearest to `x`, and even if another one is as near. -/
structure IsNearest (x : ℚ) (z : ℤ) : Prop where
  near : |x - z| ≤ 1 / 2
  even : |x - z| = 1 / 2 → Even z

/-- The nearest whole number; of two equally near ones the even one. -/
def tieToEven (x : ℚ) : ℤ :=
  if Int.fract x < 1 / 2 then ⌊x⌋
  else if 1 / 2 < Int.fract x ∨ ¬ Even ⌊x⌋ then ⌊x⌋ + 1
  else ⌊x⌋

/-- The binary exponent of the unit in which numbers of this size are rounded. -/
def unitExponent (x : ℚ) : ℤ := max (Int.log 2 |x| - 52) (-1074)

/-- A rational rounded as doubles are, if these had no greatest one. -/
def rounded (x : ℚ) : ℚ := tieToEven (x / 2 ^ unitExponent x) * 2 ^ unitExponent x

/-- A rational cut where the doubles end. -/
def bounded (x : ℚ) : ℚ := max (-2 ^ 1024) (min x (2 ^ 1024))

section Nearest
variable {x y : ℚ} {m n : ℤ}

theorem IsNearest.le_of_le (hm : IsNearest x m) (hn : IsNearest y n) (h : x ≤ y) : m ≤ n := by
  by_contra hlt
  -- Between two neighbours there is room for one half only, and both would have to be even.
  have step : (n : ℚ) + 1 ≤ m := by exact_mod_cast Int.add_one_le_iff.mpr (not_le.mp hlt)
  have below := (abs_le.mp hm.near).1
  have above := (abs_le.mp hn.near).2
  have hx : x - m = -(1 / 2) := by linarith
  have hy : y - n = 1 / 2 := by linarith
  have hmn : m = n + 1 := by
    have : (m : ℚ) = n + 1 := by linarith
    exact_mod_cast this
  have evenm := hm.even (by rw [hx, abs_neg]; norm_num)
  have evenn := hn.even (by rw [hy]; norm_num)
  rw [hmn] at evenm
  exact absurd evenn (Int.not_even_iff_odd.mpr (by simpa using evenm.sub_odd odd_one))

theorem IsNearest.unique (hm : IsNearest x m) (hn : IsNearest x n) : m = n :=
  le_antisymm (hm.le_of_le hn le_rfl) (hn.le_of_le hm le_rfl)

theorem IsNearest.neg (h : IsNearest x n) : IsNearest (-x) (-n) := by
  have flip : |-x - ((-n : ℤ) : ℚ)| = |x - n| := by
    rw [Int.cast_neg, ← abs_neg]
    congr 1
    ring
  exact ⟨flip ▸ h.near, fun tie => (h.even (flip ▸ tie)).neg⟩

theorem IsNearest.of_abs_lt (h : |x - n| < 1 / 2) : IsNearest x n :=
  ⟨h.le, fun tie => absurd tie h.ne⟩

theorem isNearest_intCast (n : ℤ) : IsNearest n n :=
  IsNearest.of_abs_lt (by rw [sub_self, abs_zero]; norm_num)

theorem tieToEven_isNearest (x : ℚ) : IsNearest x (tieToEven x) := by
  have low := Int.fract_nonneg x
  have high := Int.fract_lt_one x
  have hdown : x - (⌊x⌋ : ℤ) = Int.fract x := rfl
  have hup : x - ((⌊x⌋ + 1 : ℤ) : ℚ) = -(1 - Int.fract x) := by
    push_cast
    rw [← hdown]
    ring
  unfold tieToEven
  split
  · next hlt =>
    constructor
    · rw [hdown, abs_of_nonneg low]
      linarith
    · rw [hdown, abs_of_nonneg low]
      intro tie
      linarith
  · next hge =>
    rw [not_lt] at hge
    split
    · next hor =>
      constructor
      · rw [hup, abs_neg, abs_of_nonneg (by linarith)]
        linarith
      · rw [hup, abs_neg, abs_of_nonneg (by linarith)]
        intro tie
        rcases hor with hgt | odd
        · linarith
        · exact (Int.not_even_iff_odd.mp odd).add_odd odd_one
    · next hor =>
      obtain ⟨hle, heven⟩ := not_or.mp hor
      constructor
      · rw [hdown, abs_of_nonneg low]
        linarith
      · exact fun _ => not_not.mp heven

theorem tieToEven_eq (h : IsNearest x n) : tieToEven x = n := (tieToEven_isNearest x).unique h

@[simp] theorem tieToEven_intCast (n : ℤ) : tieToEven n = n := tieToEven_eq (isNearest_intCast n)

@[simp] theorem tieToEven_zero : tieToEven 0 = 0 := by simpa using tieToEven_intCast 0

theorem tieToEven_neg (x : ℚ) : tieToEven (-x) = -tieToEven x :=
  tieToEven_eq (tieToEven_isNearest x).neg

theorem tieToEven_mono (h : x ≤ y) : tieToEven x ≤ tieToEven y :=
  (tieToEven_isNearest x).le_of_le (tieToEven_isNearest y) h

end Nearest

section Units
variable {x y : ℚ} {e : ℤ}

theorem unit_pos (e : ℤ) : (0 : ℚ) < 2 ^ e := zpow_pos (by norm_num) e

theorem unit_add (e f : ℤ) : (2 : ℚ) ^ (e + f) = 2 ^ e * 2 ^ f := zpow_add₀ (by norm_num) e f

theorem unit_le {e f : ℤ} (h : e ≤ f) : (2 : ℚ) ^ e ≤ 2 ^ f := zpow_le_zpow_right₀ (by norm_num) h

/-- A power of two is a whole number of smaller ones. -/
theorem unit_eq_mul {e f : ℤ} (h : e ≤ f) :
    (2 : ℚ) ^ f = ((2 ^ (f - e).toNat : ℤ) : ℚ) * 2 ^ e := by
  push_cast
  rw [← zpow_natCast, ← unit_add, Int.toNat_of_nonneg (sub_nonneg.mpr h)]
  congr 1
  ring

theorem log_eq (low : 2 ^ e ≤ x) (high : x < 2 ^ (e + 1)) : Int.log 2 x = e := by
  have positive : 0 < x := (unit_pos e).trans_le low
  refine le_antisymm (Int.lt_add_one_iff.mp ?_) ?_
  · exact (Int.lt_zpow_iff_log_lt (by norm_num) positive).mp (by exact_mod_cast high)
  · exact (Int.zpow_le_iff_le_log (by norm_num) positive).mp (by exact_mod_cast low)

theorem unitExponent_neg (x : ℚ) : unitExponent (-x) = unitExponent x := by
  rw [unitExponent, unitExponent, abs_neg]

theorem unitExponent_ge (x : ℚ) : -1074 ≤ unitExponent x := le_max_right _ _

theorem unitExponent_le (hx : x ≠ 0) (he : -1074 ≤ e) (h : |x| < 2 ^ (e + 53)) :
    unitExponent x ≤ e := by
  have hlog : Int.log 2 |x| < e + 53 :=
    (Int.lt_zpow_iff_log_lt (by norm_num) (abs_pos.mpr hx)).mp (by exact_mod_cast h)
  exact max_le (by omega) he

theorem lt_of_unitExponent (x : ℚ) : |x| < 2 ^ (unitExponent x + 53) := by
  have hlog : |x| < 2 ^ (Int.log 2 |x| + 1) := by
    exact_mod_cast Int.lt_zpow_succ_log_self (b := 2) (by norm_num) |x|
  have hle : Int.log 2 |x| - 52 ≤ unitExponent x := le_max_left _ _
  exact hlog.trans_le (unit_le (by omega))

theorem le_of_unitExponent (hx : x ≠ 0) (h : -1074 < unitExponent x) :
    2 ^ (unitExponent x + 52) ≤ |x| := by
  have hlog : unitExponent x = Int.log 2 |x| - 52 := by
    unfold unitExponent at h ⊢
    omega
  rw [hlog, sub_add_cancel]
  exact_mod_cast Int.zpow_log_le_self (b := 2) (by norm_num) (abs_pos.mpr hx)

theorem unitExponent_mono (hx : 0 < x) (h : x ≤ y) : unitExponent x ≤ unitExponent y := by
  have hlog : Int.log 2 |x| ≤ Int.log 2 |y| :=
    Int.log_mono_right (abs_pos.mpr hx.ne') (abs_le_abs_of_nonneg hx.le h)
  exact max_le_max_right _ (by omega)

end Units

section Rounded
variable {x y : ℚ} {z e : ℤ}

theorem rounded_neg (x : ℚ) : rounded (-x) = -rounded x := by
  rw [rounded, rounded, unitExponent_neg, neg_div, tieToEven_neg]
  push_cast
  ring

@[simp] theorem rounded_zero : rounded 0 = 0 := by simp [rounded]

/-- Rounding does not pass a whole number of units. -/
theorem rounded_le (h : x ≤ z * 2 ^ unitExponent x) : rounded x ≤ z * 2 ^ unitExponent x := by
  have hle : x / 2 ^ unitExponent x ≤ z := (div_le_iff₀ (unit_pos _)).mpr h
  have hround := tieToEven_mono hle
  rw [tieToEven_intCast] at hround
  exact mul_le_mul_of_nonneg_right (by exact_mod_cast hround) (unit_pos _).le

theorem le_rounded (h : z * 2 ^ unitExponent x ≤ x) : z * 2 ^ unitExponent x ≤ rounded x := by
  have hle : (z : ℚ) ≤ x / 2 ^ unitExponent x := (le_div_iff₀ (unit_pos _)).mpr h
  have hround := tieToEven_mono hle
  rw [tieToEven_intCast] at hround
  exact mul_le_mul_of_nonneg_right (by exact_mod_cast hround) (unit_pos _).le

theorem rounded_nonneg (h : 0 ≤ x) : 0 ≤ rounded x := by
  have := le_rounded (x := x) (z := 0) (by simpa using h)
  simpa using this

theorem rounded_mono_pos (hx : 0 < x) (h : x ≤ y) : rounded x ≤ rounded y := by
  have hy : 0 < y := hx.trans_le h
  rcases (unitExponent_mono hx h).lt_or_eq with hlt | heq
  · -- A power of two lies between them, and it is a whole number of both units.
    have hlow : 2 ^ (unitExponent y + 52) ≤ y := by
      have := le_of_unitExponent hy.ne' (lt_of_le_of_lt (unitExponent_ge x) hlt)
      rwa [abs_of_pos hy] at this
    have hhigh : x ≤ 2 ^ (unitExponent y + 52) := by
      have := lt_of_unitExponent x
      rw [abs_of_pos hx] at this
      exact this.le.trans (unit_le (by omega))
    calc rounded x ≤ 2 ^ (unitExponent y + 52) := by
          rw [unit_eq_mul (e := unitExponent x) (by omega)] at hhigh ⊢
          exact rounded_le hhigh
      _ ≤ rounded y := by
          rw [unit_eq_mul (e := unitExponent y) (by omega)] at hlow ⊢
          exact le_rounded hlow
  · have hdiv : x / 2 ^ unitExponent x ≤ y / 2 ^ unitExponent y := by
      rw [heq]
      exact div_le_div_of_nonneg_right h (unit_pos _).le
    rw [rounded, rounded, heq] at *
    exact mul_le_mul_of_nonneg_right (by exact_mod_cast tieToEven_mono hdiv) (unit_pos _).le

theorem rounded_mono (h : x ≤ y) : rounded x ≤ rounded y := by
  rcases lt_trichotomy x 0 with hx | rfl | hx
  · rcases lt_or_ge y 0 with hy | hy
    · have := rounded_mono_pos (neg_pos.mpr hy) (neg_le_neg h)
      rw [rounded_neg, rounded_neg] at this
      exact neg_le_neg_iff.mp this
    · have := rounded_nonneg (neg_nonneg.mpr hx.le)
      rw [rounded_neg] at this
      exact (neg_nonneg.mp this).trans (rounded_nonneg hy)
  · rw [rounded_zero]
    exact rounded_nonneg h
  · exact rounded_mono_pos hx h

/-- The nearest whole number of units has as many digits as a double, or one more, unless the unit
is the least one. -/
theorem tieToEven_digits (hx : 0 < x) : tieToEven (x / 2 ^ unitExponent x) ≤ 2 ^ 53 ∧
    (2 ^ 52 ≤ tieToEven (x / 2 ^ unitExponent x) ∨ unitExponent x = -1074) := by
  have room := lt_of_unitExponent x
  have full := le_of_unitExponent hx.ne'
  rw [abs_of_pos hx] at room full
  constructor
  · have : x / 2 ^ unitExponent x ≤ ((2 ^ 53 : ℤ) : ℚ) := by
      rw [div_le_iff₀ (unit_pos _)]
      push_cast
      rw [add_comm, unit_add] at room
      exact room.le
    have := tieToEven_mono this
    rwa [tieToEven_intCast] at this
  · by_contra hor
    obtain ⟨short, above⟩ := not_or.mp hor
    have : ((2 ^ 52 : ℤ) : ℚ) ≤ x / 2 ^ unitExponent x := by
      rw [le_div_iff₀ (unit_pos _)]
      have := full (lt_of_le_of_ne (unitExponent_ge _) (Ne.symm above))
      rw [add_comm, unit_add] at this
      push_cast
      exact this
    have := tieToEven_mono this
    rw [tieToEven_intCast] at this
    exact short this

/-- A number with a short enough significand is left alone. -/
theorem rounded_of_short (hz : |z| < 2 ^ 53) (he : -1074 ≤ e) :
    rounded (z * 2 ^ e) = z * 2 ^ e := by
  rcases eq_or_ne z 0 with rfl | hne
  · simp
  have hx : (z : ℚ) * 2 ^ e ≠ 0 := mul_ne_zero (by exact_mod_cast hne) (unit_pos e).ne'
  have hlt : |(z : ℚ) * 2 ^ e| < 2 ^ (e + 53) := by
    rw [abs_mul, abs_of_pos (unit_pos e), add_comm, unit_add]
    exact mul_lt_mul_of_pos_right (by exact_mod_cast hz) (unit_pos e)
  have hle := unitExponent_le hx he hlt
  have hgrid : (z : ℚ) * 2 ^ e =
      ((z * 2 ^ (e - unitExponent (z * 2 ^ e)).toNat : ℤ) : ℚ) * 2 ^ unitExponent (z * 2 ^ e) := by
    rw [Int.cast_mul, mul_assoc, ← unit_eq_mul hle]
  exact le_antisymm ((rounded_le hgrid.le).trans hgrid.ge) (hgrid.le.trans (le_rounded hgrid.ge))

theorem rounded_pow_two {e : ℤ} (he : -1074 ≤ e) : rounded (2 ^ e) = 2 ^ e := by
  have := rounded_of_short (z := 1) (e := e) (by norm_num) he
  simpa using this

/-- Numbers are rounded beyond the greatest double from the middle of the last step on. -/
theorem le_rounded_iff : 2 ^ 1024 ≤ rounded x ↔ 2 ^ 1024 - 2 ^ 970 ≤ x := by
  have top : (2 : ℚ) ^ 1024 = 2 ^ (1024 : ℤ) := (zpow_ofNat 2 1024).symm
  have steps : (2 : ℚ) ^ 1024 = 2 ^ 53 * 2 ^ (971 : ℤ) := by
    rw [top, ← zpow_ofNat, ← unit_add]
    norm_num
  have half : (2 : ℚ) ^ 970 = 1 / 2 * 2 ^ (971 : ℤ) := by
    rw [← zpow_ofNat, show (970 : ℤ) = -1 + 971 by norm_num, unit_add]
    norm_num
  have unit := unit_pos 971
  rcases le_or_gt (2 ^ 1024) x with large | small
  · have := rounded_mono large
    rw [top, rounded_pow_two (by norm_num), ← top] at this
    exact iff_of_true this ((sub_le_self _ (by positivity)).trans large)
  rcases lt_or_ge x (2 ^ (1023 : ℤ)) with low | low
  · have below : (2 : ℚ) ^ (1023 : ℤ) < 2 ^ 1024 - 2 ^ 970 := by
      rw [steps, half, show (1023 : ℤ) = 52 + 971 by norm_num, unit_add, ← sub_mul]
      exact mul_lt_mul_of_pos_right (by norm_num) unit
    have := rounded_mono low.le
    rw [rounded_pow_two (by norm_num)] at this
    refine iff_of_false (not_le.mpr (this.trans_lt (below.trans ?_)))
      (not_le.mpr (low.trans below))
    exact sub_lt_self _ (by positivity)
  have exponent : unitExponent x = 971 := by
    have := log_eq low (by rw [show (1023 : ℤ) + 1 = 1024 by norm_num, ← top]; exact small)
    rw [unitExponent, abs_of_pos ((unit_pos 1023).trans_le low), this]
    norm_num
  rw [rounded, exponent, steps, half, ← sub_mul, mul_le_mul_iff_left₀ unit, ← le_div_iff₀ unit]
  generalize x / 2 ^ (971 : ℤ) = y
  have nearest := tieToEven_isNearest y
  obtain ⟨above, below⟩ := abs_le.mp nearest.near
  constructor
  · intro h
    linarith
  · intro h
    by_contra short
    have whole : tieToEven y ≤ 2 ^ 53 - 1 := by
      refine Int.le_sub_one_iff.mpr ?_
      exact_mod_cast not_le.mp short
    have whole' : (tieToEven y : ℚ) ≤ 2 ^ 53 - 1 := by exact_mod_cast whole
    -- In the middle of the last step the even neighbour is the one beyond.
    have odd : tieToEven y = 2 ^ 53 - 1 := by
      refine le_antisymm whole (Int.sub_one_lt_iff.mp ?_)
      have : ((2 ^ 53 - 1 - 1 : ℤ) : ℚ) < tieToEven y := by
        push_cast
        linarith
      exact_mod_cast this
    have even := nearest.even (by rw [odd, abs_of_nonneg] <;> · push_cast; linarith)
    rw [odd] at even
    exact absurd even (by decide)

end Rounded

section Bounded
variable {x y : ℚ}

theorem bounded_mono (h : x ≤ y) : bounded x ≤ bounded y :=
  max_le_max_left _ (min_le_min_right _ h)

theorem bounded_of_abs_le (h : |x| ≤ 2 ^ 1024) : bounded x = x := by
  obtain ⟨low, high⟩ := abs_le.mp h
  rw [bounded, min_eq_left high, max_eq_right low]

theorem bounded_of_ge (h : 2 ^ 1024 ≤ x) : bounded x = 2 ^ 1024 := by
  rw [bounded, min_eq_right h, max_eq_right (by norm_num)]

theorem bounded_of_le (h : x ≤ -2 ^ 1024) : bounded x = -2 ^ 1024 := by
  rw [bounded, max_eq_left ((min_le_left _ _).trans h)]

theorem bounded_eq_self (h : |bounded x| < 2 ^ 1024) : bounded x = x := by
  have limit : (0 : ℚ) ≤ 2 ^ 1024 := by norm_num
  refine bounded_of_abs_le (abs_le.mpr ⟨?_, ?_⟩)
  · by_contra low
    rw [bounded_of_le (not_le.mp low).le, abs_neg, abs_of_nonneg limit] at h
    exact lt_irrefl _ h
  · by_contra high
    rw [bounded_of_ge (not_le.mp high).le, abs_of_nonneg limit] at h
    exact lt_irrefl _ h

end Bounded

end Rekey.Decimal
