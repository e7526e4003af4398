import Rekey.Proofs.Decimal.Packing

/-! # Rounding of significands

Digits shifted out of a significand leave two bits behind, which tell on which side of the middle
the lost part lies. With them a significand is rounded to the nearest one, and sums and products of
doubles are the exact ones rounded. -/
namespace Rekey.Decimal
open Float.Model Float.Model.UnpackedFloat

section Shifts

/-- A significand with the bits below it stands for `x`, as far as rounding goes. -/
def Splits (em : ExtendedMantissa) (x : ℚ) : Prop :=
  ∃ rest : ℚ, x = em.mantissa + (if em.roundBit then 1 / 2 else 0) + rest ∧ 0 ≤ rest ∧
    rest < 1 / 2 ∧ (em.stickyBit = true ↔ rest ≠ 0)

theorem splits_exact (m : ℕ) : Splits (.ofMantissaAndAccuracy m .exact) m :=
  ⟨0, by simp [ExtendedMantissa.ofMantissaAndAccuracy], le_rfl, by norm_num,
    by simp [ExtendedMantissa.ofMantissaAndAccuracy]⟩

theorem Splits.shiftRightOne {em : ExtendedMantissa} {x : ℚ} (h : Splits em x) :
    Splits em.shiftRightOne (x / 2) := by
  obtain ⟨rest, hx, low, high, sticky⟩ := h
  obtain ⟨m, r, s⟩ := em
  have digits : (m : ℚ) = 2 * (m / 2 : ℕ) + (m % 2 : ℕ) := by
    exact_mod_cast (Nat.div_add_mod m 2).symm
  have last : (if m % 2 != 0 then 1 / 2 else 0 : ℚ) = (m % 2 : ℕ) / 2 := by
    rcases Nat.mod_two_eq_zero_or_one m with even | odd
    · simp [even]
    · simp [odd]
  have bit : (0 : ℚ) ≤ (if r then 1 / 2 else 0) ∧ (if r then 1 / 2 else 0 : ℚ) ≤ 1 / 2 := by
    cases r <;> norm_num
  refine ⟨((if r then 1 / 2 else 0) + rest) / 2, ?_, by linarith, by linarith, ?_⟩
  · change x / 2 = (m / 2 : ℕ) + (if m % 2 != 0 then 1 / 2 else 0) + _
    rw [last, hx, digits]
    ring
  · cases r
    · simpa [ExtendedMantissa.shiftRightOne] using sticky
    · have : ((1 : ℚ) / 2 + rest) / 2 ≠ 0 := by positivity
      simpa [ExtendedMantissa.shiftRightOne] using this

theorem Splits.shiftRight {em : ExtendedMantissa} {x : ℚ} (h : Splits em x) (n : ℕ) :
    Splits (em >>> n) (x / 2 ^ n) := by
  change Splits (n.repeat ExtendedMantissa.shiftRightOne em) _
  induction n with
  | zero => simpa [Nat.repeat] using h
  | succ n ih =>
    rw [pow_succ, ← div_div]
    exact ih.shiftRightOne

theorem Splits.isNearest {em : ExtendedMantissa} {x : ℚ} (h : Splits em x) :
    IsNearest x em.roundedMantissa := by
  obtain ⟨rest, hx, low, high, sticky⟩ := h
  obtain ⟨m, r, s⟩ := em
  cases r <;> cases s
  · have exact : x = (m : ℤ) := by simpa [not_not.mp (mt sticky.mpr (by simp))] using hx
    exact exact ▸ isNearest_intCast m
  · have down : x - ((m : ℤ) : ℚ) = rest := by rw [hx]; simp
    refine IsNearest.of_abs_lt ?_
    change |x - ((m : ℤ) : ℚ)| < 1 / 2
    rwa [down, abs_of_nonneg low]
  · have half : x = m + 1 / 2 := by simpa [not_not.mp (mt sticky.mpr (by simp))] using hx
    rcases Nat.mod_two_eq_zero_or_one m with even | odd
    · have down : x - ((m : ℤ) : ℚ) = 1 / 2 := by rw [half, Int.cast_natCast]; ring
      simp only [ExtendedMantissa.roundedMantissa, ExtendedMantissa.accuracy,
        Accuracy.roundToNearestEven, even, add_zero]
      refine ⟨by rw [down]; norm_num, fun _ => ?_⟩
      exact (Int.even_coe_nat m).mpr (Nat.even_iff.mpr even)
    · have up : x - ((m + 1 : ℕ) : ℤ) = -(1 / 2) := by rw [half]; push_cast; ring
      simp only [ExtendedMantissa.roundedMantissa, ExtendedMantissa.accuracy,
        Accuracy.roundToNearestEven, odd]
      refine ⟨by rw [up]; norm_num, fun _ => ?_⟩
      exact (Int.even_coe_nat _).mpr (Nat.odd_iff.mpr odd).add_one
  · have positive : 0 < rest := lt_of_le_of_ne low (sticky.mp rfl).symm
    have up : x - ((m + 1 : ℕ) : ℤ) = -(1 / 2 - rest) := by
      rw [hx, if_pos rfl]
      push_cast
      ring
    refine IsNearest.of_abs_lt ?_
    change |x - ((m + 1 : ℕ) : ℤ)| < 1 / 2
    rw [up, abs_neg, abs_of_pos (sub_pos.mpr high)]
    linarith

end Shifts

section Rounding
variable {m : ℕ} {e : ℤ}

theorem log_significand (hm : 0 < m) (e : ℤ) : Int.log 2 |(m * 2 ^ e : ℚ)| = m.log2 + e := by
  rw [abs_of_pos (significand_pos hm e)]
  refine log_eq ?_ ?_
  · rw [unit_add, zpow_natCast]
    exact mul_le_mul_of_nonneg_right (by exact_mod_cast Nat.log2_self_le hm.ne') (unit_pos e).le
  · rw [show (m.log2 : ℤ) + e + 1 = ((m.log2 + 1 : ℕ) : ℤ) + e by push_cast; ring, unit_add,
      zpow_natCast]
    exact mul_lt_mul_of_pos_right (by exact_mod_cast Nat.lt_log2_self) (unit_pos e)

theorem targetExponent_eq (hm : 0 < m) (e : ℤ) :
    Format.binary64.targetExponent (totalExponent m e) = unitExponent (m * 2 ^ e) := by
  have bits : ((Format.binary64.mantissaBits : ℕ) : ℤ) = 53 := rfl
  have least : Format.binary64.minExponent = -1074 := rfl
  rw [unitExponent, log_significand hm, Format.targetExponent, totalExponent, bits, least]
  congr 1
  ring

/-- A finite number that stands for `x` and has no more digits than a double. -/
structure Written (u : UnpackedFloat) (x : ℚ) : Prop where
  fits : Fits u
  finite : u.isFinite = true
  place : placeOf u = x

theorem shiftToTargetExponent_eq (m : ℕ) (e : ℤ) {target : ℤ}
    (ht : Format.binary64.targetExponent (totalExponent m e) = target) :
    shiftToTargetExponent Format.binary64 m e .exact =
      (ExtendedMantissa.ofMantissaAndAccuracy m .exact >>> (target - e).toNat,
        e + (target - e).toNat) := by
  rw [shiftToTargetExponent, ht]
  rfl

/-- The digits that a double has no room for are rounded off. -/
theorem shift_first (hm : 0 < m) (small : e ≤ unitExponent (m * 2 ^ e)) :
    ((shiftToTargetExponent Format.binary64 m e .exact).1.roundedMantissa : ℤ) =
        tieToEven (m * 2 ^ e / 2 ^ unitExponent (m * 2 ^ e)) ∧
      (shiftToTargetExponent Format.binary64 m e .exact).2 = unitExponent (m * 2 ^ e) := by
  rw [shiftToTargetExponent_eq m e (targetExponent_eq hm e)]
  generalize unitExponent (m * 2 ^ e) = t at small ⊢
  have drop : (m : ℚ) / 2 ^ (t - e).toNat = m * 2 ^ e / 2 ^ t := by
    have : (2 : ℚ) ^ t = 2 ^ e * 2 ^ (t - e).toNat := by
      rw [← zpow_natCast, ← unit_add, Int.toNat_of_nonneg (sub_nonneg.mpr small)]
      congr 1
      ring
    rw [this, mul_comm (m : ℚ), mul_div_mul_left _ _ (unit_pos e).ne']
  refine ⟨?_, by simp only; omega⟩
  rw [← drop]
  exact (tieToEven_eq ((splits_exact m).shiftRight _).isNearest).symm

@[simp] theorem shift_zero (n : ℕ) :
    (ExtendedMantissa.ofMantissaAndAccuracy 0 .exact >>> n).mantissa = 0 := by
  have : ExtendedMantissa.ofMantissaAndAccuracy 0 .exact >>> n =
      ExtendedMantissa.ofMantissaAndAccuracy 0 .exact := by
    change n.repeat ExtendedMantissa.shiftRightOne _ = _
    induction n with
    | zero => rfl
    | succ n ih =>
      rw [Nat.repeat, ih]
      rfl
  rw [this]
  rfl

/-- The number with a significand and an exponent, the bits below the significand let go. -/
def assembled (s : Sign) (parts : ExtendedMantissa × ℤ) : UnpackedFloat :=
  if h : parts.1.mantissa = 0 then .zero s
  else .finite s parts.1.mantissa parts.2 (Nat.pos_of_ne_zero h)

theorem assembled_written (s : Sign) {em : ExtendedMantissa} (hm : em.mantissa = m)
    (low : -1074 ≤ e) (short : m < 2 ^ 53) (long : 2 ^ 52 ≤ m ∨ e = -1074) :
    Written (assembled s (em, e)) (signed s (m * 2 ^ e)) := by
  subst hm
  unfold assembled
  split
  · next none => exact ⟨trivial, rfl, by simp only at none; simp [placeOf, none]⟩
  · exact ⟨⟨short, low, long⟩, rfl, rfl⟩

/-- A significand that rounding has made one digit too long loses it. -/
theorem shift_again (s : Sign) (low : -1074 ≤ e) (short : m ≤ 2 ^ 53)
    (long : 2 ^ 52 ≤ m ∨ e = -1074) :
    Written (assembled s (shiftToTargetExponent Format.binary64 m e .exact))
      (signed s (m * 2 ^ e)) := by
  rcases Nat.eq_zero_or_pos m with rfl | hm
  · rw [shiftToTargetExponent_eq 0 e rfl, assembled, dif_pos (shift_zero _)]
    exact ⟨trivial, rfl, by simp [placeOf]⟩
  have positive := significand_pos hm e
  rcases short.lt_or_eq with hlt | rfl
  · have fits : unitExponent (m * 2 ^ e) ≤ e := by
      refine unitExponent_le positive.ne' low ?_
      rw [abs_of_pos positive]
      exact significand_lt hlt e
    rw [shiftToTargetExponent_eq m e (targetExponent_eq hm e), Int.toNat_eq_zero.mpr (by omega)]
    rw [Int.natCast_zero, add_zero]
    exact assembled_written s rfl low hlt long
  · have next : Format.binary64.targetExponent (totalExponent (2 ^ 53) e) = e + 1 := by
      have bits : ((Format.binary64.mantissaBits : ℕ) : ℤ) = 53 := rfl
      have least : Format.binary64.minExponent = -1074 := rfl
      rw [Format.targetExponent, totalExponent, bits, least, Nat.log2_two_pow]
      omega
    have half : ((2 ^ 53 : ℕ) * 2 ^ e : ℚ) = (2 ^ 52 : ℕ) * 2 ^ (e + 1) := by
      rw [unit_add]
      push_cast
      ring
    rw [shiftToTargetExponent_eq _ e next, half, show (e + 1 - e).toNat = 1 by omega]
    exact assembled_written s rfl (by omega) (by norm_num) (Or.inl le_rfl)

/-- Rounding a number whose last digit is not above those that a double has room for. -/
theorem roundWithAccuracy_written (s : Sign) (hm : 0 < m)
    (small : e ≤ unitExponent (m * 2 ^ e)) :
    Written (roundWithAccuracy Format.binary64 s m e .exact)
      (signed s (rounded (m * 2 ^ e))) := by
  obtain ⟨digits, exponent⟩ := shift_first hm small
  obtain ⟨short, long⟩ := tieToEven_digits (significand_pos hm e)
  change Written (assembled s (shiftToTargetExponent Format.binary64
    (shiftToTargetExponent Format.binary64 m e .exact).1.roundedMantissa
    (shiftToTargetExponent Format.binary64 m e .exact).2 .exact)) _
  generalize (shiftToTargetExponent Format.binary64 m e .exact).1.roundedMantissa = r at digits ⊢
  rw [← digits] at short long
  rw [exponent, rounded, ← digits, Int.cast_natCast]
  exact shift_again s (unitExponent_ge _) (by exact_mod_cast short)
    (long.imp_left fun h => by exact_mod_cast h)

/-- A significand may be written with more digits and a lower exponent. -/
theorem decreaseExponent_place (m : ℕ) (e target : ℤ) :
    ((decreaseExponent m e target).1 * 2 ^ (decreaseExponent m e target).2 : ℚ) = m * 2 ^ e := by
  simp only [decreaseExponent, Nat.shiftLeft_eq]
  push_cast
  rw [mul_assoc, ← zpow_natCast, ← unit_add]
  congr 2
  ring

theorem round_written (s : Sign) (hm : 0 < m) (e : ℤ) :
    Written (UnpackedFloat.round Format.binary64 s m e) (signed s (rounded (m * 2 ^ e))) := by
  have place := decreaseExponent_place m e (unitExponent (m * 2 ^ e))
  have positive : 0 < (decreaseExponent m e (unitExponent (m * 2 ^ e))).1 := by
    simp only [decreaseExponent, Nat.shiftLeft_eq]
    positivity
  have exponent :
      (decreaseExponent m e (unitExponent (m * 2 ^ e))).2 ≤ unitExponent (m * 2 ^ e) := by
    simp only [decreaseExponent]
    omega
  have written := roundWithAccuracy_written s positive (by rw [place]; exact exponent)
  rw [place] at written
  unfold UnpackedFloat.round
  rw [targetExponent_eq hm]
  exact written

theorem normalize_written (z e : ℤ) (s : Sign) :
    Written (UnpackedFloat.normalize Format.binary64 z e s) (rounded (z * 2 ^ e)) := by
  unfold UnpackedFloat.normalize
  rcases lt_trichotomy z 0 with hneg | rfl | hpos
  · have size : ((-z).toNat : ℚ) = -z := by exact_mod_cast Int.toNat_of_nonneg (by omega)
    rw [show compare z 0 = .lt from compare_lt_iff_lt.mpr hneg]
    have written := round_written .negative (m := (-z).toNat) (by omega) e
    rw [← rounded_signed, size] at written
    simpa [signed] using written
  · simpa using (⟨trivial, rfl, rfl⟩ : Written (.zero s) 0)
  · have size : (z.toNat : ℚ) = z := by exact_mod_cast Int.toNat_of_nonneg (by omega)
    rw [show compare z 0 = .gt from compare_gt_iff_gt.mpr hpos]
    have written := round_written .positive (m := z.toNat) (by omega) e
    rw [size] at written
    exact written

end Rounding

section Operations
variable {u v : UnpackedFloat}

theorem Written.of_finite (h : Fits u) (finite : u.isFinite = true) :
    Written u (rounded (placeOf u)) := ⟨h, finite, (rounded_placeOf h finite).symm⟩

theorem signed_decrease (s : Sign) (m : ℕ) {e target : ℤ} (h : target ≤ e) :
    ((s.apply (decreaseExponent m e target).1 : ℤ) : ℚ) * 2 ^ target = signed s (m * 2 ^ e) := by
  have exponent : (decreaseExponent m e target).2 = target := by
    simp only [decreaseExponent]
    omega
  rw [cast_apply, ← decreaseExponent_place m e target, exponent]
  cases s
  · exact neg_mul _ _
  · rfl

theorem add_written (hu : Fits u) (hv : Fits v) (finiteu : u.isFinite = true)
    (finitev : v.isFinite = true) :
    Written (UnpackedFloat.add Format.binary64 u v) (rounded (placeOf u + placeOf v)) := by
  cases u with
  | infinity s => cases finiteu
  | notANumber => cases finiteu
  | zero s =>
    cases v with
    | infinity r => cases finitev
    | notANumber => cases finitev
    | zero r =>
      have zero : rounded (placeOf (.zero s) + placeOf (.zero r)) = 0 := by simp [placeOf]
      rw [zero, UnpackedFloat.add]
      split <;> exact ⟨trivial, rfl, rfl⟩
    | finite r n f hn =>
      rw [show placeOf (.zero s) = 0 from rfl, zero_add]
      exact Written.of_finite hv rfl
  | finite s m e hm =>
    cases v with
    | infinity r => cases finitev
    | notANumber => cases finitev
    | zero r =>
      rw [show placeOf (.zero r) = 0 from rfl, add_zero]
      exact Written.of_finite hu rfl
    | finite r n f hn =>
      have written := normalize_written
        (s.apply (decreaseExponent m e (min e f)).1 + r.apply (decreaseExponent n f (min e f)).1)
        (min e f) .positive
      push_cast at written
      rw [add_mul, signed_decrease s m (min_le_left e f), signed_decrease r n (min_le_right e f)]
        at written
      exact written

/-- A product of doubles has no digit that is too high up. -/
theorem exponent_add_le {s r : Sign} {m n : ℕ} {e f : ℤ} {hm : 0 < m} {hn : 0 < n}
    (hu : Fits (.finite s m e hm)) (hv : Fits (.finite r n f hn)) :
    e + f ≤ unitExponent ((m * n : ℕ) * 2 ^ (e + f)) := by
  have positive := Nat.mul_pos hm hn
  by_cases long : 2 ^ 52 ≤ m * n
  · have := (Nat.le_log2 positive.ne').mpr long
    refine le_max_of_le_left ?_
    rw [log_significand positive]
    omega
  · have hmn : m ≤ m * n := Nat.le_mul_of_pos_right m hn
    have hnm : n ≤ m * n := Nat.le_mul_of_pos_left n hm
    have := hu.2.2.resolve_left (by omega)
    have := hv.2.2.resolve_left (by omega)
    exact le_max_of_le_right (by omega)

theorem mul_written (hu : Fits u) (hv : Fits v) (finiteu : u.isFinite = true)
    (finitev : v.isFinite = true) :
    Written (UnpackedFloat.mul Format.binary64 u v) (rounded (placeOf u * placeOf v)) := by
  cases u with
  | infinity s => cases finiteu
  | notANumber => cases finiteu
  | zero s =>
    rw [show placeOf (.zero s) = 0 from rfl, zero_mul, rounded_zero]
    cases v with
    | infinity r => cases finitev
    | notANumber => cases finitev
    | zero r => exact ⟨trivial, rfl, rfl⟩
    | finite r n f hn => exact ⟨trivial, rfl, rfl⟩
  | finite s m e hm =>
    cases v with
    | infinity r => cases finitev
    | notANumber => cases finitev
    | zero r =>
      rw [show placeOf (.zero r) = 0 from rfl, mul_zero, rounded_zero]
      exact ⟨trivial, rfl, rfl⟩
    | finite r n f hn =>
      have written := roundWithAccuracy_written (s * r) (Nat.mul_pos hm hn) (exponent_add_le hu hv)
      have product : (((m * n : ℕ) : ℚ) * 2 ^ (e + f)) = m * 2 ^ e * (n * 2 ^ f) := by
        rw [unit_add]
        push_cast
        ring
      rw [← rounded_signed, product, signed_mul] at written
      exact written

end Operations

end Rekey.Decimal
