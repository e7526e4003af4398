import Rekey.Proofs.Decimal.Double

/-! # The nearest double

A ratio of whole numbers is given the double that is nearest to it, computed from the bits. -/
namespace Rekey.Decimal
open Float.Model Float.Model.UnpackedFloat

section Scaled
variable {num den : ℕ}

theorem scaleRatio_pos (hn : 0 < num) (hd : 0 < den) (e : ℤ) :
    0 < (scaleRatio num den e).1 ∧ 0 < (scaleRatio num den e).2 := by
  unfold scaleRatio
  split
  · exact ⟨Nat.mul_pos hn (Nat.pow_pos zero_lt_two), hd⟩
  · exact ⟨hn, Nat.mul_pos hd (Nat.pow_pos zero_lt_two)⟩

theorem scaleRatio_eq (num den : ℕ) (e : ℤ) :
    ((scaleRatio num den e).1 / (scaleRatio num den e).2 : ℚ) = num / den * 2 ^ e := by
  unfold scaleRatio
  split
  · next h =>
    obtain ⟨k, rfl⟩ := Int.eq_ofNat_of_zero_le h
    simp only [Int.toNat_natCast, Nat.pow_eq, Nat.cast_mul, Nat.cast_pow,
      Nat.cast_ofNat, zpow_natCast]
    ring
  · next h =>
    obtain ⟨k, hk⟩ := Int.eq_ofNat_of_zero_le (show 0 ≤ -e by omega)
    obtain rfl : e = -(k : ℤ) := by omega
    simp only [neg_neg, Int.toNat_natCast, Nat.pow_eq, Nat.cast_mul, Nat.cast_pow,
      Nat.cast_ofNat, zpow_neg, zpow_natCast]
    rw [div_mul_eq_div_div]
    rfl

theorem roundRatio_eq (hd : 0 < den) : (roundRatio num den : ℤ) = tieToEven (num / den) := by
  refine (tieToEven_eq ?_).symm
  have positive : (0 : ℚ) < den := by exact_mod_cast hd
  have down : (num / den : ℚ) - (num / den : ℕ) = (num % den : ℕ) / den := by
    have : (num : ℚ) = den * (num / den : ℕ) + (num % den : ℕ) := by
      exact_mod_cast (Nat.div_add_mod num den).symm
    field_simp
    linarith
  have up : (num / den : ℚ) - (num / den + 1 : ℕ) = (num % den : ℕ) / den - 1 := by
    push_cast
    linarith
  have below : (0 : ℚ) ≤ (num % den : ℕ) / den := by positivity
  have above : ((num % den : ℕ) / den : ℚ) < 1 := by
    rw [div_lt_one positive]
    exact_mod_cast Nat.mod_lt num hd
  unfold roundRatio
  simp only
  split
  · next h =>
    have : ((num % den : ℕ) / den : ℚ) < 1 / 2 := by
      rw [div_lt_div_iff₀ positive two_pos]
      exact_mod_cast (by omega : num % den * 2 < 1 * den)
    refine IsNearest.of_abs_lt ?_
    rw [Int.cast_natCast, down, abs_of_nonneg below]
    exact this
  split
  · next h =>
    have : (1 / 2 : ℚ) < (num % den : ℕ) / den := by
      rw [div_lt_div_iff₀ two_pos positive]
      exact_mod_cast (by omega : 1 * den < num % den * 2)
    refine IsNearest.of_abs_lt ?_
    rw [Int.cast_natCast, up, abs_lt]
    constructor <;> linarith
  next h h' =>
  have half : ((num % den : ℕ) / den : ℚ) = 1 / 2 := by
    rw [div_eq_div_iff positive.ne' two_ne_zero]
    exact_mod_cast (by omega : num % den * 2 = 1 * den)
  split
  · next even =>
    refine ⟨?_, fun _ => (Int.even_coe_nat _).mpr (Nat.even_iff.mpr even)⟩
    rw [Int.cast_natCast, down, half]
    norm_num
  · next odd =>
    have odd' : (num / den) % 2 = 1 := by omega
    refine ⟨?_, fun _ => (Int.even_coe_nat _).mpr (Nat.odd_iff.mpr odd').add_one⟩
    rw [Int.cast_natCast, up, half]
    norm_num

/-- The binary logarithm of a ratio is found by comparing it with the difference of the lengths. -/
theorem binaryExponent_eq (hn : 0 < num) (hd : 0 < den) :
    binaryExponent num den = Int.log 2 (num / den : ℚ) := by
  obtain ⟨-, hden⟩ := scaleRatio_pos hn hd (-((num.log2 : ℤ) - den.log2))
  have scaled := scaleRatio_eq num den (-((num.log2 : ℤ) - den.log2))
  have divisor : (0 : ℚ) < den := by exact_mod_cast hd
  have low : (2 : ℚ) ^ ((num.log2 : ℤ) - den.log2 - 1) ≤ num / den := by
    rw [le_div_iff₀ divisor]
    calc (2 : ℚ) ^ ((num.log2 : ℤ) - den.log2 - 1) * den
        ≤ 2 ^ ((num.log2 : ℤ) - den.log2 - 1) * 2 ^ (den.log2 + 1) :=
          mul_le_mul_of_nonneg_left (by exact_mod_cast Nat.lt_log2_self.le) (unit_pos _).le
      _ = 2 ^ num.log2 := by
          rw [← zpow_natCast, ← unit_add, ← zpow_natCast]
          congr 1
          push_cast
          ring
      _ ≤ num := by exact_mod_cast Nat.log2_self_le hn.ne'
  have high : (num / den : ℚ) < 2 ^ ((num.log2 : ℤ) - den.log2 + 1) := by
    rw [div_lt_iff₀ divisor]
    calc (num : ℚ) < 2 ^ (num.log2 + 1) := by exact_mod_cast Nat.lt_log2_self
      _ = 2 ^ ((num.log2 : ℤ) - den.log2 + 1) * 2 ^ den.log2 := by
          rw [← zpow_natCast, ← zpow_natCast, ← unit_add]
          congr 1
          push_cast
          ring
      _ ≤ 2 ^ ((num.log2 : ℤ) - den.log2 + 1) * den :=
          mul_le_mul_of_nonneg_left (by exact_mod_cast Nat.log2_self_le hd.ne') (unit_pos _).le
  have compare : (scaleRatio num den (-((num.log2 : ℤ) - den.log2))).1 <
      (scaleRatio num den (-((num.log2 : ℤ) - den.log2))).2 ↔
        (num / den : ℚ) < 2 ^ ((num.log2 : ℤ) - den.log2) := by
    rw [← @Nat.cast_lt ℚ, ← div_lt_one (by exact_mod_cast hden), scaled, zpow_neg,
      mul_inv_lt_iff₀ (unit_pos _), one_mul]
  unfold binaryExponent
  simp only [compare]
  split
  · next h => exact (log_eq low (by rwa [sub_add_cancel])).symm
  · next h => exact (log_eq (not_lt.mp h) high).symm

end Scaled

section Bits

theorem unpackMantissa_toNat (b : BitVec 64) :
    (@unpackMantissa Format.binary64 b).toNat = b.toNat % 2 ^ 52 := by
  simp [unpackMantissa, BitVec.extractLsb]

theorem unpackExponent_toNat (b : BitVec 64) :
    (@unpackExponent Format.binary64 b).toNat = b.toNat / 2 ^ 52 % 2 ^ 11 := by
  simp [unpackExponent, BitVec.extractLsb, Nat.shiftRight_eq_div_pow]

theorem unpackSign_toNat (b : BitVec 64) :
    (@unpackSign Format.binary64 b).toNat = b.toNat / 2 ^ 63 % 2 := by
  simp [unpackSign, BitVec.extractLsb, Nat.shiftRight_eq_div_pow]

def signOf (negative : Bool) : Sign := if negative then .negative else .positive

theorem unpack_ofBits (negative : Bool) {bits : ℕ} (h : bits < 2 ^ 63) :
    (Float.ofBits (.ofNat (bits + if negative then 2 ^ 63 else 0))).toModel.unpack =
      ofFields (signOf negative) (bits / 2 ^ 52) (bits % 2 ^ 52) := by
  have double := isDouble_unpack (UInt64.ofNat (bits + if negative then 2 ^ 63 else 0)).toBitVec
  refine ((unpack_pack double.fits).trans double.cut_eq).trans ?_
  have size : (UInt64.ofNat (bits + if negative then 2 ^ 63 else 0)).toBitVec.toNat =
      bits + if negative then 2 ^ 63 else 0 := by
    rw [UInt64.toNat_toBitVec, UInt64.toNat_ofNat']
    exact Nat.mod_eq_of_lt (by split <;> omega)
  have sign : Sign.ofBitVec (@unpackSign Format.binary64
      (UInt64.ofNat (bits + if negative then 2 ^ 63 else 0)).toBitVec) = signOf negative := by
    have zero (b : BitVec 1) : b = 0#1 ↔ b.toNat = 0 := by rw [← BitVec.toNat_inj]; rfl
    simp only [Sign.ofBitVec, signOf, zero, unpackSign_toNat, size]
    cases negative
    · rw [if_pos (by simp only [Bool.false_eq_true, if_false]; omega)]
      rfl
    · rw [if_neg (by simp only [if_true]; omega)]
      rfl
  rw [unpack_eq_ofFields, sign, unpackExponent_toNat, unpackMantissa_toNat, size]
  congr 1
  · split <;> omega
  · split <;> omega

theorem ofFields_normal (s : Sign) {e m : ℕ} (he : 0 < e) (he' : e < 2047) :
    ofFields s e m = .finite s (2 ^ 52 + m) (e - 1075) (by omega) := by
  rw [ofFields, if_neg (by omega), if_neg (by omega)]

theorem ofFields_subnormal (s : Sign) (m : ℕ) :
    (ofFields s 0 m).isNaN = false ∧ placeOf (ofFields s 0 m) = signed s (m * 2 ^ (-1074 : ℤ)) := by
  rw [ofFields, if_neg (by norm_num), if_pos rfl]
  split
  · next zero => exact ⟨rfl, by simp [placeOf, zero]⟩
  · exact ⟨rfl, rfl⟩

/-- The bits of a magnitude: the digits of the significand carry into the exponent. -/
theorem placeOf_bits (s : Sign) {k m : ℕ} (short : m ≤ 2 ^ 53) (long : 2 ^ 52 ≤ m ∨ k = 0)
    {bits : ℕ} (hbits : bits = min (k * 2 ^ 52 + m) (2047 * 2 ^ 52)) :
    (ofFields s (bits / 2 ^ 52) (bits % 2 ^ 52)).isNaN = false ∧
      placeOf (ofFields s (bits / 2 ^ 52) (bits % 2 ^ 52)) =
        signed s (bounded (m * 2 ^ ((k : ℤ) - 1074))) := by
  have carry : ((2 ^ 53 : ℕ) : ℚ) * 2 ^ ((k : ℤ) - 1074) = (2 ^ 52 : ℕ) * 2 ^ ((k : ℤ) - 1073) := by
    rw [show (k : ℤ) - 1073 = 1 + (k - 1074) by ring, unit_add]
    push_cast
    ring
  have within {n : ℕ} {e : ℤ} (hn : n < 2 ^ 53) (he : e ≤ 971) :
      bounded (n * 2 ^ e) = n * 2 ^ e := by
    refine bounded_of_abs_le ?_
    rw [abs_of_nonneg (mul_nonneg (Nat.cast_nonneg n) (unit_pos e).le)]
    exact (significand_lt_limit hn he).le
  rcases Nat.lt_or_ge m (2 ^ 52) with subnormal | normal
  · obtain rfl := long.resolve_left (by omega)
    rw [show bits / 2 ^ 52 = 0 by omega, show bits % 2 ^ 52 = m by omega,
      within (by omega) (by simp)]
    exact ofFields_subnormal s m
  rcases Nat.lt_or_ge (k * 2 ^ 52 + m) (2047 * 2 ^ 52) with small | large
  · rcases short.lt_or_eq with exact | rfl
    · have power : ((k + 1 : ℕ) : ℤ) - 1075 = k - 1074 := by omega
      rw [show bits / 2 ^ 52 = k + 1 by omega, show bits % 2 ^ 52 = m - 2 ^ 52 by omega,
        ofFields_normal s (by omega) (by omega), within exact (by omega)]
      refine ⟨rfl, ?_⟩
      rw [placeOf, Nat.add_sub_cancel' normal, power]
    · have power : ((k + 2 : ℕ) : ℤ) - 1075 = k - 1073 := by omega
      rw [show bits / 2 ^ 52 = k + 2 by omega, show bits % 2 ^ 52 = 0 by omega,
        ofFields_normal s (by omega) (by omega), carry, within (by norm_num) (by omega)]
      refine ⟨rfl, ?_⟩
      rw [placeOf, power, add_zero]
  · have beyond : (2 ^ 1024 : ℚ) ≤ m * 2 ^ ((k : ℤ) - 1074) := by
      rw [limit_eq]
      rcases short.lt_or_eq with exact | rfl
      · exact (unit_le (by omega)).trans (le_significand normal _)
      · rw [carry]
        exact (unit_le (by omega)).trans (le_significand le_rfl _)
    rw [show bits / 2 ^ 52 = 2047 by omega, show bits % 2 ^ 52 = 0 by omega, bounded_of_ge beyond]
    exact ⟨rfl, rfl⟩

theorem nearestBits_eq {num den : ℕ} (hn : 0 < num) (hd : 0 < den) :
    nearestBits num den =
      min ((unitExponent (num / den) + 1074).toNat * 2 ^ 52 +
        (tieToEven (num / den / 2 ^ unitExponent (num / den))).toNat) (2047 * 2 ^ 52) := by
  have positive : (0 : ℚ) < num / den :=
    div_pos (by exact_mod_cast hn) (by exact_mod_cast hd)
  have unit : max (binaryExponent num den - 52) (-1074) = unitExponent (num / den) := by
    rw [binaryExponent_eq hn hd, unitExponent, abs_of_pos positive]
  obtain ⟨-, long⟩ := tieToEven_digits positive
  have digits := @roundRatio_eq (scaleRatio num den (-unitExponent (num / den))).1 _
    (scaleRatio_pos hn hd (-unitExponent (num / den))).2
  rw [scaleRatio_eq, zpow_neg, ← div_eq_mul_inv] at digits
  have low := unitExponent_ge (num / den)
  unfold nearestBits
  rw [if_neg hn.ne', unit]
  simp only [Nat.pow_eq]
  rw [← digits] at long ⊢
  rw [Int.toNat_natCast]
  congr 1
  split <;> omega

end Bits

/-- The nearest double to a ratio. -/
theorem rounds_nearest (negative : Bool) (num : ℕ) {den : ℕ} (hd : 0 < den) :
    Rounds (nearest negative num den) (signed (signOf negative) (num / den)) := by
  have packed {k m bits : ℕ} (short : m ≤ 2 ^ 53) (long : 2 ^ 52 ≤ m ∨ k = 0)
      (hbits : bits = min (k * 2 ^ 52 + m) (2047 * 2 ^ 52))
      (hq : rounded (num / den) = m * 2 ^ ((k : ℤ) - 1074)) :
      Rounds (.ofBits (.ofNat (bits + if negative then 2 ^ 63 else 0)))
        (signed (signOf negative) (num / den)) := by
    have unpacked := unpack_ofBits negative (show bits < 2 ^ 63 by omega)
    obtain ⟨number, value⟩ := placeOf_bits (signOf negative) short long hbits
    refine ⟨(congrArg UnpackedFloat.isNaN unpacked).trans number, ?_⟩
    rw [place, unpacked, value, ← hq, rounded_signed, bounded_signed]
  rcases Nat.eq_zero_or_pos num with rfl | hn
  · exact packed (k := 0) (m := 0) (Nat.zero_le _) (Or.inr rfl) (by simp [nearestBits]) (by simp)
  · have positive : (0 : ℚ) < num / den :=
      div_pos (by exact_mod_cast hn) (by exact_mod_cast hd)
    obtain ⟨short, long⟩ := tieToEven_digits positive
    have low := unitExponent_ge (num / den)
    have nonneg : 0 ≤ tieToEven (num / den / 2 ^ unitExponent (num / den)) := by
      simpa using tieToEven_mono (div_nonneg positive.le (unit_pos _).le)
    refine packed (by omega) (by omega) (nearestBits_eq hn hd) ?_
    have digits : ((tieToEven (num / den / 2 ^ unitExponent (num / den))).toNat : ℚ) =
        tieToEven (num / den / 2 ^ unitExponent (num / den)) := by
      exact_mod_cast Int.toNat_of_nonneg nonneg
    rw [digits, Int.toNat_of_nonneg (by omega), add_sub_cancel_right]
    rfl

theorem rounds_nearestInt (n : ℤ) : Rounds (nearestInt n) n := by
  have rounds := rounds_nearest (n < 0) n.natAbs one_pos
  rw [Nat.cast_one, div_one] at rounds
  have whole : signed (signOf (n < 0)) n.natAbs = n := by
    have size : ((n.natAbs : ℤ) : ℚ) = |n| := by rw [Int.natCast_natAbs, Int.cast_abs]
    rw [Int.cast_natCast] at size
    rw [size]
    rcases lt_or_ge n 0 with negative | nonneg
    · rw [decide_eq_true negative, abs_of_neg (by exact_mod_cast negative)]
      exact neg_neg (n : ℚ)
    · rw [decide_eq_false (not_lt.mpr nonneg), abs_of_nonneg (by exact_mod_cast nonneg)]
      rfl
  rwa [whole] at rounds

section Whole

theorem nearestInt_isInf_iff (n : ℕ) :
    (nearestInt n).isInf = true ↔ (2 ^ 1024 - 2 ^ 970 : ℚ) ≤ n := by
  have rounds : Rounds (nearestInt n) n := by exact_mod_cast rounds_nearestInt n
  have nonneg : 0 ≤ rounded n := rounded_nonneg (Nat.cast_nonneg n)
  rw [isInf_iff rounds.number, rounds.place_eq, ← le_rounded_iff]
  constructor
  · intro size
    by_contra small
    have within : |rounded (n : ℚ)| ≤ 2 ^ 1024 := by
      rw [abs_of_nonneg nonneg]
      exact (not_le.mp small).le
    rw [bounded_of_abs_le within, abs_of_nonneg nonneg] at size
    exact small size.ge
  · intro large
    rw [bounded_of_ge large, abs_of_nonneg (pow_nonneg zero_le_two 1024)]

/-- The whole number that a number of retries becomes as a double. -/
def wholeNear (n : ℕ) : ℕ := ⌊rounded n⌋₊

theorem wholeNear_of_lt {n : ℕ} (h : n < 2 ^ 53) : wholeNear n = n := by
  have short : rounded ((n : ℤ) * 2 ^ (0 : ℤ)) = (n : ℤ) * 2 ^ (0 : ℤ) :=
    rounded_of_short (by rw [Nat.abs_cast]; exact_mod_cast h) (by norm_num)
  rw [zpow_zero, mul_one, Int.cast_natCast] at short
  rw [wholeNear, short, Nat.floor_natCast]

theorem wholeNear_eq (n : ℕ) : (wholeNear n : ℚ) = rounded n := by
  rcases Nat.lt_or_ge n (2 ^ 53) with short | long
  · have := rounded_of_short (z := n) (e := 0) (by rw [Nat.abs_cast]; exact_mod_cast short)
      (by norm_num)
    rw [zpow_zero, mul_one, Int.cast_natCast] at this
    rw [wholeNear_of_lt short, this]
  · have unit : 0 ≤ unitExponent n := by
      have : (2 ^ (53 : ℤ) : ℚ) ≤ n := by exact_mod_cast long
      have positive : (0 : ℚ) < n := (unit_pos 53).trans_le this
      refine le_max_of_le_left ?_
      rw [abs_of_pos positive]
      have : 53 ≤ Int.log 2 (n : ℚ) :=
        (Int.zpow_le_iff_le_log (by norm_num) positive).mp (by exact_mod_cast long)
      omega
    obtain ⟨k, hk⟩ := Int.eq_ofNat_of_zero_le unit
    have nonneg : 0 ≤ tieToEven ((n : ℚ) / 2 ^ unitExponent n) := by
      simpa using tieToEven_mono (div_nonneg (Nat.cast_nonneg n) (unit_pos _).le)
    obtain ⟨m, hm⟩ := Int.eq_ofNat_of_zero_le nonneg
    have whole : rounded n = (m * 2 ^ k : ℕ) := by
      rw [rounded, hm, hk]
      push_cast
      rw [zpow_natCast]
    rw [wholeNear, whole, Nat.floor_natCast]

end Whole

end Rekey.Decimal
