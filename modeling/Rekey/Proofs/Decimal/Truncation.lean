import Rekey.Proofs.Decimal.Nearest

/-! # Truncation

A finite double is truncated to the whole number next to it on the side of zero. Of two doubles the
greater one is not truncated to the smaller number. -/
namespace Rekey.Decimal
open Float.Model Float.Model.UnpackedFloat

variable {x y : Float}

theorem unpack_fields (x : Float) : x.toModel.unpack =
    ofFields (signOf (2 ^ 63 ≤ x.toBits.toNat)) (x.toBits.toNat / 2 ^ 52 % 2 ^ 11)
      (x.toBits.toNat % 2 ^ 52) := by
  have sign : Sign.ofBitVec (@unpackSign Format.binary64 x.toBits.toBitVec) =
      signOf (2 ^ 63 ≤ x.toBits.toNat) := by
    have top : @unpackSign Format.binary64 x.toBits.toBitVec = 0#1 ↔ ¬ 2 ^ 63 ≤ x.toBits.toNat := by
      have size := x.toBits.toNat_lt
      rw [← BitVec.toNat_inj, unpackSign_toNat, UInt64.toNat_toBitVec, BitVec.toNat_ofNat]
      omega
    simp only [Sign.ofBitVec, signOf, top, decide_eq_true_eq]
    split <;> simp_all
  refine (unpack_eq_ofFields x.toBits.toBitVec).trans ?_
  rw [sign, unpackExponent_toNat, unpackMantissa_toNat, UInt64.toNat_toBitVec]

/-- What a finite double stands for, from its parts. -/
theorem place_of_parts {negative : Bool} {m : ℕ} {q : ℤ}
    (h : Binary64.ofFloat x = .finite negative m q) :
    place x = signed (signOf negative) (m * 2 ^ q) := by
  unfold Binary64.ofFloat at h
  simp only [Nat.pow_eq] at h
  unfold place
  rw [unpack_fields]
  generalize x.toBits.toNat / 2 ^ 52 % 2 ^ 11 = e at h ⊢
  generalize x.toBits.toNat % 2 ^ 52 = f at h ⊢
  by_cases special : e = 2047
  · rw [if_pos special] at h
    split at h <;> cases h
  rw [if_neg special] at h
  by_cases subnormal : e = 0
  · rw [if_pos subnormal] at h
    cases h
    rw [subnormal]
    exact (ofFields_subnormal _ _).2
  · rw [if_neg subnormal] at h
    cases h
    unfold ofFields
    rw [if_neg special, if_neg subnormal]
    rfl

theorem parts_of_isFinite (h : x.isFinite = true) :
    ∃ negative m q, Binary64.ofFloat x = .finite negative m q := by
  have special : ¬ x.toBits.toNat / 2 ^ 52 % 2 ^ 11 = 2047 := by
    intro special
    have finite : x.toModel.unpack.isFinite = true := h
    rw [unpack_fields, special] at finite
    unfold ofFields at finite
    rw [if_pos rfl] at finite
    split at finite <;> cases finite
  unfold Binary64.ofFloat
  simp only [Nat.pow_eq]
  rw [if_neg special]
  split
  · exact ⟨_, _, _, rfl⟩
  · exact ⟨_, _, _, rfl⟩

/-- The whole part of a magnitude. -/
theorem scaleRatio_floor (m : ℕ) (q : ℤ) :
    (((scaleRatio m 1 q).1 / (scaleRatio m 1 q).2 : ℕ) : ℤ) = ⌊(m * 2 ^ q : ℚ)⌋ := by
  have scaled := scaleRatio_eq m 1 q
  rw [Nat.cast_one, div_one] at scaled
  rw [← scaled, Rat.floor_natCast_div_natCast, Int.natCast_div]

theorem truncate_eq (h : x.isFinite = true) :
    truncate x = if 0 ≤ place x then ⌊place x⌋ else ⌈place x⌉ := by
  obtain ⟨negative, m, q, parts⟩ := parts_of_isFinite h
  have magnitude : (0 : ℚ) ≤ m * 2 ^ q := mul_nonneg (Nat.cast_nonneg m) (unit_pos q).le
  unfold truncate
  rw [parts]
  simp only
  rw [place_of_parts parts, scaleRatio_floor]
  cases negative with
  | false =>
    have value : signed (signOf false) (m * 2 ^ q : ℚ) = m * 2 ^ q := rfl
    rw [value, if_pos magnitude]
    rfl
  | true =>
    have value : signed (signOf true) (m * 2 ^ q : ℚ) = -(m * 2 ^ q) := rfl
    rw [value, if_pos rfl, ← Int.ceil_neg]
    split
    · next zero =>
      have : (m * 2 ^ q : ℚ) = 0 := by linarith
      simp [this]
    · rfl

theorem truncate_mono (hx : x.isFinite = true) (hy : y.isFinite = true) (le : x ≤ y) :
    truncate x ≤ truncate y := by
  have le := (le_iff.mp le).2.2
  rw [truncate_eq hx, truncate_eq hy]
  by_cases hx0 : 0 ≤ place x
  · rw [if_pos hx0, if_pos (hx0.trans le)]
    exact Int.floor_mono le
  · rw [if_neg hx0]
    split
    · next hy0 =>
      calc ⌈place x⌉ ≤ 0 := Int.ceil_nonpos.mpr (not_le.mp hx0).le
        _ ≤ ⌊place y⌋ := Int.floor_nonneg.mpr hy0
    · exact Int.ceil_mono le

end Rekey.Decimal
