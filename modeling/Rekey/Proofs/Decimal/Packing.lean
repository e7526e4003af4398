import Mathlib
import Rekey.Proofs.Decimal.Rounding

/-! # Places of doubles

Every double but one stands for a rational, the infinities for the first powers of two that are out
of reach. Doubles are compared as these rationals are, and packing one cuts it where they end. -/
namespace Rekey.Decimal
open Float.Model Float.Model.UnpackedFloat

/-- A magnitude with a sign. -/
def signed (s : Sign) (x : ℚ) : ℚ :=
  match s with
  | .positive => x
  | .negative => -x

/-- What an unpacked double stands for; nothing in particular if it is no number. -/
def placeOf : UnpackedFloat → ℚ
  | .infinity s => signed s (2 ^ 1024)
  | .notANumber => 0
  | .zero _ => 0
  | .finite s m e _ => signed s (m * 2 ^ e)

/-- Written with as many digits as a double has, its greatest exponent apart. -/
def Fits : UnpackedFloat → Prop
  | .finite _ m e _ => m < 2 ^ 53 ∧ -1074 ≤ e ∧ (2 ^ 52 ≤ m ∨ e = -1074)
  | _ => True

/-- A number that is too large is infinite. -/
def cut : UnpackedFloat → UnpackedFloat
  | .finite s m e h => if 971 < e then .infinity s else .finite s m e h
  | u => u

theorem cut_large {e : ℤ} (large : 971 < e) (s : Sign) (m : ℕ) (h : 0 < m) :
    cut (.finite s m e h) = .infinity s := if_pos large

theorem cut_small {e : ℤ} (small : e ≤ 971) (s : Sign) (m : ℕ) (h : 0 < m) :
    cut (.finite s m e h) = .finite s m e h := if_neg (not_lt.mpr small)

section Signs
variable (s : Sign) (x y : ℚ)

theorem signed_neg : signed (-s) x = -signed s x := by
  cases s
  · exact (neg_neg x).symm
  · rfl

theorem signed_mul (r : Sign) : signed (s * r) (x * y) = signed s x * signed r y := by
  cases s <;> cases r
  · exact (neg_mul_neg x y).symm
  · exact (neg_mul x y).symm
  · exact (mul_neg x y).symm
  · rfl

@[simp] theorem signed_zero : signed s 0 = 0 := by
  cases s
  · exact neg_zero
  · rfl

@[simp] theorem abs_signed : |signed s x| = |x| := by
  cases s
  · exact abs_neg x
  · rfl

theorem rounded_signed : rounded (signed s x) = signed s (rounded x) := by
  cases s
  · exact rounded_neg x
  · rfl

theorem bounded_neg : bounded (-x) = -bounded x := by
  rcases le_or_gt |x| (2 ^ 1024) with h | h
  · rw [bounded_of_abs_le h, bounded_of_abs_le (by rwa [abs_neg])]
  · rcases lt_abs.mp h with high | low
    · rw [bounded_of_ge high.le, bounded_of_le (neg_le_neg high.le)]
    · rw [bounded_of_ge low.le, bounded_of_le (le_neg_of_le_neg low.le), neg_neg]

theorem bounded_signed : bounded (signed s x) = signed s (bounded x) := by
  cases s
  · exact bounded_neg x
  · rfl

theorem cast_apply (m : ℕ) : ((s.apply m : ℤ) : ℚ) = signed s m := by
  cases s
  · simp [Sign.apply, signed]
  · rfl

end Signs

section Packing

theorem implicit_append (m : BitVec 52) : (1#1 ++ m).toNat = 2 ^ 52 + m.toNat := by
  rw [BitVec.toNat_append, ← Nat.shiftLeft_add_eq_or_of_lt m.isLt]
  rfl

/-- A double by its fields. -/
def ofFields (s : Sign) (e m : ℕ) : UnpackedFloat :=
  if e = 2047 then if m = 0 then .infinity s else .notANumber
  else if e = 0 then if h : m = 0 then .zero s else .finite s m (-1074) (Nat.pos_of_ne_zero h)
  else .finite s (2 ^ 52 + m) (e - 1075) (by omega)

theorem unpack_eq_ofFields (b : BitVec 64) :
    UnpackedFloat.unpack Format.binary64 b =
      ofFields (Sign.ofBitVec (@unpackSign Format.binary64 b))
        (@unpackExponent Format.binary64 b).toNat
        (@unpackMantissa Format.binary64 b).toNat := by
  have top (e : BitVec 11) : e = -1#11 ↔ e.toNat = 2047 := by rw [← BitVec.toNat_inj]; rfl
  have bottom (e : BitVec 11) : e = 0#11 ↔ e.toNat = 0 := by rw [← BitVec.toNat_inj]; rfl
  have none (m : BitVec 52) : m = 0#52 ↔ m.toNat = 0 := by rw [← BitVec.toNat_inj]; rfl
  unfold UnpackedFloat.unpack ofFields
  simp only [implicit_append, top, bottom, none]
  by_cases hbottom : (@unpackExponent Format.binary64 b).toNat = 0
  · simp only [hbottom]
    rfl
  · simp only [hbottom, if_false]
    rfl

theorem unpack_packComponents (s : Sign) (e : BitVec 11) (m : BitVec 52) :
    UnpackedFloat.unpack Format.binary64 (packComponents Format.binary64 s e m) =
      ofFields s e.toNat m.toNat := by
  have mantissa : @unpackMantissa Format.binary64 (packComponents Format.binary64 s e m) = m :=
    unpackMantissa_packComponents
  have exponent : @unpackExponent Format.binary64 (packComponents Format.binary64 s e m) = e :=
    unpackExponent_packComponents
  have sign : @unpackSign Format.binary64 (packComponents Format.binary64 s e m) = s.toBitVec :=
    @unpackSign_packComponents Format.binary64 s e m
  rw [unpack_eq_ofFields, mantissa, exponent, sign, Sign.ofBitVec_toBitVec]

theorem log2_eq_iff {m : ℕ} (hm : 0 < m) (h : m < 2 ^ 53) : m.log2 + 1 = 53 ↔ 2 ^ 52 ≤ m := by
  have high := (Nat.log2_lt hm.ne').mpr h
  have low := Nat.le_log2 hm.ne' (k := 52)
  omega

/-- Packing changes nothing but numbers that are too large. -/
theorem unpack_pack {u : UnpackedFloat} (h : Fits u) :
    UnpackedFloat.unpack Format.binary64 (UnpackedFloat.pack Format.binary64 u) = cut u := by
  cases u with
  | infinity s => exact unpack_packComponents s _ _
  | notANumber => exact unpack_packComponents .positive _ _
  | zero s => exact unpack_packComponents s _ _
  | finite s m e hm =>
    obtain ⟨short, low, long⟩ := h
    have biased : (e + (Format.binary64.exponentBias : ℕ) +
        (Format.binary64.mantissaBitsWithoutImplicit : ℕ)).toNat = (e + 1075).toNat := by
      congr 1
      rw [show (Format.binary64.exponentBias : ℕ) = 1023 by rfl]
      norm_num
      omega
    have leading : m.log2 + 1 = Format.binary64.mantissaBits ↔ 2 ^ 52 ≤ m := log2_eq_iff hm short
    simp only [UnpackedFloat.pack, biased, leading]
    rcases lt_or_ge 971 e with large | small
    · rw [if_pos (by norm_num; omega), cut_large large]
      exact unpack_packComponents s _ _
    rw [if_neg (by norm_num; omega), cut_small small]
    by_cases normal : 2 ^ 52 ≤ m
    · have exponent : (BitVec.ofNat 11 (e + 1075).toNat).toNat = (e + 1075).toNat := by
        rw [BitVec.toNat_ofNat, Nat.mod_eq_of_lt (by omega)]
      have significand : (BitVec.ofNat 52 m).toNat = m - 2 ^ 52 := by
        rw [BitVec.toNat_ofNat, Nat.mod_eq_sub_mod normal, Nat.mod_eq_of_lt (by omega)]
      rw [if_pos normal]
      refine (unpack_packComponents s _ _).trans ?_
      have whole : 2 ^ 52 + (m - 2 ^ 52) = m := Nat.add_sub_cancel' normal
      have power : ((e + 1075).toNat : ℤ) - 1075 = e := by omega
      rw [exponent, significand, ofFields, if_neg (by omega), if_neg (by omega)]
      simp only [whole, power]
    · have significand : (BitVec.ofNat 52 m).toNat = m := by
        rw [BitVec.toNat_ofNat, Nat.mod_eq_of_lt (by omega)]
      obtain rfl : e = -1074 := long.resolve_left normal
      rw [if_neg normal]
      refine (unpack_packComponents s _ _).trans ?_
      rw [significand, BitVec.toNat_zero, ofFields, if_neg (by simp), if_pos rfl, dif_neg hm.ne']

theorem fits_ofFields (s : Sign) {e m : ℕ} (hm : m < 2 ^ 52) : Fits (ofFields s e m) := by
  unfold ofFields
  split
  · split <;> trivial
  · split
    · split
      · trivial
      · exact ⟨by omega, le_rfl, Or.inr rfl⟩
    · exact ⟨by omega, by omega, Or.inl (by omega)⟩

theorem cut_ofFields (s : Sign) {e : ℕ} (he : e < 2 ^ 11) (m : ℕ) :
    cut (ofFields s e m) = ofFields s e m := by
  unfold ofFields
  split
  · split <;> rfl
  · split
    · split
      · rfl
      · exact cut_small (by norm_num) s m _
    · exact cut_small (by omega) s _ _

end Packing

section Places
variable {u v : UnpackedFloat}

/-- Written as a double is. -/
structure IsDouble (u : UnpackedFloat) : Prop where
  fits : Fits u
  cut_eq : cut u = u

theorem isDouble_unpack (b : BitVec 64) :
    IsDouble (UnpackedFloat.unpack Format.binary64 b) := by
  rw [unpack_eq_ofFields]
  exact ⟨fits_ofFields _ (BitVec.isLt _), cut_ofFields _ (BitVec.isLt _) _⟩

theorem IsDouble.exponent_le {s : Sign} {m : ℕ} {e : ℤ} {hm : 0 < m}
    (h : IsDouble (.finite s m e hm)) : e ≤ 971 := by
  by_contra large
  have := h.cut_eq
  rw [cut_large (not_le.mp large)] at this
  cases this

theorem IsDouble.neg (h : IsDouble u) : IsDouble u.neg := by
  cases u with
  | finite s m e hm => exact ⟨h.fits, cut_small h.exponent_le _ _ _⟩
  | _ => exact ⟨trivial, rfl⟩

theorem placeOf_neg (u : UnpackedFloat) : placeOf u.neg = -placeOf u := by
  cases u with
  | infinity s => exact signed_neg s _
  | notANumber => exact neg_zero.symm
  | zero s => exact neg_zero.symm
  | finite s m e hm => exact signed_neg s _

/-- The numbers of one exponent stay below the next one. -/
theorem significand_lt {m : ℕ} (h : m < 2 ^ 53) (e : ℤ) : (m * 2 ^ e : ℚ) < 2 ^ (e + 53) := by
  rw [add_comm, unit_add]
  exact mul_lt_mul_of_pos_right (by exact_mod_cast h) (unit_pos e)

theorem le_significand {m : ℕ} (h : 2 ^ 52 ≤ m) (e : ℤ) : (2 ^ (e + 52) : ℚ) ≤ m * 2 ^ e := by
  rw [add_comm, unit_add]
  exact mul_le_mul_of_nonneg_right (by exact_mod_cast h) (unit_pos e).le

theorem significand_pos {m : ℕ} (h : 0 < m) (e : ℤ) : (0 : ℚ) < m * 2 ^ e :=
  mul_pos (by exact_mod_cast h) (unit_pos e)

theorem limit_eq : (2 ^ 1024 : ℚ) = 2 ^ (1024 : ℤ) := (zpow_ofNat 2 1024).symm

theorem bounded_zero : bounded 0 = 0 :=
  bounded_of_abs_le (abs_zero.trans_le (pow_nonneg zero_le_two 1024))

theorem significand_lt_limit {m : ℕ} (h : m < 2 ^ 53) {e : ℤ} (small : e ≤ 971) :
    (m * 2 ^ e : ℚ) < 2 ^ 1024 := by
  rw [limit_eq]
  exact (significand_lt h e).trans_le (unit_le (by omega))

theorem placeOf_cut (h : Fits u) : placeOf (cut u) = bounded (placeOf u) := by
  cases u with
  | infinity s =>
    exact ((bounded_signed s _).trans (congrArg (signed s) (bounded_of_ge le_rfl))).symm
  | notANumber => exact bounded_zero.symm
  | zero s => exact bounded_zero.symm
  | finite s m e hm =>
    obtain ⟨short, low, long⟩ := h
    rcases lt_or_ge 971 e with large | small
    · have beyond : (2 ^ 1024 : ℚ) ≤ m * 2 ^ e := by
        rw [limit_eq]
        exact (unit_le (by omega)).trans (le_significand (long.resolve_right (by omega)) e)
      rw [cut_large large, placeOf, placeOf, bounded_signed, bounded_of_ge beyond]
    · have within : |(m * 2 ^ e : ℚ)| ≤ 2 ^ 1024 := by
        rw [abs_of_pos (significand_pos hm e)]
        exact (significand_lt_limit short small).le
      rw [cut_small small, placeOf, bounded_signed, bounded_of_abs_le within]

theorem IsDouble.abs_lt (h : IsDouble u) (finite : u.isFinite = true) :
    |placeOf u| < 2 ^ 1024 := by
  cases u with
  | finite s m e hm =>
    rw [placeOf, abs_signed, abs_of_pos (significand_pos hm e)]
    exact significand_lt_limit h.fits.1 h.exponent_le
  | zero s => exact abs_zero.trans_lt (pow_pos zero_lt_two 1024)
  | infinity s => cases finite
  | notANumber => cases finite

/-- A finite double has too few digits to be rounded. -/
theorem rounded_placeOf (h : Fits u) (finite : u.isFinite = true) :
    rounded (placeOf u) = placeOf u := by
  cases u with
  | finite s m e hm =>
    have short : |(m : ℤ)| < 2 ^ 53 := by
      rw [Nat.abs_cast]
      exact_mod_cast h.1
    rw [placeOf, rounded_signed]
    exact congrArg (signed s) (rounded_of_short short h.2.1)
  | zero s => exact rounded_zero
  | infinity s => cases finite
  | notANumber => cases finite

end Places

section Order
variable {u v : UnpackedFloat}

theorem cmp_neg_neg (x y : ℚ) : cmp (-x) (-y) = (cmp x y).swap := by
  rw [cmp_swap]
  simp [cmp, cmpUsing]

/-- The exponents come first when positive numbers are compared. -/
theorem cmp_significands {s r : Sign} {m n : ℕ} {e f : ℤ} {hm : 0 < m} {hn : 0 < n}
    (hu : Fits (.finite s m e hm)) (hv : Fits (.finite r n f hn)) :
    (compare e f).then (compare m n) = cmp (m * 2 ^ e : ℚ) (n * 2 ^ f) := by
  have apart {k l : ℕ} {a b : ℤ} (hk : k < 2 ^ 53) (hl : 2 ^ 52 ≤ l) (h : a < b) :
      (k * 2 ^ a : ℚ) < l * 2 ^ b :=
    (significand_lt hk a).trans_le ((unit_le (by omega)).trans (le_significand hl b))
  rcases lt_trichotomy e f with hlt | rfl | hgt
  · have long := hv.2.2.resolve_right (by have := hu.2.1; omega)
    rw [compare_lt_iff_lt.mpr hlt, (cmp_eq_lt_iff _ _).mpr (apart hu.1 long hlt)]
    rfl
  · rw [compare_eq_iff_eq.mpr rfl]
    rcases lt_trichotomy m n with h | rfl | h
    · rw [compare_lt_iff_lt.mpr h, (cmp_eq_lt_iff _ _).mpr]
      · rfl
      · exact mul_lt_mul_of_pos_right (by exact_mod_cast h) (unit_pos e)
    · rw [compare_eq_iff_eq.mpr rfl, cmp_self_eq_eq]
      rfl
    · rw [compare_gt_iff_gt.mpr h, (cmp_eq_gt_iff _ _).mpr]
      · rfl
      · exact mul_lt_mul_of_pos_right (by exact_mod_cast h) (unit_pos e)
  · have long := hu.2.2.resolve_right (by have := hv.2.1; omega)
    rw [compare_gt_iff_gt.mpr hgt, (cmp_eq_gt_iff _ _).mpr (apart hv.1 long hgt)]
    rfl

/-- Doubles are compared as what they stand for. -/
theorem compare_eq (hu : IsDouble u) (hv : IsDouble v) (numberu : u.isNaN = false)
    (numberv : v.isNaN = false) : u.compare v = some (cmp (placeOf u) (placeOf v)) := by
  have limit : (-2 ^ 1024 : ℚ) < 2 ^ 1024 := neg_lt_self (pow_pos zero_lt_two 1024)
  have less {x y : ℚ} (h : x < y) : some Ordering.lt = some (cmp x y) :=
    congrArg some ((cmp_eq_lt_iff x y).mpr h).symm
  have more {x y : ℚ} (h : y < x) : some Ordering.gt = some (cmp x y) :=
    congrArg some ((cmp_eq_gt_iff x y).mpr h).symm
  have same (x : ℚ) : some Ordering.eq = some (cmp x x) := congrArg some (cmp_self_eq_eq x).symm
  -- An infinite one lies beyond all finite ones, and the sign tells the others from zero.
  cases u with
  | notANumber => cases numberu
  | infinity s =>
    cases v with
    | notANumber => cases numberv
    | infinity r =>
      cases s <;> cases r
      · exact same _
      · exact less limit
      · exact more limit
      · exact same _
    | zero r =>
      obtain ⟨low, high⟩ := abs_lt.mp (hv.abs_lt rfl)
      cases s
      · exact less low
      · exact more high
    | finite r n f hn =>
      obtain ⟨low, high⟩ := abs_lt.mp (hv.abs_lt rfl)
      cases s
      · exact less low
      · exact more high
  | zero s =>
    cases v with
    | notANumber => cases numberv
    | infinity r =>
      obtain ⟨low, high⟩ := abs_lt.mp (hu.abs_lt rfl)
      cases r
      · exact more low
      · exact less high
    | zero r => exact same _
    | finite r n f hn =>
      cases r
      · exact more (neg_lt_zero.mpr (significand_pos hn f))
      · exact less (significand_pos hn f)
  | finite s m e hm =>
    cases v with
    | notANumber => cases numberv
    | infinity r =>
      obtain ⟨low, high⟩ := abs_lt.mp (hu.abs_lt rfl)
      cases r
      · cases s <;> exact more low
      · cases s <;> exact less high
    | zero r =>
      cases s
      · exact less (neg_lt_zero.mpr (significand_pos hm e))
      · exact more (significand_pos hm e)
    | finite r n f hn =>
      have below : (-(m * 2 ^ e) : ℚ) < n * 2 ^ f :=
        (neg_lt_zero.mpr (significand_pos hm e)).trans (significand_pos hn f)
      have above : (-(n * 2 ^ f) : ℚ) < m * 2 ^ e :=
        (neg_lt_zero.mpr (significand_pos hn f)).trans (significand_pos hm e)
      cases s <;> cases r
      · exact congrArg some ((congrArg Ordering.swap (cmp_significands hu.fits hv.fits)).trans
          (cmp_neg_neg _ _).symm)
      · exact less below
      · exact more above
      · exact congrArg some (cmp_significands hu.fits hv.fits)

end Order

end Rekey.Decimal
