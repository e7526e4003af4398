import Rekey.Decimal.Binary64
import Rekey.Proofs.Decimal.Significand

/-! # Arithmetic of doubles

Doubles are ordered by the rationals that they stand for; sums and products of finite ones are the
exact ones, rounded and cut. What the infinities make of a sum or a product, and when it is no
number, is said beside. -/
namespace Rekey.Decimal
open Float.Model Float.Model.UnpackedFloat

/-- What a double stands for, an infinity for the first power of two beyond the finite ones. -/
def place (x : Float) : ℚ := placeOf x.toModel.unpack

variable {x y : Float}

theorem isDouble (x : Float) : IsDouble x.toModel.unpack := isDouble_unpack _

section Kinds

theorem isNaN_cut (u : UnpackedFloat) : (cut u).isNaN = u.isNaN := by
  cases u with
  | finite s m e h =>
    rcases lt_or_ge 971 e with large | small
    · rw [cut_large large]
      rfl
    · rw [cut_small small]
  | _ => rfl

theorem isFinite_unpacked (u : UnpackedFloat) :
    u.isFinite = true ↔ u.isNaN = false ∧ u.isInf = false := by
  cases u <;> simp [UnpackedFloat.isFinite, UnpackedFloat.isNaN, UnpackedFloat.isInf]

theorem isFinite_iff : x.isFinite = true ↔ x.isNaN = false ∧ x.isInf = false :=
  isFinite_unpacked _

theorem isFinite_of_not (hnan : ¬ x.isNaN = true) (hinf : ¬ x.isInf = true) :
    x.isFinite = true :=
  isFinite_iff.mpr ⟨Bool.not_eq_true _ ▸ hnan, Bool.not_eq_true _ ▸ hinf⟩

theorem isNaN_or {P : Prop} (h : x.isNaN = false → P) : x.isNaN = true ∨ P := by
  cases hd : x.isNaN
  · exact Or.inr (h hd)
  · exact Or.inl rfl

theorem of_isNaN_or {P : Prop} (h : x.isNaN = true ∨ P) (number : x.isNaN = false) : P :=
  h.resolve_left (by rw [number]; exact Bool.false_ne_true)

theorem isNaN_congr (h : x.toModel.unpack = y.toModel.unpack) : x.isNaN = y.isNaN :=
  congrArg UnpackedFloat.isNaN h

theorem isInf_congr (h : x.toModel.unpack = y.toModel.unpack) : x.isInf = y.isInf :=
  congrArg UnpackedFloat.isInf h

theorem place_congr (h : x.toModel.unpack = y.toModel.unpack) : place x = place y :=
  congrArg placeOf h

theorem unpack_of_isInf (h : x.isInf = true) : ∃ s, x.toModel.unpack = .infinity s := by
  change x.toModel.unpack.isInf = true at h
  cases hx : x.toModel.unpack with
  | infinity s => exact ⟨s, rfl⟩
  | _ => rw [hx] at h; cases h

theorem unpack_of_isNaN (h : x.isNaN = true) : x.toModel.unpack = .notANumber := by
  change x.toModel.unpack.isNaN = true at h
  cases hx : x.toModel.unpack with
  | notANumber => rfl
  | _ => rw [hx] at h; cases h

theorem isNaN_of_isInf (h : x.isInf = true) : x.isNaN = false := by
  obtain ⟨s, hx⟩ := unpack_of_isInf h
  exact congrArg UnpackedFloat.isNaN hx

theorem place_of_isNaN (h : x.isNaN = true) : place x = 0 := by
  rw [place, unpack_of_isNaN h, placeOf]

theorem abs_place_lt (h : x.isFinite = true) : |place x| < 2 ^ 1024 := (isDouble x).abs_lt h

theorem abs_place_of_isInf (h : x.isInf = true) : |place x| = 2 ^ 1024 := by
  obtain ⟨s, hx⟩ := unpack_of_isInf h
  rw [place, hx, placeOf, abs_signed, abs_of_pos (pow_pos zero_lt_two 1024)]

theorem isInf_iff (h : x.isNaN = false) : x.isInf = true ↔ |place x| = 2 ^ 1024 := by
  refine ⟨abs_place_of_isInf, fun hx => ?_⟩
  by_contra hinf
  exact (abs_place_lt (isFinite_iff.mpr ⟨h, by simpa using hinf⟩)).ne hx

theorem abs_place_le (x : Float) : |place x| ≤ 2 ^ 1024 := by
  by_cases hnan : x.isNaN = true
  · rw [place_of_isNaN hnan, abs_zero]
    exact pow_nonneg zero_le_two 1024
  by_cases hinf : x.isInf = true
  · exact (abs_place_of_isInf hinf).le
  · exact (abs_place_lt (isFinite_of_not hnan hinf)).le

theorem isFinite_of_abs_lt (h : x.isNaN = false) (hx : |place x| < 2 ^ 1024) :
    x.isFinite = true := by
  refine isFinite_iff.mpr ⟨h, ?_⟩
  by_contra hinf
  exact hx.ne (abs_place_of_isInf (by simpa using hinf))

theorem isFinite_of_abs_le (h : x.isNaN = false) (hy : y.isFinite = true)
    (hx : |place x| ≤ |place y|) : x.isFinite = true :=
  isFinite_of_abs_lt h (hx.trans_lt (abs_place_lt hy))

/-- A finite double has too few digits to be rounded. -/
theorem rounded_place (h : x.isFinite = true) : rounded (place x) = place x :=
  rounded_placeOf (isDouble x).fits h

/-- Twice a double has no more digits than it. -/
theorem rounded_double (h : x.isFinite = true) :
    rounded (place x + place x) = place x + place x := by
  have double := isDouble x
  change x.toModel.unpack.isFinite = true at h
  unfold place
  cases hx : x.toModel.unpack with
  | finite s m e hm =>
    rw [hx] at double
    have short : |(m : ℤ)| < 2 ^ 53 := by
      rw [Nat.abs_cast]
      exact_mod_cast double.fits.1
    have low : -1074 ≤ e + 1 := le_add_of_le_of_nonneg double.fits.2.1 zero_le_one
    have twice : placeOf (.finite s m e hm) + placeOf (.finite s m e hm) =
        signed s ((m : ℤ) * 2 ^ (e + 1)) := by
      rw [unit_add, zpow_one, Int.cast_natCast]
      cases s <;> simp only [placeOf, signed] <;> ring
    rw [twice, rounded_signed, rounded_of_short short low]
  | zero s => simp [placeOf]
  | infinity s => rw [hx] at h; cases h
  | notANumber => rw [hx] at h; cases h

theorem bounded_place (x : Float) : bounded (place x) = place x :=
  bounded_of_abs_le (abs_place_le x)

@[simp] theorem place_zero : place 0 = 0 := rfl

@[simp] theorem place_one : place 1 = 1 := by
  change ((2 ^ 52 : ℕ) * 2 ^ (-52 : ℤ) : ℚ) = 1
  norm_num

@[simp] theorem place_two : place 2 = 2 := by
  change ((2 ^ 52 : ℕ) * 2 ^ (-51 : ℤ) : ℚ) = 2
  norm_num

@[simp] theorem place_half : place 0.5 = 1 / 2 := by
  change ((2 ^ 52 : ℕ) * 2 ^ (-53 : ℤ) : ℚ) = 1 / 2
  norm_num

end Kinds

section Order

/-- Doubles are compared by their places, unless one is no number. -/
theorem compare_place (x y : Float) :
    (x.isNaN = true ∨ y.isNaN = true) ∧ x.toModel.unpack.compare y.toModel.unpack = none ∨
      x.isNaN = false ∧ y.isNaN = false ∧
        x.toModel.unpack.compare y.toModel.unpack = some (cmp (place x) (place y)) := by
  by_cases h : x.isNaN = true ∨ y.isNaN = true
  · refine Or.inl ⟨h, ?_⟩
    change x.toModel.unpack.isNaN = true ∨ y.toModel.unpack.isNaN = true at h
    cases hx : x.toModel.unpack <;> cases hy : y.toModel.unpack <;>
      simp_all [UnpackedFloat.isNaN, UnpackedFloat.compare]
  · obtain ⟨hx, hy⟩ := not_or.mp h
    rw [Bool.not_eq_true] at hx hy
    exact Or.inr ⟨hx, hy, compare_eq (isDouble x) (isDouble y) hx hy⟩

theorem not_numbers {P : Prop} (h : x.isNaN = true ∨ y.isNaN = true) :
    ¬ (x.isNaN = false ∧ y.isNaN = false ∧ P) := by
  rintro ⟨hx, hy, -⟩
  rcases h with h | h
  · cases hx.symm.trans h
  · cases hy.symm.trans h

theorem lt_iff : x < y ↔ x.isNaN = false ∧ y.isNaN = false ∧ place x < place y := by
  refine Iff.trans (b := (x.toModel.unpack.compare y.toModel.unpack == some .lt) = true)
    decide_eq_true_iff ?_
  rcases compare_place x y with ⟨h, hc⟩ | ⟨hx, hy, hc⟩
  · rw [hc]
    exact iff_of_false nofun (not_numbers h)
  · simp only [hc, hx, hy, true_and, beq_iff_eq, Option.some.injEq, cmp_eq_lt_iff]

theorem le_iff : x ≤ y ↔ x.isNaN = false ∧ y.isNaN = false ∧ place x ≤ place y := by
  refine Iff.trans (b := (x.toModel.unpack.compare y.toModel.unpack).any (·.isLE) = true)
    decide_eq_true_iff ?_
  rcases compare_place x y with ⟨h, hc⟩ | ⟨hx, hy, hc⟩
  · rw [hc]
    exact iff_of_false nofun (not_numbers h)
  · simp only [hc, hx, hy, true_and, Option.any_some, Ordering.isLE_iff_ne_gt, cmp_eq_gt_iff,
      not_lt]

theorem beq_iff : (x == y) = true ↔ x.isNaN = false ∧ y.isNaN = false ∧ place x = place y := by
  change (x.toModel.unpack.compare y.toModel.unpack == some .eq) = true ↔ _
  rcases compare_place x y with ⟨h, hc⟩ | ⟨hx, hy, hc⟩
  · rw [hc]
    exact iff_of_false nofun (not_numbers h)
  · simp only [hc, hx, hy, true_and, beq_iff_eq, Option.some.injEq, cmp_eq_eq_iff]

end Order

section Operations

theorem unpack_neg (x : Float) : (-x).toModel.unpack = x.toModel.unpack.neg := by
  have double := (isDouble x).neg
  exact (unpack_pack double.fits).trans double.cut_eq

@[simp] theorem place_neg (x : Float) : place (-x) = -place x := by
  rw [place, unpack_neg, placeOf_neg, place]

@[simp] theorem isNaN_neg (x : Float) : (-x).isNaN = x.isNaN := by
  change (-x).toModel.unpack.isNaN = x.toModel.unpack.isNaN
  rw [unpack_neg]
  cases x.toModel.unpack <;> rfl

@[simp] theorem isInf_neg (x : Float) : (-x).isInf = x.isInf := by
  change (-x).toModel.unpack.isInf = x.toModel.unpack.isInf
  rw [unpack_neg]
  cases x.toModel.unpack <;> rfl

theorem Fits.of_not_finite {u : UnpackedFloat} (h : u.isFinite = false) : Fits u := by
  cases u with
  | finite s m e hm => cases h
  | _ => trivial

section Unpacked
variable {u v : UnpackedFloat}

theorem add_not_finite (h : u.isFinite = false ∨ v.isFinite = false) :
    (UnpackedFloat.add Format.binary64 u v).isFinite = false := by
  rcases h with h | h
  · cases u with
    | infinity s =>
      cases v with
      | infinity r => cases s <;> cases r <;> rfl
      | _ => rfl
    | notANumber => rfl
    | _ => cases h
  · cases v with
    | infinity r =>
      cases u with
      | infinity s => cases s <;> cases r <;> rfl
      | _ => rfl
    | notANumber => cases u <;> rfl
    | _ => cases h

theorem mul_not_finite (h : u.isFinite = false ∨ v.isFinite = false) :
    (UnpackedFloat.mul Format.binary64 u v).isFinite = false := by
  rcases h with h | h
  · cases u with
    | infinity s => cases v <;> rfl
    | notANumber => rfl
    | _ => cases h
  · cases v with
    | infinity r => cases u <;> rfl
    | notANumber => cases u <;> rfl
    | _ => cases h

theorem fits_add (hu : Fits u) (hv : Fits v) : Fits (UnpackedFloat.add Format.binary64 u v) := by
  by_cases finite : u.isFinite = true ∧ v.isFinite = true
  · exact (add_written hu hv finite.1 finite.2).fits
  · refine Fits.of_not_finite (add_not_finite ?_)
    simpa only [Bool.not_eq_true] using not_and_or.mp finite

theorem fits_mul (hu : Fits u) (hv : Fits v) : Fits (UnpackedFloat.mul Format.binary64 u v) := by
  by_cases finite : u.isFinite = true ∧ v.isFinite = true
  · exact (mul_written hu hv finite.1 finite.2).fits
  · refine Fits.of_not_finite (mul_not_finite ?_)
    simpa only [Bool.not_eq_true] using not_and_or.mp finite

theorem sub_eq_add (u v : UnpackedFloat) : UnpackedFloat.sub Format.binary64 u v =
    UnpackedFloat.add Format.binary64 u v.neg := by
  cases u with
  | finite s m e hm =>
    cases v with
    | finite r n f hn =>
      have flip : ∀ k : ℤ, s.apply (decreaseExponent m e (min e f)).1 - r.apply k =
          s.apply (decreaseExponent m e (min e f)).1 + (-r).apply k := by
        intro k
        cases r
        · exact sub_neg_eq_add _ _
        · rfl
      exact congrArg
        (fun z => UnpackedFloat.normalize Format.binary64 z (min e f) .positive) (flip _)
    | _ => rfl
  | _ => cases v <;> rfl

end Unpacked

theorem unpack_add (x y : Float) : (x + y).toModel.unpack =
    cut (UnpackedFloat.add Format.binary64 x.toModel.unpack y.toModel.unpack) :=
  unpack_pack (fits_add (isDouble x).fits (isDouble y).fits)

theorem unpack_mul (x y : Float) : (x * y).toModel.unpack =
    cut (UnpackedFloat.mul Format.binary64 x.toModel.unpack y.toModel.unpack) :=
  unpack_pack (fits_mul (isDouble x).fits (isDouble y).fits)

/-- A double that is as near to `q` as doubles are. -/
structure Rounds (x : Float) (q : ℚ) : Prop where
  number : x.isNaN = false
  place_eq : place x = bounded (rounded q)

theorem Written.rounds {u : UnpackedFloat} {q : ℚ} (h : Written u (rounded q))
    (hx : x.toModel.unpack = cut u) : Rounds x q := by
  refine ⟨?_, by rw [Decimal.place, hx, placeOf_cut h.fits, h.place]⟩
  change x.toModel.unpack.isNaN = false
  rw [hx, isNaN_cut]
  exact ((isFinite_unpacked _).mp h.finite).1

/-- The sum of finite doubles is the exact sum, rounded and cut. -/
theorem rounds_add (hx : x.isFinite = true) (hy : y.isFinite = true) :
    Rounds (x + y) (place x + place y) :=
  (add_written (isDouble x).fits (isDouble y).fits hx hy).rounds (unpack_add x y)

theorem rounds_mul (hx : x.isFinite = true) (hy : y.isFinite = true) :
    Rounds (x * y) (place x * place y) :=
  (mul_written (isDouble x).fits (isDouble y).fits hx hy).rounds (unpack_mul x y)

/-- Rounding does not pass a double. -/
theorem Rounds.le {q : ℚ} (h : Rounds x q) (hy : y.isFinite = true) (hq : q ≤ place y) :
    place x ≤ place y := by
  have mono := bounded_mono (rounded_mono hq)
  rwa [← h.place_eq, rounded_place hy, bounded_place] at mono

theorem Rounds.ge {q : ℚ} (h : Rounds x q) (hy : y.isFinite = true) (hq : place y ≤ q) :
    place y ≤ place x := by
  have mono := bounded_mono (rounded_mono hq)
  rwa [← h.place_eq, rounded_place hy, bounded_place] at mono

theorem Rounds.mem_uIcc {z : Float} {q : ℚ} (h : Rounds x q) (hy : y.isFinite = true)
    (hz : z.isFinite = true) (hq : q ∈ Set.uIcc (place y) (place z)) :
    place x ∈ Set.uIcc (place y) (place z) := by
  rw [Set.mem_uIcc] at hq ⊢
  exact hq.imp (fun ⟨low, high⟩ => ⟨h.ge hy low, h.le hz high⟩)
    fun ⟨low, high⟩ => ⟨h.ge hz low, h.le hy high⟩

theorem Rounds.mono {q r : ℚ} (hx : Rounds x q) (hy : Rounds y r) (h : q ≤ r) :
    place x ≤ place y := by
  rw [hx.place_eq, hy.place_eq]
  exact bounded_mono (rounded_mono h)

theorem float_sub_eq (x y : Float) : x - y = x + -y := by
  change Float.ofModel (.pack (UnpackedFloat.sub Format.binary64 x.toModel.unpack
      y.toModel.unpack)) =
    Float.ofModel (.pack (UnpackedFloat.add Format.binary64 x.toModel.unpack
      (-y).toModel.unpack))
  rw [sub_eq_add, unpack_neg]

end Operations

section Infinite

theorem isNaN_add_of_isNaN (h : x.isNaN = true ∨ y.isNaN = true) : (x + y).isNaN = true := by
  change (x + y).toModel.unpack.isNaN = true
  rw [unpack_add, isNaN_cut]
  rcases h with h | h
  · rw [unpack_of_isNaN h]
    rfl
  · rw [unpack_of_isNaN h]
    cases x.toModel.unpack <;> rfl

theorem isNaN_mul_of_isNaN (h : x.isNaN = true ∨ y.isNaN = true) : (x * y).isNaN = true := by
  change (x * y).toModel.unpack.isNaN = true
  rw [unpack_mul, isNaN_cut]
  rcases h with h | h
  · rw [unpack_of_isNaN h]
    rfl
  · rw [unpack_of_isNaN h]
    cases x.toModel.unpack <;> rfl

theorem float_add_comm (x y : Float) : x + y = y + x := by
  have unpacked (u v : UnpackedFloat) : UnpackedFloat.add Format.binary64 u v =
      UnpackedFloat.add Format.binary64 v u := by
    cases u with
    | finite s m e hm =>
      cases v with
      | finite r n f hn =>
        simp only [UnpackedFloat.add, min_comm f e]
        rw [Int.add_comm]
      | _ => rfl
    | infinity s =>
      cases v with
      | infinity r => cases s <;> cases r <;> rfl
      | _ => rfl
    | zero s =>
      cases v with
      | zero r => cases s <;> cases r <;> rfl
      | _ => rfl
    | notANumber => cases v <;> rfl
  exact congrArg (fun u => Float.ofModel (.pack u)) (unpacked _ _)

theorem float_mul_comm (x y : Float) : x * y = y * x := by
  have signs (s r : Sign) : s * r = r * s := by cases s <;> cases r <;> rfl
  have unpacked (u v : UnpackedFloat) : UnpackedFloat.mul Format.binary64 u v =
      UnpackedFloat.mul Format.binary64 v u := by
    cases u <;> cases v <;> simp only [UnpackedFloat.mul, signs, Nat.mul_comm, Int.add_comm]
  exact congrArg (fun u => Float.ofModel (.pack u)) (unpacked _ _)

theorem sign_eq_of_place {s r : Sign} (hx : x.toModel.unpack = .infinity s)
    (hy : y.toModel.unpack = .infinity r) (same : place y = place x) : r = s := by
  have limit : (0 : ℚ) < 2 ^ 1024 := pow_pos zero_lt_two 1024
  rw [place, place, hx, hy] at same
  cases s <;> cases r
  · rfl
  · exact absurd same (neg_lt_self limit).ne'
  · exact absurd same (neg_lt_self limit).ne
  · rfl

/-- An infinity absorbs what does not point the other way. -/
theorem unpack_add_of_isInf (hx : x.isInf = true) (hy : y.isNaN = false)
    (same : y.isInf = true → place y = place x) : (x + y).toModel.unpack = x.toModel.unpack := by
  obtain ⟨s, hs⟩ := unpack_of_isInf hx
  rw [unpack_add, hs]
  cases hv : y.toModel.unpack with
  | infinity r =>
    obtain rfl := sign_eq_of_place hs hv (same (congrArg UnpackedFloat.isInf hv))
    cases r <;> rfl
  | notANumber => cases hy.symm.trans (congrArg UnpackedFloat.isNaN hv)
  | _ => rfl

/-- Two infinities of unlike signs have no sum. -/
theorem isNaN_add_of_isInf (hx : x.isInf = true) (hy : y.isInf = true)
    (opposite : place y = -place x) : (x + y).isNaN = true := by
  obtain ⟨s, hs⟩ := unpack_of_isInf hx
  obtain ⟨r, hr⟩ := unpack_of_isInf hy
  have flipped : (-x).toModel.unpack = .infinity (-s) := by rw [unpack_neg, hs, UnpackedFloat.neg]
  obtain rfl := sign_eq_of_place flipped hr (by rw [opposite, place_neg])
  change (x + y).toModel.unpack.isNaN = true
  rw [unpack_add, hs, hr]
  cases s <;> rfl

/-- A positive factor leaves an infinity as it is. -/
theorem unpack_mul_of_isInf (hx : x.isInf = true) (hy : 0 < place y) :
    (x * y).toModel.unpack = x.toModel.unpack := by
  obtain ⟨s, hs⟩ := unpack_of_isInf hx
  rw [unpack_mul, hs]
  rw [place] at hy
  cases hv : y.toModel.unpack with
  | infinity r =>
    rw [hv] at hy
    cases r
    · exact absurd hy (not_lt.mpr (neg_nonpos.mpr (pow_nonneg zero_le_two 1024)))
    · cases s <;> rfl
  | notANumber => rw [hv] at hy; exact absurd hy (lt_irrefl 0)
  | zero r => rw [hv] at hy; exact absurd hy (lt_irrefl 0)
  | finite r n f hn =>
    rw [hv] at hy
    cases r
    · exact absurd hy (not_lt.mpr (neg_nonpos.mpr (significand_pos hn f).le))
    · cases s <;> rfl

theorem isNaN_mul_of_isInf (hx : x.isInf = true) (hy : place y = 0) : (x * y).isNaN = true := by
  obtain ⟨s, hs⟩ := unpack_of_isInf hx
  change (x * y).toModel.unpack.isNaN = true
  rw [unpack_mul, hs]
  cases hv : y.toModel.unpack with
  | infinity r =>
    have size := abs_place_of_isInf (congrArg UnpackedFloat.isInf hv)
    rw [hy, abs_zero] at size
    exact absurd size (pow_pos zero_lt_two 1024).ne
  | finite r n f hn =>
    have size : |place y| = n * 2 ^ f := by
      rw [place, hv, placeOf, abs_signed, abs_of_pos (significand_pos hn f)]
    rw [hy, abs_zero] at size
    exact absurd size (significand_pos hn f).ne
  | _ => rfl

end Infinite

end Rekey.Decimal
