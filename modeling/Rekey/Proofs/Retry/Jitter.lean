import Rekey.Proofs.Decimal.Double
import Rekey.Proofs.Retry.Delay

/-! # Chance in the delays of doubles

A delay is moved by a part of it that chance takes from a spread. Rounding does not carry the moved
delay further than the spread, but doubling the spread may be more than a double can hold, and then
the moved delay is infinite or no number. -/
namespace Rekey.Retry
open Decimal

/-- A random fraction, which is below one. -/
structure IsDraw (fraction : Float) : Prop where
  nonneg : 0 ≤ fraction
  lt_one : fraction < 1

instance (fraction : Float) : Decidable (IsDraw fraction) :=
  decidable_of_iff (0 ≤ fraction ∧ fraction < 1) ⟨fun h => ⟨h.1, h.2⟩, fun h => ⟨h.1, h.2⟩⟩

/-- The settings of an accepted policy of doubles, NaN being accepted where only a comparison that
fails would refuse. -/
structure Policy.Admits (p : Policy Float) : Prop where
  base : p.baseDelay.isNaN = true ∨ 0 ≤ place p.baseDelay
  multiplier : p.multiplier.isNaN = true ∨ 1 ≤ place p.multiplier
  most : ∀ most, p.maxDelay = some most → most.isNaN = true ∨ 0 ≤ place most
  jitter : p.jitter.isFinite = true
  jitter_nonneg : 0 ≤ place p.jitter
  jitter_le : place p.jitter ≤ 1

section Draws
variable {f : Float}

theorem IsDraw.number (h : IsDraw f) : f.isNaN = false := (le_iff.mp h.nonneg).2.1

theorem IsDraw.place_nonneg (h : IsDraw f) : 0 ≤ place f := by
  simpa using (le_iff.mp h.nonneg).2.2

theorem IsDraw.place_lt (h : IsDraw f) : place f < 1 := by
  simpa using (lt_iff.mp h.lt_one).2.2

theorem IsDraw.isFinite (h : IsDraw f) : f.isFinite = true := by
  refine isFinite_of_abs_lt h.number ?_
  rw [abs_of_nonneg h.place_nonneg]
  exact h.place_lt.trans (one_lt_pow₀ one_lt_two (by norm_num))

end Draws

section Accepted
variable {p : Policy Float}

theorem not_lt_place {x y : Float} (hy : y.isNaN = false) (h : decide (x < y) = false) :
    x.isNaN = true ∨ place y ≤ place x := by
  by_contra both
  obtain ⟨hx, hlt⟩ := not_or.mp both
  exact of_decide_eq_false h (lt_iff.mpr ⟨by simpa using hx, hy, not_le.mp hlt⟩)

theorem Policy.Accepted.admits (accepted : p.Accepted) : p.Admits := by
  obtain ⟨base, multiplier, most, low, high⟩ := Policy.accepted_iff.mp accepted
  obtain ⟨-, number, nonneg⟩ := le_iff.mp (of_decide_eq_true low)
  obtain ⟨-, -, le⟩ := le_iff.mp (of_decide_eq_true high)
  rw [show place (Duration.zero : Float) = 0 from place_zero] at nonneg
  rw [show place (Duration.one : Float) = 1 from place_one] at le
  refine ⟨not_lt_place rfl base, ?_, fun m hm => not_lt_place rfl (most m hm), ?_, nonneg, le⟩
  · have := not_lt_place rfl multiplier
    rwa [show place (Duration.one : Float) = 1 from place_one] at this
  · refine isFinite_of_abs_lt number ?_
    rw [abs_of_nonneg nonneg]
    exact le.trans_lt (one_lt_pow₀ one_lt_two (by norm_num))

theorem isZero_iff {x : Float} : Duration.isZero x = true ↔ x.isNaN = false ∧ place x = 0 :=
  beq_iff.trans ⟨fun h => ⟨h.1, h.2.2⟩, fun h => ⟨h.1, rfl, h.2⟩⟩

theorem Policy.Admits.jitters_iff (admits : p.Admits) (plain : Float) :
    p.jitters plain = true ↔ 0 < place p.jitter ∧ ¬ (plain.isNaN = false ∧ place plain = 0) := by
  have number := (isFinite_iff.mp admits.jitter).1
  have hjitter : Duration.isZero p.jitter = true ↔ ¬ 0 < place p.jitter := by
    rw [isZero_iff, not_lt]
    exact ⟨fun h => h.2.le, fun h => ⟨number, le_antisymm h admits.jitter_nonneg⟩⟩
  rw [Policy.jitters, Bool.and_eq_true, Bool.not_eq_true', Bool.not_eq_true', ← Bool.not_eq_true,
    ← Bool.not_eq_true, hjitter, isZero_iff, not_not]

end Accepted

section Clamp
variable {d : Float}

theorem clamp_eq_self (h : 0 ≤ place d) : Policy.clamp d = d := by
  refine if_neg fun hlt => ?_
  exact absurd (lt_iff.mp (of_decide_eq_true hlt)).2.2 (not_lt.mpr h)

theorem place_clamp (h : d.isNaN = false) : place (Policy.clamp d) = max 0 (place d) := by
  rcases lt_or_ge (place d) 0 with negative | nonneg
  · have lt : Duration.lt d Duration.zero = true :=
      decide_eq_true (lt_iff.mpr ⟨h, rfl, negative⟩)
    rw [Policy.clamp, if_pos lt, max_eq_left negative.le]
    exact place_zero
  · rw [clamp_eq_self nonneg, max_eq_right nonneg]

theorem isNaN_clamp (d : Float) : (Policy.clamp d).isNaN = d.isNaN := by
  unfold Policy.clamp
  split
  · next h => exact (lt_iff.mp (of_decide_eq_true h)).1.symm
  · rfl

end Clamp

section Spread
variable {v j t f : Float}

theorem mul_mem_uIcc {x c : ℚ} (nonneg : 0 ≤ c) (le : c ≤ 1) : x * c ∈ Set.uIcc 0 x := by
  rw [Set.mem_uIcc]
  rcases le_total 0 x with h | h
  · exact Or.inl ⟨mul_nonneg h nonneg, mul_le_of_le_one_right h le⟩
  · exact Or.inr ⟨le_mul_of_le_one_right h le, mul_nonpos_of_nonpos_of_nonneg h nonneg⟩

theorem abs_le_of_mem_uIcc {x y : ℚ} (h : x ∈ Set.uIcc 0 y) : |x| ≤ |y| := by
  rcases Set.mem_uIcc.mp h with ⟨low, high⟩ | ⟨low, high⟩
  · exact abs_le_abs_of_nonneg low high
  · exact abs_le_abs_of_nonpos high low

/-- A product with a factor that is no greater than one. -/
theorem mul_between (hv : v.isFinite = true) (hj : j.isFinite = true) (nonneg : 0 ≤ place j)
    (le : place j ≤ 1) : (v * j).isFinite = true ∧ place (v * j) ∈ Set.uIcc 0 (place v) := by
  have rounds := rounds_mul hv hj
  have mem : place (v * j) ∈ Set.uIcc (place 0) (place v) :=
    rounds.mem_uIcc rfl hv (by rw [place_zero]; exact mul_mem_uIcc nonneg le)
  rw [place_zero] at mem
  exact ⟨isFinite_of_abs_le rounds.number hv (abs_le_of_mem_uIcc mem), mem⟩

/-- The double of a spread. -/
theorem rounds_width (ht : t.isFinite = true) : Rounds (t - -t) (place t + place t) := by
  have opposite : (- -t).isFinite = true := by
    rw [isFinite_iff, isNaN_neg, isNaN_neg, isInf_neg, isInf_neg]
    exact isFinite_iff.mp ht
  have rounds := rounds_add ht opposite
  rw [place_neg, place_neg, neg_neg] at rounds
  rw [float_sub_eq]
  exact rounds

theorem place_width (ht : t.isFinite = true) (hw : (t - -t).isInf = false) :
    place (t - -t) = place t + place t := by
  have rounds := rounds_width ht
  have size := abs_place_lt (isFinite_iff.mpr ⟨rounds.number, hw⟩)
  rw [rounds.place_eq, rounded_double ht] at size ⊢
  exact bounded_eq_self size

theorem isFinite_neg (ht : t.isFinite = true) : (-t).isFinite = true := by
  rw [isFinite_iff, isNaN_neg, isInf_neg]
  exact isFinite_iff.mp ht

/-- What chance makes of a spread whose double is finite. -/
theorem between_spread (ht : t.isFinite = true) (hw : (t - -t).isInf = false) (hf : IsDraw f) :
    (Policy.between (-t) t f).isFinite = true ∧ |place (Policy.between (-t) t f)| ≤ |place t| ∧
      (place f ≤ 1 / 2 → 0 ≤ place t → place (Policy.between (-t) t f) ≤ 0) := by
  have finite := isFinite_iff.mpr ⟨(rounds_width ht).number, hw⟩
  have product := rounds_mul finite hf.isFinite
  obtain ⟨finiteProduct, mem⟩ := mul_between finite hf.isFinite hf.place_nonneg hf.place_lt.le
  have sum := rounds_add (isFinite_neg ht) finiteProduct
  rw [place_width ht hw] at mem product
  rw [place_neg] at sum
  have within : |place (-t + (t - -t) * f)| ≤ |place t| := by
    have mem' : place (-t + (t - -t) * f) ∈ Set.uIcc (place (-t)) (place t) := by
      refine sum.mem_uIcc (isFinite_neg ht) ht ?_
      rw [place_neg, Set.mem_uIcc]
      refine (Set.mem_uIcc.mp mem).imp ?_ ?_
      · rintro ⟨low, high⟩
        constructor <;> linarith
      · rintro ⟨low, high⟩
        constructor <;> linarith
    rw [place_neg] at mem'
    rcases Set.mem_uIcc.mp mem' with ⟨low, high⟩ | ⟨low, high⟩
    · exact abs_le_abs high (by linarith)
    · exact (abs_le_abs high (neg_le_neg low)).trans_eq (abs_neg _)
  refine ⟨isFinite_of_abs_le sum.number ht within, within, fun half nonneg => ?_⟩
  have half' : place ((t - -t) * f) ≤ place t := by
    refine product.le ht ?_
    calc (place t + place t) * place f ≤ (place t + place t) * (1 / 2) :=
          mul_le_mul_of_nonneg_left half (by linarith)
      _ = place t := by ring
  have := sum.le (y := 0) rfl (by rw [place_zero]; linarith)
  rwa [place_zero] at this

/-- What chance makes of a spread whose double is infinite, if it makes anything of it. -/
theorem unpack_add_between (hv : v.isFinite = true) (ht : t.isFinite = true)
    (hw : (t - -t).isInf = true) (hf : 0 < place f) :
    (v + Policy.between (-t) t f).toModel.unpack = (t - -t).toModel.unpack := by
  have product := unpack_mul_of_isInf hw hf
  have absorbed {a b : Float} (ha : a.isFinite = true)
      (hb : b.toModel.unpack = (t - -t).toModel.unpack) :
      (a + b).toModel.unpack = (t - -t).toModel.unpack := by
    obtain ⟨number, notInf⟩ := isFinite_iff.mp ha
    have infinite : b.isInf = true := (isInf_congr hb).trans hw
    rw [float_add_comm, unpack_add_of_isInf infinite number (by rw [notInf]; exact nofun), hb]
  exact absorbed hv (absorbed (isFinite_neg ht) product)

theorem isNaN_add_between (hw : (t - -t).isInf = true) (hf : place f = 0) :
    (v + Policy.between (-t) t f).isNaN = true :=
  isNaN_add_of_isNaN (Or.inr (isNaN_add_of_isNaN (Or.inr (isNaN_mul_of_isInf hw hf))))

/-- An infinite delay is no number once chance has a part in it. -/
theorem isNaN_add_of_infinite (hv : v.isInf = true) (hj : 0 < place j) (hf : 0 ≤ place f) :
    (v + Policy.between (-(v * j)) (v * j) f).isNaN = true := by
  have spread : (v * j).toModel.unpack = v.toModel.unpack := unpack_mul_of_isInf hv hj
  generalize v * j = t at spread ⊢
  have ht : t.isInf = true := (isInf_congr spread).trans hv
  have opposite : (- -t).isInf = true := by rwa [isInf_neg, isInf_neg]
  have width : (t - -t).toModel.unpack = t.toModel.unpack := by
    rw [float_sub_eq]
    refine unpack_add_of_isInf ht ?_ fun _ => by rw [place_neg, place_neg, neg_neg]
    rw [isNaN_neg, isNaN_neg, isNaN_of_isInf ht]
  have hw : (t - -t).isInf = true := (isInf_congr width).trans ht
  rcases hf.eq_or_lt with zero | positive
  · exact isNaN_add_between hw zero.symm
  -- The spread added back is taken from an infinity of the other sign.
  have part : ((t - -t) * f).toModel.unpack = t.toModel.unpack :=
    (unpack_mul_of_isInf hw positive).trans width
  refine isNaN_add_of_isNaN (Or.inr (isNaN_add_of_isInf ?_ ((isInf_congr part).trans ht) ?_))
  · rwa [isInf_neg]
  · rw [place_neg, neg_neg]
    exact place_congr part

end Spread

end Rekey.Retry
