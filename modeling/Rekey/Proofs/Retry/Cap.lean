import Rekey.Proofs.Retry.Jitter
import Rekey.Proofs.Retry.Series

/-! # The cap of the delays

The greatest delay of a policy bounds the delay before chance moves it. Chance may carry it above by
the jitter's part of the cap, and no further; in the lower half of the draws it does not. -/
namespace Rekey.Retry
open Decimal

variable {p : Policy Float} {most v d f : Float}

/-- The plain delay is cut at the greatest delay. -/
theorem Policy.plain_le (hmost : p.maxDelay = some most) (number : most.isNaN = false) {retry : ℤ}
    (h : p.plainDelay retry = .ok v) : v.isNaN = true ∨ place v ≤ place most := by
  obtain ⟨factor, -, rfl⟩ := Policy.plainDelay_eq_ok_iff.mp h
  simp only [Policy.capped, hmost]
  split
  · exact Or.inr le_rfl
  · next hle =>
    by_contra both
    obtain ⟨hx, hlt⟩ := not_or.mp both
    exact hle (decide_eq_true (lt_iff.mpr ⟨number, by simpa using hx, not_le.mp hlt⟩))

/-- How far above the greatest delay chance may carry one. -/
structure Policy.Room (p : Policy Float) (most : Float) : Prop where
  number : (most + most * p.jitter).isNaN = false
  spread : Rounds (most * p.jitter) (place most * place p.jitter)
  rounds : Rounds (most + most * p.jitter) (place most + place (most * p.jitter))
  most_le : place most ≤ place (most + most * p.jitter)

theorem Policy.Admits.room (admits : p.Admits) (finite : most.isFinite = true)
    (nonneg : 0 ≤ place most) : p.Room most := by
  obtain ⟨spreadFinite, mem⟩ := mul_between finite admits.jitter admits.jitter_nonneg
    admits.jitter_le
  have spread : 0 ≤ place (most * p.jitter) := by
    rcases Set.mem_uIcc.mp mem with h | h
    · exact h.1
    · exact nonneg.trans h.1
  have rounds := rounds_add finite spreadFinite
  exact ⟨rounds.number, rounds_mul finite admits.jitter, rounds, rounds.ge finite (by linarith)⟩

/-- A moved delay exceeds the greatest one by no more than the jitter's part of that. -/
theorem Policy.Admits.sum_le (admits : p.Admits) (finite : most.isFinite = true)
    (nonneg : 0 ≤ place most) (hv : v.isFinite = true) (le : place v ≤ place most) (hf : IsDraw f)
    (number : (v + Policy.between (-(v * p.jitter)) (v * p.jitter) f).isNaN = false) :
    place (v + Policy.between (-(v * p.jitter)) (v * p.jitter) f) ≤ place (most + most * p.jitter) ∧
      (place f ≤ 1 / 2 → (v + Policy.between (-(v * p.jitter)) (v * p.jitter) f).isInf = false →
        place (v + Policy.between (-(v * p.jitter)) (v * p.jitter) f) ≤ place most) := by
  have room := admits.room finite nonneg
  have spread := rounds_mul hv admits.jitter
  obtain ⟨ht, mem⟩ := mul_between hv admits.jitter admits.jitter_nonneg admits.jitter_le
  have grows : place (v * p.jitter) ≤ place (most * p.jitter) :=
    spread.mono room.spread (mul_le_mul_of_nonneg_right le admits.jitter_nonneg)
  generalize v * p.jitter = t at ht mem grows number ⊢
  by_cases hw : (t - -t).isInf = true
  · rcases hf.place_nonneg.eq_or_lt with zero | positive
    · rw [isNaN_add_between hw zero.symm] at number
      cases number
    · have absorbed := unpack_add_between hv ht hw positive
      have same : place (v + between (-t) t f) = place (t - -t) := place_congr absorbed
      have width := rounds_width ht
      refine ⟨?_, fun _ bounded => ?_⟩
      · rw [same]
        rcases Set.mem_uIcc.mp mem with ⟨low, high⟩ | ⟨low, high⟩
        · exact width.mono room.rounds (by linarith)
        · have := width.le (y := 0) rfl (by rw [place_zero]; linarith)
          rw [place_zero] at this
          exact this.trans (nonneg.trans room.most_le)
      · have infinite : (v + between (-t) t f).isInf = true :=
          (isInf_congr absorbed).trans hw
        rw [bounded] at infinite
        cases infinite
  · rw [Bool.not_eq_true] at hw
    obtain ⟨hx, within, half⟩ := between_spread ht hw hf
    have rounds := rounds_add hv hx
    rcases Set.mem_uIcc.mp mem with ⟨low, high⟩ | ⟨low, high⟩
    · rw [abs_of_nonneg low] at within
      have up := (abs_le.mp within).2
      exact ⟨rounds.mono room.rounds (by linarith),
        fun lower _ => rounds.le finite (by linarith [half lower low])⟩
    · -- Chance does not lift a delay below zero above it.
      rw [abs_of_nonpos high] at within
      have up := (abs_le.mp within).2
      have := rounds.le (y := 0) rfl (by rw [place_zero]; linarith)
      rw [place_zero] at this
      exact ⟨this.trans (nonneg.trans room.most_le), fun _ _ => this.trans nonneg⟩

/-- The delay that a plain delay becomes, where it is a number. -/
theorem Policy.Admits.moved_le (admits : p.Admits) (finite : most.isFinite = true)
    (nonneg : 0 ≤ place most) (le : v.isNaN = true ∨ place v ≤ place most) (hf : IsDraw f)
    (number : (p.moved v f).1.isNaN = false) :
    place (p.moved v f).1 ≤ place (most + most * p.jitter) ∧
      ((p.moved v f).2 = false ∨ place f ≤ 1 / 2 ∧ (p.moved v f).1.isInf = false →
        place (p.moved v f).1 ≤ place most) := by
  have room := admits.room finite nonneg
  unfold Policy.moved at number ⊢
  split at number
  · next jitters =>
    rw [if_pos jitters]
    simp only [isNaN_clamp] at number
    have jitter := ((admits.jitters_iff v).mp jitters).1
    have hnumber : v.isNaN = false := by
      by_contra hnan
      rw [isNaN_add_of_isNaN (Or.inl (by simpa using hnan))] at number
      cases number
    have hfinite : v.isFinite = true := by
      refine isFinite_iff.mpr ⟨hnumber, ?_⟩
      by_contra hinf
      rw [isNaN_add_of_infinite (by simpa using hinf) jitter hf.place_nonneg] at number
      cases number
    obtain ⟨high, low⟩ := admits.sum_le finite nonneg hfinite
      (of_isNaN_or le hnumber) hf number
    rw [place_clamp number]
    refine ⟨max_le (nonneg.trans room.most_le) high, fun halved => max_le nonneg ?_⟩
    obtain ⟨half, bounded⟩ := halved.resolve_left nofun
    by_contra above
    rw [clamp_eq_self (nonneg.trans (not_le.mp above).le)] at bounded
    exact above (low half bounded)
  · next still =>
    rw [if_neg still]
    simp only [isNaN_clamp] at number
    have hle : place (clamp v) ≤ place most := by
      rw [place_clamp number]
      exact max_le nonneg (of_isNaN_or le number)
    exact ⟨hle.trans room.most_le, fun _ => hle⟩

/-- The delays of a policy with a greatest delay. -/
structure Capped (p : Policy Float) (most : Float) : Prop where
  plain : ∀ retry plain, p.plainDelay retry = .ok plain → plain.isNaN = true ∨ plain ≤ most
  moved : ∀ retry fraction delay drew, IsDraw fraction →
    p.delay retry fraction = .ok (delay, drew) →
    delay.isNaN = true ∨ delay ≤ most + most * p.jitter
  lower : ∀ retry fraction delay drew, IsDraw fraction →
    p.delay retry fraction = .ok (delay, drew) →
    drew = false ∨ fraction ≤ 0.5 ∧ delay.isInf = false → delay.isNaN = true ∨ delay ≤ most
  series : ∀ {β σ : Type} (retryable : Failure → Bool) (operation : σ → Except Failure β × σ)
    (sleep : σ → Float → σ) (fraction : ℕ → Float) (world : σ), (∀ i, IsDraw (fraction i)) →
    ∀ delay ∈ (run p retryable operation sleep fraction world).delays,
      delay.isNaN = true ∨ delay ≤ most + most * p.jitter

/-- Chance carries a delay above the greatest one by at most the jitter's part of that. -/
theorem delays_near_cap (accepted : p.Accepted) (hmost : p.maxDelay = some most)
    (finite : most.isFinite = true) : Capped p most := by
  have admits := accepted.admits
  have number := (isFinite_iff.mp finite).1
  have nonneg : 0 ≤ place most := of_isNaN_or (admits.most most hmost) number
  have room := admits.room finite nonneg
  have bound (retry : ℤ) (fraction delay : Float) (drew : Bool) (hf : IsDraw fraction)
      (h : p.delay retry fraction = .ok (delay, drew)) (hd : delay.isNaN = false) :
      place delay ≤ place (most + most * p.jitter) ∧
        (drew = false ∨ place fraction ≤ 1 / 2 ∧ delay.isInf = false →
          place delay ≤ place most) := by
    obtain ⟨plain, hplain, hmoved⟩ := Policy.delay_eq_ok_iff.mp h
    have le := admits.moved_le finite nonneg (Policy.plain_le hmost number hplain) hf
    rw [hmoved] at le
    exact le hd
  have moved (retry : ℤ) (fraction delay : Float) (drew : Bool) (hf : IsDraw fraction)
      (h : p.delay retry fraction = .ok (delay, drew)) :
      delay.isNaN = true ∨ delay ≤ most + most * p.jitter := by
    refine isNaN_or fun hd => ?_
    exact le_iff.mpr ⟨hd, room.number, (bound retry fraction delay drew hf h hd).1⟩
  refine ⟨fun retry plain h => ?_, moved, fun retry fraction delay drew hf h low => ?_, ?_⟩
  · refine isNaN_or fun hd => ?_
    exact le_iff.mpr ⟨hd, number, of_isNaN_or (Policy.plain_le hmost number h) hd⟩
  · refine isNaN_or fun hd => ?_
    refine le_iff.mpr ⟨hd, number, (bound retry fraction delay drew hf h hd).2 ?_⟩
    exact low.imp_right (And.imp_left fun half => by simpa using (le_iff.mp half).2.2)
  · intro β σ retryable operation sleep fraction world hf delay hdelay
    obtain ⟨n, -, -, -, series⟩ := run_series p retryable operation sleep fraction world
    rw [series.delays_eq, List.mem_map] at hdelay
    obtain ⟨i, hi, rfl⟩ := hdelay
    obtain ⟨-, -, hdue, -⟩ := series.pause i (by rw [List.mem_range] at hi; omega)
    rw [Nat.zero_add] at hdue
    exact moved i _ _ _ (hf _) hdue

def tightPolicy : Policy Float := ⟨3, 10, 1, some 2, 0.5⟩

/-- Three quarters of the way through the spread a delay is above the greatest one. -/
theorem delay_above_cap : tightPolicy.Accepted ∧ tightPolicy.maxDelay = some 2 ∧ IsDraw 0.75 ∧
    tightPolicy.delay 0 0.75 = .ok (2.5, true) ∧ ¬ (2.5 : Float) ≤ 2 ∧
    (runOutcomes tightPolicy (fun _ => true)
      (fun n => if n = 0 then .error (.transient "Read timeout" none) else .ok n)
      (fun _ => 0.75)).delays = [2.5] :=
  ⟨by decide +kernel, rfl, by decide +kernel, by rfl, by decide +kernel, by rfl⟩

theorem tight_policy_near_cap : tightPolicy.Accepted ∧ tightPolicy.maxDelay = some 2 ∧
    Float.isFinite 2 = true ∧ Capped tightPolicy 2 :=
  have accepted : tightPolicy.Accepted := by decide +kernel
  ⟨accepted, rfl, by decide +kernel, delays_near_cap accepted rfl (by decide +kernel)⟩

end Rekey.Retry
