import Mathlib.Data.Nat.Find
import Rekey.Retry.Attempts

/-! # Series of attempts

Whether a failed attempt is the last one is settled by the policy, the number of retries made and the
failure; chance moves the delay only. So the outcomes of the calls fix how many calls there are and
what comes of them. -/
namespace Rekey.Retry

variable {α β : Type} [Duration α] {p : Policy α} {retryable : Failure → Bool}

/-- The failure that a failed attempt ends a series with; none when the series goes on. -/
def Policy.surfaced? (p : Policy α) (retryable : Failure → Bool) (retries : Nat)
    (failure : Failure) : Option Failure :=
  if retryable failure && retries < p.maxRetries then
    match p.plainDelay retries with
    | .ok _ => none
    | .error trouble => some (.because trouble failure)
  else some failure

/-- A policy by which every delay that it may ask for can be computed. -/
def Policy.Computes (p : Policy α) : Prop :=
  ∀ retry < p.maxRetries, ∀ fraction, ∃ delay, p.delay retry fraction = .ok delay

def Policy.GoesOn (p : Policy α) (retryable : Failure → Bool) (retries : Nat) :
    Except Failure β → Prop
  | .ok _ => False
  | .error failure => p.surfaced? retryable retries failure = none

def Policy.conclusion (p : Policy α) (retryable : Failure → Bool) (retries : Nat) :
    Except Failure β → Except Failure β
  | .ok value => .ok value
  | .error failure => .error ((p.surfaced? retryable retries failure).getD failure)

theorem Policy.verdict_surface_iff {retries : Nat} {failure failure' : Failure} {fraction : α} :
    p.verdict retryable retries failure fraction = .surface failure' ↔
      p.surfaced? retryable retries failure = some failure' := by
  unfold Policy.verdict Policy.surfaced? Policy.delay
  split
  · cases p.plainDelay retries with
    | error trouble => simp [Except.map]
    | ok delay => by_cases hj : p.jitters delay <;> simp [Except.map, hj]
  · simp

theorem Policy.verdict_pause {retries : Nat} {failure : Failure} {fraction delay : α} {drew : Bool}
    (h : p.verdict retryable retries failure fraction = .pause delay drew) :
    p.surfaced? retryable retries failure = none := by
  cases hs : p.surfaced? retryable retries failure with
  | none => rfl
  | some failure' => rw [verdict_surface_iff.mpr hs] at h; cases h

theorem Policy.verdict_of_surfaced?_none {retries : Nat} {failure : Failure}
    (h : p.surfaced? retryable retries failure = none) (fraction : α) :
    ∃ delay drew, p.verdict retryable retries failure fraction = .pause delay drew := by
  cases hv : p.verdict retryable retries failure fraction with
  | pause delay drew => exact ⟨delay, drew, rfl⟩
  | surface failure' => rw [verdict_surface_iff.mp hv] at h; cases h

theorem Policy.lt_of_surfaced?_none {retries : Nat} {failure : Failure}
    (h : p.surfaced? retryable retries failure = none) :
    retryable failure = true ∧ retries < p.maxRetries := by
  unfold Policy.surfaced? at h
  split at h
  · next hc => simpa using hc
  · cases h

theorem Policy.goesOn_error_iff {retries : Nat} {failure : Failure} :
    p.GoesOn retryable retries (.error failure : Except Failure β) ↔
      (retryable failure = true ∧ retries < p.maxRetries) ∧
        ∃ plain, p.plainDelay retries = .ok plain := by
  unfold Policy.GoesOn Policy.surfaced?
  by_cases hc : retryable failure = true ∧ retries < p.maxRetries
  · cases hp : p.plainDelay retries <;> simp [hc]
  · have : (retryable failure && decide (retries < p.maxRetries)) = false := by
      rwa [← Bool.not_eq_true, Bool.and_eq_true, decide_eq_true_eq]
    simp [this, hc]

theorem Policy.not_goesOn_of_le {retries : Nat} {outcome : Except Failure β}
    (h : p.maxRetries ≤ retries) : ¬ p.GoesOn retryable retries outcome := by
  intro goesOn
  cases outcome with
  | ok value => exact goesOn
  | error failure => exact Nat.not_lt.mpr h (Policy.lt_of_surfaced?_none goesOn).2

/-- Whether a delay can be computed does not depend on the random fraction. -/
theorem Policy.computes_of_plain (h : ∀ retry < p.maxRetries, (p.plainDelay retry).isOk = true) :
    p.Computes := by
  intro retry hretry fraction
  cases hdelay : p.plainDelay retry with
  | error trouble =>
    have hok := h retry hretry
    rw [hdelay] at hok
    cases hok
  | ok delay =>
    rw [Policy.delay, hdelay]
    exact ⟨_, rfl⟩

/-- Under a policy that computes its delays nothing but the kind of the failure and the number of
retries decides. -/
theorem Policy.Computes.surfaced?_eq (computes : p.Computes) (retries : Nat) (failure : Failure) :
    p.surfaced? retryable retries failure =
      if retryable failure && retries < p.maxRetries then none else some failure := by
  unfold Policy.surfaced?
  split
  · next hc =>
    obtain ⟨-, hlt⟩ : retryable failure = true ∧ retries < p.maxRetries := by simpa using hc
    obtain ⟨delay, hdelay⟩ := computes retries hlt Duration.zero
    unfold Policy.delay at hdelay
    cases hp : p.plainDelay retries with
    | error trouble => rw [hp] at hdelay; cases hdelay
    | ok delay => rfl
  · rfl

section Attempts
variable {σ : Type} {operation : σ → Except Failure β × σ} {sleep : σ → α → σ} {fraction : Nat → α}
  {world : σ} {n : Nat}

/-- Whether a random fraction is drawn for the delay before a retry. -/
def Policy.draws (p : Policy α) (retry : Nat) : Bool := (p.plainDelay retry).toOption.any p.jitters

def Policy.drawsBefore (p : Policy α) (retry : Nat) : Nat := (List.range retry).countP p.draws

/-- The delay before a retry, with the fraction that is next when each is drawn in its turn. -/
def Policy.delayBefore (p : Policy α) (fraction : Nat → α) (retry : Nat) : α :=
  match p.delay retry (fraction (p.drawsBefore retry)) with
  | .ok (delay, _) => delay
  | .error _ => Duration.zero

/-- What attempt number `n` comes to, counted from zero, in the world that the attempts and the
sleeps before it have left. -/
def attempt (p : Policy α) (operation : σ → Except Failure β × σ) (sleep : σ → α → σ)
    (fraction : Nat → α) (world : σ) : Nat → Except Failure β × σ
  | 0 => operation world
  | n + 1 =>
    operation (sleep (attempt p operation sleep fraction world n).2 (p.delayBefore fraction n))

theorem Policy.drawsBefore_succ (p : Policy α) (retry : Nat) :
    p.drawsBefore (retry + 1) = if p.draws retry then p.drawsBefore retry + 1
      else p.drawsBefore retry := by
  rw [drawsBefore, List.range_succ, List.countP_append, List.countP_singleton, drawsBefore]
  split <;> rfl

theorem Policy.draws_of_delay {retry : Nat} {fraction delay : α} {drew : Bool}
    (h : p.delay retry fraction = .ok (delay, drew)) : drew = p.draws retry := by
  unfold Policy.delay at h
  unfold Policy.draws
  cases hp : p.plainDelay retry with
  | error trouble => rw [hp] at h; cases h
  | ok plain =>
    rw [hp] at h
    by_cases hj : p.jitters plain = true
    · simp only [Except.map, hj, if_true, Except.ok.injEq, Prod.mk.injEq] at h
      simp [Except.toOption, hj, ← h.2]
    · simp only [Except.map, hj, Except.ok.injEq] at h
      simp [Except.toOption, hj, ← (Prod.mk.inj h).2]

/-- A failure after which a series goes on is followed by the delay that is due. -/
theorem Policy.verdict_of_goesOn {retries : Nat} {failure : Failure}
    (h : p.surfaced? retryable retries failure = none) (fraction : Nat → α) :
    p.verdict retryable retries failure (fraction (p.drawsBefore retries)) =
        .pause (p.delayBefore fraction retries) (p.draws retries) ∧
      p.delay retries (fraction (p.drawsBefore retries)) =
        .ok (p.delayBefore fraction retries, p.draws retries) := by
  obtain ⟨delay, drew, hv⟩ := verdict_of_surfaced?_none h (fraction (p.drawsBefore retries))
  have hd : p.delay retries (fraction (p.drawsBefore retries)) = .ok (delay, drew) := by
    have hv' := hv
    unfold Policy.verdict at hv'
    split at hv'
    · split at hv'
      · next heq => cases hv'; exact heq
      · cases hv'
    · cases hv'
  have hdelay : p.delayBefore fraction retries = delay := by
    simp only [Policy.delayBefore, hd]
  rw [hv, hd, hdelay, draws_of_delay hd]
  exact ⟨rfl, rfl⟩

/-- The rest of a series whose attempts from number `k` on go on until number `n`, which is the
last. -/
structure Series (p : Policy α) (retryable : Failure → Bool) (fraction : Nat → α)
    (attempt : Nat → Except Failure β × σ) (k n : Nat) (t : Transcript α β σ) : Prop where
  calls : t.calls + k = n + 1
  outcome : t.outcome = p.conclusion retryable n (attempt n).1
  world : t.world = (attempt n).2
  draws : t.draws = p.drawsBefore n
  pauses : t.waits.length + k = n
  pause : ∀ i, k + i < n → ∃ failure, (attempt (k + i)).1 = .error failure ∧
    p.delay (k + i : Nat) (fraction (p.drawsBefore (k + i))) =
      .ok (p.delayBefore fraction (k + i), p.draws (k + i)) ∧
    t.waits[i]? = some ⟨k + i + 2, p.delayBefore fraction (k + i), failure⟩

theorem Series.cons {attempt : Nat → Except Failure β × σ} {k : Nat} {t : Transcript α β σ}
    (h : Series p retryable fraction attempt (k + 1) n t) {failure : Failure}
    (failed : (attempt k).1 = .error failure)
    (goesOn : p.surfaced? retryable k failure = none) :
    Series p retryable fraction attempt k n
      (t.cons ⟨k + 2, p.delayBefore fraction k, failure⟩) := by
  have hcalls := h.calls
  have hpauses := h.pauses
  refine ⟨?_, h.outcome, h.world, h.draws, ?_, ?_⟩
  · simp only [Transcript.cons]
    omega
  · simp only [Transcript.cons, List.length_cons]
    omega
  · intro i hi
    cases i with
    | zero => exact ⟨failure, failed, (Policy.verdict_of_goesOn goesOn fraction).2, rfl⟩
    | succ i =>
      rw [show k + (i + 1) = k + 1 + i by omega]
      exact h.pause i (by omega)

theorem attempts_series (last : ¬ p.GoesOn retryable n
      (attempt p operation sleep fraction world n).1) {k : Nat} (hk : k ≤ n)
    (before : ∀ i, k ≤ i → i < n →
      p.GoesOn retryable i (attempt p operation sleep fraction world i).1)
    {here : σ} (reached : operation here = attempt p operation sleep fraction world k) :
    Series p retryable fraction (attempt p operation sleep fraction world) k n
      (attempts p retryable operation sleep fraction (p.maxRetries - k) k (p.drawsBefore k)
        here) := by
  -- By induction on the calls still to come before the last one.
  rcases Nat.lt_or_eq_of_le hk with hlt | rfl
  · have hgoes := before k (Nat.le_refl _) hlt
    cases ho : (attempt p operation sleep fraction world k).1 with
    | ok value => rw [ho] at hgoes; exact hgoes.elim
    | error failure =>
      rw [ho] at hgoes
      have hmax := (Policy.lt_of_surfaced?_none hgoes).2
      have next : operation (sleep (operation here).2 (p.delayBefore fraction k)) =
          attempt p operation sleep fraction world (k + 1) := by rw [reached, attempt]
      have ih := attempts_series last hlt (fun i hi => before i (by omega)) next
      rw [Policy.drawsBefore_succ] at ih
      have hcons := ih.cons ho hgoes
      rw [← reached] at ho
      rw [show p.maxRetries - k = (p.maxRetries - (k + 1)) + 1 by omega, attempts]
      simp only [ho, (Policy.verdict_of_goesOn hgoes fraction).1]
      exact hcons
  · rw [← reached] at last
    have hconclusion : attempts p retryable operation sleep fraction (p.maxRetries - k) k
        (p.drawsBefore k) here =
        ⟨p.conclusion retryable k (operation here).1, 1, [], p.drawsBefore k,
          (operation here).2⟩ := by
      unfold attempts
      cases ho : (operation here).1 with
      | ok value => simp only [Policy.conclusion]
      | error failure =>
        rw [ho] at last
        obtain ⟨failure', hs⟩ := Option.ne_none_iff_exists'.mp last
        have hv : p.verdict retryable k failure (fraction (p.drawsBefore k)) =
            .surface failure' := Policy.verdict_surface_iff.mpr hs
        simp only [hv, Policy.conclusion, hs, Option.getD_some]
    rw [hconclusion, reached]
    exact ⟨Nat.add_comm 1 k, rfl, rfl, rfl, Nat.zero_add k, fun i hi => by omega⟩
termination_by n - k

/-- Every series ends, at the latest when the retries are used up. -/
theorem run_series (p : Policy α) (retryable : Failure → Bool) (operation : σ → Except Failure β × σ)
    (sleep : σ → α → σ) (fraction : Nat → α) (world : σ) :
    ∃ n ≤ p.maxRetries,
      (∀ i < n, p.GoesOn retryable i (attempt p operation sleep fraction world i).1) ∧
      ¬ p.GoesOn retryable n (attempt p operation sleep fraction world n).1 ∧
      Series p retryable fraction (attempt p operation sleep fraction world) 0 n
        (run p retryable operation sleep fraction world) := by
  classical
  have stops : ∃ n, ¬ p.GoesOn retryable n (attempt p operation sleep fraction world n).1 :=
    ⟨p.maxRetries, Policy.not_goesOn_of_le (Nat.le_refl _)⟩
  have before : ∀ i < Nat.find stops,
      p.GoesOn retryable i (attempt p operation sleep fraction world i).1 :=
    fun i hi => not_not.mp (Nat.find_min stops hi)
  refine ⟨Nat.find stops, Nat.find_min' stops (Policy.not_goesOn_of_le (Nat.le_refl _)), before,
    Nat.find_spec stops, ?_⟩
  exact attempts_series (Nat.find_spec stops) (Nat.zero_le _) (fun i _ hi => before i hi) rfl

/-- The delays of a series are those that are due. -/
theorem Series.delays_eq {attempt : Nat → Except Failure β × σ} {t : Transcript α β σ}
    (h : Series p retryable fraction attempt 0 n t) :
    t.delays = (List.range n).map (p.delayBefore fraction) := by
  have length : t.waits.length = n := h.pauses
  refine List.ext_getElem? fun i => ?_
  rcases Nat.lt_or_ge i n with hi | hi
  · obtain ⟨failure, -, -, hw⟩ := h.pause i (by omega)
    rw [Nat.zero_add] at hw
    simp [Transcript.delays, hw, hi]
  · simp [Transcript.delays, hi, length]

theorem attempt_counted (p : Policy α) (outcome : Nat → Except Failure β) (fraction : Nat → α)
    (n : Nat) :
    attempt p (fun m => (outcome m, m + 1)) (fun m _ => m) fraction 0 n = (outcome n, n + 1) := by
  induction n with
  | zero => rfl
  | succ n ih => rw [attempt, ih]

variable {outcome : Nat → Except Failure β}

/-- A series ends with its first outcome after which it does not go on. -/
theorem runOutcomes_of_goesOn (before : ∀ i < n, p.GoesOn retryable i (outcome i))
    (last : ¬ p.GoesOn retryable n (outcome n)) (fraction : Nat → α) :
    (runOutcomes p retryable outcome fraction).calls = n + 1 ∧
      (runOutcomes p retryable outcome fraction).outcome =
        p.conclusion retryable n (outcome n) := by
  have series : Series p retryable fraction
      (attempt p (fun m => (outcome m, m + 1)) (fun m _ => m) fraction 0) 0 n
      (runOutcomes p retryable outcome fraction) :=
    attempts_series (by rwa [attempt_counted]) (Nat.zero_le n)
      (fun i _ hi => by rw [attempt_counted]; exact before i hi) rfl
  have houtcome := series.outcome
  rw [attempt_counted] at houtcome
  exact ⟨series.calls, houtcome⟩

def MayPass (retryable : Failure → Bool) (outcome : Except Failure β) : Prop :=
  ∃ failure, outcome = .error failure ∧ retryable failure = true

theorem Policy.GoesOn.mayPass {retries : Nat} {outcome : Except Failure β}
    (h : p.GoesOn retryable retries outcome) : MayPass retryable outcome := by
  cases outcome with
  | ok value => exact h.elim
  | error failure => exact ⟨failure, rfl, (Policy.lt_of_surfaced?_none h).1⟩

/-- A series ends with its last outcome, or with the trouble that the next delay gave. -/
theorem Policy.conclusion_of_last {retries : Nat} {outcome : Except Failure β}
    (last : ¬ p.GoesOn retryable retries outcome) :
    p.conclusion retryable retries outcome = outcome ∧
        ¬ (MayPass retryable outcome ∧ retries < p.maxRetries) ∨
      ∃ failure trouble, outcome = .error failure ∧ retryable failure = true ∧
        retries < p.maxRetries ∧ p.plainDelay retries = .error trouble ∧
        p.conclusion retryable retries outcome = .error (.because trouble failure) := by
  cases outcome with
  | ok value => exact Or.inl ⟨rfl, fun passes => by obtain ⟨⟨_, h, -⟩, -⟩ := passes; cases h⟩
  | error failure =>
    rw [Policy.GoesOn] at last
    by_cases hc : retryable failure = true ∧ retries < p.maxRetries
    · cases hp : p.plainDelay retries with
      | ok plain => exact absurd (by simp [Policy.surfaced?, hc, hp]) last
      | error trouble =>
        refine Or.inr ⟨failure, trouble, rfl, hc.1, hc.2, rfl, ?_⟩
        simp [Policy.conclusion, Policy.surfaced?, hc, hp]
    · refine Or.inl ⟨?_, ?_⟩
      · have : (retryable failure && decide (retries < p.maxRetries)) = false := by
          rwa [← Bool.not_eq_true, Bool.and_eq_true, decide_eq_true_eq]
        simp [Policy.conclusion, Policy.surfaced?, this]
      · rintro ⟨⟨failure', h, passes⟩, hlt⟩
        cases h
        exact hc ⟨passes, hlt⟩

theorem Policy.Computes.goesOn_iff (computes : p.Computes) {retries : Nat}
    {outcome : Except Failure β} : p.GoesOn retryable retries outcome ↔
      MayPass retryable outcome ∧ retries < p.maxRetries := by
  cases outcome with
  | ok value => simp [Policy.GoesOn, MayPass]
  | error failure => simp [Policy.GoesOn, MayPass, computes.surfaced?_eq]

/-- A series of failures that may all pass ends with the first delay that cannot be computed. -/
theorem runOutcomes_of_trouble {failure trouble : Failure} (passes : retryable failure = true)
    (before : ∀ i < n, ∃ plain, p.plainDelay i = .ok plain)
    (fails : p.plainDelay n = .error trouble) (hn : n < p.maxRetries) (fraction : Nat → α) :
    (runOutcomes p retryable (fun _ => (.error failure : Except Failure β)) fraction).calls =
        n + 1 ∧
      (runOutcomes p retryable (fun _ => (.error failure : Except Failure β)) fraction).outcome =
        .error (.because trouble failure) := by
  have last : ¬ p.GoesOn retryable n (.error failure : Except Failure β) := by
    rw [Policy.goesOn_error_iff, fails]
    rintro ⟨-, plain, h⟩
    cases h
  have earlier : ∀ i < n, p.GoesOn retryable i (.error failure : Except Failure β) := fun i hi =>
    Policy.goesOn_error_iff.mpr ⟨⟨passes, Nat.lt_trans hi hn⟩, before i hi⟩
  obtain ⟨calls, outcome⟩ := @runOutcomes_of_goesOn α β _ p retryable n (fun _ => .error failure)
    earlier last fraction
  refine ⟨calls, outcome.trans ?_⟩
  simp [Policy.conclusion, Policy.surfaced?, passes, hn, fails]

/-- The operation is called until its first outcome that does not pass, if the retries last. -/
theorem runOutcomes_calls (computes : p.Computes) {k : Nat}
    (before : ∀ i < k, MayPass retryable (outcome i))
    (last : k ≤ p.maxRetries → ¬ MayPass retryable (outcome k)) (fraction : Nat → α) :
    (runOutcomes p retryable outcome fraction).calls = min k p.maxRetries + 1 := by
  refine (runOutcomes_of_goesOn (n := min k p.maxRetries) (fun i hi => ?_) ?_ fraction).1
  · exact computes.goesOn_iff.mpr ⟨before i (by omega), by omega⟩
  · rw [computes.goesOn_iff]
    rintro ⟨passes, hlt⟩
    have hmin : min k p.maxRetries = k := by omega
    rw [hmin] at passes
    exact last (by omega) passes

/-- A series goes on while failures may pass, until the retries are used up or a delay cannot be
computed. Then it ends with the last outcome, or with the trouble that the delay gave. -/
theorem run_concludes (p : Policy α) (retryable : Failure → Bool)
    (operation : σ → Except Failure β × σ) (sleep : σ → α → σ) (fraction : Nat → α) (world : σ) :
    ∃ n ≤ p.maxRetries, (run p retryable operation sleep fraction world).calls = n + 1 ∧
      (∀ i < n, MayPass retryable (attempt p operation sleep fraction world i).1) ∧
      ((run p retryable operation sleep fraction world).outcome =
            (attempt p operation sleep fraction world n).1 ∧
          ¬ (MayPass retryable (attempt p operation sleep fraction world n).1 ∧
            n < p.maxRetries) ∨
        ∃ failure trouble, (attempt p operation sleep fraction world n).1 = .error failure ∧
          retryable failure = true ∧ n < p.maxRetries ∧
          (∀ fraction, p.delay n fraction = .error trouble) ∧
          (run p retryable operation sleep fraction world).outcome =
            .error (.because trouble failure)) := by
  obtain ⟨n, hn, before, last, series⟩ := run_series p retryable operation sleep fraction world
  refine ⟨n, hn, series.calls, fun i hi => (before i hi).mayPass, ?_⟩
  rcases Policy.conclusion_of_last last with ⟨own, final⟩ | ⟨failure, trouble, failed, h⟩
  · exact Or.inl ⟨series.outcome.trans own, final⟩
  · obtain ⟨passes, hlt, hplain, concludes⟩ := h
    refine Or.inr ⟨failure, trouble, failed, passes, hlt, fun fraction => ?_,
      series.outcome.trans concludes⟩
    rw [Policy.delay, hplain, Except.map]

end Attempts

end Rekey.Retry
