import Rekey.Config
import Rekey.Proofs.Retry.Delay

/-! # Accepted configurations

A request for a run is accepted exactly if its policy is in range and each of its sizes is a whole
number of at least one. The configuration then says what was requested, and a run can be begun with
it. A request that is refused is refused for its policy, or for a size that is none. -/
namespace Rekey

open Retry (Policy Settings)

section Checks
variable {ε α β : Type} {checked : Except ε α} {rest : α → Except ε β}

theorem bind_eq_ok_iff {result : β} :
    (checked >>= rest) = .ok result ↔ ∃ a, checked = .ok a ∧ rest a = .ok result := by
  cases checked <;> simp [bind, Except.bind]

theorem bind_eq_error_iff {error : ε} : (checked >>= rest) = .error error ↔
    checked = .error error ∨ ∃ a, checked = .ok a ∧ rest a = .error error := by
  cases checked <;> simp [bind, Except.bind]

end Checks

theorem Retry.Settings.toPolicy_eq_ok_iff {s : Settings Float} {p : Policy Float} :
    s.toPolicy = .ok p ↔ p.settings = s ∧ p.Accepted := by
  rw [← accept_eq_ok_iff, toPolicy]
  cases s.accept <;> simp

namespace Config

/-- The sizes of a configuration are at least one; its policy may be any. -/
structure Positive (c : Config) : Prop where
  maxConcurrency : 1 ≤ c.maxConcurrency
  segments : 1 ≤ c.segments
  buffer : 1 ≤ c.buffer
  maxWindows : 1 ≤ c.maxWindows

theorem Accepted.positive {c : Config} (h : c.Accepted) : c.Positive :=
  ⟨h.maxConcurrency, h.segments, h.buffer, h.maxWindows⟩

/-- The request that a configuration is the answer to. -/
def request (c : Config) : Request :=
  ⟨c.dryRun, .int c.maxConcurrency, .int c.segments, .int c.buffer, .int c.maxWindows,
    c.retry.settings⟩

/-- The sizes of a request with the names of their fields, in the order of the checks. -/
def Request.sizes (r : Request) : List (String × Value) :=
  [("max_concurrency", r.maxConcurrency), ("segments", r.segments), ("buffer_size", r.buffer),
    ("max_windows_in_flight", r.maxWindows)]

section Sizes
variable {field : String} {value : Value} {n : Nat} {failure : Failure}

theorem size_eq_ok_iff : size field value = .ok n ↔ value = .int n ∧ 1 ≤ n := by
  cases value with
  | int i =>
    by_cases small : i < 1
    · simp only [size, if_pos small, reduceCtorEq, false_iff, Value.int.injEq]
      omega
    · simp only [size, if_neg small, Except.ok.injEq, Value.int.injEq]
      omega
  | null | bool | real | text | list | map => simp [size]

theorem size_eq_error_iff : size field value = .error failure ↔
    failure = .invalid field value "must be an integer >= 1" ∧ ∀ n : Nat, value = .int n → n < 1 := by
  cases checked : size field value with
  | ok n =>
    obtain ⟨rfl, positive⟩ := size_eq_ok_iff.mp checked
    refine iff_of_false nofun fun refused => ?_
    exact Nat.not_lt.mpr positive (refused.2 n rfl)
  | error failure' =>
    have refusal : failure' = .invalid field value "must be an integer >= 1" := by
      unfold size at checked
      split at checked
      · split at checked <;> cases checked
        rfl
      · cases checked
        rfl
    have none : ∀ n : Nat, value = .int n → n < 1 := by
      refine fun n given => Nat.not_le.mp fun positive => ?_
      rw [size_eq_ok_iff.mpr ⟨given, positive⟩] at checked
      cases checked
    constructor
    · rintro ⟨⟩
      exact ⟨refusal, none⟩
    · rintro ⟨rfl, -⟩
      rw [refusal]

end Sizes

section Requests
variable {r : Request} {c : Config} {failure : Failure}

theorem Request.accept_eq_ok_iff : r.accept = .ok c ↔ c.request = r ∧ c.Accepted := by
  unfold accept
  simp only [bind_eq_ok_iff, Settings.toPolicy_eq_ok_iff, size_eq_ok_iff]
  constructor
  · rintro ⟨retry, ⟨settings, inRange⟩, _, ⟨h₁, p₁⟩, _, ⟨h₂, p₂⟩, _, ⟨h₃, p₃⟩, _, ⟨h₄, p₄⟩, ⟨⟩⟩
    refine ⟨?_, p₁, p₂, p₃, p₄, inRange⟩
    rw [request, settings, ← h₁, ← h₂, ← h₃, ← h₄]
  · rintro ⟨rfl, p₁, p₂, p₃, p₄, inRange⟩
    exact ⟨c.retry, ⟨rfl, inRange⟩, _, ⟨rfl, p₁⟩, _, ⟨rfl, p₂⟩, _, ⟨rfl, p₃⟩, _, ⟨rfl, p₄⟩, rfl⟩

theorem Request.accept_positive (accepted : r.accept = .ok c) : c.Positive :=
  (accept_eq_ok_iff.mp accepted).2.positive

/-- A request is refused for its policy, or with the name of a size and what stands there. -/
theorem Request.refused (refused : r.accept = .error failure) :
    r.retry.toPolicy = .error failure ∨ ∃ entry ∈ r.sizes,
      failure = .invalid entry.1 entry.2 "must be an integer >= 1" ∧
        ∀ n : Nat, entry.2 = .int n → n < 1 := by
  unfold accept at refused
  simp only [bind_eq_error_iff, size_eq_error_iff] at refused
  rcases refused with policy | ⟨_, -, first | ⟨_, -, second | ⟨_, -, third | ⟨_, -, last | done⟩⟩⟩⟩
  · exact .inl policy
  · exact .inr ⟨_, .head _, first⟩
  · exact .inr ⟨_, .tail _ (.head _), second⟩
  · exact .inr ⟨_, .tail _ (.tail _ (.head _)), third⟩
  · exact .inr ⟨_, .tail _ (.tail _ (.tail _ (.head _))), last⟩
  · obtain ⟨_, -, done⟩ := done
    cases done

end Requests

theorem standard_accepted : standard.Accepted :=
  ⟨by decide, by decide, by decide, by decide, by decide +kernel⟩

theorem Request.accept_standard : Request.standard.accept = .ok Config.standard :=
  accept_eq_ok_iff.mpr ⟨rfl, standard_accepted⟩

end Config
end Rekey
