import Rekey.TableName
import Mathlib.Data.List.TakeWhile

/-! # Which table names pass

A legal name has three to 255 characters, all of one small alphabet. These names pass, and so do
those with one line break behind such characters, which counts for the length. A name is resolved
once: a candidate that is refused is not replaced by a later one. -/
namespace Rekey.TableName

/-- The characters that the table service allows in names. -/
def alphabet : String := "ABCDEFGHIJKLMNOPQRSTUVWXYZabcdefghijklmnopqrstuvwxyz0123456789_.-"

structure IsLegal (name : String) : Prop where
  long : 3 ≤ name.length
  short : name.length ≤ 255
  allowed : ∀ c ∈ name.toList, c ∈ alphabet.toList

/-- What is asked of a name in fact. -/
structure Passes (name : String) : Prop where
  long : 3 ≤ name.length
  short : name.length ≤ 255
  line : ∃ body : String, (name = body ∨ name = body ++ "\n") ∧
    ∀ c ∈ body.toList, c ∈ alphabet.toList

/-- The first of some candidates that is there and not empty. -/
def Chosen (candidates : List (Option String)) (name : String) : Prop :=
  ∃ before after, candidates = before ++ some name :: after ∧ name ≠ "" ∧
    ∀ candidate ∈ before, candidate = none ∨ candidate = some ""

/-! ## The language -/

theorem allowed_ascii : ∀ n < 128,
    allowed (Char.ofNat n) = true ↔ Char.ofNat n ∈ alphabet.toList := by
  decide +kernel

theorem toNat_lt_of_allowed {c : Char} (h : allowed c = true) : c.toNat < 128 := by
  have upto {d : Char} (le : c ≤ d) (small : d.toNat < 128) : c.toNat < 128 :=
    Nat.lt_of_le_of_lt (UInt32.le_iff_toNat_le.mp (Char.le_def.mp le)) small
  simp only [allowed, Bool.or_eq_true, Bool.and_eq_true, decide_eq_true_eq, beq_iff_eq] at h
  rcases h with ((((⟨-, le⟩ | ⟨-, le⟩) | ⟨-, le⟩) | rfl) | rfl) | rfl
  · exact upto le (by decide)
  · exact upto le (by decide)
  · exact upto le (by decide)
  all_goals decide

theorem allowed_iff (c : Char) : allowed c = true ↔ c ∈ alphabet.toList := by
  by_cases ascii : c.toNat < 128
  · have := allowed_ascii c.toNat ascii
    rwa [Char.ofNat_toNat] at this
  · have small : alphabet.toList.all (·.toNat < 128) = true := by decide +kernel
    refine iff_of_false (fun h => ascii (toNat_lt_of_allowed h)) fun mem => ascii ?_
    simpa using List.all_eq_true.mp small c mem

theorem isAllowedLine_iff {s : List Char} : isAllowedLine s = true ↔
    ∃ body, body ≠ [] ∧ (s = body ∨ s = body ++ ['\n']) ∧ ∀ c ∈ body, allowed c = true := by
  constructor
  · intro h
    have parts : s.takeWhile allowed ++ s.dropWhile allowed = s := List.takeWhile_append_dropWhile
    refine ⟨s.takeWhile allowed, ?_⟩
    unfold isAllowedLine at h
    split at h
    · next nothing =>
      rw [nothing, List.append_nil] at parts
      rw [parts]
      exact ⟨by simpa using h, .inl rfl, fun c mem => List.dropWhile_eq_nil_iff.mp nothing c mem⟩
    · next line_break =>
      rw [line_break] at parts
      refine ⟨?_, .inr parts.symm, fun c mem => List.mem_takeWhile_imp mem⟩
      rintro empty
      rw [empty, List.nil_append] at parts
      simp [← parts] at h
    · cases h
  · rintro ⟨body, nonempty, rfl | rfl, all⟩
    · have nothing : s.dropWhile allowed = [] := List.dropWhile_eq_nil_iff.mpr all
      simp [isAllowedLine, nothing, nonempty]
    · have line_break : (body ++ ['\n']).dropWhile allowed = ['\n'] := by
        rw [List.dropWhile_append_of_pos all]
        decide
      have := List.length_pos_iff.mpr nonempty
      simp only [isAllowedLine, line_break, List.length_append, List.length_singleton,
        decide_eq_true_eq]
      omega

theorem passes_iff_isAllowedLine {name : String} : Passes name ↔
    isAllowedLine name.toList = true ∧ 3 ≤ name.length ∧ name.length ≤ 255 := by
  rw [isAllowedLine_iff]
  constructor
  · rintro ⟨long, short, body, line, all⟩
    refine ⟨⟨body.toList, ?_, ?_, fun c mem => (allowed_iff c).mpr (all c mem)⟩, long, short⟩
    · intro empty
      obtain rfl : body = "" := String.toList_eq_nil_iff.mp empty
      rcases line with rfl | rfl <;> exact absurd long (by decide)
    · rcases line with rfl | rfl
      · exact .inl rfl
      · exact .inr String.toList_append
  · rintro ⟨⟨body, -, line, all⟩, long, short⟩
    refine ⟨long, short, String.ofList body, ?_, ?_⟩
    · rw [← String.toList_inj, ← String.toList_inj, String.toList_append, String.toList_ofList]
      exact line
    · rw [String.toList_ofList]
      exact fun c mem => (allowed_iff c).mp (all c mem)

theorem Passes.no_blank {name : String} (h : Passes name) : ' ' ∉ name.toList := by
  obtain ⟨-, -, body, line, all⟩ := h
  have missing : ' ' ∉ body.toList := fun mem => absurd (all _ mem) (by decide +kernel)
  rcases line with rfl | rfl
  · exact missing
  · rw [String.toList_append, List.mem_append]
    rintro (mem | mem)
    · exact missing mem
    · exact absurd mem (by decide)

/-- None of the four checks refuses a name exactly if it passes. -/
theorem refusal?_eq_none_iff {name : String} : refusal? name = none ↔ Passes name := by
  constructor
  · intro h
    simp only [refusal?] at h
    split at h
    · cases h
    split at h
    · cases h
    split at h
    · cases h
    next line =>
    split at h
    · cases h
    next length =>
    rw [Bool.not_eq_true, Bool.not_eq_false'] at line
    rw [String.length_toList, Bool.or_eq_true, decide_eq_true_eq, decide_eq_true_eq] at length
    exact passes_iff_isAllowedLine.mpr ⟨line, by omega, by omega⟩
  · intro h
    obtain ⟨line, long, short⟩ := passes_iff_isAllowedLine.mp h
    have length : ¬ (name.toList.length < 3 ∨ 255 < name.toList.length) := by
      rw [String.length_toList]
      omega
    have nonempty : name.toList.isEmpty = false := by
      rw [List.isEmpty_eq_false_iff, ← List.length_pos_iff, String.length_toList]
      omega
    simp [refusal?, line, nonempty, h.no_blank, length]

theorem validate_eq_ok_iff {name : String} : validate name = .ok () ↔ Passes name := by
  rw [← refusal?_eq_none_iff, validate]
  cases refusal? name <;> simp

/-- A name that passes is legal but for a line break at its end. -/
theorem isLegal_iff {name : String} : IsLegal name ↔ Passes name ∧ '\n' ∉ name.toList := by
  constructor
  · rintro ⟨long, short, all⟩
    exact ⟨⟨long, short, name, .inl rfl, all⟩, fun mem => absurd (all _ mem) (by decide +kernel)⟩
  · rintro ⟨⟨long, short, body, rfl | rfl, all⟩, unbroken⟩
    · exact ⟨long, short, all⟩
    · exact absurd (by simp) unbroken

/-- A line break at the end of a name is passed over. -/
theorem broken_name_passes : validate "abc\n" = .ok () ∧ ¬ IsLegal "abc\n" :=
  ⟨rfl, fun legal => absurd (legal.allowed '\n' (by decide)) (by decide +kernel)⟩

/-! ## Resolution -/

theorem Chosen.unique {candidates : List (Option String)} {name other : String}
    (h : Chosen candidates name) (h' : Chosen candidates other) : name = other := by
  obtain ⟨before, after, rfl, nonempty, skipped⟩ := h
  obtain ⟨before', after', eq, nonempty', skipped'⟩ := h'
  -- The shorter of the two stretches that are skipped decides; neither can be the shorter one.
  rcases List.append_eq_append_iff.mp eq with ⟨more, rfl, rest⟩ | ⟨more, rfl, rest⟩
  · cases more with
    | nil => exact Option.some.inj (List.cons.inj rest).1
    | cons first more =>
      obtain rfl := (List.cons.inj rest).1
      exact absurd (skipped' (some name) (by simp)) (by simpa using nonempty)
  · cases more with
    | nil => exact (Option.some.inj (List.cons.inj rest).1).symm
    | cons first more =>
      obtain rfl := (List.cons.inj rest).1
      exact absurd (skipped (some other) (by simp)) (by simpa using nonempty')

theorem firstNonempty_chosen {default : String} (nonempty : default ≠ "")
    (candidates : List (Option String)) :
    Chosen (candidates ++ [some default]) (firstNonempty default candidates) := by
  induction candidates with
  | nil => exact ⟨[], [], rfl, nonempty, nofun⟩
  | cons candidate candidates ih =>
    obtain ⟨before, after, eq, chosen, skipped⟩ := ih
    have skip (empty : candidate = none ∨ candidate = some "") :
        Chosen (candidate :: candidates ++ [some default]) (firstNonempty default candidates) :=
      ⟨candidate :: before, after, by rw [List.cons_append, eq, List.cons_append], chosen,
        List.forall_mem_cons.mpr ⟨empty, skipped⟩⟩
    cases candidate with
    | none => exact skip (.inl rfl)
    | some name =>
      by_cases empty : name = ""
      · subst empty
        exact skip (.inr rfl)
      · rw [firstNonempty, if_neg (by simpa using empty)]
        exact ⟨[], _, rfl, empty, nofun⟩

/-- What comes of resolving a name: the chosen candidate, or the failure that names it. -/
structure Resolved (candidates : List (Option String)) (outcome : Except Failure String) :
    Prop where
  exists_chosen : ∃ name, Chosen candidates name
  passing : ∀ name, Chosen candidates name → Passes name → outcome = .ok name
  refused : ∀ name, Chosen candidates name → ¬ Passes name →
    ∃ reason, refusal? name = some reason ∧
      outcome = .error (.invalid "table_name" (.text name) reason)

theorem resolve_resolved {default : String} (nonempty : default ≠ "")
    (explicit environment : Option String) :
    Resolved [explicit, environment, some default] (resolve explicit environment default) := by
  have chosen := firstNonempty_chosen nonempty [explicit, environment]
  refine ⟨⟨_, chosen⟩, fun name other passes => ?_, fun name other fails => ?_⟩ <;>
    obtain rfl := chosen.unique other
  · simp only [resolve, validate, refusal?_eq_none_iff.mpr passes]
    rfl
  · obtain ⟨reason, refused⟩ := Option.ne_none_iff_exists'.mp (mt refusal?_eq_none_iff.mp fails)
    refine ⟨reason, refused, ?_⟩
    simp only [resolve, validate, refused]
    rfl

theorem resolveSource_resolved (explicit : Option String) (env : Environment) :
    Resolved [explicit, env.lookup sourceVariable, some defaultSource]
      (resolveSource explicit env) :=
  resolve_resolved (by decide) explicit _

theorem resolveDestination_resolved (explicit : Option String) (env : Environment) :
    Resolved [explicit, env.lookup destinationVariable, some defaultDestination]
      (resolveDestination explicit env) :=
  resolve_resolved (by decide) explicit _

theorem Resolved.of_ok {candidates : List (Option String)} {outcome : Except Failure String}
    {name : String} (h : Resolved candidates outcome) (ok : outcome = .ok name) :
    Chosen candidates name ∧ Passes name := by
  obtain ⟨other, chosen⟩ := h.exists_chosen
  by_cases passes : Passes other
  · obtain rfl := Except.ok.inj ((h.passing other chosen passes).symm.trans ok)
    exact ⟨chosen, passes⟩
  · obtain ⟨reason, -, refused⟩ := h.refused other chosen passes
    rw [refused] at ok
    cases ok

end Rekey.TableName
