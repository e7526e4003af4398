import Rekey.Text.Numeral
import Mathlib.Algebra.Ring.Nat
import Mathlib.Tactic.Push

/-! # Whole numbers that are written are read back

A whole number is written if it has at most 4300 digits, and then its numeral is read as the same
number. No number that is read is too long to be written. -/
namespace Rekey.Text

theorem isTooLong_iff {n : Int} : isTooLong n = true ↔ 10 ^ maxDigits ≤ n.natAbs := by
  unfold isTooLong
  rw [decide_eq_true_eq, ← Nat.not_le,
    Nat.length_toDigits_le_iff (by decide) (show 0 < maxDigits by decide), Nat.not_lt]

section Writing

theorem digitValue?_of_isDigit {c : Char} (digit : c.isDigit = true) :
    digitValue? c = some (c.toNat - 48) := by
  obtain ⟨low, high⟩ : 48 ≤ c.toNat ∧ c.toNat ≤ 57 := by
    simpa [Char.isDigit, UInt32.le_iff_toNat_le] using digit
  have first : (decide (48 ≤ c.toNat) && decide (c.toNat < 48 + 10)) = true := by
    rw [Bool.and_eq_true, decide_eq_true_eq, decide_eq_true_eq]
    omega
  exact congrArg (Option.map fun first => c.toNat - first)
    (List.find?_cons_of_pos (p := fun first => first ≤ c.toNat && c.toNat < first + 10) first)

theorem not_isNumeralBlank_of_isDigit {c : Char} (digit : c.isDigit = true) :
    isNumeralBlank c = false := by
  obtain ⟨low, high⟩ : 48 ≤ c.toNat ∧ c.toNat ≤ 57 := by
    simpa [Char.isDigit, UInt32.le_iff_toNat_le] using digit
  have space : c ≠ ' ' := by
    rintro rfl
    revert low
    decide
  simp [isNumeralBlank, isPlainBlank, isWideBlank, space]
  omega

theorem digitRun_of_digits {digits : List Char} (all : ∀ c ∈ digits, c.isDigit = true)
    {afterDigit : Bool} (some_digit : afterDigit = true ∨ digits ≠ []) :
    digitRun afterDigit digits = some (digits.map fun c => c.toNat - 48) := by
  induction digits generalizing afterDigit with
  | nil =>
    obtain rfl := some_digit.resolve_right (fun h => h rfl)
    rfl
  | cons c digits ih =>
    obtain ⟨digit, all⟩ := List.forall_mem_cons.mp all
    have underscore : c ≠ '_' := by
      rintro rfl
      simp at digit
    unfold digitRun
    rw [if_neg underscore, digitValue?_of_isDigit digit]
    dsimp only
    rw [ih all (.inl rfl)]
    rfl

theorem readNatural?_toDigits {n : Nat} (short : (Nat.toDigits 10 n).length ≤ maxDigits) :
    readNatural? (Nat.toDigits 10 n) = some n := by
  have digits : digitRun false (Nat.toDigits 10 n) =
      some ((Nat.toDigits 10 n).map fun c => c.toNat - 48) :=
    digitRun_of_digits (fun _ mem => Nat.isDigit_of_mem_toDigits (by decide) (by decide) mem)
      (.inr Nat.toDigits_ne_nil)
  have value : ofDigits ((Nat.toDigits 10 n).map fun c => c.toNat - 48) = n := by
    rw [ofDigits, List.foldl_map]
    exact Nat.ofDigitChars_ten_toDigits
  unfold readNatural?
  rw [digits]
  dsimp only
  rw [List.length_map, if_pos short, value]

theorem trimNumeral_of_ends {s : List Char} {first last : Char} (head : s.head? = some first)
    (back : s.getLast? = some last) (first_kept : isNumeralBlank first = false)
    (last_kept : isNumeralBlank last = false) : trimNumeral s = s := by
  have dropped : ∀ {s : List Char} {c : Char}, s.head? = some c → isNumeralBlank c = false →
      s.dropWhile isNumeralBlank = s := by
    intro s c head kept
    obtain ⟨rest, rfl⟩ := List.head?_eq_some_iff.mp head
    rw [List.dropWhile_cons_of_neg (by simp [kept])]
  unfold trimNumeral
  rw [dropped head first_kept, dropped (by rw [List.head?_reverse, back]) last_kept,
    List.reverse_reverse]

theorem trimNumeral_of_digits {sign digits : List Char} (all : ∀ c ∈ digits, c.isDigit = true)
    (nonempty : digits ≠ []) (signed : sign = [] ∨ sign = ['-']) :
    trimNumeral (sign ++ digits) = sign ++ digits := by
  obtain ⟨first, rest, rfl⟩ := List.exists_cons_of_ne_nil nonempty
  obtain ⟨last, hlast⟩ : ∃ last, (first :: rest).getLast? = some last :=
    ⟨_, List.getLast?_eq_some_getLast nonempty⟩
  have last_kept := not_isNumeralBlank_of_isDigit (all last (List.mem_of_getLast? hlast))
  rcases signed with rfl | rfl
  · exact trimNumeral_of_ends rfl hlast
      (not_isNumeralBlank_of_isDigit (all first List.mem_cons_self)) last_kept
  · exact trimNumeral_of_ends (show _ = some '-' from rfl) (by rw [List.getLast?_append, hlast]; rfl)
      (by decide) last_kept

theorem readInteger?_toString {n : Int} (short : isTooLong n = false) :
    readInteger? (toString n) = some n := by
  have digits : ∀ c ∈ Nat.toDigits 10 n.natAbs, c.isDigit = true :=
    fun _ mem => Nat.isDigit_of_mem_toDigits (by decide) (by decide) mem
  have length : (Nat.toDigits 10 n.natAbs).length ≤ maxDigits := by
    simpa [isTooLong] using short
  have read := readNatural?_toDigits length
  have trimmed := fun sign => @trimNumeral_of_digits sign _ digits Nat.toDigits_ne_nil
  rw [Int.toString_eq_repr, Int.repr_eq_if]
  by_cases nonneg : 0 ≤ n
  · have abs : n.toNat = n.natAbs := by omega
    have text : trimNumeral (n.toNat.repr).toList = Nat.toDigits 10 n.natAbs := by
      rw [abs, Nat.toList_repr]
      exact trimmed [] (.inl rfl)
    unfold readInteger?
    rw [if_pos nonneg, text]
    -- The first character is a digit, and so neither sign.
    split
    · next heq => exact absurd (digits '-' (by simp [heq])) (by decide)
    · next heq => exact absurd (digits '+' (by simp [heq])) (by decide)
    · rw [read, Option.map_some, Int.ofNat_eq_natCast, Int.natAbs_of_nonneg nonneg]
  · have abs : (-n).toNat = n.natAbs := by omega
    have text : trimNumeral ("-" ++ (-n).toNat.repr).toList = '-' :: Nat.toDigits 10 n.natAbs := by
      rw [abs, String.toList_append, Nat.toList_repr]
      exact trimmed ['-'] (.inr rfl)
    unfold readInteger?
    rw [if_neg nonneg, text]
    show (readNatural? (Nat.toDigits 10 n.natAbs)).map (fun (n : Nat) => -(n : Int)) = some n
    rw [read, Option.map_some, Int.ofNat_natAbs_of_nonpos (by omega), Int.neg_neg]

end Writing

section Reading

theorem digitValue?_le {c : Char} {d : Nat} (value : digitValue? c = some d) : d ≤ 9 := by
  obtain ⟨first, found, rfl⟩ := Option.map_eq_some_iff.mp value
  have range := List.find?_some found
  rw [Bool.and_eq_true, decide_eq_true_eq, decide_eq_true_eq] at range
  omega

theorem digitRun_le {s : List Char} {afterDigit : Bool} {digits : List Nat}
    (run : digitRun afterDigit s = some digits) : ∀ d ∈ digits, d ≤ 9 := by
  induction s generalizing afterDigit digits with
  | nil =>
    simp only [digitRun] at run
    split at run
    · cases run
      simp
    · cases run
  | cons c s ih =>
    simp only [digitRun] at run
    split at run
    · split at run
      · exact ih run
      · cases run
    · split at run
      · next d value =>
        obtain ⟨rest, hrest, rfl⟩ := Option.map_eq_some_iff.mp run
        exact List.forall_mem_cons.mpr ⟨digitValue?_le value, ih hrest⟩
      · cases run

theorem ofDigits_lt {digits : List Nat} (small : ∀ d ∈ digits, d ≤ 9) :
    ofDigits digits < 10 ^ digits.length := by
  suffices bound : ∀ n, digits.foldl (fun n d => 10 * n + d) n < (n + 1) * 10 ^ digits.length by
    simpa [ofDigits] using bound 0
  induction digits with
  | nil => simp
  | cons d digits ih =>
    obtain ⟨hd, small⟩ := List.forall_mem_cons.mp small
    intro n
    calc (d :: digits).foldl (fun n d => 10 * n + d) n
      _ < (10 * n + d + 1) * 10 ^ digits.length := ih small _
      _ ≤ (n + 1) * 10 * 10 ^ digits.length := Nat.mul_le_mul_right _ (by omega)
      _ = (n + 1) * 10 ^ (d :: digits).length := by
        rw [List.length_cons, Nat.pow_succ', Nat.mul_assoc]

theorem readNatural?_lt {s : List Char} {n : Nat} (read : readNatural? s = some n) :
    n < 10 ^ maxDigits := by
  unfold readNatural? at read
  split at read
  · next digits run =>
    split at read
    · next short =>
      cases read
      exact Nat.lt_of_lt_of_le (ofDigits_lt (digitRun_le run)) (Nat.pow_le_pow_right (by decide) short)
    · cases read
  · cases read

theorem isTooLong_of_readInteger? {s : String} {n : Int} (read : readInteger? s = some n) :
    isTooLong n = false := by
  rw [Bool.eq_false_iff, ne_eq, isTooLong_iff, Nat.not_le]
  unfold readInteger? at read
  split at read
  all_goals
    obtain ⟨m, hm, rfl⟩ := Option.map_eq_some_iff.mp read
    simpa using readNatural?_lt hm

end Reading

end Rekey.Text
