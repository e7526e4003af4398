import Rekey.Proofs.Scan.Answers

/-! # What a store is asked

A reader asks for one item after another until it is told that there is none, so that it asks for
what follows its first `n` items once at most. -/
namespace Rekey.Scan

variable {α : Type}

/-- Whether a reader will ask the store again, if nothing stops it. -/
def Reader.asksOn (r : Reader α) : Bool :=
  match r.phase with
  | .reading | .offering (.item ..) => true
  | .offering _ | .finished | .stopped => false

/-- What may have become of a reader: it has what it had, and has not begun again. -/
structure Reader.Onward (r r' : Reader α) : Prop where
  produced_le : r.produced.length ≤ r'.produced.length
  asksOn : r'.asksOn = true → r.asksOn = true

theorem Reader.Onward.refl (r : Reader α) : r.Onward r := ⟨Nat.le_refl _, id⟩

/-- Between `s` and `t` no reader has begun again. -/
def GoesOn (s t : State α) : Prop :=
  ∀ (i : Nat) (r' : Reader α), t.readers[i]? = some r' →
    ∃ r, s.readers[i]? = some r ∧ r.Onward r'

section Steps
variable {s t : State α} {i : Nat} {r r' : Reader α}

theorem GoesOn.of_readers_eq (same : t.readers = s.readers) : GoesOn s t :=
  fun _ r' hr' => ⟨r', same ▸ hr', .refl r'⟩

theorem stop_onward (r : Reader α) : r.Onward r.stop := by
  unfold Reader.stop
  split
  · exact .refl r
  · exact ⟨Nat.le_refl _, nofun⟩

theorem shut_goesOn (s : State α) (status : Status) : GoesOn s (s.shut status) := by
  intro i r' hr'
  obtain ⟨r, hr, rfl⟩ : ∃ r, s.readers[i]? = some r ∧ r.stop = r' := by
    simpa [State.shut] using hr'
  exact ⟨r, hr, stop_onward r⟩

theorem set_goesOn (hr : s.readers[i]? = some r) (onward : r.Onward r')
    (set : t.readers = s.readers.set i r') : GoesOn s t := by
  intro j r'' hr''
  rw [set] at hr''
  rcases State.reader_of_set hr hr'' with ⟨rfl, rfl⟩ | ⟨-, same⟩
  · exact ⟨r, hr, onward⟩
  · exact ⟨r'', same, .refl r''⟩

theorem put_goesOn (s : State α) (i : Nat) : GoesOn s (s.put i) := by
  unfold State.put
  split
  · next r entry hr offered =>
    obtain ⟨r', hr', offering⟩ := State.offered?_eq_some_iff.mp offered
    obtain rfl := Option.some.inj (hr.symm.trans hr')
    have onward : r.Onward
        { r with phase := if entry.isMarker then .finished else .reading } := by
      refine ⟨Nat.le_refl _, fun asks => ?_⟩
      cases entry with
      | item => simp [Reader.asksOn, offering]
      | done | failed => cases asks
    exact set_goesOn hr onward rfl
  · exact .of_readers_eq rfl

theorem take_goesOn (s : State α) : GoesOn s s.take := by
  unfold State.take
  split
  · exact .of_readers_eq rfl
  · exact .of_readers_eq rfl
  · dsimp only
    split
    · exact shut_goesOn _ _
    · exact .of_readers_eq rfl
  · exact shut_goesOn _ _

/-- What a reader is after it was told `answer` behind its first `n` items. -/
inductive Reader.After (n : Nat) (answer : Answer α) (r : Reader α) : Prop where
  | beyond : n < r.produced.length → After n answer r
  | last : n = r.produced.length → r.asksOn = false → (∀ a, answer ≠ .item a) → After n answer r

theorem Reader.After.onward {n : Nat} {answer : Answer α} (h : r.After n answer)
    (onward : r.Onward r') : r'.After n answer := by
  have grown := onward.produced_le
  cases h with
  | beyond more => exact .beyond (Nat.lt_of_lt_of_le more grown)
  | last same silent none =>
    rcases Nat.eq_or_lt_of_le grown with still | more
    · refine .last (same.trans still) ?_ none
      rw [← Bool.not_eq_true] at silent ⊢
      exact mt onward.asksOn silent
    · exact .beyond (same ▸ more)

theorem read_after (hr : s.readers[i]? = some r) (answer : Answer α)
    (hr' : (s.read i answer).readers[i]? = some r') : r'.After r.produced.length answer := by
  unfold State.read at hr'
  simp only [hr] at hr'
  obtain ⟨-, rfl⟩ | ⟨other, -⟩ := State.reader_of_set hr hr'
  · cases answer with
    | item a => exact .beyond (Nat.lt_succ_self _)
    | exhausted => exact .last rfl rfl nofun
    | failed failure =>
      refine .last rfl ?_ nofun
      cases ordinary : failure.isOrdinary <;> simp [Reader.asksOn, Entry.ofAnswer?, ordinary]
  · exact absurd rfl other

theorem read_goesOn (reading : s.isReading i = true) (answer : Answer α) :
    GoesOn s (s.read i answer) := by
  obtain ⟨r, hr, phase⟩ := State.isReading_iff.mp reading
  obtain ⟨r', items, set, produced, -⟩ := read_reader hr answer
  refine set_goesOn hr ⟨?_, fun _ => by simp [Reader.asksOn, phase]⟩ set
  rw [produced, List.length_append]
  exact Nat.le_add_left _ _

theorem next_goesOn {e : Event α} (enabled : s.Enabled e) : GoesOn s (s.next e) := by
  cases e with
  | read i answer => exact read_goesOn enabled.2 answer
  | put i => exact put_goesOn s i
  | take => exact take_goesOn s
  | close => exact shut_goesOn s _

end Steps

/-- As many items as come before an answer that is none. -/
theorem streamOf_length_le {answers : Nat → Answer α} {n bound : Nat}
    (missing : ∀ a, answers bound ≠ .item a) : (streamOf answers n).items.length ≤ bound := by
  induction n generalizing answers bound with
  | zero => exact Nat.zero_le _
  | succ n ih =>
    unfold streamOf
    split
    · next a first =>
      cases bound with
      | zero => exact absurd first (missing a)
      | succ bound => exact Nat.succ_le_succ (ih missing)
    · exact Nat.zero_le _
    · exact Nat.zero_le _

end Rekey.Scan
