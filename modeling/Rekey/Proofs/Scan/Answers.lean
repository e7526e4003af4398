import Rekey.Proofs.Scan.Flow

/-! # What a store answers

A store is what it answers to each request of a segment's reader. Readers ask in order, and a run
asks a finite number of times, so that each run is one over streams. -/
namespace Rekey.Scan

variable {α : Type}

/-- A scan that raises `cause` after some items. -/
def Raises (answers : Nat → Answer α) (cause : Failure) : Prop :=
  ∃ n, (∀ k < n, ∃ a, answers k = .item a) ∧ answers n = .failed cause

/-- A scan that comes to the item `a`. -/
def Gives (answers : Nat → Answer α) (a : α) : Prop :=
  ∃ n, (∀ k < n, ∃ b, answers k = .item b) ∧ answers n = .item a

/-- What a reader has read is what the store has answered. -/
def Told (answers : Nat → Nat → Answer α) (s : State α) : Prop :=
  ∀ i r, s.readers[i]? = some r → ∀ k a, r.produced.reverse[k]? = some a → answers i k = .item a

/-- The stream of the first `n` answers. -/
def streamOf (answers : Nat → Answer α) : Nat → Stream α
  | 0 => ⟨[], none⟩
  | n + 1 =>
    match answers 0 with
    | .item a =>
      let later := streamOf (fun k => answers (k + 1)) n
      ⟨a :: later.items, later.failure⟩
    | .exhausted => ⟨[], none⟩
    | .failed failure => ⟨[], some failure⟩

section Streams
variable {answers : Nat → Answer α} {n k : Nat}

theorem streamOf_answer (within : k < n) (items : ∀ j < k, ∃ a, answers j = .item a) :
    (streamOf answers n).answer k = answers k := by
  induction n generalizing answers k with
  | zero => omega
  | succ n ih =>
    cases k with
    | zero => cases h : answers 0 <;> simp [streamOf, h, Stream.answer]
    | succ k =>
      obtain ⟨a, ha⟩ := items 0 (Nat.succ_pos k)
      have hlater : (streamOf (fun k => answers (k + 1)) n).answer k = answers (k + 1) :=
        ih (Nat.lt_of_succ_lt_succ within) fun j hj => items (j + 1) (Nat.succ_lt_succ hj)
      rw [← hlater]
      simp [streamOf, ha, Stream.answer]

theorem raises_of_streamOf {cause : Failure} (h : (streamOf answers n).failure = some cause) :
    Raises answers cause := by
  induction n generalizing answers with
  | zero => cases h
  | succ n ih =>
    unfold streamOf at h
    split at h
    · next a ha =>
      obtain ⟨m, items, hm⟩ := ih h
      refine ⟨m + 1, ?_, hm⟩
      rintro (_ | k) hk
      · exact ⟨a, ha⟩
      · exact items k (Nat.lt_of_succ_lt_succ hk)
    · cases h
    · next failure hf =>
      cases h
      exact ⟨0, fun k hk => absurd hk (Nat.not_lt_zero k), hf⟩

theorem streamOf_gives {a : α} (items : ∀ j < k, ∃ b, answers j = .item b)
    (given : answers k = .item a) (within : k < n) : a ∈ (streamOf answers n).items := by
  have hanswer := streamOf_answer within items
  rw [given] at hanswer
  unfold Stream.answer at hanswer
  split at hanswer
  · next hitem => exact Answer.item.inj hanswer ▸ List.mem_of_getElem? hitem
  · cases hanswer
  · cases hanswer

end Streams

section Told
variable {answers : Nat → Nat → Answer α} {s t : State α}

theorem start_told (answers : Nat → Nat → Answer α) (segments capacity : Nat) :
    Told answers (start segments capacity) := by
  intro i r hr k a ha
  obtain ⟨-, rfl⟩ : i < segments ∧ (⟨.reading, []⟩ : Reader α) = r := by
    simpa [start, List.getElem?_replicate] using hr
  cases ha

theorem reader_of_produced (same : t.readers.map (·.produced) = s.readers.map (·.produced))
    {i : Nat} {r : Reader α} (hr : t.readers[i]? = some r) :
    ∃ r', s.readers[i]? = some r' ∧ r'.produced = r.produced := by
  have hget := congrArg (·[i]?) same
  simp only [List.getElem?_map, hr, Option.map_some] at hget
  exact Option.map_eq_some_iff.mp hget.symm

theorem Told.congr (h : Told answers s)
    (same : t.readers.map (·.produced) = s.readers.map (·.produced)) : Told answers t := by
  intro i r hr
  obtain ⟨r', hr', hproduced⟩ := reader_of_produced same hr
  rw [← hproduced]
  exact h i r' hr'

/-- An answer adds one item at most. -/
theorem reader_of_read {i j : Nat} {r : Reader α} {answer : Answer α}
    (hr : (s.read i answer).readers[j]? = some r) :
    ∃ r', s.readers[j]? = some r' ∧ r.produced.length ≤ r'.produced.length + 1 := by
  cases hi : s.readers[i]? with
  | none =>
    rw [show s.read i answer = s by simp [State.read, hi]] at hr
    exact ⟨r, hr, Nat.le_succ _⟩
  | some r' =>
    obtain ⟨r'', items, hreaders, hproduced, hhand⟩ := read_reader hi answer
    have hone := inHand_length r''
    rw [hreaders] at hr
    rcases State.reader_of_set hi hr with ⟨rfl, rfl⟩ | ⟨-, hr⟩
    · refine ⟨r', hi, ?_⟩
      rw [hhand] at hone
      rw [hproduced, List.length_append]
      omega
    · exact ⟨r, hr, Nat.le_succ _⟩

theorem Told.read (h : Told answers s) {i : Nat} {r : Reader α} (hr : s.readers[i]? = some r) :
    Told answers (s.read i (answers i r.produced.length)) := by
  intro j r' hr' k a ha
  unfold State.read at hr'
  simp only [hr] at hr'
  rcases State.reader_of_set hr hr' with ⟨rfl, rfl⟩ | ⟨-, hr'⟩
  · cases hanswer : answers j r.produced.length with
    | item b =>
      rw [hanswer] at ha
      simp only [List.reverse_cons] at ha
      rcases Nat.lt_trichotomy k r.produced.length with hlt | rfl | hgt
      · rw [List.getElem?_append_left (by simpa using hlt)] at ha
        exact h j r hr k a ha
      · rw [List.getElem?_append_right (by simp)] at ha
        simp only [List.length_reverse, Nat.sub_self, List.getElem?_cons_zero,
          Option.some.injEq] at ha
        rw [hanswer, ha]
      · rw [List.getElem?_eq_none (by simp; omega)] at ha
        cases ha
    | exhausted =>
      rw [hanswer] at ha
      exact h j r hr k a ha
    | failed failure =>
      rw [hanswer] at ha
      exact h j r hr k a ha
  · exact h j r' hr' k a ha

/-- All that a reader was told so far were items. -/
theorem Told.items (h : Told answers s) {i : Nat} {r : Reader α} (hr : s.readers[i]? = some r) :
    ∀ k < r.produced.length, ∃ a, answers i k = .item a := by
  intro k hk
  have hlt : k < r.produced.reverse.length := by simpa using hk
  exact ⟨r.produced.reverse[k], h i r hr k _ (List.getElem?_eq_getElem hlt)⟩

theorem Told.gives (h : Told answers s) {a : α} (mem : a ∈ s.produced) :
    ∃ i < s.readers.length, Gives (answers i) a := by
  obtain ⟨r, hr, ha⟩ := List.mem_flatMap.mp mem
  obtain ⟨i, hi, rfl⟩ := List.getElem_of_mem hr
  obtain ⟨k, hk, rfl⟩ := List.getElem_of_mem (List.mem_reverse.mpr ha)
  have hreader := List.getElem?_eq_getElem hi
  have hshort : k < s.readers[i].produced.length := by simpa using hk
  refine ⟨i, hi, k, fun j hj => h.items hreader j (Nat.lt_trans hj hshort), ?_⟩
  exact h i _ hreader k _ (List.getElem?_eq_getElem hk)

end Told

end Rekey.Scan
