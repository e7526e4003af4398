import Rekey.Proofs.Window.Places
import Rekey.Window.Assembly

/-! # Windows are stretches of the stream

Window by window the stream comes out in stretches of one size, of which only the last can be
shorter. A reader that stops early has taken no more items than those of its windows, and a stream
that fails has given all its full windows before. -/
namespace Rekey.Window

variable {α γ : Type} {size : Nat} {held items : List α} {s : Stream α}

/-- How many windows a stream gives. A part that is not full comes out only if the stream ends of
itself. -/
def windowCount (size : Nat) (s : Stream α) : Nat :=
  match s.failure with
  | none => (s.items.length + (size - 1)) / size
  | some _ => s.items.length / size

/-- The window of this number, and how many items have been taken by then. -/
def chunk (size : Nat) (items : List α) (number : Nat) : Yield α :=
  ⟨stretch size items number, min ((number + 1) * size) items.length⟩

def chunks (size : Nat) (items : List α) (count : Nat) : List (Yield α) :=
  (List.range count).map (chunk size items)

/-! ## Gathering -/

theorem push_of_lt {item : α} (room : (item :: held).length < size) :
    push size held item = (none, item :: held) := if_pos room

theorem push_of_ge {item : α} (full : size ≤ (item :: held).length) :
    push size held item = (some (item :: held).reverse, []) := if_neg (Nat.not_lt.mpr full)

theorem stretch_zero_append {window rest : List α} (full : window.length = size) :
    stretch size (window ++ rest) 0 = window := by
  rw [stretch, Nat.zero_mul, List.drop_zero, List.take_left' full]

theorem stretch_succ_append {window rest : List α} (full : window.length = size) (number : Nat) :
    stretch size (window ++ rest) (number + 1) = stretch size rest number := by
  have : (number + 1) * size = window.length + number * size := by rw [full, Nat.succ_mul]; omega
  rw [stretch, stretch, this, List.drop_length_add_append]

/-- The full windows of the items, and the part left over. The part held comes before the items, and
`base` more had been taken before that. -/
theorem gather_eq (short : held.length < size) (base : Nat) :
    gather size held (base + held.length) items =
      ((List.range ((held.reverse ++ items).length / size)).map fun i =>
          ⟨stretch size (held.reverse ++ items) i, base + (i + 1) * size⟩,
        ((held.reverse ++ items).drop ((held.reverse ++ items).length / size * size)).reverse) := by
  induction items generalizing held base with
  | nil =>
    have none_full : held.length / size = 0 := Nat.div_eq_of_lt short
    simp [gather, none_full]
  | cons item rest ih =>
    have shift : held.reverse ++ item :: rest = (item :: held).reverse ++ rest := by simp
    rw [shift]
    by_cases room : (item :: held).length < size
    · rw [gather, push_of_lt room, Nat.add_assoc, ← List.length_cons]
      exact ih room base
    · -- A window is full: it is the first stretch, and the others are those of the rest.
      rw [List.length_cons] at room
      have full : (item :: held).reverse.length = size := by
        rw [List.length_reverse, List.length_cons]
        omega
      have cleared : ([] : List α).length < size := Nat.zero_lt_of_lt short
      have again := ih cleared (base + size)
      have count : ((item :: held).reverse ++ rest).length / size = rest.length / size + 1 := by
        rw [List.length_append, full, Nat.add_div_left _ (Nat.zero_lt_of_lt short)]
      have taken : base + held.length + 1 = base + size + ([] : List α).length := by
        rw [List.length_nil]
        omega
      simp only [gather, push_of_ge (Nat.not_lt.mp room), taken, again]
      rw [count, List.range_succ_eq_map, List.map_cons, List.map_map]
      refine Prod.ext (congrArg₂ _ ?_ (List.map_congr_left fun i _ => ?_)) ?_
      · rw [stretch_zero_append full, Nat.zero_add, Nat.one_mul]
        rfl
      · rw [Function.comp_apply, stretch_succ_append full, List.reverse_nil, List.nil_append,
          Nat.succ_mul (i + 1), Nat.add_assoc, Nat.add_comm size]
      · have : (rest.length / size + 1) * size =
            (item :: held).reverse.length + rest.length / size * size := by
          rw [full, Nat.succ_mul, Nat.add_comm]
        rw [this, List.drop_length_add_append, List.reverse_nil, List.nil_append]

theorem stretch_of_short {number : Nat} (short : items.length ≤ (number + 1) * size) :
    stretch size items number = items.drop (number * size) := by
  rw [Nat.succ_mul] at short
  rw [stretch, List.take_of_length_le]
  rw [List.length_drop]
  omega

theorem chunk_of_full {number : Nat} (full : (number + 1) * size ≤ items.length) :
    chunk size items number = ⟨stretch size items number, (number + 1) * size⟩ := by
  rw [chunk, Nat.min_eq_left full]

theorem chunk_of_short {number : Nat} (short : items.length ≤ (number + 1) * size) :
    chunk size items number = ⟨items.drop (number * size), items.length⟩ := by
  rw [chunk, Nat.min_eq_right short, stretch_of_short short]

theorem chunks_succ (size : Nat) (items : List α) (count : Nat) :
    chunks size items (count + 1) = chunks size items count ++ [chunk size items count] := by
  rw [chunks, List.range_succ, List.map_append]
  rfl

/-- The number of windows of a stream that does not fail, by whether the last one is full. -/
theorem ceil_eq (positive : 0 < size) (n : Nat) :
    (n + (size - 1)) / size = if n % size = 0 then n / size else n / size + 1 := by
  have hn := Nat.div_add_mod n size
  have hlt := Nat.mod_lt n positive
  split
  · next h =>
    refine Nat.div_eq_of_lt_le ?_ ?_
    · rw [Nat.mul_comm]
      omega
    · rw [Nat.succ_mul, Nat.mul_comm]
      omega
  · next h =>
    refine Nat.div_eq_of_lt_le ?_ ?_
    · rw [Nat.succ_mul, Nat.mul_comm]
      omega
    · rw [Nat.succ_mul, Nat.succ_mul, Nat.mul_comm]
      omega

theorem windows_eq (positive : 0 < size) (s : Stream α) :
    windows size s = (chunks size s.items (windowCount size s), s.failure) := by
  have cleared : ([] : List α).length < size := positive
  have gathered : gather size [] 0 s.items = _ := gather_eq cleared 0
  have full : ∀ i, i < s.items.length / size → (i + 1) * size ≤ s.items.length := fun i hi =>
    Nat.le_trans (Nat.mul_le_mul_right size hi) (Nat.div_mul_le_self _ _)
  have complete : (List.range (s.items.length / size)).map (fun i =>
      (⟨stretch size s.items i, 0 + (i + 1) * size⟩ : Yield α)) =
        chunks size s.items (s.items.length / size) := by
    refine List.map_congr_left fun i hi => ?_
    rw [chunk_of_full (full i (List.mem_range.mp hi)), Nat.zero_add]
  rw [List.reverse_nil, List.nil_append, complete] at gathered
  have hn := Nat.div_add_mod s.items.length size
  have hlt := Nat.mod_lt s.items.length positive
  rw [Nat.mul_comm] at hn
  simp only [windows, gathered, windowCount]
  cases s.failure with
  | some failure => rfl
  | none =>
    rw [ceil_eq positive]
    by_cases whole : s.items.length % size = 0
    · have nothing : s.items.drop (s.items.length / size * size) = [] :=
        List.drop_eq_nil_of_le (by omega)
      rw [if_pos whole, nothing]
      rfl
    · have something : s.items.drop (s.items.length / size * size) ≠ [] := by
        rw [← List.length_pos_iff, List.length_drop]
        omega
      rw [if_neg whole, chunks_succ, chunk_of_short (by rw [Nat.succ_mul]; omega)]
      simp [flush, something]

/-! ## Pulling -/

theorem chunks_length (size : Nat) (items : List α) (count : Nat) :
    (chunks size items count).length = count := by
  rw [chunks, List.length_map, List.length_range]

theorem chunks_take {n count : Nat} (h : n ≤ count) :
    (chunks size items count).take n = chunks size items n := by
  rw [chunks, ← List.map_take, List.take_range, Nat.min_eq_left h, chunks]

theorem chunks_joined (size : Nat) (items : List α) (count : Nat) :
    (chunks size items count).flatMap (·.window) = items.take (count * size) := by
  induction count with
  | zero => simp [chunks]
  | succ count ih =>
    rw [chunks_succ, List.flatMap_append, ih, List.flatMap_singleton, Nat.succ_mul, List.take_add]
    rfl

/-- What has been taken when the last of some windows comes out. -/
theorem chunks_taken (size : Nat) (items : List α) (count : Nat) :
    ((chunks size items count).getLast?.map (·.consumed)).getD 0 =
      min (count * size) items.length := by
  cases count with
  | zero => simp [chunks]
  | succ count =>
    rw [chunks_succ, List.getLast?_concat]
    rfl

/-- A reader that asks for more windows than there are sees how the stream ends. -/
theorem pull_beyond {size : Int} (positive : 1 ≤ size) {asked : Option Nat}
    (beyond : ∀ n, asked = some n → windowCount size.toNat s < n) :
    pull size s asked =
      (chunks size.toNat s.items (windowCount size.toNat s), s.failure, s.items.length) := by
  have accepted : checkSize size = .ok size.toNat := if_neg (Int.not_lt.mpr positive)
  simp only [pull, accepted, windows_eq (Int.pos_iff_toNat_pos.mp positive), chunks_length]
  cases asked with
  | none => rfl
  | some n => exact if_neg (Nat.not_le.mpr (beyond n rfl))

/-- One that stops before has taken the items of its windows. -/
theorem pull_within {size : Int} (positive : 1 ≤ size) {n : Nat}
    (within : n ≤ windowCount size.toNat s) :
    pull size s (some n) =
      (chunks size.toNat s.items n, none, min (n * size.toNat) s.items.length) := by
  have accepted : checkSize size = .ok size.toNat := if_neg (Int.not_lt.mpr positive)
  simp only [pull, accepted, windows_eq (Int.pos_iff_toNat_pos.mp positive), chunks_length,
    if_pos within, chunks_take within, chunks_taken]

/-! ## Putting windows into another order -/

/-- What a reader sees whose windows are put into another order. -/
def pullShuffled (reorder : γ → List α → List α × γ) (chance : γ) (size : Int) (s : Stream α)
    (asked : Option Nat) : List (Yield α) × Option Failure × Nat :=
  let (yields, failure, taken) := pull size s asked
  ((shuffled reorder chance yields).1, failure, taken)

/-- A way to compare windows that goes with joining them: that they are the same, or the same but
for the order. -/
structure Likeness (like : List α → List α → Prop) : Prop where
  refl : ∀ window, like window window
  append : ∀ {a b c d}, like a b → like c d → like (a ++ c) (b ++ d)
  length_eq : ∀ {a b}, like a b → a.length = b.length

theorem Likeness.eq : Likeness ((· = ·) : List α → List α → Prop) where
  refl _ := rfl
  append := congrArg₂ _
  length_eq := congrArg _

theorem Likeness.perm : Likeness (List.Perm : List α → List α → Prop) where
  refl := List.Perm.refl
  append := List.Perm.append
  length_eq := List.Perm.length_eq

variable {like : List α → List α → Prop} {reorder : γ → List α → List α × γ}

def Alike (like : List α → List α → Prop) (y y' : Yield α) : Prop :=
  like y.window y'.window ∧ y.consumed = y'.consumed

theorem shuffled_alike (kept : ∀ chance window, like (reorder chance window).1 window) (chance : γ)
    (yields : List (Yield α)) :
    List.Forall₂ (Alike like) (shuffled reorder chance yields).1 yields := by
  induction yields generalizing chance with
  | nil => exact .nil
  | cons y rest ih => exact .cons ⟨kept chance y.window, rfl⟩ (ih _)

/-- Windows may stay as they are. -/
def keep (chance : γ) (window : List α) : List α × γ := (window, chance)

theorem shuffled_keep (chance : γ) (yields : List (Yield α)) :
    (shuffled keep chance yields).1 = yields := by
  induction yields with
  | nil => rfl
  | cons y rest ih => exact congrArg _ ih

theorem pullShuffled_keep (chance : γ) (size : Int) (s : Stream α) (asked : Option Nat) :
    pullShuffled keep chance size s asked = pull size s asked := by
  rw [pullShuffled]
  exact congrArg (·, (pull size s asked).2) (shuffled_keep chance (pull size s asked).1)

theorem joined_alike (likeness : Likeness like) {yields yields' : List (Yield α)}
    (h : List.Forall₂ (Alike like) yields yields') :
    like (yields.flatMap (·.window)) (yields'.flatMap (·.window)) := by
  induction h with
  | nil => exact likeness.refl []
  | cons first _ ih => exact likeness.append first.1 ih

theorem windowCount_le (positive : 0 < size) {i : Nat} (h : i < windowCount size s) :
    i * size < s.items.length := by
  unfold windowCount at h
  cases hf : s.failure with
  | some failure =>
    rw [hf] at h
    have := (Nat.le_div_iff_mul_le positive).mp (Nat.succ_le_of_lt h)
    rw [Nat.succ_mul] at this
    omega
  | none =>
    rw [hf] at h
    have := (Nat.le_div_iff_mul_le positive).mp (Nat.succ_le_of_lt h)
    rw [Nat.succ_mul] at this
    omega

/-- A window is full if another follows, and always if the stream fails in the end. -/
theorem full_of_lt (positive : 0 < size) {i : Nat} (h : i < windowCount size s)
    (more : i + 1 < windowCount size s ∨ s.failure ≠ none) : (i + 1) * size ≤ s.items.length := by
  rcases more with more | failing
  · exact Nat.le_of_lt (windowCount_le positive more)
  · obtain ⟨failure, hf⟩ := Option.ne_none_iff_exists'.mp failing
    rw [windowCount, hf] at h
    exact (Nat.le_div_iff_mul_le positive).mp h

theorem le_windowCount (positive : 0 < size) {count : Nat} (h : count * size ≤ s.items.length) :
    count ≤ windowCount size s := by
  unfold windowCount
  split
  · exact (Nat.le_div_iff_mul_le positive).mpr (Nat.le_add_right_of_le h)
  · exact (Nat.le_div_iff_mul_le positive).mpr h

theorem le_windowCount_mul (positive : 0 < size) (sound : s.failure = none) :
    s.items.length ≤ windowCount size s * size := by
  have hn := Nat.div_add_mod s.items.length size
  have hlt := Nat.mod_lt s.items.length positive
  rw [Nat.mul_comm] at hn
  simp only [windowCount, sound]
  rw [ceil_eq positive]
  split
  · omega
  · rw [Nat.succ_mul]
    omega

/-- What a reader sees that asks for so many windows of a stream, or for all, when windows are to be
`like` the stretches of its items. -/
structure Chunked (like : List α → List α → Prop) (size : Nat) (s : Stream α) (asked : Option Nat)
    (yields : List (Yield α)) (failure : Option Failure) (taken : Nat) : Prop where
  number : yields.length = match asked with
    | none => windowCount size s
    | some n => min n (windowCount size s)
  window : ∀ i y, yields[i]? = some y → like y.window (stretch size s.items i) ∧ y.window ≠ []
  full : ∀ i y, yields[i]? = some y → i + 1 < windowCount size s ∨ s.failure ≠ none →
    y.window.length = size
  consumed : ∀ i y, yields[i]? = some y → y.consumed = i * size + y.window.length
  joined : like (yields.flatMap (·.window)) (s.items.take (yields.length * size))
  whole : s.failure = none → yields.length = windowCount size s →
    like (yields.flatMap (·.window)) s.items
  within : ∀ n, asked = some n → n ≤ windowCount size s →
    failure = none ∧ taken = min (n * size) s.items.length
  beyond : (∀ n, asked = some n → windowCount size s < n) →
    failure = s.failure ∧ taken = s.items.length

theorem Chunked.of_alike (likeness : Likeness like) (positive : 0 < size) {asked : Option Nat}
    {yields : List (Yield α)} {failure : Option Failure} {taken count : Nat}
    (alike : List.Forall₂ (Alike like) yields (chunks size s.items count))
    (number : count = match asked with
      | none => windowCount size s
      | some n => min n (windowCount size s))
    (within : ∀ n, asked = some n → n ≤ windowCount size s →
      failure = none ∧ taken = min (n * size) s.items.length)
    (beyond : (∀ n, asked = some n → windowCount size s < n) →
      failure = s.failure ∧ taken = s.items.length) :
    Chunked like size s asked yields failure taken := by
  have length : yields.length = count := alike.length_eq.trans (chunks_length ..)
  have counted : count ≤ windowCount size s := by
    rw [number]
    split <;> omega
  have joined := joined_alike likeness alike
  rw [chunks_joined] at joined
  have window : ∀ i y, yields[i]? = some y → i < windowCount size s ∧
      like y.window (stretch size s.items i) ∧
      y.consumed = min ((i + 1) * size) s.items.length := by
    intro i y hy
    obtain ⟨hi, rfl⟩ := List.getElem?_eq_some_iff.mp hy
    have same := (List.forall₂_iff_get.mp alike).2 i hi (by rw [chunks_length]; omega)
    simp only [chunks, List.get_eq_getElem, List.getElem_map, List.getElem_range] at same
    exact ⟨by omega, same⟩
  have measured : ∀ i y, yields[i]? = some y →
      y.window.length = min size (s.items.length - i * size) := fun i y hy =>
    (likeness.length_eq (window i y hy).2.1).trans (stretch_length ..)
  refine ⟨length.trans number, ?_, ?_, ?_, length ▸ joined, ?_, within, beyond⟩
  · intro i y hy
    obtain ⟨hi, alike, -⟩ := window i y hy
    refine ⟨alike, List.length_pos_iff.mp ?_⟩
    have := windowCount_le positive hi
    rw [measured i y hy]
    omega
  · intro i y hy more
    have := full_of_lt positive (window i y hy).1 more
    rw [Nat.succ_mul] at this
    rw [measured i y hy]
    omega
  · intro i y hy
    obtain ⟨hi, -, consumed⟩ := window i y hy
    have := windowCount_le positive hi
    rw [consumed, measured i y hy, Nat.succ_mul]
    omega
  · intro sound all
    rw [length] at all
    rwa [all, List.take_of_length_le (le_windowCount_mul positive sound)] at joined

theorem pullShuffled_chunked {size : Int} (positive : 1 ≤ size) (likeness : Likeness like)
    (kept : ∀ chance window, like (reorder chance window).1 window) (chance : γ) (s : Stream α)
    (asked : Option Nat) :
    Chunked like size.toNat s asked (pullShuffled reorder chance size s asked).1
      (pullShuffled reorder chance size s asked).2.1
      (pullShuffled reorder chance size s asked).2.2 := by
  have positive' := Int.pos_iff_toNat_pos.mp positive
  by_cases beyond : ∀ n, asked = some n → windowCount size.toNat s < n
  · rw [pullShuffled, pull_beyond positive beyond]
    refine .of_alike likeness positive' (shuffled_alike kept chance _) ?_ ?_ fun _ => ⟨rfl, rfl⟩
    · cases asked with
      | none => rfl
      | some n => exact (Nat.min_eq_right (Nat.le_of_lt (beyond n rfl))).symm
    · intro n hn within
      exact absurd (beyond n hn) (Nat.not_lt.mpr within)
  · obtain ⟨n, early⟩ := Classical.not_forall.mp beyond
    obtain ⟨rfl, within⟩ := Classical.not_imp.mp early
    replace within := Nat.not_lt.mp within
    rw [pullShuffled, pull_within positive within]
    refine .of_alike likeness positive' (shuffled_alike kept chance _) ?_ ?_ ?_
    · exact (Nat.min_eq_left within).symm
    · rintro _ ⟨⟩ -
      exact ⟨rfl, rfl⟩
    · intro beyond
      exact absurd (beyond n rfl) (Nat.not_lt.mpr within)

end Rekey.Window
