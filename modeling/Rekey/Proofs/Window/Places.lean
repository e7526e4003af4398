import Mathlib.Data.List.Induction
import Mathlib.Data.List.Perm.Basic

/-! # Places in shuffled windows

The items of a stream come out window by window, those of one window in any order. So an item comes
out in the window that it went into, and no further from its place than the window reaches. -/
namespace Rekey.Window

variable {α : Type} {size : Nat} {items out : List α} {windows : List (List α)} {places : List Nat}

/-- The stretch of the items that makes up the window of this number. -/
def stretch (size : Nat) (items : List α) (number : Nat) : List α :=
  (items.drop (number * size)).take size

/-- None of the windows is empty, and each is its stretch of the items in some order. -/
def Cut (size : Nat) (items : List α) (windows : List (List α)) : Prop :=
  ∀ number window, windows[number]? = some window →
    window ≠ [] ∧ window.Perm (stretch size items number)

/-- Where each item that came out stood among the items, when those are all the first ones. -/
structure Placed (size : Nat) (items out : List α) (places : List Nat) : Prop where
  item : out.map some = places.map (items[·]?)
  perm : places.Perm (List.range out.length)
  window : ∀ k p : Nat, places[k]? = some p → k / size = p / size

/-- Where each item that came out stood among the items, when the stream may be cut off. -/
structure Local (size : Nat) (items out : List α) (places : List Nat) : Prop where
  length : places.length = out.length
  item : ∀ k p : Nat, places[k]? = some p → p < items.length ∧ out[k]? = items[p]?
  window : ∀ k p : Nat, places[k]? = some p → k / size = p / size
  near : ∀ k p : Nat, places[k]? = some p → k ≤ p + (size - 1) ∧ p ≤ k + (size - 1)
  once : places.Nodup
  first : ∀ p < out.length / size * size, p ∈ places
  next : ∀ p ∈ places, p < (out.length / size + 1) * size

section Stretch

theorem stretch_append {number : Nat} (h : (number + 1) * size ≤ items.length) (more : List α) :
    stretch size (items ++ more) number = stretch size items number := by
  rw [Nat.succ_mul] at h
  rw [stretch, stretch, List.drop_append_of_le_length (by omega), List.take_append_of_le_length]
  rw [List.length_drop]
  omega

theorem stretch_length (size : Nat) (items : List α) (number : Nat) :
    (stretch size items number).length = min size (items.length - number * size) := by
  rw [stretch, List.length_take, List.length_drop]

theorem stretch_map_some (size : Nat) (items : List α) (number : Nat) :
    (stretch size items number).map some =
      (List.range' (number * size) (stretch size items number).length).map (items[·]?) := by
  refine List.ext_getElem? fun i => ?_
  by_cases hi : i < (stretch size items number).length
  · have hin := hi
    rw [stretch_length] at hin
    rw [List.getElem?_map, List.getElem?_map, List.getElem?_range' hi, stretch,
      List.getElem?_take_of_lt (by omega), List.getElem?_drop, Nat.one_mul,
      Option.map_some, List.getElem?_eq_getElem (by omega), Option.map_some]
  · rw [List.getElem?_eq_none (by rw [List.length_map]; omega),
      List.getElem?_eq_none (by rw [List.length_map, List.length_range']; omega)]

end Stretch

section Cut

theorem Cut.length_le (h : Cut size items windows) {number : Nat} {window : List α}
    (hw : windows[number]? = some window) : window.length ≤ size := by
  have hlength := (h number window hw).2.length_eq
  rw [stretch_length] at hlength
  omega

/-- Only the last window can be short. -/
theorem Cut.length_eq (h : Cut size items windows) {number : Nat} {window : List α}
    (hw : windows[number]? = some window) (more : number + 1 < windows.length) :
    window.length = size := by
  have hlength := (h number window hw).2.length_eq
  obtain ⟨nonempty, perm⟩ := h (number + 1) _ (List.getElem?_eq_getElem more)
  have hnext := perm.length_eq
  have := List.length_pos_iff.mpr nonempty
  rw [stretch_length] at hlength hnext
  rw [Nat.succ_mul] at hnext
  omega

theorem Cut.of_append {more : List (List α)} (h : Cut size items (windows ++ more)) :
    Cut size items windows := by
  intro number window hw
  refine h number window ?_
  rw [List.getElem?_append_left (List.getElem?_eq_some_iff.mp hw).1]
  exact hw

theorem flatten_length_eq (full : ∀ window ∈ windows, window.length = size) :
    windows.flatten.length = windows.length * size := by
  rw [List.length_flatten, List.map_congr_left full, List.map_const', List.sum_replicate_nat]

theorem Cut.flatten_length {last : List α} (h : Cut size items (windows ++ [last])) :
    windows.flatten.length = windows.length * size := by
  refine flatten_length_eq fun window hw => ?_
  obtain ⟨number, hn, rfl⟩ := List.mem_iff_getElem.mp hw
  have hw : (windows ++ [last])[number]? = some windows[number] := by
    rw [List.getElem?_append_left hn, List.getElem?_eq_getElem hn]
  exact h.length_eq hw (by simpa using hn)

/-- The places of the items of one window. -/
theorem Cut.window_places (h : Cut size items windows) {number : Nat} {window : List α}
    (hw : windows[number]? = some window) :
    ∃ places : List Nat, window.map some = places.map (items[·]?) ∧
      places.Perm (List.range' (number * size) window.length) := by
  obtain ⟨-, perm⟩ := h number window hw
  have hmap := perm.map some
  rw [stretch_map_some, ← perm.length_eq] at hmap
  have hcomp : Relation.Comp (· = List.map (items[·]?) ·) List.Perm (window.map some)
      (List.range' (number * size) window.length) := by
    rw [List.eq_map_comp_perm]
    exact hmap
  obtain ⟨places, hplaces, hperm⟩ := hcomp
  exact ⟨places, hplaces, hperm⟩

theorem Cut.placed (h : Cut size items windows) :
    ∃ places, Placed size items windows.flatten places := by
  -- By induction on the windows from the last one: all windows before it are full.
  induction windows using List.reverseRecOn with
  | nil => exact ⟨[], rfl, .refl _, by simp⟩
  | append_singleton windows last ih =>
    obtain ⟨before, hbefore⟩ := ih h.of_append
    have hlast : (windows ++ [last])[windows.length]? = some last := by simp
    obtain ⟨places, hitem, hperm⟩ := h.window_places hlast
    have hle := h.length_le hlast
    have hfull := h.flatten_length
    have hlength : before.length = windows.length * size := by
      rw [hbefore.perm.length_eq, List.length_range, hfull]
    refine ⟨before ++ places, ?_, ?_, ?_⟩
    · rw [List.flatten_append, List.flatten_singleton, List.map_append, List.map_append,
        hbefore.item, hitem]
    · have hrange : List.range (windows ++ [last]).flatten.length =
          List.range windows.flatten.length ++
            List.range' (windows.length * size) last.length := by
        rw [List.flatten_append, List.flatten_singleton, List.length_append, hfull,
          List.range_eq_range', List.range_eq_range', ← List.range'_append_1, Nat.zero_add]
      rw [hrange]
      exact hbefore.perm.append hperm
    · intro k p hk
      rcases Nat.lt_or_ge k before.length with hlt | hge
      · rw [List.getElem?_append_left hlt] at hk
        exact hbefore.window k p hk
      · rw [List.getElem?_append_right hge] at hk
        obtain ⟨hp, hp'⟩ := List.mem_range'_1.mp (hperm.subset (List.mem_of_getElem? hk))
        have hk' := (List.getElem?_eq_some_iff.mp hk).1
        rw [hperm.length_eq, List.length_range'] at hk'
        rw [Nat.div_eq_of_lt_le (by omega : windows.length * size ≤ k)
          (by rw [Nat.succ_mul]; omega), Nat.div_eq_of_lt_le hp (by rw [Nat.succ_mul]; omega)]

end Cut

theorem near_of_window {k p : Nat} (positive : 0 < size) (h : k / size = p / size) :
    k ≤ p + (size - 1) ∧ p ≤ k + (size - 1) := by
  have hk := Nat.div_add_mod k size
  have hp := Nat.div_add_mod p size
  have := Nat.mod_lt k positive
  have := Nat.mod_lt p positive
  rw [h] at hk
  omega

/-- What has come out at any time. -/
theorem Placed.take (h : Placed size items out places) (positive : 0 < size)
    (inside : out.length ≤ items.length) (n : Nat) :
    Local size items (out.take n) (places.take n) := by
  have hlength : places.length = out.length := by rw [h.perm.length_eq, List.length_range]
  have at_ : ∀ {k p}, (places.take n)[k]? = some p → k < n ∧ places[k]? = some p := by
    intro k p hk
    have hlt : k < n := by
      have := (List.getElem?_eq_some_iff.mp hk).1
      rw [List.length_take] at this
      omega
    rw [List.getElem?_take_of_lt hlt] at hk
    exact ⟨hlt, hk⟩
  have hwindow : ∀ k p : Nat, (places.take n)[k]? = some p → k / size = p / size :=
    fun k p hk => h.window k p (at_ hk).2
  constructor
  · rw [List.length_take, List.length_take, hlength]
  · intro k p hk
    obtain ⟨hlt, hk⟩ := at_ hk
    have hp : p < items.length := by
      have := List.mem_range.mp (h.perm.subset (List.mem_of_getElem? hk))
      omega
    refine ⟨hp, ?_⟩
    have hitem := congrArg (·[k]?) h.item
    simp only [List.getElem?_map, hk, Option.map_some] at hitem
    rw [List.getElem?_take_of_lt hlt]
    rw [List.getElem?_eq_getElem hp] at hitem ⊢
    obtain ⟨a, ha, heq⟩ := Option.map_eq_some_iff.mp hitem
    rw [ha, heq]
  · exact hwindow
  · exact fun k p hk => near_of_window positive (hwindow k p hk)
  · exact (h.perm.nodup_iff.mpr List.nodup_range).sublist (List.take_sublist n places)
  · intro p hp
    rw [List.length_take] at hp
    have hmul := Nat.div_mul_le_self (min n out.length) size
    obtain ⟨k, hk, heq⟩ := List.mem_iff_getElem.mp
      (h.perm.symm.subset (List.mem_range.mpr (by omega : p < out.length)))
    have hsame := h.window k p (by rw [List.getElem?_eq_getElem hk, heq])
    have hlt : k < n := by
      have hdiv : k / size < min n out.length / size := by
        rw [hsame]
        exact Nat.div_lt_of_lt_mul (by rwa [Nat.mul_comm])
      have := (Nat.div_lt_iff_lt_mul positive).mp hdiv
      omega
    exact List.mem_iff_getElem.mpr ⟨k, by rw [List.length_take]; omega, by
      rw [List.getElem_take, heq]⟩
  · intro p hp
    obtain ⟨k, hk⟩ := List.mem_iff_getElem?.mp hp
    have hlt := (List.getElem?_eq_some_iff.mp hk).1
    rw [← Nat.div_lt_iff_lt_mul positive, ← hwindow k p hk, Nat.lt_succ_iff]
    refine Nat.div_le_div_right ?_
    rw [List.length_take] at hlt ⊢
    omega

/-- Among items that are all different, the item itself says where it stood. -/
theorem Local.window_of_nodup (h : Local size items out places) (different : items.Nodup)
    {k p : Nat} {a : α} (hk : out[k]? = some a) (hp : items[p]? = some a) : k / size = p / size := by
  have hlt : k < places.length := by
    rw [h.length]
    exact (List.getElem?_eq_some_iff.mp hk).1
  have hplace := List.getElem?_eq_getElem hlt
  obtain ⟨hin, hsame⟩ := h.item k _ hplace
  rw [hk, ← hp] at hsame
  have := (List.getElem?_inj (List.getElem?_eq_some_iff.mp hp).1 different).mp hsame
  rw [this]
  exact h.window k _ hplace

end Rekey.Window
