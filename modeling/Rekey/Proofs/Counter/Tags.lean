import Mathlib.Data.List.Nodup
import Mathlib.Data.String.Basic
import Rekey.Counter.Registry

/-! # Tags as maps

Sorting the tags of a counter makes one list of all that say the same, in whatever order they are
given. -/
namespace Rekey.Counter

/-- Strictly in the order of the names, so each name once. -/
def InOrder (tags : List (String × String)) : Prop := tags.Pairwise fun a b => a.1 < b.1

/-- The same value for every name. Of two tags of one name the later counts. -/
def SameTags (a b : List (String × String)) : Prop :=
  ∀ name, a.reverse.lookup name = b.reverse.lookup name

/-! ## Putting a tag in its place -/

theorem mem_insertTag {name value : String} {tags : List (String × String)} {tag : String × String}
    (h : tag ∈ insertTag name value tags) : tag = (name, value) ∨ tag ∈ tags := by
  induction tags with
  | nil => simpa [insertTag] using h
  | cons head rest ih =>
    rw [insertTag] at h
    split_ifs at h with before same
    · simpa using h
    · rcases List.mem_cons.mp h with rfl | mem
      · exact .inl rfl
      · exact .inr (List.mem_cons_of_mem _ mem)
    · rcases List.mem_cons.mp h with rfl | mem
      · exact .inr List.mem_cons_self
      · exact (ih mem).imp_right (List.mem_cons_of_mem _)

theorem InOrder.insertTag {tags : List (String × String)} (h : InOrder tags)
    (name value : String) : InOrder (insertTag name value tags) := by
  induction tags with
  | nil => simp [InOrder, Counter.insertTag]
  | cons head rest ih =>
    obtain ⟨least, ordered⟩ := List.pairwise_cons.mp h
    rw [Counter.insertTag]
    split_ifs with before same
    · refine List.pairwise_cons.mpr ⟨fun tag mem => ?_, h⟩
      rcases List.mem_cons.mp mem with rfl | mem
      · exact before
      · exact before.trans (least tag mem)
    · subst same
      exact List.pairwise_cons.mpr ⟨least, ordered⟩
    · refine List.pairwise_cons.mpr ⟨fun tag mem => ?_, ih ordered⟩
      rcases mem_insertTag mem with rfl | mem
      · exact lt_of_le_of_ne (not_lt.mp before) (Ne.symm same)
      · exact least tag mem

theorem lookup_cons_ite (tag : String × String) (rest : List (String × String)) (k : String) :
    (tag :: rest).lookup k = if k = tag.1 then some tag.2 else rest.lookup k := by
  rw [List.lookup_cons]
  split_ifs with same
  · rw [same, beq_self_eq_true]
  · rw [beq_eq_false_iff_ne.mpr same]

theorem lookup_insertTag (name value : String) (tags : List (String × String)) (k : String) :
    (insertTag name value tags).lookup k = if k = name then some value else tags.lookup k := by
  induction tags with
  | nil => exact lookup_cons_ite _ _ _
  | cons head rest ih =>
    rw [insertTag]
    split_ifs with before same hk hk hk <;> simp_all [lookup_cons_ite]

/-- Where each name is given once, what is looked up is what is listed. -/
theorem mem_iff_lookup {tags : List (String × String)} (distinct : (tags.map (·.1)).Nodup)
    {tag : String × String} : tag ∈ tags ↔ tags.lookup tag.1 = some tag.2 := by
  induction tags with
  | nil => simp
  | cons head rest ih =>
    obtain ⟨fresh, distinct⟩ := List.nodup_cons.mp distinct
    rw [List.mem_cons, lookup_cons_ite]
    split_ifs with same
    · have absent : tag ∉ rest := fun mem => fresh (List.mem_map.mpr ⟨tag, mem, same⟩)
      simp [absent, Prod.ext_iff, same, eq_comm]
    · simp [← ih distinct, Prod.ext_iff, same]

/-! ## Sorted tags -/

theorem sortTags_eq_foldr (tags : List (String × String)) :
    sortTags tags = tags.reverse.foldr (fun tag sorted => insertTag tag.1 tag.2 sorted) [] := by
  rw [sortTags, List.foldl_eq_foldr_reverse]

theorem sortTags_inOrder (tags : List (String × String)) : InOrder (sortTags tags) := by
  rw [sortTags_eq_foldr]
  induction tags.reverse with
  | nil => exact List.Pairwise.nil
  | cons tag rest ih => exact ih.insertTag _ _

theorem lookup_sortTags (tags : List (String × String)) (k : String) :
    (sortTags tags).lookup k = tags.reverse.lookup k := by
  rw [sortTags_eq_foldr]
  induction tags.reverse with
  | nil => rfl
  | cons tag rest ih => rw [List.foldr_cons, lookup_insertTag, ih, lookup_cons_ite]

theorem InOrder.distinct {tags : List (String × String)} (h : InOrder tags) :
    (tags.map (·.1)).Nodup :=
  List.pairwise_map.mpr (h.imp ne_of_lt)

/-- Two lists in order that say the same are one. -/
theorem InOrder.ext {a b : List (String × String)} (ha : InOrder a) (hb : InOrder b)
    (same : ∀ k, a.lookup k = b.lookup k) : a = b :=
  List.Perm.eq_of_pairwise (fun _ _ _ _ less greater => absurd less greater.not_gt) ha hb <|
    (List.perm_ext_iff_of_nodup (ha.distinct.of_map _) (hb.distinct.of_map _)).mpr fun tag => by
      rw [mem_iff_lookup ha.distinct, mem_iff_lookup hb.distinct, same]

theorem sortTags_eq_iff {a b : List (String × String)} :
    sortTags a = sortTags b ↔ SameTags a b := by
  constructor
  · intro same k
    rw [← lookup_sortTags, same, lookup_sortTags]
  · intro same
    exact (sortTags_inOrder a).ext (sortTags_inOrder b) fun k => by
      rw [lookup_sortTags, lookup_sortTags, same k]

/-- The order in which tags of distinct names are given does not matter, and nothing else can be
changed. -/
theorem sameTags_iff_perm {a b : List (String × String)} (ha : (a.map (·.1)).Nodup)
    (hb : (b.map (·.1)).Nodup) : SameTags a b ↔ a.Perm b := by
  have listed {tags : List (String × String)} (h : (tags.map (·.1)).Nodup)
      (tag : String × String) : tag ∈ tags ↔ tags.reverse.lookup tag.1 = some tag.2 := by
    rw [← mem_iff_lookup (by rwa [List.map_reverse, List.nodup_reverse]), List.mem_reverse]
  rw [List.perm_ext_iff_of_nodup (ha.of_map _) (hb.of_map _)]
  constructor
  · intro same tag
    rw [listed ha, listed hb, same]
  · intro same name
    refine Option.ext fun value => ?_
    rw [← listed ha (name, value), ← listed hb (name, value), same]

/-! ## Labels -/

/-- A label stands for a name and a map of tags. -/
theorem Label.of_eq_iff {name name' : String} {tags tags' : List (String × String)} :
    Label.of name tags = .of name' tags' ↔ name = name' ∧ SameTags tags tags' := by
  simp [Label.of, sortTags_eq_iff]

/-- A label is made of any tags but those of the names that are taken. -/
theorem Label.checked_cases (name : String) (tags : List (String × String)) :
    (Label.checked name tags = .ok (.of name tags) ∧ ∀ tag ∈ tags, tag.1 ∉ reservedTags) ∨
    ∃ tag ∈ tags, tag.1 ∈ reservedTags ∧
      Label.checked name tags = .error (.tagReserved tag.1) := by
  unfold Label.checked
  generalize found : tags.find? (fun tag => reservedTags.contains tag.1) = first
  rcases first with _ | tag
  · exact .inl ⟨rfl, by simpa using found⟩
  · exact .inr ⟨tag, List.mem_of_find?_eq_some found, by simpa using List.find?_some found, rfl⟩

end Rekey.Counter
