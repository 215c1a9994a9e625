import Mathlib.Data.List.Nodup
import FlowDiagram.Palette.Connections

/-!
# Categories in the order of their labels

`sortedByLabel` is the stable sort: it orders categories by label, and categories that share a
label stay as they were. Everything here follows from one equation, which says where one more
category goes: behind those with smaller labels and before all others. In particular, leaving
categories out and sorting may be exchanged.
-/

namespace FlowDiagram.Palette

/-- The second list is the stable sort of the first by label. -/
structure StablySorted (categories sorted : List Category) : Prop where
  perm : sorted.Perm categories
  ordered : sorted.Pairwise fun a b => a.label ≤ b.label
  stable : ∀ label, sorted.filter (·.label = label) = categories.filter (·.label = label)

@[simp] theorem sortedByLabel_nil : sortedByLabel [] = [] := by
  simp [sortedByLabel]

theorem sortedByLabel_perm (categories : List Category) :
    (sortedByLabel categories).Perm categories := List.mergeSort_perm _ _

private theorem label_trans (a b c : Category) (hab : decide (a.label ≤ b.label) = true)
    (hbc : decide (b.label ≤ c.label) = true) : decide (a.label ≤ c.label) = true := by
  rw [decide_eq_true_iff] at *
  exact String.le_trans hab hbc

private theorem label_total (a b : Category) :
    (decide (a.label ≤ b.label) || decide (b.label ≤ a.label)) = true := by
  simpa using String.le_total a.label b.label

theorem pairwise_sortedByLabel (categories : List Category) :
    (sortedByLabel categories).Pairwise fun a b => a.label ≤ b.label := by
  have ordered : (sortedByLabel categories).Pairwise fun a b => decide (a.label ≤ b.label) :=
    List.pairwise_mergeSort label_trans label_total categories
  simpa only [decide_eq_true_iff] using ordered

theorem sortedByLabel_perm_of_perm {categories categories' : List Category}
    (h : categories.Perm categories') :
    (sortedByLabel categories).Perm (sortedByLabel categories') :=
  (sortedByLabel_perm categories).trans (h.trans (sortedByLabel_perm categories').symm)

/-- The sequence of the labels does not depend on the order before. -/
theorem map_label_sortedByLabel {categories categories' : List Category}
    (h : categories.Perm categories') :
    (sortedByLabel categories).map Category.label =
      (sortedByLabel categories').map Category.label := by
  have ordered := List.pairwise_map.mpr (pairwise_sortedByLabel categories)
  have ordered' := List.pairwise_map.mpr (pairwise_sortedByLabel categories')
  exact ((sortedByLabel_perm_of_perm h).map Category.label).eq_of_pairwise
    (fun _ _ _ _ => String.le_antisymm) ordered ordered'

/-- One more category goes between those with smaller labels and all others. -/
theorem sortedByLabel_cons (c : Category) (categories : List Category) :
    ∃ smaller others, sortedByLabel categories = smaller ++ others ∧
      sortedByLabel (c :: categories) = smaller ++ c :: others ∧
      (∀ b ∈ smaller, ¬ c.label ≤ b.label) ∧ ∀ b ∈ others, c.label ≤ b.label := by
  obtain ⟨smaller, others, whole, rest, isSmaller⟩ :=
    List.mergeSort_cons label_trans label_total c categories
  refine ⟨smaller, others, rest, whole, by simpa using isSmaller, ?_⟩
  have ordered := pairwise_sortedByLabel (c :: categories)
  rw [sortedByLabel, whole, List.pairwise_append, List.pairwise_cons] at ordered
  exact ordered.2.1.1

/-- Categories that share a label keep their order. -/
theorem filter_sortedByLabel (label : String) (categories : List Category) :
    (sortedByLabel categories).filter (·.label = label) =
      categories.filter (·.label = label) := by
  induction categories with
  | nil => rw [sortedByLabel_nil]
  | cons c categories ih =>
    obtain ⟨smaller, others, rest, whole, isSmaller, -⟩ := sortedByLabel_cons c categories
    rw [rest, List.filter_append] at ih
    rw [whole, List.filter_append]
    by_cases h : c.label = label
    · have none : smaller.filter (·.label = label) = [] := by
        rw [List.filter_eq_nil_iff]
        intro b member same
        rw [decide_eq_true_iff] at same
        exact isSmaller b member (h.trans same.symm ▸ String.le_refl b.label)
      rw [none, List.nil_append] at ih ⊢
      rw [List.filter_cons_of_pos (by simpa using h), List.filter_cons_of_pos (by simpa using h),
        ih]
    · rw [List.filter_cons_of_neg (by simpa using h), List.filter_cons_of_neg (by simpa using h),
        ih]

theorem stablySorted_sortedByLabel (categories : List Category) :
    StablySorted categories (sortedByLabel categories) :=
  ⟨sortedByLabel_perm categories, pairwise_sortedByLabel categories,
    fun label => filter_sortedByLabel label categories⟩

/-- Categories with different labels are sorted in one way only. -/
theorem StablySorted.eq_of_pairwise_lt {categories sorted ordered : List Category}
    (h : StablySorted categories sorted) (perm : categories.Perm ordered)
    (increasing : ordered.Pairwise fun a b => a.label < b.label) : sorted = ordered := by
  have perm := h.perm.trans perm
  have distinct : (ordered.map Category.label).Nodup := by
    refine List.pairwise_map.mpr (increasing.imp ?_)
    intro a b less same
    rw [same] at less
    exact String.lt_irrefl _ less
  refine perm.eq_of_pairwise ?_ h.ordered (increasing.imp String.lt_asymm)
  intro a b memA memB ab ba
  exact List.inj_on_of_nodup_map distinct (perm.mem_iff.mp memA) memB (String.le_antisymm ab ba)

/-- A list that is split by a property at one point is split so by a filter. -/
private theorem filter_of_split {p : Category → Bool} {others smaller categories : List Category}
    (split : categories = smaller ++ others) (no : ∀ b ∈ smaller, p b = false)
    (yes : ∀ b ∈ others, p b = true) :
    categories.filter p = others ∧ categories.filter (fun b => !p b) = smaller := by
  subst split
  rw [List.filter_append, List.filter_append]
  constructor
  · rw [List.filter_eq_nil_iff.mpr (by simpa using no), List.filter_eq_self.mpr yes,
      List.nil_append]
  · rw [List.filter_eq_self.mpr (by simpa using no), List.filter_eq_nil_iff.mpr (by simpa using yes),
      List.append_nil]

/-- Leaving out categories before sorting is leaving them out after it. -/
theorem sortedByLabel_sublist {fewer categories : List Category} (h : fewer.Sublist categories) :
    (sortedByLabel fewer).Sublist (sortedByLabel categories) := by
  induction h with
  | slnil => exact List.Sublist.refl _
  | @cons _ categories c _ ih =>
    obtain ⟨smaller, others, rest, whole, -, -⟩ := sortedByLabel_cons c categories
    rw [whole]
    rw [rest] at ih
    exact ih.trans ((List.Sublist.refl smaller).append (List.sublist_cons_self c others))
  | @cons_cons fewer categories c _ ih =>
    -- Both sorts put `c` where the labels stop being smaller, so the parts before and behind it
    -- can be told by a filter, and a filter keeps sublists.
    obtain ⟨smaller, others, rest, whole, isSmaller, isOther⟩ := sortedByLabel_cons c categories
    obtain ⟨smaller', others', rest', whole', isSmaller', isOther'⟩ := sortedByLabel_cons c fewer
    have parts := filter_of_split (p := fun b => decide (c.label ≤ b.label)) rest
      (by simpa using isSmaller) (by simpa using isOther)
    have parts' := filter_of_split (p := fun b => decide (c.label ≤ b.label)) rest'
      (by simpa using isSmaller') (by simpa using isOther')
    rw [whole, whole']
    have front := ih.filter fun b => !decide (c.label ≤ b.label)
    have back := ih.filter fun b => decide (c.label ≤ b.label)
    rw [parts.2, parts'.2] at front
    rw [parts.1, parts'.1] at back
    exact front.append (back.cons_cons c)

end FlowDiagram.Palette
