import Mathlib.Order.Monotone.Basic
import FlowDiagram.Proofs.Text.Floor

/-!
# Positions in order

Positions are ordered as the offsets they come from. A character leads to a later position, so of
two fronts of a text the longer ends later: among boundaries, `position` is strictly monotone
(`strictMonoOn_position`). Any other offset goes by its floor, so two offsets have one position
exactly if they have one floor.
-/

namespace FlowDiagram

namespace Position

instance : LinearOrder Position where
  le_refl p := .inr ⟨rfl, Nat.le_refl _⟩
  le_trans p q r first second := by
    rw [le_def] at first second ⊢
    omega
  le_antisymm p q first second := by
    obtain ⟨line, column⟩ := p
    obtain ⟨line', column'⟩ := q
    simp only [le_def, mk.injEq] at first second ⊢
    omega
  le_total p q := by
    simp only [le_def]
    omega
  lt_iff_le_not_ge p q := by
    simp only [le_def, lt_def]
    omega
  toDecidableLE := inferInstance

/-- A character leads to a later position. -/
theorem lt_after (p : Position) (c : Char) : p < p.after c := by
  rw [after, lt_def]
  split
  · exact .inl (Nat.lt_succ_self _)
  · exact .inr ⟨rfl, Nat.lt_succ_self _⟩

end Position

namespace SourceText

open Text (width)

theorem le_advance (p : Position) (cs : List Char) : p ≤ advance p cs := by
  induction cs generalizing p with
  | nil => exact le_refl p
  | cons c cs ih => exact le_trans (le_of_lt (p.lt_after c)) (ih _)

/-- Text leads to a later position. -/
theorem lt_advance {cs : List Char} (h : cs ≠ []) (p : Position) : p < advance p cs := by
  cases cs with
  | nil => exact absurd rfl h
  | cons c cs => exact lt_of_lt_of_le (p.lt_after c) (le_advance _ cs)

/-- Of two boundaries the later has the later position. -/
theorem strictMonoOn_position (t : SourceText) : StrictMonoOn t.position {b | t.IsBoundary b} := by
  rintro a ⟨front, back, split, rfl⟩ b ⟨front', back', split', rfl⟩ less
  rw [position_width split, position_width split']
  obtain ⟨more, rfl⟩ : front <+: front' := by
    rcases List.prefix_or_prefix_of_prefix ⟨back, split.symm⟩ ⟨back', split'.symm⟩ with
      shorter | longer
    · exact shorter
    · have notLess := width_le_of_isPrefix longer
      omega
  rw [advance_append]
  apply lt_advance
  rintro rfl
  rw [List.append_nil] at less
  exact Nat.lt_irrefl _ less

theorem monotone_floor (t : SourceText) : Monotone t.floor := by
  intro a b le
  refine (t.isGreatest_floor b).2 ⟨t.isBoundary_floor a, ?_⟩
  have inside := (t.isGreatest_floor a).1.2
  omega

/-- Positions are in the order of the floors of their offsets. -/
theorem position_le_position_iff {t : SourceText} {a b : Nat} :
    t.position a ≤ t.position b ↔ t.floor a ≤ t.floor b := by
  rw [← t.position_floor a, ← t.position_floor b]
  exact t.strictMonoOn_position.le_iff_le (t.isBoundary_floor a) (t.isBoundary_floor b)

theorem position_eq_position_iff {t : SourceText} {a b : Nat} :
    t.position a = t.position b ↔ t.floor a = t.floor b := by
  rw [← t.position_floor a, ← t.position_floor b]
  exact t.strictMonoOn_position.eq_iff_eq (t.isBoundary_floor a) (t.isBoundary_floor b)

/-- Positions that are accepted are in the order of their offsets. -/
theorem lt_iff_of_offset? {t : SourceText} {p q : Position} {a b : Nat}
    (first : t.offset? p = some a) (second : t.offset? q = some b) : p < q ↔ a < b := by
  obtain ⟨boundary, rfl⟩ := position_of_offset? first
  obtain ⟨boundary', rfl⟩ := position_of_offset? second
  exact t.strictMonoOn_position.lt_iff_lt boundary boundary'

/-- Positions are ordered as offsets are. An offset counts as its floor, the last boundary that is
neither behind it nor behind the end of the text. A later offset has no earlier position, and two
offsets have one position just if they have one floor. The line range of a span is in order, and it
contains the position of just those offsets whose floor is between the floors of its ends. Of two
positions that have offsets, the later has the later offset. -/
theorem position_order_exact (t : SourceText) :
    (∀ offset, IsGreatest {b | t.IsBoundary b ∧ b ≤ min offset t.size} (t.floor offset)) ∧
    (∀ a b, a ≤ b → t.position a ≤ t.position b) ∧
    (∀ a b, t.position a = t.position b ↔ t.floor a = t.floor b) ∧
    (∀ (r : Span) (offset : Nat),
      (t.lineRange r).start ≤ (t.lineRange r).stop ∧
      ((t.lineRange r).contains (t.position offset) = true ↔
        t.floor r.start ≤ t.floor offset ∧ t.floor offset ≤ t.floor r.stop)) ∧
    ∀ p q a b, t.offset? p = some a → t.offset? q = some b → p < q → a < b := by
  have monotone (a b : Nat) (le : a ≤ b) : t.position a ≤ t.position b :=
    position_le_position_iff.mpr (t.monotone_floor le)
  refine ⟨t.isGreatest_floor, monotone, ?_, ?_, ?_⟩
  · intro a b
    exact position_eq_position_iff
  · intro r offset
    constructor
    · exact monotone r.start r.stop r.start_le_stop
    · rw [LineRange.contains_iff, lineRange, position_le_position_iff, position_le_position_iff]
  · intro p q a b first second less
    exact (lt_iff_of_offset? first second).mp less

-- Offsets inside a character and behind the end of the text do not count.
example :
    let t := ofString "x\né"
    t.position 3 = t.position 2 ∧ t.position 4 = t.position 9 ∧ t.position 3 < t.position 4 := by
  decide +kernel

end SourceText

end FlowDiagram
