import Mathlib.Order.Bounds.Basic
import FlowDiagram.Proofs.Text.Boundary

/-!
# The boundary that an offset counts as

An offset may lie behind the end of the text or inside a character. `floor` is the boundary that it
counts as: the last one that is not behind the offset (`isGreatest_floor`), which is where the
longest front of the text ends that the offset leaves room for. The position of an offset is that of
its floor (`position_floor`).
-/

namespace FlowDiagram.SourceText

open Text (width)

/-- The longest front of a text that takes no more bytes than there is room for. -/
def fitting : Nat → List Char → List Char
  | _, [] => []
  | room, c :: cs => if c.utf8Size ≤ room then c :: fitting (room - c.utf8Size) cs else []

/-- The last offset between characters that is not behind an offset. -/
def floor (t : SourceText) (offset : Nat) : Nat := width (fitting offset t.chars)

theorem fitting_isPrefix (room : Nat) (cs : List Char) : fitting room cs <+: cs := by
  induction cs generalizing room with
  | nil => exact List.prefix_rfl
  | cons c cs ih =>
    rw [fitting]
    split
    · exact (List.prefix_cons_inj c).mpr (ih _)
    · exact List.nil_prefix

theorem width_fitting_le (room : Nat) (cs : List Char) : width (fitting room cs) ≤ room := by
  induction cs generalizing room with
  | nil => exact Nat.zero_le room
  | cons c cs ih =>
    rw [fitting]
    split
    · next fits =>
      have rest := ih (room - c.utf8Size)
      rw [Text.width_cons]
      omega
    · exact Nat.zero_le room

/-- Every front of a text that there is room for is a front of the longest one. -/
theorem isPrefix_fitting {room : Nat} {front cs : List Char} (h : front <+: cs)
    (fits : width front ≤ room) : front <+: fitting room cs := by
  induction cs generalizing room front with
  | nil =>
    rw [List.prefix_nil.mp h]
    exact List.nil_prefix
  | cons c cs ih =>
    cases front with
    | nil => exact List.nil_prefix
    | cons d front =>
      obtain ⟨rfl, behind⟩ := List.cons_prefix_cons.mp h
      rw [Text.width_cons] at fits
      rw [fitting, if_pos (by omega)]
      exact List.cons_prefix_cons.mpr ⟨rfl, ih behind (by omega)⟩

/-- The floor of an offset is the last boundary that is not behind it or the end of the text. -/
theorem isGreatest_floor (t : SourceText) (offset : Nat) :
    IsGreatest {b | t.IsBoundary b ∧ b ≤ min offset t.size} (t.floor offset) := by
  constructor
  · obtain ⟨back, split⟩ := fitting_isPrefix offset t.chars
    refine ⟨⟨_, back, split.symm, rfl⟩, Nat.le_min.mpr ⟨width_fitting_le _ _, ?_⟩⟩
    exact width_le_of_isPrefix (fitting_isPrefix offset t.chars)
  · rintro b ⟨⟨front, back, split, rfl⟩, fits⟩
    apply width_le_of_isPrefix
    exact isPrefix_fitting ⟨back, split.symm⟩ (Nat.le_trans fits (Nat.min_le_left _ _))

theorem isBoundary_floor (t : SourceText) (offset : Nat) : t.IsBoundary (t.floor offset) :=
  (t.isGreatest_floor offset).1.1

theorem floor_min_size (t : SourceText) (offset : Nat) :
    t.floor (min offset t.size) = t.floor offset := by
  have clamped := t.isGreatest_floor (min offset t.size)
  rw [Nat.min_assoc, Nat.min_self] at clamped
  exact clamped.unique (t.isGreatest_floor offset)

/-- A boundary is its own floor. -/
theorem IsBoundary.floor_eq {t : SourceText} {offset : Nat} (h : t.IsBoundary offset) :
    t.floor offset = offset := by
  apply Nat.le_antisymm (width_fitting_le _ _)
  exact (t.isGreatest_floor offset).2 ⟨h, Nat.le_min.mpr ⟨Nat.le_refl _, h.le_size⟩⟩

/-- An offset inside a character counts as the one before it. -/
theorem floor_succ_of_not_isBoundary {t : SourceText} {offset : Nat}
    (h : ¬ t.IsBoundary (offset + 1)) : t.floor (offset + 1) = t.floor offset := by
  obtain ⟨⟨boundary, inside⟩, last⟩ := t.isGreatest_floor (offset + 1)
  obtain ⟨⟨boundary', inside'⟩, last'⟩ := t.isGreatest_floor offset
  apply Nat.le_antisymm
  · have other : t.floor (offset + 1) ≠ offset + 1 := fun same => h (same ▸ boundary)
    exact last' ⟨boundary, by omega⟩
  · exact last ⟨boundary', by omega⟩

theorem walk_eq_advance (p : Position) (room : Nat) (cs : List Char) :
    walk p room cs = advance p (fitting room cs) := by
  induction cs generalizing p room with
  | nil => rw [walk_nil, fitting, advance, List.foldl_nil]
  | cons c cs ih =>
    rw [fitting]
    split
    · next fits => rw [walk_cons_of_le fits, ih, advance, advance, List.foldl_cons]
    · next full =>
      rw [walk_cons_of_lt (Nat.lt_of_not_le full), advance, List.foldl_nil]

theorem position_eq_advance (t : SourceText) (offset : Nat) :
    t.position offset = advance .origin (fitting offset t.chars) :=
  walk_eq_advance _ _ _

/-- An offset has the position of the boundary that it counts as. -/
theorem position_floor (t : SourceText) (offset : Nat) :
    t.position (t.floor offset) = t.position offset := by
  obtain ⟨back, split⟩ := fitting_isPrefix offset t.chars
  rw [floor, position_width split.symm, position_eq_advance]

end FlowDiagram.SourceText
