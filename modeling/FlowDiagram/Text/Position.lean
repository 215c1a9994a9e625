/-!
# Positions and line ranges

A `Position` is a line and a column, both counted from zero; columns count characters.
Positions are ordered by line first. A `LineRange` is two positions, and a range whose end
comes before its start is allowed: it contains nothing.
-/

namespace FlowDiagram

/-- A line and a column, both counted from zero. -/
structure Position where
  line : Nat
  column : Nat
  deriving DecidableEq

namespace Position

def origin : Position := ⟨0, 0⟩

/-- The position behind a character that stands at `p`. -/
def after (p : Position) (c : Char) : Position :=
  if c = '\n' then ⟨p.line + 1, 0⟩ else ⟨p.line, p.column + 1⟩

instance : LE Position where
  le a b := a.line < b.line ∨ a.line = b.line ∧ a.column ≤ b.column

instance : LT Position where
  lt a b := a.line < b.line ∨ a.line = b.line ∧ a.column < b.column

instance (a b : Position) : Decidable (a ≤ b) :=
  inferInstanceAs (Decidable (a.line < b.line ∨ a.line = b.line ∧ a.column ≤ b.column))

instance (a b : Position) : Decidable (a < b) :=
  inferInstanceAs (Decidable (a.line < b.line ∨ a.line = b.line ∧ a.column < b.column))

theorem le_def {a b : Position} :
    a ≤ b ↔ a.line < b.line ∨ a.line = b.line ∧ a.column ≤ b.column := Iff.rfl

theorem lt_def {a b : Position} :
    a < b ↔ a.line < b.line ∨ a.line = b.line ∧ a.column < b.column := Iff.rfl

end Position

/-- A range of positions, its end included. -/
structure LineRange where
  start : Position
  stop : Position
  deriving DecidableEq

/-- Whether a position lies in a range, both ends included. -/
def LineRange.contains (r : LineRange) (p : Position) : Bool :=
  decide (r.start ≤ p) && decide (p ≤ r.stop)

theorem LineRange.contains_iff {r : LineRange} {p : Position} :
    r.contains p = true ↔ r.start ≤ p ∧ p ≤ r.stop := by
  simp [contains]

end FlowDiagram
