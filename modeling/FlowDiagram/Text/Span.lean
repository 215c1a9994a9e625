/-!
# Spans of byte offsets

A `Span` runs from one byte offset to another that is not smaller. Spans are half open where
they hold text, and inclusive at both ends where they bound a cursor.
-/

namespace FlowDiagram

/-- Two byte offsets in order. -/
structure Span where
  start : Nat
  stop : Nat
  start_le_stop : start ≤ stop := by omega
  deriving DecidableEq

namespace Span

/-- The span between two offsets, if they are in order. -/
def ofBounds? (start stop : Nat) : Option Span :=
  if h : start ≤ stop then some ⟨start, stop, h⟩ else none

/-- The span of no width at an offset. -/
def point (offset : Nat) : Span := ⟨offset, offset, Nat.le_refl offset⟩

def isPoint (s : Span) : Bool := s.start == s.stop

/-- Whether `inner` lies within `s`. -/
def covers (s inner : Span) : Bool := s.start ≤ inner.start && inner.stop ≤ s.stop

/-- Whether an offset lies within `s`, both ends included. -/
def touches (s : Span) (offset : Nat) : Bool := s.start ≤ offset && offset ≤ s.stop

@[simp] theorem point_start (o : Nat) : (point o).start = o := rfl

@[simp] theorem point_stop (o : Nat) : (point o).stop = o := rfl

theorem covers_iff {s t : Span} : s.covers t = true ↔ s.start ≤ t.start ∧ t.stop ≤ s.stop := by
  simp [covers]

theorem touches_iff {s : Span} {o : Nat} : s.touches o = true ↔ s.start ≤ o ∧ o ≤ s.stop := by
  simp [touches]

@[simp] theorem covers_point (s : Span) (o : Nat) : s.covers (point o) = s.touches o := rfl

end Span

end FlowDiagram
