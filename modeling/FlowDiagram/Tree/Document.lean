import FlowDiagram.Text.SourceText
import FlowDiagram.Tree.Event

/-!
# Documents

A document is a named tree. Its positions are those of the text that the tree spells.
-/

namespace FlowDiagram

structure Document where
  name : String
  tree : Tree

namespace Document

def root (d : Document) : Tree.Site := d.tree.root

/-- The text that the tree spells. -/
def source (d : Document) : SourceText := ⟨d.root.chars⟩

/-- The offset of a position inside the document. -/
def offset? (d : Document) (p : Position) : Option Nat := d.source.offset? p

/-- The path from the innermost node that encloses a span up to the root; empty for a span that is
not inside the document. -/
def pathTo (d : Document) (r : Span) : List Tree.Site :=
  if d.root.span.covers r then d.root.covering r else []

/-- The innermost node that encloses a span. -/
def nodeAt? (d : Document) (r : Span) : Option Tree.Site := (d.pathTo r).head?

def nodeAtPosition? (d : Document) (p : Position) : Option Tree.Site := do
  let offset ← d.offset? p
  d.nodeAt? (.point offset)

/-- The line range of a span that is inside the document. -/
def place? (d : Document) (r : Span) : Option LineRange :=
  if d.root.span.covers r then some (d.source.lineRange r) else none

/-- The root spans the whole source. -/
theorem size_source (d : Document) : d.source.size = d.root.width := d.root.width_eq.symm

end Document

end FlowDiagram
