import FlowDiagram.Tree.Document
import FlowDiagram.Semantics.Symbol

/-!
# Semantic models

A `SemanticModel` answers what a type checker knows about a document. A `Snapshot` is a model
whose facts have been collected beforehand: declarations with the span they are visible in, and
nodes bound to symbols by their kind and span.
-/

namespace FlowDiagram

/-- What a type checker answers: the symbols visible at a position in the order of their
declaration, the symbol of a node, and whether a type has no value but nil. -/
structure SemanticModel where
  visibleSymbols : Document → Position → List Symbol
  symbol? : Tree.Site → Option Symbol
  isNil : TypeDesc → Bool := TypeDesc.isNil

/-- A symbol and the span it is visible in; without one it is visible everywhere. -/
structure Declaration where
  scope : Option Span
  symbol : Symbol

/-- Whether a declaration is visible at an offset, the ends of its scope included. -/
def Declaration.isVisibleAt (d : Declaration) (offset : Nat) : Bool :=
  match d.scope with
  | none => true
  | some scope => scope.touches offset

/-- Facts about one document: its declarations in order, and the symbols of nodes by kind and span,
the latest first. -/
structure Snapshot where
  declarations : List Declaration
  bindings : List ((Tree.Kind × Span) × Symbol)

namespace Snapshot

def empty : Snapshot := ⟨[], []⟩

def declare (s : Snapshot) (scope : Option Span) (symbol : Symbol) : Snapshot :=
  { s with declarations := s.declarations ++ [⟨scope, symbol⟩] }

/-- Bind nodes of a kind that span a range to a symbol, whatever they were bound to. -/
def bindSpan (s : Snapshot) (kind : Tree.Kind) (span : Span) (symbol : Symbol) : Snapshot :=
  { s with bindings := ((kind, span), symbol) :: s.bindings }

def bind (s : Snapshot) (node : Tree.Site) (symbol : Symbol) : Snapshot :=
  s.bindSpan node.kind node.span symbol

/-- The symbols declared visible at a position; none outside the document. -/
def visibleSymbols (s : Snapshot) (d : Document) (p : Position) : List Symbol :=
  match d.offset? p with
  | none => []
  | some offset => (s.declarations.filter (·.isVisibleAt offset)).map Declaration.symbol

def symbol? (s : Snapshot) (node : Tree.Site) : Option Symbol :=
  s.bindings.lookup (node.kind, node.span)

def model (s : Snapshot) : SemanticModel where
  visibleSymbols := s.visibleSymbols
  symbol? := s.symbol?

end Snapshot

end FlowDiagram
