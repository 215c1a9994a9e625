import FlowDiagram.Settings
import FlowDiagram.Notice
import FlowDiagram.Palette.Item
import FlowDiagram.Semantics.Model

/-!
# Workspaces

A `Workspace` is everything that a request about one document reads.
-/

namespace FlowDiagram

/-- A document with its semantic model, a lookup for connectors over a state `σ`, the library
entries of the palette, and the settings. -/
structure Workspace (σ : Type) where
  document : Document
  model : SemanticModel
  lookup : Lookup σ
  library : List Palette.Item
  settings : Settings

namespace Workspace

variable {σ : Type}

/-- The offset of a position, which has to be inside the document. -/
def offset (w : Workspace σ) (p : Position) : Except RequestError Nat :=
  match w.document.offset? p with
  | none => .error (.invalidPosition p)
  | some offset => .ok offset

def visibleSymbols (w : Workspace σ) (p : Position) : List Symbol :=
  w.model.visibleSymbols w.document p

end Workspace

end FlowDiagram
