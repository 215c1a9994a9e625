import FlowDiagram.Palette.Connections
import FlowDiagram.Palette.Draft

/-!
# The palette at a position

`itemsAt` answers what can be inserted at a position: the connections, the nodes of the
flow, and the library entries. Of the nodes around the position, the innermost that is a loop or a
block decides whether the loop can be left; any function around it that returns nothing allows
the flow to stop.
-/

namespace FlowDiagram.Palette

/-- The entry for a call of a function, of the project or of a library. -/
def functionEntry : Entry :=
  ⟨⟨"Function Call", some "Both project and utility functions", none, []⟩,
    .ofKind .callFunction, true⟩

def statementItems : List Item :=
  [.ofKind .declareVariable, .ofKind .assign, .entry functionEntry, .ofKind .dataMapper]

/-- The items of control flow that every position has. -/
def controlItems : List Item :=
  [.ofKind .ifElse, .ofKind .matchValue, .ofKind .whileLoop, .ofKind .foreachLoop,
    .ofKind .returnValue]

def errorItems : List Item := [.ofKind .fail, .ofKind .panic]

def loopItems : List Item := [.ofKind .breakLoop, .ofKind .continueLoop]

/-- Whether a node is a definition that is known to return nothing. -/
def returnsNothing (model : SemanticModel) (node : Tree.Site) : Bool :=
  node.kind.ownsReturnType &&
    match (model.symbol? node).bind Symbol.asFunction? with
    | none => false
    | some f =>
      match f.returns with
      | none => true
      | some type => model.isNil type

def canStop (model : SemanticModel) (path : List Tree.Site) : Bool :=
  path.any (returnsNothing model)

/-- The innermost loop or block of a path from the innermost node outward. -/
def decidingKind? : List Tree.Site → Option Tree.Kind
  | [] => none
  | node :: path => if node.kind.construct = .other then decidingKind? path else some node.kind

/-- Whether the innermost loop or block of a path is a loop. -/
def inLoop (path : List Tree.Site) : Bool :=
  (decidingKind? path).any fun kind => decide (kind.construct = .iterating)

def decisionNotice (path : List Tree.Site) : Notice :=
  match decidingKind? path with
  | none => .atBodyLevel
  | some kind => if kind.construct = .iterating then .insideLoop kind else .insideBlock kind

def addFlow (model : SemanticModel) (path : List Tree.Site) (d : Draft) : Draft :=
  let d := d.fill .statement statementItems
  let d := d.fill .control controlItems
  let d := d.fill .errorHandling errorItems
  let d := if canStop model path then d.fill .control [.ofKind .stop] else d
  if inLoop path then d.fill .control loopItems else d

/-- The items of a palette with these connections, for a path of nodes around a position. -/
def paletteItems (model : SemanticModel) (path : List Tree.Site) (connections : List Category) :
    List Item :=
  let d := Draft.empty.fill .connections (connections.map Category.toItem)
  (addFlow model path d).root.category.items

variable {σ : Type}

/-- What can be inserted at a position. -/
def itemsAt (w : Workspace σ) (p : Position) :
    Traced Notice σ (Except RequestError (List Item)) := do
  match w.offset p with
  | .error e => pure (.error e)
  | .ok offset =>
    let categories ← connectionCategories w (w.visibleSymbols p)
    let path := w.document.pathTo (.point offset)
    Traced.note (decisionNotice path)
    pure (.ok (paletteItems w.model path (sortedByLabel categories) ++ w.library))

end FlowDiagram.Palette
