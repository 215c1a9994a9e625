import FlowDiagram.Palette.Item
import FlowDiagram.Workspace

/-!
# Connections in the palette

Every connection that is visible and whose connector has actions becomes a category of the
palette. What keeps a symbol out of the palette keeps out that symbol alone, and leaves a notice.
-/

namespace FlowDiagram.Palette

/-- The class that connectors are called by. -/
def clientObject : String := "Client"

def constructorName : String := "init"

def connectorQuery (c : Connection) : Query :=
  ⟨c.home.org, c.home.name, constructorName, .connector⟩

def actionEntry (settings : Settings) (connector action : Callable) : Entry where
  metadata :=
    ⟨action.name, some action.description,
      some (settings.iconUrl connector.org connector.package connector.version), []⟩
  codedata :=
    ⟨.callAction, some connector.org, some connector.package, some clientObject,
      some action.name, none, some action.id⟩
  enabled := true

def actionItems (settings : Settings) (connector : Callable) (actions : List Callable) :
    List Item :=
  actions.map fun action => .entry (actionEntry settings connector action)

variable {σ : Type}

/-- The items for the actions of a connection; none if its connector is not known. -/
def connectionItems (w : Workspace σ) (c : Connection) :
    Traced CacheHit σ (Answer (List Item)) := do
  match ← w.lookup.function (connectorQuery c) with
  | .error e => pure (.error e)
  | .ok none => pure (.ok [])
  | .ok (some connector) =>
    match ← w.lookup.actions connector.id with
    | .error e => pure (.error e)
    | .ok actions => pure (.ok (actionItems w.settings connector actions))

/-- The category that a symbol becomes, if it does. -/
def connectionCategory (w : Workspace σ) (s : Symbol) : Traced Notice σ (Option Category) := do
  match Connection.ofSymbol s with
  | .error reason =>
    Traced.note (.notConnection s.name reason)
    pure none
  | .ok c =>
    match ← (connectionItems w c).mapNotes .cacheHit with
    | .error e =>
      Traced.note (.lookupFailed c.holder.name e)
      pure none
    | .ok [] =>
      Traced.note (.withoutActions c.holder.name)
      pure none
    | .ok items => pure (some ⟨.ofLabel c.holder.name, items⟩)

/-- The categories that symbols become, in the order of the symbols. -/
def connectionCategories (w : Workspace σ) : List Symbol → Traced Notice σ (List Category)
  | [] => pure []
  | s :: ss => do
    let category ← connectionCategory w s
    let categories ← connectionCategories w ss
    pure (category.toList ++ categories)

/-- Categories in the order of their labels; those with one label keep their order. -/
def sortedByLabel (categories : List Category) : List Category :=
  categories.mergeSort fun a b => decide (a.label ≤ b.label)

end FlowDiagram.Palette
