import FlowDiagram.Client.Basic
import FlowDiagram.Workspace

/-!
# Clients and variables in sight

What a position sees: the clients that variables hold, and the variables by the scope they are
declared in. Neither request asks the lookup for anything.
-/

namespace FlowDiagram.Visible

variable {σ : Type}

/-- What is known of the client that a connection holds. -/
def clientFacts (c : Connection) : List ClientDraft.Fact :=
  [.variable c.holder, .signature c.holder.type.signature, .scope (.ofVariable c.holder.scope)]

/-- The clients visible at a position, in the order of their declaration. -/
def clients (w : Workspace σ) (p : Position) : Except RequestError (List Client) := do
  let _ ← w.offset p
  let connections := (w.visibleSymbols p).filterMap Connection.ofSymbol?
  pure (ClientDraft.empty.deliverAll w.document.source (connections.map clientFacts))

/-- A variable and the spelling of its type. -/
structure TypedName where
  name : String
  signature : String
  deriving DecidableEq

/-- The variables of one scope under its title. -/
structure ScopeGroup where
  title : String
  members : List TypedName
  deriving DecidableEq

/-- The scopes with their titles in the order in which they are listed. -/
def scopeTitles : List (VariableScope × String) :=
  [(.functionLocal, "Local Variables"), (.objectField, "Object Fields"),
   (.moduleLevel, "Module Variables"), (.configurable, "Configurable Variables")]

def variablesIn (scope : VariableScope) (symbols : List Symbol) : List TypedName :=
  ((symbols.filterMap Symbol.asVariable?).filter fun v => v.scope = scope).map
    fun v => ⟨v.name, v.type.signature⟩

/-- Symbols grouped by scope; scopes without variables are left out. -/
def scopeGroups (symbols : List Symbol) : List ScopeGroup :=
  scopeTitles.filterMap fun (scope, title) =>
    match variablesIn scope symbols with
    | [] => none
    | members => some ⟨title, members⟩

def variableGroups (w : Workspace σ) (p : Position) : Except RequestError (List ScopeGroup) := do
  let _ ← w.offset p
  pure (scopeGroups (w.visibleSymbols p))

end FlowDiagram.Visible
