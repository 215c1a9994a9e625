import FlowDiagram.Semantics.Symbol

/-!
# Connections among symbols

A `Connection` is a variable that holds a client of a known module. `Connection.ofSymbol`
narrows a symbol step by step, and tells which step failed.
-/

namespace FlowDiagram

/-- Why a symbol is not a connection: the first narrowing step that fails. -/
inductive NotConnection where
  | notVariable
  | notClient
  | homeless
  deriving DecidableEq

def NotConnection.message : NotConnection → String
  | .notVariable => "not a variable"
  | .notClient => "type is not a client class"
  | .homeless => "client class has no module"

/-- A variable that holds a client, and the module of the client's class. -/
structure Connection where
  holder : Variable
  home : ModuleId
  deriving DecidableEq

namespace Connection

def ofSymbol (s : Symbol) : Except NotConnection Connection :=
  match s.asVariable? with
  | none => .error .notVariable
  | some v =>
    match v.clientClass? with
    | none => .error .notClient
    | some c =>
      match c.definition.home with
      | none => .error .homeless
      | some home => .ok ⟨v, home⟩

def ofSymbol? (s : Symbol) : Option Connection := (ofSymbol s).toOption

end Connection

end FlowDiagram
