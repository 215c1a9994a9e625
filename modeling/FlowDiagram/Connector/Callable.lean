/-!
# Callables

A `Callable` describes one function of a library: a plain function, the constructor of a
connector, or one of a connector's actions. A `Query` asks for a callable by its place and name.
-/

namespace FlowDiagram

inductive CallableKind where
  | function
  | connector
  | remoteFunction
  | resourceFunction
  deriving DecidableEq

def CallableKind.code : CallableKind → String
  | .function => "FUNCTION"
  | .connector => "CONNECTOR"
  | .remoteFunction => "REMOTE_FUNCTION"
  | .resourceFunction => "RESOURCE_FUNCTION"

def CallableKind.codes : List (String × CallableKind) :=
  [.function, .connector, .remoteFunction, .resourceFunction].map fun kind => (kind.code, kind)

/-- One function of a library. -/
structure Callable where
  id : Int64
  name : String
  description : String
  kind : CallableKind
  org : String
  package : String
  version : String
  returns : Option String
  deriving DecidableEq

/-- A question for the callable with a name and kind in a package. -/
structure Query where
  org : String
  package : String
  symbol : String
  kind : CallableKind
  deriving DecidableEq

/-- Whether a callable is what a query asks for. -/
def Query.asksFor (q : Query) (c : Callable) : Bool :=
  c.org == q.org && c.package == q.package && c.name == q.symbol && c.kind == q.kind

theorem Query.asksFor_iff {q : Query} {c : Callable} :
    q.asksFor c = true ↔
      c.org = q.org ∧ c.package = q.package ∧ c.name = q.symbol ∧ c.kind = q.kind := by
  simp [asksFor, and_assoc]

end FlowDiagram
