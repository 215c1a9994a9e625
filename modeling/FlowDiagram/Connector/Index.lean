import Std.Data.HashMap
import FlowDiagram.Error
import FlowDiagram.Connector.Callable

/-!
# Connector indexes

A `ConnectorIndex` holds connectors in the order of their insertion and the actions of each
connector by its identifier. Connectors that share an identifier share their actions; of connectors
that answer one query, the first inserted does.
-/

namespace FlowDiagram

/-- Connectors in order, and actions by the identifier of their connector. -/
structure ConnectorIndex where
  connectors : List Callable
  actionsById : Std.HashMap Int64 (List Callable)

namespace ConnectorIndex

def empty : ConnectorIndex := ⟨[], ∅⟩

def actions (index : ConnectorIndex) (id : Int64) : List Callable :=
  index.actionsById.getD id []

/-- The first connector that a query asks for. -/
def find? (index : ConnectorIndex) (q : Query) : Option Callable :=
  index.connectors.find? q.asksFor

def insert (index : ConnectorIndex) (connector : Callable) (actions : List Callable) :
    ConnectorIndex where
  connectors := index.connectors ++ [connector]
  actionsById :=
    index.actionsById.insert connector.id (index.actions connector.id ++ actions)

def hasId (index : ConnectorIndex) (id : Int64) : Bool := index.actionsById.contains id

def size (index : ConnectorIndex) : Nat := index.connectors.length

def isEmpty (index : ConnectorIndex) : Bool := index.connectors.isEmpty

/-- The error that two connectors share an identifier; it names the second. -/
def duplicateId (connector : Callable) : LookupError :=
  .corrupt ("duplicate connector id " ++ toString connector.id.toInt ++ " (" ++ connector.org
    ++ "/" ++ connector.package ++ ")")

/-- Add connectors whose identifiers are new. -/
def insertAll (index : ConnectorIndex) :
    List (Callable × List Callable) → Except LookupError ConnectorIndex
  | [] => .ok index
  | (connector, actions) :: rest =>
    if index.hasId connector.id then .error (duplicateId connector)
    else (index.insert connector actions).insertAll rest

def ofList (entries : List (Callable × List Callable)) : Except LookupError ConnectorIndex :=
  empty.insertAll entries

@[simp] theorem actions_empty (id : Int64) : empty.actions id = [] := by
  simp [actions, empty]

@[simp] theorem find?_empty (q : Query) : empty.find? q = none := rfl

@[simp] theorem size_empty : empty.size = 0 := rfl

@[simp] theorem hasId_empty (id : Int64) : empty.hasId id = false := by
  simp [hasId, empty]

/-- Actions accumulate under the identifier of their connector. -/
theorem actions_insert (index : ConnectorIndex) (connector : Callable)
    (offered : List Callable) (id : Int64) :
    (index.insert connector offered).actions id =
      if connector.id = id then index.actions id ++ offered else index.actions id := by
  by_cases h : connector.id = id <;>
    simp [insert, actions, Std.HashMap.getD_insert, h]

/-- A connector answers the queries that no earlier one does. -/
theorem find?_insert (index : ConnectorIndex) (connector : Callable)
    (offered : List Callable) (q : Query) :
    (index.insert connector offered).find? q =
      (index.find? q).or (if q.asksFor connector then some connector else none) := by
  cases h : q.asksFor connector <;> simp [insert, find?, List.find?_append, h]

@[simp] theorem size_insert (index : ConnectorIndex) (connector : Callable)
    (offered : List Callable) :
    (index.insert connector offered).size = index.size + 1 := by
  simp [insert, size]

theorem hasId_insert (index : ConnectorIndex) (connector : Callable)
    (offered : List Callable) (id : Int64) :
    (index.insert connector offered).hasId id = (connector.id == id || index.hasId id) := by
  simp [insert, hasId, Std.HashMap.contains_insert]

end ConnectorIndex

end FlowDiagram
