import FlowDiagram.Error
import FlowDiagram.Memo
import FlowDiagram.Trace
import FlowDiagram.Connector.Index

/-!
# Looking connectors up

A `Lookup` answers queries for callables and for the actions of a connector; it may keep state
and it may fail. A `Backend` answers from an index, counts the queries it gets and can be made to
fail. `Lookup.cached` puts a cache in front of any lookup: the first answer to a query stays, a
failure does not, and an answer from the cache leaves a note.
-/

namespace FlowDiagram

/-- A note that a cache answered. -/
inductive CacheHit where
  | function (query : Query)
  | actions (id : Int64)
  deriving DecidableEq

/-- The answer of a lookup, or why it has none. -/
abbrev Answer (α : Type) := Except LookupError α

/-- A source of connector data over a state `σ`. -/
structure Lookup (σ : Type) where
  function : Query → Traced CacheHit σ (Answer (Option Callable))
  actions : Int64 → Traced CacheHit σ (Answer (List Callable))

/-- How a backend is made to fail: the reasons given for queries of either sort. -/
structure Outage where
  functions : Option String
  actions : Option String
  deriving DecidableEq

def Outage.none : Outage := ⟨.none, .none⟩

/-- An index that answers queries, the failures in force, and the number of queries so far. -/
structure Backend where
  index : ConnectorIndex
  outage : Outage
  calls : Nat

namespace Backend

def ofIndex (index : ConnectorIndex) : Backend := ⟨index, .none, 0⟩

def function (b : Backend) (q : Query) : Answer (Option Callable) :=
  match b.outage.functions with
  | some reason => .error (.unavailable reason)
  | none => .ok (b.index.find? q)

def actions (b : Backend) (id : Int64) : Answer (List Callable) :=
  match b.outage.actions with
  | some reason => .error (.corrupt reason)
  | none => .ok (b.index.actions id)

def counted (b : Backend) : Backend := { b with calls := b.calls + 1 }

def lookup : Lookup Backend where
  function q := fun b => (b.function q, b.counted, [])
  actions id := fun b => (b.actions id, b.counted, [])

end Backend

/-- A lookup's state behind a cache, and the answers in the cache. -/
structure Cached (σ : Type) where
  inner : σ
  functions : Memo Query (Option Callable)
  actions : Memo Int64 (List Callable)

namespace Cached

variable {σ : Type}

def ofInner (inner : σ) : Cached σ := ⟨inner, .empty, .empty⟩

def clear (c : Cached σ) : Cached σ := .ofInner c.inner

def through {α : Type} (x : Traced CacheHit σ α) : Traced CacheHit (Cached σ) α :=
  x.focus Cached.inner fun inner c => { c with inner := inner }

end Cached

namespace Lookup

variable {σ : Type}

/-- Answer a query for a callable from the cache, or else from the lookup behind it. -/
def cachedFunction (l : Lookup σ) (q : Query) :
    Traced CacheHit (Cached σ) (Answer (Option Callable)) := do
  let c ← Traced.get
  match c.functions.find? q with
  | some answer =>
    Traced.note (.function q)
    pure (.ok answer)
  | none =>
    match ← Cached.through (l.function q) with
    | .error e => pure (.error e)
    | .ok answer =>
      Traced.modify fun c => { c with functions := c.functions.record q answer }
      pure (.ok answer)

def cachedActions (l : Lookup σ) (id : Int64) :
    Traced CacheHit (Cached σ) (Answer (List Callable)) := do
  let c ← Traced.get
  match c.actions.find? id with
  | some answer =>
    Traced.note (.actions id)
    pure (.ok answer)
  | none =>
    match ← Cached.through (l.actions id) with
    | .error e => pure (.error e)
    | .ok answer =>
      Traced.modify fun c => { c with actions := c.actions.record id answer }
      pure (.ok answer)

def cached (l : Lookup σ) : Lookup (Cached σ) where
  function := l.cachedFunction
  actions := l.cachedActions

/-- A lookup behind a cache, asked past the cache. -/
def uncached (l : Lookup σ) : Lookup (Cached σ) where
  function q := Cached.through (l.function q)
  actions id := Cached.through (l.actions id)

end Lookup

end FlowDiagram
