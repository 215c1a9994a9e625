import FlowDiagram.Connector.Lookup

/-!
# Exchanges with a cached backend

The things that can happen to a backend and the cache in front of it, in any order: queries through
the cache or past it, new connectors in the backend's index, failures that set in or end, and a
cache that is dropped.
-/

namespace FlowDiagram

/-- One thing that happens to a backend and the cache in front of it. -/
inductive Exchange where
  | function (throughCache : Bool) (query : Query)
  | actions (throughCache : Bool) (id : Int64)
  | insert (connector : Callable) (actions : List Callable)
  | outage (outage : Outage)
  | clear

/-- What comes back. -/
inductive Reply where
  | function (answer : Answer (Option Callable))
  | actions (answer : Answer (List Callable))
  | done

namespace Exchange

/-- The lookup that is asked, through the cache or past it. -/
def asked (throughCache : Bool) : Lookup (Cached Backend) :=
  if throughCache then Backend.lookup.cached else Backend.lookup.uncached

def onBackend (f : Backend → Backend) : Traced CacheHit (Cached Backend) Unit :=
  Traced.modify fun c => { c with inner := f c.inner }

def perform : Exchange → Traced CacheHit (Cached Backend) Reply
  | .function throughCache q => do return .function (← (asked throughCache).function q)
  | .actions throughCache id => do return .actions (← (asked throughCache).actions id)
  | .insert connector offered => do
    onBackend fun b => { b with index := b.index.insert connector offered }
    return .done
  | .outage set => do
    onBackend fun b => { b with outage := set }
    return .done
  | .clear => do
    Traced.modify Cached.clear
    return .done

end Exchange

end FlowDiagram
