import FlowDiagram.Connector.Lookup
import FlowDiagram.Semantics.Connection
import FlowDiagram.Tree.Kind
import FlowDiagram.Text.Quoted

/-!
# Notices

What a request tells about its decisions while it runs: which cached answers it used, why a
symbol did not become a connection of the palette, what decided the entries of the palette, and
which participants were known already.
-/

namespace FlowDiagram

/-- One remark of a running request. -/
inductive Notice where
  | cacheHit (hit : CacheHit)
  | notConnection (symbol : String) (reason : NotConnection)
  | withoutActions (symbol : String)
  | lookupFailed (symbol : String) (error : LookupError)
  | insideLoop (kind : Tree.Kind)
  | insideBlock (kind : Tree.Kind)
  | atBodyLevel
  | knownParticipant (name : String)
  deriving DecidableEq

inductive Notice.Level where
  | trace
  | debug
  deriving DecidableEq

inductive Notice.Value where
  | text (s : String)
  | int64 (n : Int64)
  deriving DecidableEq

namespace Notice

def Level.name : Level → String
  | .trace => "TRACE"
  | .debug => "DEBUG"

/-- How much a notice matters: a symbol that was dropped although it is a connection does more. -/
def level : Notice → Level
  | .withoutActions _ => .debug
  | .lookupFailed _ _ => .debug
  | _ => .trace

def message : Notice → String
  | .cacheHit (.function _) => "connector lookup cache hit"
  | .cacheHit (.actions _) => "connector actions cache hit"
  | .notConnection _ _ => "not a connection"
  | .withoutActions _ => "skipping connection without actions"
  | .lookupFailed _ _ => "skipping connection"
  | .insideLoop _ => "cursor inside iterating block"
  | .insideBlock _ => "cursor inside branching block"
  | .atBodyLevel => "cursor at function body level"
  | .knownParticipant _ => "participant cache hit"

/-- What a notice speaks of. The symbol that is not a connection is quoted. -/
def fields : Notice → List (String × Value)
  | .cacheHit (.function q) =>
    [("org", .text q.org), ("module", .text q.package), ("symbol", .text q.symbol)]
  | .cacheHit (.actions id) => [("function_id", .int64 id)]
  | .notConnection symbol reason =>
    [("symbol", .text ("Some(" ++ Text.quoted symbol ++ ")")), ("reason", .text reason.message)]
  | .withoutActions symbol => [("symbol", .text symbol)]
  | .lookupFailed symbol error => [("symbol", .text symbol), ("error", .text error.message)]
  | .insideLoop kind => [("kind", .text kind.name)]
  | .insideBlock kind => [("kind", .text kind.name)]
  | .atBodyLevel => []
  | .knownParticipant name => [("name", .text name)]

end Notice

end FlowDiagram
