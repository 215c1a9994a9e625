import FlowDiagram.Proofs.Request.Clients
import FlowDiagram.Proofs.Semantics.Visibility

/-!
# The account that a palette gives

A palette leaves out symbols, but none in silence. What becomes of a symbol is its `Fate`: a
category, or the one notice that says why there is none. The notices of a request are those of the
fates in the order of the symbols, and one more on what decided about the flow; what the cache tells
of its answers comes on top and is not counted.
-/

namespace FlowDiagram

structure Notice.Line where
  level : Notice.Level
  message : String
  fields : List (String × Notice.Value)

namespace Notice

def line (n : Notice) : Line := ⟨n.level, n.message, n.fields⟩

/-- Whether a notice tells of an answer from a cache. -/
def isCacheHit : Notice → Bool
  | .cacheHit _ => true
  | _ => false

/-- What is written of notices, apart from those on answers from a cache. -/
def written (notices : List Notice) : List Line :=
  (notices.filter fun n => !n.isCacheHit).map line

end Notice

namespace Palette

/-- What becomes of a symbol: a category, or the notice that says why there is none. -/
abbrev Fate := Except Notice.Line Category

def Fate.category? : Fate → Option Category
  | .error _ => none
  | .ok category => some category

end Palette

namespace Answers

/-- The items that answers offer for a connection. -/
def offered (a : Answers) (settings : Settings) (c : Connection) : Answer (List Palette.Item) :=
  match a.function (Palette.connectorQuery c) with
  | .error e => .error e
  | .ok none => .ok []
  | .ok (some connector) =>
    (a.actions (Palette.connectorQuery c) connector.id).map
      (Palette.actionItems settings connector)

variable {a : Answers} {settings : Settings} {symbol : Symbol} {c : Connection}

end Answers

namespace Palette

variable {σ : Type} (w : Workspace σ)

end Palette

end FlowDiagram
