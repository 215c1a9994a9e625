import FlowDiagram.Tree.Element
import FlowDiagram.Tree.Site

/-!
# Trees from events

A tree is replayed as a sequence of events: a node opens, a token follows, the innermost open
node closes, the current offset is marked. `Tree.ofEvents` grows the tree from the events and
fails at the first that does not fit, or at the end.
-/

namespace FlowDiagram

/-- A tree: its root is a node. -/
structure Tree where
  kind : Tree.Kind
  children : List Tree.Element

namespace Tree

/-- The root of a tree, which starts at offset zero. -/
def root (t : Tree) : Site := ⟨t.kind, 0, t.children⟩

/-- One step of a replay. -/
inductive Event where
  | start (kind : Kind)
  | token (kind : Kind) (text : String)
  | finish
  | mark

/-- A blank between tokens. -/
def Event.blank (text : String) : Event := .token .whitespace text

/-- What is wrong with a replay. -/
inductive Misuse where
  | startsToken (kind : Kind)
  | tokenIsNode (kind : Kind)
  | nothingOpen
  | leftOpen
  | notOneNode
  deriving DecidableEq

/-- The wording of a misuse; a replay whose top level is not one node has none of its own. -/
def Misuse.message? : Misuse → Option String
  | .startsToken kind => some (kind.name ++ " is a token kind")
  | .tokenIsNode kind => some (kind.name ++ " is a node kind")
  | .nothingOpen => some "finish_node without a matching start_node"
  | .leftOpen => some "unbalanced start_node/finish_node"
  | .notOneNode => none

/-- An open node with the elements that stand before it in its parent, the last first. -/
structure Opening where
  kind : Kind
  before : List Element

/-- A tree that grows: the open nodes, the innermost first; the finished elements of the innermost
one, the last first; the offset reached; the marks, the last first. -/
structure Growth where
  openings : List Opening
  elements : List Element
  offset : Nat
  marks : List Nat

namespace Growth

def empty : Growth := ⟨[], [], 0, []⟩

def step (g : Growth) : Event → Except Misuse Growth
  | .start kind =>
    if kind.isToken then .error (.startsToken kind)
    else .ok { g with openings := ⟨kind, g.elements⟩ :: g.openings, elements := [] }
  | .token kind text =>
    if kind.isToken then
      .ok { g with
        elements := .token kind text :: g.elements
        offset := g.offset + Text.width text.toList }
    else .error (.tokenIsNode kind)
  | .finish =>
    match g.openings with
    | [] => .error .nothingOpen
    | opening :: openings =>
      .ok { g with
        openings := openings
        elements := .node opening.kind g.elements.reverse :: opening.before }
  | .mark => .ok { g with marks := g.offset :: g.marks }

/-- The tree, once every node is closed and there is exactly one at the top. -/
def tree (g : Growth) : Except Misuse Tree :=
  match g.openings, g.elements with
  | _ :: _, _ => .error .leftOpen
  | [], [.node kind children] => .ok ⟨kind, children⟩
  | [], _ => .error .notOneNode

end Growth

/-- A finished replay: the tree, the marks in order, and the offset reached. -/
structure Replay where
  tree : Tree
  marks : List Nat
  offset : Nat

/-- A replay that failed: what is wrong, and the index of the event that is; none stands for the
end of the replay. -/
structure Failure where
  misuse : Misuse
  index : Option Nat

/-- Replay events on a growing tree, where `index` is that of the first event. -/
def replayFrom (g : Growth) (index : Nat) : List Event → Except Failure Growth
  | [] => .ok g
  | e :: es =>
    match g.step e with
    | .error misuse => .error ⟨misuse, some index⟩
    | .ok g => replayFrom g (index + 1) es

/-- The tree that a sequence of events replays. -/
def ofEvents (events : List Event) : Except Failure Replay := do
  let g ← replayFrom .empty 0 events
  match g.tree with
  | .error misuse => .error ⟨misuse, none⟩
  | .ok tree => .ok ⟨tree, g.marks.reverse, g.offset⟩

end Tree

end FlowDiagram
