import FlowDiagram.Text.Span
import FlowDiagram.Tree.Element

/-!
# Nodes in their place

A `Site` is a node together with the offset at which it starts. `Site.nodes` lists the sites of
a tree in preorder, and `Site.covering` descends from a site to the innermost node that encloses a
span, and answers with the whole path, the innermost site first.

A span with width enters the child that covers it. A point enters the child that has it strictly
inside; failing that the last child that ends at or before it, so that a cursor behind a construct
is still in it; failing that the first child. The descent ends where the child so chosen is a
token or does not touch the point.
-/

namespace FlowDiagram.Tree

/-- A node and the offset at which it starts. -/
structure Site where
  kind : Kind
  start : Nat
  children : List Element

namespace Site

def chars (s : Site) : List Char := Element.charsOfAll s.children

def width (s : Site) : Nat := Element.widthOfAll s.children

def span (s : Site) : Span := ⟨s.start, s.start + s.width, Nat.le_add_right _ _⟩

def text (s : Site) : String := String.ofList s.chars

theorem width_eq (s : Site) : s.width = Text.width s.chars := Element.widthOfAll_eq s.children

@[simp] theorem span_start (s : Site) : s.span.start = s.start := rfl

@[simp] theorem span_stop (s : Site) : s.span.stop = s.start + s.width := rfl

end Site

namespace Element

mutual

/-- The sites of an element that starts at an offset, in preorder. -/
def sites (start : Nat) : Element → List Site
  | .token _ _ => []
  | .node kind children => ⟨kind, start, children⟩ :: sitesOfAll start children

def sitesOfAll (start : Nat) : List Element → List Site
  | [] => []
  | e :: es => sites start e ++ sitesOfAll (start + e.width) es

end

/-- The spans of a list of elements that starts at an offset. -/
def spans (start : Nat) : List Element → List Span
  | [] => []
  | e :: es => ⟨start, start + e.width, Nat.le_add_right _ _⟩ :: spans (start + e.width) es

@[simp] theorem sitesOfAll_nil (start : Nat) : sitesOfAll start [] = [] := by
  simp [sitesOfAll]

@[simp] theorem sitesOfAll_cons (start : Nat) (e : Element) (es : List Element) :
    sitesOfAll start (e :: es) = e.sites start ++ sitesOfAll (start + e.width) es := by
  simp [sitesOfAll]

@[simp] theorem sites_token (start : Nat) (kind : Kind) (text : String) :
    (token kind text).sites start = [] := by
  simp [sites]

@[simp] theorem sites_node (start : Nat) (kind : Kind) (children : List Element) :
    (node kind children).sites start =
      ⟨kind, start, children⟩ :: sitesOfAll start children := by
  simp [sites]

@[simp] theorem length_spans (start : Nat) (es : List Element) :
    (spans start es).length = es.length := by
  induction es generalizing start with
  | nil => rfl
  | cons e es ih => simp [spans, ih]

end Element

/-- The index of the last span with a property. -/
def lastIndex? (p : Span → Bool) : List Span → Option Nat
  | [] => none
  | s :: ss =>
    match lastIndex? p ss with
    | some i => some (i + 1)
    | none => if p s then some 0 else none

/-- Whether an offset lies between the ends of a span. -/
def strictlyInside (offset : Nat) (s : Span) : Bool := s.start < offset && offset < s.stop

/-- The index of the child that a point enters, given the spans of the children. -/
def pointChild? (offset : Nat) (spans : List Span) : Option Nat := do
  let index ←
    match spans.findIdx? (strictlyInside offset) with
    | some i => some i
    | none =>
      match lastIndex? (fun s => s.stop ≤ offset) spans with
      | some i => some i
      | none => some 0
  let chosen ← spans[index]?
  if chosen.touches offset then some index else none

/-- The index of the child that a span enters, given the spans of the children. -/
def enteredChild? (r : Span) (spans : List Span) : Option Nat :=
  if r.isPoint then pointChild? r.start spans else spans.findIdx? fun s => s.covers r

namespace Element

mutual

/-- Descend into an element that starts at an offset; `path` holds the sites around it, the
innermost first. -/
def descend (r : Span) (start : Nat) (path : List Site) : Element → List Site
  | .token _ _ => path
  | .node kind children =>
    descendAt r start (⟨kind, start, children⟩ :: path)
      (enteredChild? r (spans start children)) children

/-- Descend into the element with an index in a list that starts at an offset. -/
def descendAt (r : Span) (start : Nat) (path : List Site) : Option Nat → List Element → List Site
  | some 0, e :: _ => descend r start path e
  | some (i + 1), e :: es => descendAt r (start + e.width) path (some i) es
  | _, _ => path

end

end Element

namespace Site

/-- The sites at and below a site, in preorder. -/
def nodes (s : Site) : List Site := s :: Element.sitesOfAll s.start s.children

/-- The path from the innermost node that encloses a span up to this site. -/
def covering (s : Site) (r : Span) : List Site :=
  Element.descend r s.start [] (.node s.kind s.children)

end Site

end FlowDiagram.Tree
