import FlowDiagram.Tree.Document
import FlowDiagram.Proofs.Text.Offset

/-!
# Lineages

A `Lineage` of a site is a way up to it: a list of sites that starts at some node, goes on with
the node's parent, and ends at the site. `Site.covering` answers with a lineage, so what it lists
behind its first site are the ancestors of that site. An offset inside a document always has one.
-/

namespace FlowDiagram.Tree

namespace Element

/-- The site of an element that starts at an offset, if it is a node. -/
def site? (start : Nat) : Element → Option Site
  | .token _ _ => none
  | .node kind children => some ⟨kind, start, children⟩

/-- The nodes among elements of which the first starts at an offset, each in its place. -/
def nodesOf (start : Nat) : List Element → List Site
  | [] => []
  | e :: es => (e.site? start).toList ++ nodesOf (start + e.width) es

end Element

/-- The children of a node that are nodes, each in its place. -/
def Site.childNodes (s : Site) : List Site := Element.nodesOf s.start s.children

/-- A way up to a root: every site is a child of the one that follows it. -/
inductive Lineage (root : Site) : List Site → Prop where
  | root : Lineage root [root]
  | child {node parent : Site} {path : List Site} (isChild : node ∈ parent.childNodes)
      (up : Lineage root (parent :: path)) : Lineage root (node :: parent :: path)

theorem Lineage.ne_nil {root : Site} {path : List Site} (h : Lineage root path) : path ≠ [] := by
  cases h <;> simp

namespace Element

variable {root : Site} {r : Span}

-- The descent and its step over siblings follow each other, and so do their proofs: the site that
-- heads the path is the parent of the elements that are left to choose from.
mutual

/-- Descending into a child extends the way up. -/
theorem lineage_descend : ∀ (e : Element) {start : Nat} {parent : Site} {path : List Site},
    Lineage root (parent :: path) → (∀ site, e.site? start = some site →
      site ∈ parent.childNodes) → Lineage root (e.descend r start (parent :: path))
  | .token _ _, _, _, _, up, _ => by
    rw [descend]
    exact up
  | .node kind children, _, _, _, up, inside => by
    rw [descend]
    exact lineage_descendAt children _ (.child (inside _ rfl) up) (fun _ h => h)

theorem lineage_descendAt : ∀ (es : List Element) (index : Option Nat) {start : Nat}
    {parent : Site} {path : List Site}, Lineage root (parent :: path) →
      (∀ site ∈ nodesOf start es, site ∈ parent.childNodes) →
        Lineage root (descendAt r start (parent :: path) index es)
  | [], index, _, _, _, up, _ => by
    cases index <;> simpa [descendAt] using up
  | _ :: _, none, _, _, _, up, _ => by
    simpa [descendAt] using up
  | e :: es, some 0, _, _, _, up, inside => by
    rw [descendAt]
    apply lineage_descend e up
    intro site h
    apply inside
    simp [nodesOf, h]
  | e :: es, some (i + 1), _, _, _, up, inside => by
    rw [descendAt]
    apply lineage_descendAt es (some i) up
    intro site h
    exact inside site (List.mem_append_right _ h)

end

end Element

/-- The path to the innermost node that encloses a span is a way up to where the search began. -/
theorem Site.lineage_covering (s : Site) (r : Span) : Lineage s (s.covering r) := by
  rw [covering, Element.descend]
  exact Element.lineage_descendAt s.children _ .root (fun _ h => h)

end FlowDiagram.Tree

namespace FlowDiagram.Document

/-- The path to an offset inside the document is the descent from the root. -/
theorem pathTo_point_of_le {d : Document} {offset : Nat} (h : offset ≤ d.source.size) :
    d.pathTo (.point offset) = d.root.covering (.point offset) := by
  have touches : d.root.span.touches offset = true := by
    rw [Span.touches_iff, Tree.Site.span_stop, ← d.size_source]
    exact ⟨Nat.zero_le _, Nat.le_trans h (Nat.le_add_left _ _)⟩
  rw [pathTo, Span.covers_point, if_pos touches]

/-- A position inside the document has a way up from the innermost node around it to the root. -/
theorem lineage_pathTo {d : Document} {p : Position} {offset : Nat}
    (h : d.offset? p = some offset) : Tree.Lineage d.root (d.pathTo (.point offset)) := by
  rw [pathTo_point_of_le (SourceText.offset?_le_size h)]
  exact d.root.lineage_covering _

end FlowDiagram.Document
