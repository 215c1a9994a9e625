import FlowDiagram.Proofs.Tree.Enclosure

/-!
# What covers a span

The path that a document gives for a span with width. Siblings do not overlap, so at most one of
them covers the span, and the descent enters just that one, whatever else is without width. The
path therefore holds exactly the nodes that cover the span, the innermost first, and the path to a
larger span is what the two have in common.
-/

namespace FlowDiagram.Tree

namespace Element

variable {r larger : Span} {start : Nat}

section Covered

variable {before after : List Element} {child : Element}

/-- A span with width enters the child that covers it: the siblings before stop where the child
starts. -/
theorem enteredChild?_of_covers (width : r.start < r.stop)
    (covers : (child.span (start + widthOfAll before)).covers r = true) :
    enteredChild? r (spans start (before ++ child :: after)) = some before.length := by
  have bounds := Span.covers_iff.mp covers
  rw [span_start, span_stop] at bounds
  have notPoint : r.isPoint = false := beq_eq_false_iff_ne.mpr (Nat.ne_of_lt width)
  have earlier : ∀ s ∈ spans start before, s.covers r = false := by
    intro s mem
    have within := bounds_of_mem_spans mem
    rw [← Bool.not_eq_true, Span.covers_iff]
    omega
  simp [enteredChild?, notPoint, spans_append, List.findIdx?_append, List.findIdx?_cons,
    List.findIdx?_eq_none_iff.mpr earlier, covers]

/-- The child that a span with width enters covers it. -/
theorem covers_of_enteredChild? (width : r.start < r.stop)
    (h : enteredChild? r (spans start (before ++ child :: after)) = some before.length) :
    (child.span (start + widthOfAll before)).covers r = true := by
  have notPoint : r.isPoint = false := beq_eq_false_iff_ne.mpr (Nat.ne_of_lt width)
  rw [enteredChild?, notPoint] at h
  obtain ⟨bound, covers, -⟩ := List.findIdx?_eq_some_iff_getElem.mp h
  have entered := getElem?_spans_append start before child after
  rw [List.getElem?_eq_getElem bound, Option.some.injEq] at entered
  rwa [entered] at covers

end Covered

/-- The descent to a span goes the way of the descent to a larger one, and from there on alone. -/
theorem descend_suffix_of_covers (e : Element) (width : r.start < r.stop)
    (within : larger.covers r = true) (path : List Site) :
    e.descend larger start path <:+ e.descend r start path := by
  have bounds := Span.covers_iff.mp within
  induction e using induction generalizing start path with
  | token kind text =>
    simp only [descend, List.suffix_rfl]
  | node kind children ih =>
    rw [descend_node, descend_node]
    rcases descendAt_eq_or larger start (⟨kind, start, children⟩ :: path)
      (enteredChild? larger (spans start children)) children with
      stays | ⟨before, child, after, rfl, entered, enters⟩
    · rw [stays]
      exact suffix_descendAt _ _ _ _ _
    · have around := covers_of_enteredChild? (by omega) entered
      have covers : (child.span (start + widthOfAll before)).covers r = true := by
        rw [Span.covers_iff] at around ⊢
        omega
      rw [enters, enteredChild?_of_covers width covers, descendAt_append]
      exact ih child (by simp) _

end Element

namespace Site

variable {s site : Site} {r larger : Span}

/-- Every node that covers a span with width is on the path to it. -/
theorem mem_covering_of_covers (width : r.start < r.stop) (h : site ∈ s.nodes)
    (covers : site.span.covers r = true) : site ∈ s.covering r := by
  rw [nodes_eq] at h
  refine Element.mem_descend_of_enters (W := fun _ => True) (P := fun s => s.covers r = true)
    (fun _ _ _ => trivial) ?_ (fun _ => Element.enteredChild?_of_covers width) _ trivial h covers
  intro outer inner around covers
  rw [Span.covers_iff] at around covers ⊢
  omega

/-- Every node on the path to a span with width covers it. -/
theorem covers_of_mem_covering (width : r.start < r.stop) (h : s.span.covers r = true) :
    ∀ site ∈ s.covering r, site.span.covers r = true := by
  refine Element.forall_mem_descend (I := fun span => span.covers r = true) ?_ _
    (by rwa [Element.span_node]) (by simp)
  intro parent before child after split _ entered
  rw [split] at entered
  exact Element.covers_of_enteredChild? width entered

theorem covering_suffix_of_covers (width : r.start < r.stop) (within : larger.covers r = true) :
    s.covering larger <:+ s.covering r :=
  Element.descend_suffix_of_covers _ width within []

end Site

namespace Element

/-- A node among elements holds less than they do. -/
theorem sizeOf_lt_of_mem_nodesOf {start : Nat} {es : List Element} {site : Site}
    (h : site ∈ nodesOf start es) : sizeOf site.children < sizeOf es := by
  induction es generalizing start with
  | nil => cases h
  | cons e es ih =>
    rw [nodesOf, List.mem_append] at h
    rw [List.cons.sizeOf_spec]
    rcases h with here | behind
    · cases e with
      | token kind text => cases here
      | node kind children =>
        obtain rfl : site = ⟨kind, start, children⟩ := by simpa [site?] using here
        simp only [node.sizeOf_spec]
        omega
    · have smaller := ih behind
      omega

end Element

namespace Lineage

variable {root node other : Site} {outer up : List Site}

/-- The way up leads to ever larger nodes. -/
theorem sizeOf_lt (h : Lineage root (node :: outer)) :
    ∀ site ∈ outer, sizeOf node.children < sizeOf site.children := by
  generalize way : node :: outer = path at h
  induction h generalizing node outer with
  | root =>
    cases way
    simp
  | child isChild up ih =>
    cases way
    have parent := Element.sizeOf_lt_of_mem_nodesOf isChild
    refine List.forall_mem_cons.mpr ⟨parent, fun site mem => ?_⟩
    exact Nat.lt_trans parent (ih rfl site mem)

/-- Two nodes that are each on the way up from the other are one. -/
theorem eq_of_mem (h : Lineage root (node :: outer)) (h' : Lineage root (other :: up))
    (below : node ∈ other :: up) (above : other ∈ node :: outer) : other = node := by
  rcases List.mem_cons.mp below with rfl | below
  · rfl
  · rcases List.mem_cons.mp above with rfl | above
    · rfl
    · have larger := h.sizeOf_lt other above
      have smaller := h'.sizeOf_lt node below
      omega

end Lineage

end FlowDiagram.Tree

namespace FlowDiagram.Document

open FlowDiagram.Tree (Lineage)

/-- The path to a span inside the document is the descent from the root. -/
theorem pathTo_of_covers {d : Document} {r : Span} (h : d.root.span.covers r = true) :
    d.pathTo r = d.root.covering r := by
  rw [pathTo, if_pos h]

theorem nodeAt?_eq_none_iff {d : Document} {r : Span} :
    d.nodeAt? r = none ↔ d.root.span.covers r = false := by
  rw [nodeAt?, List.head?_eq_none_iff]
  cases inside : d.root.span.covers r with
  | false => simp [pathTo, inside]
  | true =>
    rw [pathTo_of_covers inside]
    simp [(d.root.lineage_covering r).ne_nil]

/-- The nodes around a span with width. The span has none just if it is not inside the document.
Otherwise it has an innermost one: a node that covers it, and whose ancestors, with itself, are all
nodes of the document that do. No other node is so placed. A larger span that is inside the
document too has for its innermost node one of these ancestors, and the ancestors of that one are
the rest of them. -/
theorem pathTo_span_exact (d : Document) (r : Span) (width : r.start < r.stop) :
    (d.nodeAt? r = none ↔ d.root.span.covers r = false) ∧
    (d.root.span.covers r = true → ∃ node outer,
      d.nodeAt? r = some node ∧
      d.pathTo r = node :: outer ∧
      Lineage d.root (node :: outer) ∧
      (∀ site, site ∈ node :: outer ↔ site ∈ d.root.nodes ∧ site.span.covers r = true) ∧
      (∀ other up, Lineage d.root (other :: up) → other ∈ d.root.nodes →
        other.span.covers r = true →
        (∀ site ∈ d.root.nodes, site.span.covers r = true → site ∈ other :: up) →
        other = node) ∧
      ∀ larger : Span, larger.covers r = true → d.root.span.covers larger = true →
        ∃ around beyond, d.nodeAt? larger = some around ∧
          d.pathTo larger = around :: beyond ∧ around :: beyond <:+ node :: outer) := by
  refine ⟨nodeAt?_eq_none_iff, fun inside => ?_⟩
  have lineage := d.root.lineage_covering r
  obtain ⟨node, outer, path⟩ := List.exists_cons_of_ne_nil lineage.ne_nil
  have same : d.pathTo r = node :: outer := (pathTo_of_covers inside).trans path
  have members (site : Tree.Site) :
      site ∈ node :: outer ↔ site ∈ d.root.nodes ∧ site.span.covers r = true := by
    rw [← path]
    constructor
    · intro mem
      exact ⟨Tree.Site.mem_nodes_of_mem_covering mem,
        Tree.Site.covers_of_mem_covering width inside site mem⟩
    · rintro ⟨mem, covers⟩
      exact Tree.Site.mem_covering_of_covers width mem covers
  refine ⟨node, outer, by simp [nodeAt?, same], same, path ▸ lineage, members, ?_, ?_⟩
  · intro other up way mem covers all
    obtain ⟨isNode, isAround⟩ := (members node).mp List.mem_cons_self
    exact Lineage.eq_of_mem (path ▸ lineage) way (all node isNode isAround)
      ((members other).mpr ⟨mem, covers⟩)
  · intro larger within insideToo
    have way := d.root.lineage_covering larger
    obtain ⟨around, beyond, path'⟩ := List.exists_cons_of_ne_nil way.ne_nil
    have same' : d.pathTo larger = around :: beyond := (pathTo_of_covers insideToo).trans path'
    refine ⟨around, beyond, by simp [nodeAt?, same'], same', ?_⟩
    rw [← path, ← path']
    exact Tree.Site.covering_suffix_of_covers width within

/-- A span inside a token: the innermost node is the one around the token, although the node around
it has the same span, and although elements without width stand beside both. -/
theorem pathTo_inside_token :
    let empty : Tree.Element := .node .error []
    let reference : Tree.Element := .node .nameReference [.token .identifier "helper"]
    let call : Tree.Element := .node .functionCall [empty, reference, empty]
    let d : Document := ⟨"main.bal", ⟨.sourceFile, [call, empty, .token .whitespace "\n"]⟩⟩
    let r : Span := ⟨1, 3, by decide⟩
    r.start < r.stop ∧ d.root.span.covers r = true ∧
      (d.pathTo r).map Tree.Site.kind = [.nameReference, .functionCall, .sourceFile] ∧
      ∃ node outer, d.nodeAt? r = some node ∧ d.pathTo r = node :: outer ∧
        ∀ site, site ∈ node :: outer ↔ site ∈ d.root.nodes ∧ site.span.covers r = true := by
  intro empty reference call d r
  have inside : d.root.span.covers r = true := by decide +kernel
  obtain ⟨node, outer, innermost, path, -, members, -⟩ :=
    (pathTo_span_exact d r (by decide)).2 inside
  exact ⟨by decide, inside, by decide +kernel, node, outer, innermost, path, members⟩

end FlowDiagram.Document
