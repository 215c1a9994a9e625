import FlowDiagram.Proofs.Tree.Descent

/-!
# What encloses an offset

The path that a document gives for an offset, told as a set of nodes. A node that has the offset
strictly inside is always on it. Of the nodes that end or start at the offset, the path has only
those that end there: a construct right behind the cursor does not enclose it, whereas one right
before it does. Elements without width may hide a node that ends at the offset; where there are
none, the path is exactly the set of nodes that start before the offset and do not end before it.
-/

namespace FlowDiagram.Tree

theorem strictlyInside_iff {offset : Nat} {s : Span} :
    strictlyInside offset s = true ↔ s.start < offset ∧ offset < s.stop := by
  simp [strictlyInside]

theorem strictlyInside_eq_false_iff {offset : Nat} {s : Span} :
    strictlyInside offset s = false ↔ (s.start < offset → s.stop ≤ offset) := by
  simp [strictlyInside]

section LastIndex

variable {p : Span → Bool}

theorem lastIndex?_eq_none {ss : List Span} (h : ∀ s ∈ ss, p s = false) :
    lastIndex? p ss = none := by
  induction ss with
  | nil => rfl
  | cons s ss ih =>
    obtain ⟨first, rest⟩ := List.forall_mem_cons.mp h
    simp [lastIndex?, ih rest, first]

theorem exists_of_lastIndex?_eq_some {ss : List Span} {i : Nat} (h : lastIndex? p ss = some i) :
    ∃ s, ss[i]? = some s ∧ p s = true := by
  induction ss generalizing i with
  | nil => cases h
  | cons s ss ih =>
    rw [lastIndex?] at h
    cases last : lastIndex? p ss with
    | some j =>
      rw [last] at h
      cases h
      exact ih last
    | none =>
      cases holds : p s with
      | true =>
        simp only [last, holds, if_true, Option.some.injEq] at h
        subst h
        exact ⟨s, rfl, holds⟩
      | false => simp [last, holds] at h

theorem lastIndex?_append_cons (before : List Span) {s : Span} {after : List Span}
    (holds : p s = true) (last : ∀ t ∈ after, p t = false) :
    lastIndex? p (before ++ s :: after) = some before.length := by
  induction before with
  | nil => simp [lastIndex?, lastIndex?_eq_none last, holds]
  | cons b before ih => simp [lastIndex?, ih]

end LastIndex

section PointChild

variable {offset : Nat}

@[simp] theorem enteredChild?_point (spans : List Span) :
    enteredChild? (.point offset) spans = pointChild? offset spans := by
  simp [enteredChild?, Span.isPoint]

/-- The child that a point enters touches it. It has the point inside, or ends there, or is the
first one. -/
theorem exists_of_pointChild?_eq_some {spans : List Span} {i : Nat}
    (h : pointChild? offset spans = some i) :
    ∃ s, spans[i]? = some s ∧ s.touches offset = true ∧
      (strictlyInside offset s = true ∨ s.stop ≤ offset ∨ i = 0) := by
  have chosen {index : Nat}
      (h : (spans[index]?.bind fun s => if s.touches offset then some index else none) = some i) :
      ∃ s, spans[index]? = some s ∧ s.touches offset = true ∧ index = i := by
    obtain ⟨s, at_index, touched⟩ := Option.bind_eq_some_iff.mp h
    exact ⟨s, at_index, by simpa using touched⟩
  simp only [pointChild?, Option.bind_eq_bind] at h
  cases inside : spans.findIdx? (strictlyInside offset) with
  | some index =>
    simp only [inside, Option.bind_some] at h
    obtain ⟨s, at_index, touches, rfl⟩ := chosen h
    obtain ⟨bound, holds, -⟩ := List.findIdx?_eq_some_iff_getElem.mp inside
    obtain rfl : spans[index] = s := by simpa [bound] using at_index
    exact ⟨_, at_index, touches, .inl holds⟩
  | none =>
    cases last : lastIndex? (fun s => s.stop ≤ offset) spans with
    | some index =>
      simp only [inside, last, Option.bind_some] at h
      obtain ⟨s, at_index, touches, rfl⟩ := chosen h
      obtain ⟨t, at_index', holds⟩ := exists_of_lastIndex?_eq_some last
      obtain rfl : s = t := Option.some.inj (at_index.symm.trans at_index')
      exact ⟨s, at_index, touches, .inr (.inl (by simpa using holds))⟩
    | none =>
      simp only [inside, last, Option.bind_some] at h
      obtain ⟨s, at_index, touches, first⟩ := chosen h
      exact ⟨s, first ▸ at_index, touches, .inr (.inr first.symm)⟩

/-- A point enters the child that has it inside, if none before has. -/
theorem pointChild?_of_inside {before : List Span} {s : Span} (after : List Span)
    (first : ∀ t ∈ before, strictlyInside offset t = false)
    (inside : strictlyInside offset s = true) :
    pointChild? offset (before ++ s :: after) = some before.length := by
  have found : (before ++ s :: after).findIdx? (strictlyInside offset) = some before.length := by
    simp [List.findIdx?_append, List.findIdx?_cons, List.findIdx?_eq_none_iff.mpr first, inside]
  have touches : s.touches offset = true := by
    rw [strictlyInside_iff] at inside
    exact Span.touches_iff.mpr ⟨Nat.le_of_lt inside.1, Nat.le_of_lt inside.2⟩
  simp [pointChild?, found, touches]

/-- A point that no child has inside enters the last that ends at it, if none behind does. -/
theorem pointChild?_of_last {before : List Span} {s : Span} {after : List Span}
    (outside : ∀ t ∈ before ++ s :: after, strictlyInside offset t = false)
    (ends : s.stop = offset) (last : ∀ t ∈ after, offset < t.stop) :
    pointChild? offset (before ++ s :: after) = some before.length := by
  have found : lastIndex? (fun s => s.stop ≤ offset) (before ++ s :: after) =
      some before.length :=
    lastIndex?_append_cons before (by simp [ends]) (by simpa using last)
  have touches : s.touches offset = true :=
    Span.touches_iff.mpr ⟨ends ▸ s.start_le_stop, Nat.le_of_eq ends.symm⟩
  simp [pointChild?, List.findIdx?_eq_none_iff.mpr outside, found, touches]

/-- A point that no child has inside or before it enters the first child. -/
theorem pointChild?_of_first {s : Span} {after : List Span}
    (outside : ∀ t ∈ s :: after, strictlyInside offset t = false)
    (before : ∀ t ∈ s :: after, offset < t.stop) (touches : s.touches offset = true) :
    pointChild? offset (s :: after) = some 0 := by
  have none_ends : lastIndex? (fun t => t.stop ≤ offset) (s :: after) = none :=
    lastIndex?_eq_none (by simpa using before)
  simp only [pointChild?, List.findIdx?_eq_none_iff.mpr outside, none_ends]
  simp [touches]

end PointChild

namespace Element

mutual

def filled : Element → Bool
  | .token _ text => 0 < Text.width text.toList
  | .node _ children => 0 < widthOfAll children && filledAll children

def filledAll : List Element → Bool
  | [] => true
  | e :: es => filled e && filledAll es

end

theorem filledAll_iff {es : List Element} : filledAll es = true ↔ ∀ e ∈ es, e.filled = true := by
  induction es with
  | nil => simp [filledAll]
  | cons e es ih => simp [filledAll, ih]

theorem width_pos_of_filled {e : Element} (h : e.filled = true) : 0 < e.width := by
  cases e with
  | token kind text => simpa [filled, width] using h
  | node kind children =>
    simp only [filled, Bool.and_eq_true, decide_eq_true_eq] at h
    simpa using h.1

theorem filled_of_mem_children {kind : Kind} {children : List Element}
    (h : (node kind children).filled = true) : ∀ child ∈ children, child.filled = true := by
  simp only [filled, Bool.and_eq_true] at h
  exact filledAll_iff.mp h.2

theorem width_pos_of_mem_sites (e : Element) {start : Nat} {site : Site} (h : e.filled = true)
    (inside : site ∈ e.sites start) : 0 < site.width := by
  induction e using induction generalizing start with
  | token kind text => simp at inside
  | node kind children ih =>
    rw [sites_node, List.mem_cons] at inside
    rcases inside with rfl | inside
    · simpa [Site.width] using width_pos_of_filled h
    · obtain ⟨before, child, after, rfl, below⟩ := exists_split_of_mem_sitesOfAll inside
      exact ih child (by simp) (filled_of_mem_children h child (by simp)) below

theorem lt_stop_of_mem_spans {start : Nat} {es : List Element} {s : Span}
    (h : ∀ e ∈ es, e.filled = true) (mem : s ∈ spans start es) : start < s.stop := by
  obtain ⟨i, found⟩ := List.mem_iff_getElem?.mp mem
  obtain ⟨before, child, after, split, -, rfl⟩ := exists_split_of_getElem?_spans found
  have positive := width_pos_of_filled (h child (by simp [split]))
  rw [span_stop]
  omega

section Entered

variable {offset start : Nat} {before after : List Element} {child : Element}

/-- Siblings before a child do not have inside what is not before the child. -/
theorem strictlyInside_eq_false_of_mem_before {s : Span} (h : start + widthOfAll before ≤ offset)
    (mem : s ∈ spans start before) : strictlyInside offset s = false := by
  have bounds := bounds_of_mem_spans mem
  rw [strictlyInside_eq_false_iff]
  omega

/-- Siblings behind a child do not have inside what the child touches. -/
theorem strictlyInside_eq_false_of_mem_after {s : Span}
    (h : offset ≤ start + child.width) (mem : s ∈ spans (start + child.width) after) :
    strictlyInside offset s = false := by
  have bounds := bounds_of_mem_spans mem
  rw [strictlyInside_eq_false_iff]
  omega

theorem enteredChild?_of_inside
    (inside : strictlyInside offset (child.span (start + widthOfAll before)) = true) :
    enteredChild? (.point offset) (spans start (before ++ child :: after)) =
      some before.length := by
  have bounds := strictlyInside_iff.mp inside
  rw [span_start, span_stop] at bounds
  rw [enteredChild?_point, spans_append, spans_cons, ← length_spans start before]
  refine pointChild?_of_inside _ (fun s mem => ?_) inside
  exact strictlyInside_eq_false_of_mem_before (Nat.le_of_lt bounds.1) mem

/-- A point enters a child that it touches, and if it is behind the start of the siblings, it is
behind that of the child, unless the child has no width. -/
theorem of_enteredChild?_point
    (h : enteredChild? (.point offset) (spans start (before ++ child :: after)) =
      some before.length) :
    (child.span (start + widthOfAll before)).touches offset = true ∧
      (start < offset → 0 < child.width → start + widthOfAll before < offset) := by
  rw [enteredChild?_point] at h
  obtain ⟨s, found, touches, choice⟩ := exists_of_pointChild?_eq_some h
  rw [getElem?_spans_append] at found
  cases found
  refine ⟨touches, fun behind width => ?_⟩
  rcases choice with inside | ends | first
  · exact (strictlyInside_iff.mp inside).1
  · rw [span_stop] at ends
    omega
  · rw [List.length_eq_zero_iff.mp first, widthOfAll_nil]
    exact behind

/-- A point at the end of a child enters that child if no sibling behind ends there too; only
siblings without width could. -/
theorem enteredChild?_of_last
    (last : ∀ s ∈ spans (start + widthOfAll before + child.width) after, offset < s.stop)
    (ends : start + widthOfAll before + child.width = offset) :
    enteredChild? (.point offset) (spans start (before ++ child :: after)) =
      some before.length := by
  rw [enteredChild?_point, spans_append, spans_cons, ← length_spans start before]
  refine pointChild?_of_last ?_ ends last
  intro s mem
  rw [List.mem_append, List.mem_cons] at mem
  rcases mem with mem | rfl | mem
  · exact strictlyInside_eq_false_of_mem_before (by omega) mem
  · rw [strictlyInside_eq_false_iff]
    exact fun _ => Nat.le_of_eq ends
  · exact strictlyInside_eq_false_of_mem_after (Nat.le_of_eq ends.symm) mem

/-- A point at the start of siblings that have width enters the first of them. -/
theorem enteredChild?_of_start (filled : ∀ e ∈ before ++ child :: after, e.filled = true)
    (starts : start + widthOfAll before = 0) :
    enteredChild? (.point 0) (spans start (before ++ child :: after)) = some before.length := by
  cases before with
  | cons e before =>
    have positive := width_pos_of_filled (filled e (by simp))
    rw [widthOfAll_cons] at starts
    omega
  | nil =>
    obtain rfl : start = 0 := by simpa using starts
    rw [List.nil_append, enteredChild?_point, spans_cons]
    refine pointChild?_of_first (fun s _ => by simp [strictlyInside]) ?_ (by simp [Span.touches])
    intro s mem
    exact lt_stop_of_mem_spans filled mem

end Entered

end Element

namespace Site

variable {offset : Nat}

/-- A node encloses an offset that it starts before and does not end before. -/
def Encloses (site : Site) (offset : Nat) : Prop :=
  site.span.start < offset ∧ offset ≤ site.span.stop

theorem nodes_eq (s : Site) : s.nodes = (Element.node s.kind s.children).sites s.start := by
  simp [nodes]

theorem mem_nodes_of_mem_covering {s site : Site} {r : Span} (h : site ∈ s.covering r) :
    site ∈ s.nodes := by
  rw [nodes_eq]
  simpa using Element.mem_path_or_sites_of_mem_descend _ h

/-- Every node with an offset strictly inside is on the path to the offset. -/
theorem mem_covering_of_inside {s site : Site} (h : site ∈ s.nodes)
    (inside : strictlyInside offset site.span = true) : site ∈ s.covering (.point offset) := by
  rw [nodes_eq] at h
  refine Element.mem_descend_of_enters (W := fun _ => True)
    (P := fun s => strictlyInside offset s = true) (fun _ _ _ => trivial) ?_
    (fun _ => Element.enteredChild?_of_inside) _ trivial h inside
  intro outer inner covers inside
  rw [Span.covers_iff] at covers
  rw [strictlyInside_iff] at inside ⊢
  omega

/-- Every node on the path to an offset touches it. -/
theorem touches_of_mem_covering {s : Site} (h : s.span.touches offset = true) :
    ∀ site ∈ s.covering (.point offset), site.span.touches offset = true := by
  refine Element.forall_mem_descend (I := fun span => span.touches offset = true) ?_ _
    (by rwa [Element.span_node]) (by simp)
  intro parent before child after split _ entered
  rw [split] at entered
  exact (Element.of_enteredChild?_point entered).1

/-- Every node with width on the path to an offset encloses it: a descent that has passed the start
of a parent enters a child with width only if it passes the child's start too. -/
theorem encloses_of_mem_covering {s : Site} (h : s.Encloses offset) :
    ∀ site ∈ s.covering (.point offset), 0 < site.width → site.Encloses offset := by
  have starts : ∀ site ∈ s.covering (.point offset),
      site.span.start < site.span.stop → site.span.start < offset := by
    refine Element.forall_mem_descend
      (I := fun span => span.start < span.stop → span.start < offset) ?_ _
      (by rw [Element.span_node]; exact fun _ => h.1) (by simp)
    intro parent before child after split around entered positive
    have within : parent.width = Element.widthOfAll before + child.width +
        Element.widthOfAll after := by
      simp [width, split, Nat.add_assoc]
    rw [split] at entered
    rw [Element.span_start, Element.span_stop] at positive
    apply (Element.of_enteredChild?_point entered).2
    · apply around
      rw [span_start, span_stop]
      omega
    · omega
  intro site mem width
  have touched := touches_of_mem_covering
    (Span.touches_iff.mpr ⟨Nat.le_of_lt h.1, h.2⟩) site mem
  exact ⟨starts site mem (Nat.lt_add_of_pos_right width), (Span.touches_iff.mp touched).2⟩

/-- Whether a node and everything inside it has width. -/
def filled (s : Site) : Bool := (Element.node s.kind s.children).filled

theorem width_pos_of_mem_nodes {s site : Site} (h : s.filled = true) (mem : site ∈ s.nodes) :
    0 < site.width := by
  rw [nodes_eq] at mem
  exact Element.width_pos_of_mem_sites _ h mem

/-- Where everything has width, every node that encloses an offset is on the path to it. -/
theorem mem_covering_of_encloses {s site : Site} (filled : s.filled = true) (h : site ∈ s.nodes)
    (encloses : site.Encloses offset) : site ∈ s.covering (.point offset) := by
  rw [nodes_eq] at h
  refine Element.mem_descend_of_enters (W := fun e => e.filled = true)
    (P := fun s => s.start < offset ∧ offset ≤ s.stop) Element.filled_of_mem_children ?_ ?_ _
    filled h encloses
  · intro outer inner covers encloses
    rw [Span.covers_iff] at covers
    omega
  · intro start before child after filled encloses
    rcases Nat.lt_or_eq_of_le encloses.2 with inside | ends
    · exact Element.enteredChild?_of_inside (strictlyInside_iff.mpr ⟨encloses.1, inside⟩)
    · refine Element.enteredChild?_of_last (fun s mem => ?_) ends.symm
      have behind := Element.lt_stop_of_mem_spans (fun e mem => filled e (by simp [mem])) mem
      exact Nat.lt_of_le_of_lt (Nat.le_of_eq ends) behind

/-- Where everything has width, every node that starts with the text is on the path to its start. -/
theorem mem_covering_zero_of_start {s site : Site} (filled : s.filled = true) (h : site ∈ s.nodes)
    (starts : site.start = 0) : site ∈ s.covering (.point 0) := by
  rw [nodes_eq] at h
  refine Element.mem_descend_of_enters (W := fun e => e.filled = true)
    (P := fun s => s.start = 0) Element.filled_of_mem_children ?_
    Element.enteredChild?_of_start _ filled h starts
  intro outer inner covers starts
  rw [Span.covers_iff] at covers
  omega

/-- Where everything has width, the path to an offset holds the nodes that enclose it, and at the
start of the text those that start there. -/
theorem mem_covering_iff {s site : Site} (filled : s.filled = true) (start : s.start = 0)
    (within : offset ≤ s.width) :
    site ∈ s.covering (.point offset) ↔
      site ∈ s.nodes ∧ if offset = 0 then site.start = 0 else site.Encloses offset := by
  have root : s.span.touches offset = true := by
    rw [Span.touches_iff, span_start, span_stop]
    omega
  constructor
  · intro mem
    have inside := mem_nodes_of_mem_covering mem
    have touches := Span.touches_iff.mp (touches_of_mem_covering root site mem)
    refine ⟨inside, ?_⟩
    split
    · next zero => exact Nat.le_zero.mp (zero ▸ touches.1)
    · next positive =>
      have around : s.Encloses offset := by
        rw [Encloses, span_start, span_stop]
        omega
      exact encloses_of_mem_covering around site mem (width_pos_of_mem_nodes filled inside)
  · rintro ⟨inside, place⟩
    split at place
    · next zero => exact zero ▸ mem_covering_zero_of_start filled inside place
    · exact mem_covering_of_encloses filled inside place

end Site

end FlowDiagram.Tree

namespace FlowDiagram.Document

open FlowDiagram.Tree (Lineage)

/-- The nodes around an offset of a document. Every position that has an offset has an innermost
node, and its ancestors are the path. Every node with the offset strictly inside is on the path;
every node on the path touches the offset, and if it has width, starts before the offset unless that
is the start of the text. If no token or node is without width, the path holds exactly the nodes
that start before the offset and do not end before it, and at the start of the text exactly those
that start there. -/
theorem pathTo_exact (d : Document) :
    (∀ p, (d.nodeAtPosition? p).isSome = (d.offset? p).isSome) ∧
    ∀ offset ≤ d.source.size, ∃ node outer,
      d.nodeAt? (.point offset) = some node ∧
      d.pathTo (.point offset) = node :: outer ∧
      Lineage d.root (node :: outer) ∧
      (∀ site ∈ d.root.nodes, site.span.start < offset → offset < site.span.stop →
        site ∈ node :: outer) ∧
      (∀ site ∈ node :: outer, site ∈ d.root.nodes ∧ site.span.touches offset = true ∧
        (0 < offset → 0 < site.width → site.span.start < offset ∧ offset ≤ site.span.stop)) ∧
      (d.root.filled = true → ∀ site, site ∈ node :: outer ↔ site ∈ d.root.nodes ∧
        if offset = 0 then site.start = 0
        else site.span.start < offset ∧ offset ≤ site.span.stop) := by
  have paths {offset : Nat} (h : offset ≤ d.source.size) : ∃ node outer,
      d.root.covering (.point offset) = node :: outer ∧
      d.nodeAt? (.point offset) = some node ∧ Lineage d.root (node :: outer) := by
    have lineage := d.root.lineage_covering (.point offset)
    obtain ⟨node, outer, path⟩ := List.exists_cons_of_ne_nil lineage.ne_nil
    refine ⟨node, outer, path, ?_, path ▸ lineage⟩
    rw [nodeAt?, pathTo_point_of_le h, path]
    rfl
  refine ⟨fun p => ?_, fun offset within => ?_⟩
  · rw [nodeAtPosition?]
    cases found : d.offset? p with
    | none => rfl
    | some offset =>
      obtain ⟨node, outer, -, innermost, -⟩ := paths (SourceText.offset?_le_size found)
      simp [innermost]
  · obtain ⟨node, outer, path, innermost, lineage⟩ := paths within
    have same := pathTo_point_of_le within
    rw [size_source] at within
    have touches : d.root.span.touches offset = true := by
      rw [Span.touches_iff, Tree.Site.span_start, Tree.Site.span_stop]
      exact ⟨Nat.zero_le _, Nat.le_trans within (Nat.le_add_left _ _)⟩
    refine ⟨node, outer, innermost, same.trans path, lineage, ?_, ?_, ?_⟩ <;> rw [← path]
    · intro site mem starts stops
      exact Tree.Site.mem_covering_of_inside mem (Tree.strictlyInside_iff.mpr ⟨starts, stops⟩)
    · intro site mem
      refine ⟨Tree.Site.mem_nodes_of_mem_covering mem,
        Tree.Site.touches_of_mem_covering touches site mem, fun behind width => ?_⟩
      refine Tree.Site.encloses_of_mem_covering ⟨behind, ?_⟩ site mem width
      exact (Span.touches_iff.mp touches).2
    · intro filled site
      exact Tree.Site.mem_covering_iff filled rfl within

/-- A cursor right behind a block is still in the block. -/
theorem pathTo_behind_block :
    let block : Tree.Element :=
      .node .blockStatement [.token .openBrace "\x7b", .token .closeBrace "\x7d"]
    let d : Document := ⟨"main.bal", ⟨.sourceFile, [block, .token .whitespace "\n"]⟩⟩
    2 ≤ d.source.size ∧ d.root.filled = true ∧
      ∃ node outer, d.pathTo (.point 2) = node :: outer ∧
        ∀ site, site ∈ node :: outer ↔
          site ∈ d.root.nodes ∧ site.span.start < 2 ∧ 2 ≤ site.span.stop := by
  intro block d
  have within : 2 ≤ d.source.size := by decide +kernel
  have filled : d.root.filled = true := by decide +kernel
  obtain ⟨node, outer, -, path, -, -, -, exactly⟩ := (pathTo_exact d).2 2 within
  exact ⟨within, filled, node, outer, path, fun site => by simpa using exactly filled site⟩

-- An element without width behind the block hides it.
example :
    let block : Tree.Element :=
      .node .blockStatement [.token .openBrace "\x7b", .token .closeBrace "\x7d"]
    let root : Tree.Site := ⟨.sourceFile, 0, [block, .node .error []]⟩
    (root.covering (.point 2)).map Tree.Site.kind = [.error, .sourceFile] := by
  decide +kernel

end FlowDiagram.Document
