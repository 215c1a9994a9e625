import FlowDiagram.Proofs.Tree.Enclosure
import FlowDiagram.Semantics.Model

/-!
# Scopes and enclosure

There are two ways to be inside a node. A declaration in the span of a node is visible at the
offsets that the span touches, and the path to an offset descends through the tree. They agree but
for the two ends of the node (`scope_agrees_with_enclosure`): whatever the descent enters touches
the offset, and it passes by no node that has the offset strictly inside.

A snapshot is made of facts, one after another, and the symbols visible at a position are listed in
the order in which they were declared (`visibleSymbols_ofFacts`).
-/

namespace FlowDiagram

theorem Declaration.isVisibleAt_some (scope : Span) (symbol : Symbol) (offset : Nat) :
    Declaration.isVisibleAt ⟨some scope, symbol⟩ offset = scope.touches offset := rfl

namespace Snapshot

/-- What a snapshot can be told. -/
inductive Fact where
  /-- A symbol is visible in a scope; without one it is visible everywhere. -/
  | declare (scope : Option Span) (symbol : Symbol)
  /-- The nodes of a kind that span a range stand for a symbol. -/
  | bind (kind : Tree.Kind) (span : Span) (symbol : Symbol)

def Fact.declaration? : Fact → Option Declaration
  | .declare scope symbol => some ⟨scope, symbol⟩
  | .bind _ _ _ => none

def learn (s : Snapshot) : Fact → Snapshot
  | .declare scope symbol => s.declare scope symbol
  | .bind kind span symbol => s.bindSpan kind span symbol

/-- The snapshot that is told some facts in order. -/
def ofFacts (facts : List Fact) : Snapshot := facts.foldl learn empty

theorem declarations_learn (s : Snapshot) (fact : Fact) :
    (s.learn fact).declarations = s.declarations ++ fact.declaration?.toList := by
  cases fact with
  | declare scope symbol => rfl
  | bind kind span symbol => exact (List.append_nil _).symm

theorem declarations_foldl_learn (s : Snapshot) (facts : List Fact) :
    (facts.foldl learn s).declarations =
      s.declarations ++ facts.filterMap Fact.declaration? := by
  induction facts generalizing s with
  | nil => exact (List.append_nil _).symm
  | cons fact facts ih =>
    rw [List.foldl_cons, ih, declarations_learn, List.append_assoc]
    cases declares : fact.declaration? with
    | none => rw [List.filterMap_cons_none declares]; rfl
    | some declaration => rw [List.filterMap_cons_some declares]; rfl

theorem declarations_ofFacts (facts : List Fact) :
    (ofFacts facts).declarations = facts.filterMap Fact.declaration? :=
  declarations_foldl_learn empty facts

section Visible

variable {d : Document} {p : Position} {offset : Nat} (valid : d.offset? p = some offset)

include valid

/-- The symbols that are visible are those of the declarations that are, in order. -/
theorem visibleSymbols_ofFacts (facts : List Fact) :
    (ofFacts facts).visibleSymbols d p =
      ((facts.filterMap Fact.declaration?).filter (·.isVisibleAt offset)).map
        Declaration.symbol := by
  simp only [visibleSymbols, valid, declarations_ofFacts]

/-- A declaration adds its symbol to the visible ones at its place, or nothing. -/
theorem visibleSymbols_around (earlier later : List Fact) (scope : Option Span) (symbol : Symbol) :
    (ofFacts (earlier ++ .declare scope symbol :: later)).visibleSymbols d p =
      (ofFacts earlier).visibleSymbols d p ++
        (if Declaration.isVisibleAt ⟨scope, symbol⟩ offset then [symbol] else []) ++
        (ofFacts later).visibleSymbols d p := by
  have declared : (Fact.declare scope symbol).declaration? = some ⟨scope, symbol⟩ := rfl
  simp only [visibleSymbols_ofFacts valid, List.filterMap_append, List.filter_append,
    List.map_append, List.append_assoc, List.append_cancel_left_eq]
  rw [List.filterMap_cons_some declared, List.filter_cons]
  split <;> rfl

/-- A declaration in a scope lists its symbol at its place just where the scope touches. -/
theorem visibleSymbols_around_eq_iff (earlier later : List Fact) (scope : Span) (symbol : Symbol) :
    (ofFacts (earlier ++ .declare (some scope) symbol :: later)).visibleSymbols d p =
        (ofFacts earlier).visibleSymbols d p ++ symbol :: (ofFacts later).visibleSymbols d p ↔
      scope.touches offset = true := by
  rw [visibleSymbols_around valid, Declaration.isVisibleAt_some]
  cases scope.touches offset with
  | true => simp
  | false => simp

end Visible

end Snapshot

namespace Document

open FlowDiagram.Tree (Lineage)

variable {d : Document} {offset : Nat}

/-- Every offset inside a document has an innermost node, and the path is the way up from it. -/
theorem exists_pathTo_point (within : offset ≤ d.source.size) : ∃ innermost outer,
    d.nodeAt? (.point offset) = some innermost ∧
    d.pathTo (.point offset) = innermost :: outer ∧ Lineage d.root (innermost :: outer) := by
  have lineage := d.root.lineage_covering (.point offset)
  rw [← pathTo_point_of_le within] at lineage
  obtain ⟨innermost, outer, path⟩ := List.exists_cons_of_ne_nil lineage.ne_nil
  refine ⟨innermost, outer, ?_, path, path ▸ lineage⟩
  rw [nodeAt?, path, List.head?_cons]

/-- A node around an offset touches it. -/
theorem touches_of_mem_pathTo (within : offset ≤ d.source.size) {node : Tree.Site}
    (around : node ∈ d.pathTo (.point offset)) : node.span.touches offset = true := by
  rw [pathTo_point_of_le within] at around
  rw [size_source] at within
  have root : d.root.span.touches offset = true := by
    rw [Span.touches_iff, Tree.Site.span_start, Tree.Site.span_stop]
    exact ⟨Nat.zero_le _, Nat.le_trans within (Nat.le_add_left _ _)⟩
  exact Tree.Site.touches_of_mem_covering root node around

/-- A node that touches an offset is around it, unless it starts or stops there. -/
theorem mem_pathTo_of_touches (within : offset ≤ d.source.size) {node : Tree.Site}
    (isNode : node ∈ d.root.nodes) (touches : node.span.touches offset = true)
    (start : offset ≠ node.span.start) (stop : offset ≠ node.span.stop) :
    node ∈ d.pathTo (.point offset) := by
  rw [Span.touches_iff] at touches
  have inside : Tree.strictlyInside offset node.span = true := by
    rw [Tree.strictlyInside_iff]
    omega
  rw [pathTo_point_of_le within]
  exact Tree.Site.mem_covering_of_inside isNode inside

end Document

namespace Snapshot

open FlowDiagram.Tree (Lineage)

/-- Scopes agree with enclosure. A snapshot has, among other facts, a symbol declared in the span of
a node of a document, and a position of the document has an offset. The position has an innermost
node, whose ancestors and itself are the path to the offset. The declaration either lists its symbol
at its place, behind the visible symbols of earlier declarations and before those of later ones, or
it changes nothing. If the node is the innermost one or an ancestor, the symbol is listed. If the
symbol is listed and the offset is neither the start nor the end of the node, then the node is the
innermost one or an ancestor. -/
theorem scope_agrees_with_enclosure (d : Document) (node : Tree.Site)
    (isNode : node ∈ d.root.nodes) (earlier later : List Fact) (symbol : Symbol) {p : Position}
    {offset : Nat} (valid : d.offset? p = some offset) :
    let facts := ofFacts (earlier ++ .declare (some node.span) symbol :: later)
    let visible := facts.visibleSymbols d p
    let seenEarlier := (ofFacts earlier).visibleSymbols d p
    let seenLater := (ofFacts later).visibleSymbols d p
    ∃ innermost outer,
      d.nodeAtPosition? p = some innermost ∧
      d.pathTo (.point offset) = innermost :: outer ∧
      Lineage d.root (innermost :: outer) ∧
      (visible = seenEarlier ++ symbol :: seenLater ∨ visible = seenEarlier ++ seenLater) ∧
      (node ∈ innermost :: outer → visible = seenEarlier ++ symbol :: seenLater) ∧
      (visible = seenEarlier ++ symbol :: seenLater →
        offset ≠ node.span.start → offset ≠ node.span.stop → node ∈ innermost :: outer) := by
  intro facts visible seenEarlier seenLater
  have within := SourceText.offset?_le_size valid
  have listed : visible = seenEarlier ++ symbol :: seenLater ↔ node.span.touches offset = true :=
    visibleSymbols_around_eq_iff valid earlier later node.span symbol
  obtain ⟨innermost, outer, found, path, lineage⟩ := Document.exists_pathTo_point within
  refine ⟨innermost, outer, ?_, path, lineage, ?_, ?_, ?_⟩
  · rw [Document.nodeAtPosition?, valid]
    exact found
  · by_cases touches : node.span.touches offset = true
    · exact .inl (listed.mpr touches)
    · refine .inr ((visibleSymbols_around valid earlier later _ symbol).trans ?_)
      rw [Declaration.isVisibleAt_some, if_neg touches, List.append_nil]
  · intro around
    rw [← path] at around
    exact listed.mpr (Document.touches_of_mem_pathTo within around)
  · intro shown start stop
    rw [← path]
    exact Document.mem_pathTo_of_touches within isNode (listed.mp shown) start stop

/-- In the middle of a reference that spans what the call around it spans, the declarations in both
are visible, and the call is around; what is declared in a node without width is not visible. -/
theorem scope_agrees_with_enclosure_inside_reference :
    let empty : Tree.Element := .node .error []
    let name : Tree.Element := .token .identifier "helper"
    let reference : Tree.Site := ⟨.nameReference, 0, [name]⟩
    let call : Tree.Site := ⟨.functionCall, 0, [empty, .node .nameReference [name], empty]⟩
    let d : Document := ⟨"main.bal", ⟨.sourceFile, [.node .functionCall call.children]⟩⟩
    let named (name : String) : Symbol := .function ⟨name, none, [], none, none⟩
    let earlier : List Fact :=
      [.declare none (named "a"), .declare (some ⟨6, 6, by decide⟩) (named "b")]
    let later : List Fact := [.bind .nameReference reference.span (named "c"),
      .declare (some reference.span) (named "d")]
    let facts := ofFacts (earlier ++ .declare (some call.span) (named "e") :: later)
    let visible := facts.visibleSymbols d ⟨0, 3⟩
    call ∈ d.root.nodes ∧ d.offset? ⟨0, 3⟩ = some 3 ∧
      visible = [named "a", named "e", named "d"] ∧
      ∃ innermost outer, d.nodeAtPosition? ⟨0, 3⟩ = some innermost ∧
        d.pathTo (.point 3) = innermost :: outer ∧ call ∈ innermost :: outer := by
  intro empty name reference call d named earlier later facts visible
  have isNode : call ∈ d.root.nodes := .tail _ (.head _)
  have valid : d.offset? ⟨0, 3⟩ = some 3 := by decide +kernel
  have shown : visible = [named "a", named "e", named "d"] := by decide +kernel
  obtain ⟨innermost, outer, found, path, -, -, -, enclosed⟩ :=
    scope_agrees_with_enclosure d call isNode earlier later (named "e") valid
  refine ⟨isNode, valid, shown, innermost, outer, found, path, ?_⟩
  have seenEarlier : (ofFacts earlier).visibleSymbols d ⟨0, 3⟩ = [named "a"] := by decide +kernel
  have seenLater : (ofFacts later).visibleSymbols d ⟨0, 3⟩ = [named "d"] := by decide +kernel
  apply enclosed
  · rw [seenEarlier, seenLater]
    exact shown
  · decide
  · decide

-- At the start of a node, what is declared in it is visible, though another node is around.
example :
    let a : Tree.Element := .node .nameReference [.token .identifier "a"]
    let d : Document := ⟨"main.bal", ⟨.sourceFile, [a, .node .functionCall [a]]⟩⟩
    let symbol : Symbol := .moduleId ⟨"wso2", "orders", "0.1.0"⟩
    (ofFacts [.declare (some ⟨1, 2, by decide⟩) symbol]).visibleSymbols d ⟨0, 1⟩ = [symbol] ∧
      (d.pathTo (.point 1)).map Tree.Site.kind = [.nameReference, .sourceFile] := by
  decide +kernel

end Snapshot

end FlowDiagram
