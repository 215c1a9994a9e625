import FlowDiagram.Proofs.Palette.Listing
import FlowDiagram.Proofs.Semantics.Value

/-!
# Where the flow can stop

A palette offers to stop the flow because of definitions around the position. A node is a reason for
it if the palette has the entry though no other node is resolved (`StopsBy`). The entry is offered
just if there is a reason, and the reasons are the definitions around the position whose function
has no value to return but nil (`stop_exact`). A model that has a check of its own in place of
`TypeDesc.isNil` decides by that check (`offersStop_iff`).
-/

namespace FlowDiagram

open Classical in
/-- The model that resolves one node at most, and else answers as a model does. -/
noncomputable def SemanticModel.resolveOnly (model : SemanticModel) (node : Tree.Site) :
    SemanticModel :=
  { model with symbol? := fun other => if other = node then model.symbol? node else none }

namespace Palette

/-! ### The entry in a palette -/

/-- The group of control flow among items has the entry that stops the flow. -/
def HoldsStop (items : List Item) : Prop :=
  ∃ control, Category.subcategory? ⟨CategoryName.root.metadata, items⟩ CategoryName.control.label =
    some control ∧ .stop ∈ control.entryKinds

theorem stop_mem_controlKinds_iff (stops loops : Bool) :
    .stop ∈ controlKinds stops loops ↔ stops = true := by
  cases stops <;> cases loops <;> decide

section Items

variable (connections : List Category) (stops loops : Bool) (rest : List Item)

theorem holdsStop_iff :
    HoldsStop (connectionsGroup connections ++ flowGroups stops loops ++ rest) ↔ stops = true := by
  obtain ⟨control, found, kinds⟩ :=
    Option.map_eq_some_iff.mp (kindsUnder_control connections stops loops rest)
  rw [← stop_mem_controlKinds_iff stops loops, ← kinds, HoldsStop, CategoryName.label, found]
  simp

end Items

variable {σ : Type}

/-- The palette at a position offers to stop the flow. -/
def OffersStop (w : Workspace σ) (p : Position) (s : σ) : Prop :=
  ∃ items, ((itemsAt w p).run s).1 = .ok items ∧ HoldsStop items

/-- A node is a reason to offer Stop: the palette does so though no other node is resolved. -/
def StopsBy (w : Workspace σ) (p : Position) (s : σ) (node : Tree.Site) : Prop :=
  OffersStop { w with model := w.model.resolveOnly node } p s

theorem offersStop_iff_of_ok {w : Workspace σ} {p : Position} {s : σ} {items : List Item}
    (answer : ((itemsAt w p).run s).1 = .ok items) : OffersStop w p s ↔ HoldsStop items := by
  simp [OffersStop, answer]

/-! ### The reasons for the entry -/

/-- Of the nodes, only the one that is resolved can yield nothing. -/
theorem yieldsNothing_resolveOnly_iff {model : SemanticModel} {node other : Tree.Site} :
    YieldsNothing (model.resolveOnly node) other ↔ other = node ∧ YieldsNothing model node := by
  by_cases same : other = node
  · subst same
    simp [YieldsNothing, SemanticModel.resolveOnly]
  · simp [YieldsNothing, SemanticModel.resolveOnly, same]

/-- For a model that leaves the check to the types, a definition yields nothing just if its function
declares no return type, or one that has no value but nil. -/
theorem yieldsNothing_iff {α : Type*} (I : Interpretation α) {model : SemanticModel}
    (standard : model.isNil = TypeDesc.isNil) {node : Tree.Site} :
    YieldsNothing model node ↔
      node.kind.ownsReturnType = true ∧ ∃ f, model.symbol? node = some (.function f) ∧
        (f.returns = none ∨ ∃ type, f.returns = some type ∧ I.values type ⊆ {I.nil}) := by
  unfold YieldsNothing
  refine and_congr_right fun _ => exists_congr fun f => and_congr_right fun _ => ?_
  cases f.returns with
  | none => simp
  | some type => simp [standard, TypeDesc.isNil_iff I]

section Position

variable {w : Workspace σ} {p : Position} {offset : Nat}
  (inside : w.document.offset? p = some offset) (s : σ)

include inside

theorem offersStop_iff :
    OffersStop w p s ↔
      ∃ node ∈ w.document.pathTo (.point offset), YieldsNothing w.model node := by
  have answer := congrArg Prod.fst (run_itemsAt_of_some inside s)
  rw [← canStop_iff, offersStop_iff_of_ok answer, holdsStop_iff]

theorem stopsBy_iff {node : Tree.Site} :
    StopsBy w p s node ↔
      node ∈ w.document.pathTo (.point offset) ∧ YieldsNothing w.model node := by
  have alone : StopsBy w p s node ↔ ∃ other ∈ w.document.pathTo (.point offset),
      YieldsNothing (w.model.resolveOnly node) other :=
    @offersStop_iff σ { w with model := w.model.resolveOnly node } p offset inside s
  rw [alone]
  simp only [yieldsNothing_resolveOnly_iff]
  constructor
  · rintro ⟨other, around, rfl, yields⟩
    exact ⟨around, yields⟩
  · rintro ⟨around, yields⟩
    exact ⟨node, around, rfl, yields⟩

theorem offersStop_iff_exists_stopsBy : OffersStop w p s ↔ ∃ node, StopsBy w p s node := by
  simp only [offersStop_iff inside, stopsBy_iff inside]

end Position

/-- Under every interpretation, the check of a type decides whether its values are among those of
nil. So, for a model that leaves the check to the types, the palette at a position offers to stop
the flow just if some node is a reason for it, and a node is a reason just if it is a definition
around the position that is resolved to a function which declares no return type, or one that has no
value but nil. -/
theorem stop_exact {α : Type*} (I : Interpretation α) :
    (∀ type : TypeDesc, type.isNil = true ↔ I.values type ⊆ {I.nil}) ∧
    ∀ {σ : Type} (w : Workspace σ) (p : Position) (s : σ), w.model.isNil = TypeDesc.isNil →
      match w.document.offset? p with
      | none => ((itemsAt w p).run s).1 = .error (.invalidPosition p)
      | some offset =>
        (OffersStop w p s ↔ ∃ node, StopsBy w p s node) ∧
        ∀ node, StopsBy w p s node ↔
          node ∈ w.document.pathTo (.point offset) ∧ node.kind.ownsReturnType = true ∧
            ∃ f, w.model.symbol? node = some (.function f) ∧
              (f.returns = none ∨ ∃ type, f.returns = some type ∧ I.values type ⊆ {I.nil}) := by
  refine ⟨TypeDesc.isNil_iff I, ?_⟩
  intro σ w p s standard
  cases inside : w.document.offset? p with
  | none => simp [run_itemsAt_of_none inside]
  | some offset =>
    refine ⟨offersStop_iff_exists_stopsBy inside s, ?_⟩
    intro node
    rw [stopsBy_iff inside, yieldsNothing_iff I standard]

/-- Of a function in a method, the function alone is a reason: it returns nil through a reference,
while the method also returns JSON, which has nil among its values, but others too. -/
theorem stop_exact_of_nested :
    let function : Tree.Site := ⟨.functionDefinition, 1, [.token .identifier "f"]⟩
    let method : Tree.Site := ⟨.objectMethodDefinition, 0,
      [.token .identifier "m", .node .functionDefinition function.children]⟩
    let d : Document := ⟨"main.bal", ⟨.sourceFile, [.node .objectMethodDefinition method.children]⟩⟩
    let unit : TypeDesc := .union [.reference "Unit" none (.basic .nil), .basic .never, .union []]
    let returning (type : TypeDesc) : Symbol := .function ⟨"f", some type, [], none, none⟩
    let facts := (Snapshot.empty.bind function (returning unit)).bind method
      (returning (.union [unit, .basic .json]))
    let w : Workspace Backend := ⟨d, facts.model, Backend.lookup, [], .standard⟩
    let s : Backend := .ofIndex .empty
    w.model.isNil = TypeDesc.isNil ∧ d.offset? ⟨0, 2⟩ = some 2 ∧
      OffersStop w ⟨0, 2⟩ s ∧ StopsBy w ⟨0, 2⟩ s function ∧ ¬ StopsBy w ⟨0, 2⟩ s method := by
  intro function method d unit returning facts w s
  have standard : w.model.isNil = TypeDesc.isNil := rfl
  have inside : w.document.offset? ⟨0, 2⟩ = some 2 := by decide +kernel
  have path : w.document.pathTo (.point 2) = [function, method, d.root] := rfl
  obtain ⟨decides, reasons⟩ := stop_exact Interpretation.tagged
  have reasons := reasons w ⟨0, 2⟩ s standard
  rw [inside] at reasons
  obtain ⟨offered, stopsBy⟩ := reasons
  have byFunction : StopsBy w ⟨0, 2⟩ s function := by
    have nil := (decides unit).mp (by decide +kernel)
    exact (stopsBy function).mpr ⟨by simp [path], rfl, _, rfl, .inr ⟨unit, rfl, nil⟩⟩
  refine ⟨standard, inside, offered.mpr ⟨function, byFunction⟩, byFunction, ?_⟩
  intro byMethod
  obtain ⟨-, -, f, resolved, yields⟩ := (stopsBy method).mp byMethod
  cases resolved
  obtain none | ⟨type, declared, nil⟩ := yields
  · cases none
  · cases declared
    have checked := (decides _).mpr nil
    exact absurd checked (by decide +kernel)

end Palette

end FlowDiagram
