import FlowDiagram.Proofs.Palette.Connections

/-!
# The palette as a list

What a palette lists at a position, from the first group to the last entry of the library, and which
kinds of nodes can be inserted from each group of the flow. A group is found by its label
(`kindsUnder`), and what the library holds never stands in the place of one.
-/

namespace FlowDiagram.Palette

/-- The kinds that items offer under a label, if a category has it. -/
def kindsUnder (label : String) (items : List Item) : Option (List EntryKind) :=
  (Category.subcategory? ⟨CategoryName.root.metadata, items⟩ label).map Category.entryKinds

def controlKinds (stops loops : Bool) : List EntryKind :=
  [.ifElse, .matchValue, .whileLoop, .foreachLoop, .returnValue]
    ++ (if stops then [.stop] else [])
    ++ if loops then [.breakLoop, .continueLoop] else []

section Groups

variable (connections : List Category) (stops loops : Bool) (library : List Item)

theorem kindsUnder_statement :
    kindsUnder "Statement" (connectionsGroup connections ++ flowGroups stops loops ++ library) =
      some [.declareVariable, .assign, .callFunction, .dataMapper] := by
  cases connections <;> rfl

/-- The group of control flow is found behind that of the connections, whatever else has its name
in the library. -/
theorem kindsUnder_control :
    kindsUnder "Control" (connectionsGroup connections ++ flowGroups stops loops ++ library) =
      some (controlKinds stops loops) := by
  cases connections <;> cases stops <;> cases loops <;> rfl

theorem kindsUnder_errorHandling :
    kindsUnder "Error Handling" (connectionsGroup connections ++ flowGroups stops loops ++ library) =
      some [.fail, .panic] := by
  cases connections <;> rfl

end Groups

variable {σ : Type}

theorem sortedByLabel_eq_nil_iff {categories : List Category} :
    sortedByLabel categories = [] ↔ categories = [] := by
  rw [← List.perm_nil, (sortedByLabel_perm categories).congr_left, List.perm_nil]

/-- The palette at a position. It fails for positions outside the document only. Inside, no step
of making it fails, and it lists the connections, if a visible symbol was kept as one, then the
groups of the flow, of which that of control flow is one however often it was entered, and then the
library. -/
theorem itemsAt_exact (w : Workspace σ) (p : Position) (s : σ) :
    match w.document.offset? p with
    | none => ((itemsAt w p).run s).1 = .error (.invalidPosition p)
    | some offset =>
      ∃ node outer stops loops,
        w.document.pathTo (.point offset) = node :: outer ∧
        w.document.nodeAt? (.point offset) = some node ∧
        Tree.Lineage w.document.root (node :: outer) ∧
        (stops = true ↔ ∃ definition ∈ node :: outer, YieldsNothing w.model definition) ∧
        (loops = true ↔ LoopDecides (node :: outer)) ∧
        let symbols := w.model.visibleSymbols w.document p
        let connections := sortedByLabel ((connectionCategories w symbols).run s).1
        let items := connectionsGroup connections ++ flowGroups stops loops ++ w.library
        (connections = [] ↔ ∀ index symbol, symbols[index]? = some symbol → ∀ category,
          ¬ (answersAt w symbols s index).Keeps w.settings symbol category) ∧
        Draft.empty.run (paletteSteps stops loops connections) >>= Draft.finish =
          .ok ⟨CategoryName.root.metadata,
            connectionsGroup connections ++ flowGroups stops loops⟩ ∧
        ((itemsAt w p).run s).1 = .ok items ∧
        kindsUnder "Statement" items = some [.declareVariable, .assign, .callFunction, .dataMapper] ∧
        kindsUnder "Control" items =
          some ([.ifElse, .matchValue, .whileLoop, .foreachLoop, .returnValue]
            ++ (if stops then [.stop] else [])
            ++ if loops then [.breakLoop, .continueLoop] else []) ∧
        kindsUnder "Error Handling" items = some [.fail, .panic] := by
  cases inside : w.document.offset? p with
  | none => simp [run_itemsAt_of_none inside]
  | some offset =>
    have lineage := Document.lineage_pathTo inside
    obtain ⟨node, outer, path⟩ := List.exists_cons_of_ne_nil lineage.ne_nil
    refine ⟨node, outer, canStop w.model (node :: outer), inLoop (node :: outer), path, ?_,
      path ▸ lineage, canStop_iff, inLoop_iff, ?_, ?_, ?_, kindsUnder_statement _ _ _ _,
      kindsUnder_control _ _ _ _, kindsUnder_errorHandling _ _ _ _⟩
    · rw [Document.nodeAt?, path]
      rfl
    · rw [sortedByLabel_eq_nil_iff]
      exact run_connectionCategories_fst_eq_nil_iff
    · rw [finish_paletteSteps, paletteItems_eq]
    · have answer := run_itemsAt_of_some inside s
      rw [path] at answer
      exact congrArg Prod.fst answer

/-- In a loop of a function that declares no return type the flow can stop and the loop can be left,
and a category of the library that has the name of a group is not taken for it. -/
theorem itemsAt_exact_in_loop :
    let loop : Tree.Site := ⟨.whileStatement, 1, [.token .whileKeyword "while"]⟩
    let function : Tree.Site :=
      ⟨.functionDefinition, 0, [.token .identifier "f", .node .whileStatement loop.children]⟩
    let d : Document :=
      ⟨"main.bal", ⟨.sourceFile, [.node .functionDefinition function.children]⟩⟩
    let facts := Snapshot.empty.bind function (.function ⟨"f", none, [], none, none⟩)
    let library : Item := .category ⟨"Control", none, none, []⟩ []
    let w : Workspace Backend := ⟨d, facts.model, Backend.lookup, [library], .standard⟩
    ∃ items, ((itemsAt w ⟨0, 3⟩).run (.ofIndex .empty)).1 = .ok items ∧
      items.map Item.label = ["Statement", "Control", "Error Handling", "Control"] ∧
      kindsUnder "Statement" items = some [.declareVariable, .assign, .callFunction, .dataMapper] ∧
      kindsUnder "Control" items =
        some [.ifElse, .matchValue, .whileLoop, .foreachLoop, .returnValue, .stop, .breakLoop,
          .continueLoop] ∧
      kindsUnder "Error Handling" items = some [.fail, .panic] := by
  intro loop function d facts library w
  have inside : w.document.offset? ⟨0, 3⟩ = some 3 := by decide +kernel
  have path : w.document.pathTo (.point 3) = [loop, function, d.root] := rfl
  have exact := itemsAt_exact w ⟨0, 3⟩ (.ofIndex .empty)
  rw [inside] at exact
  obtain ⟨node, outer, stops, loops, around, -, -, stopped, looped, connected, -, answer, statement,
    control, errorHandling⟩ := exact
  obtain ⟨rfl, rfl⟩ := List.cons.inj (path.symm.trans around)
  have yields : YieldsNothing w.model function :=
    ⟨rfl, _, rfl, fun type returns => by cases returns⟩
  obtain rfl := stopped.mpr ⟨function, by simp, yields⟩
  obtain rfl := looped.mpr ⟨[], loop, _, rfl, by simp, rfl⟩
  have unconnected := connected.mpr fun index symbol visible => by cases visible
  refine ⟨_, answer, ?_, statement, control, errorHandling⟩
  rw [unconnected]
  rfl

end FlowDiagram.Palette
