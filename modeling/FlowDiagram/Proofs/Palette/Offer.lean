import FlowDiagram.Palette.Offer
import FlowDiagram.Proofs.Tree.Lineage

/-!
# What a palette offers

The groups of a palette, written out (`connectionsGroup`, `flowGroups`). The draft that
`paletteItems` makes is the one that single steps make, each of which may fail; none does, whatever
encloses the position. Which nodes of the flow the groups hold depends on the way up from the
position in two independent ways: the innermost loop or block decides whether a loop can be left,
and any definition on the way that is known to yield nothing lets the flow stop.
-/

namespace FlowDiagram.Palette

namespace Draft

/-- The draft after steps, up to the first that fails. -/
def run (d : Draft) (steps : List Step) : Except DraftError Draft := steps.foldlM apply d

theorem run_append (d : Draft) (first second : List Step) :
    d.run (first ++ second) = d.run first >>= fun d => d.run second := List.foldlM_append

/-- The steps that enter a group, add items to it and leave it again. -/
def filling (name : CategoryName) (items : List Item) : List Step :=
  [.enter name, .append items, .leave]

@[simp] theorem run_filling (d : Draft) (name : CategoryName) (items : List Item) :
    d.run (filling name items) = .ok (d.fill name items) := by
  simp [run, filling, apply, bind, Except.bind, leave_append_enter, pure, Except.pure]

/-- Filling a group after other steps fails only if they do. -/
theorem run_append_filling {d d' : Draft} {steps : List Step} (h : d.run steps = .ok d')
    (name : CategoryName) (items : List Item) :
    d.run (steps ++ filling name items) = .ok (d'.fill name items) := by
  rw [run_append, h]
  exact run_filling d' name items

/-- Filling a group under a condition fails only if the steps before do. -/
theorem run_append_ite_filling {d d' : Draft} {steps : List Step} (h : d.run steps = .ok d')
    (condition : Bool) (name : CategoryName) (items : List Item) :
    d.run (steps ++ if condition then filling name items else []) =
      .ok (if condition then d'.fill name items else d') := by
  cases condition with
  | false => simpa using h
  | true => exact run_append_filling h name items

end Draft

/-- The steps that make a palette: every group is filled before the next is entered, and the group
of control flow is entered up to three times. -/
def paletteSteps (stops loops : Bool) (connections : List Category) : List Draft.Step :=
  Draft.filling .connections (connections.map Category.toItem)
    ++ Draft.filling .statement statementItems
    ++ Draft.filling .control controlItems
    ++ Draft.filling .errorHandling errorItems
    ++ (if stops then Draft.filling .control [.ofKind .stop] else [])
    ++ (if loops then Draft.filling .control loopItems else [])

/-- The group of the connections, which is there only if it holds some. -/
def connectionsGroup (connections : List Category) : List Item :=
  if connections.isEmpty then []
  else
    [.category
      ⟨"Connections", some "The connections used in the flow", none,
        ["Connection", "Client", "Endpoint"]⟩
      (connections.map fun c => .category c.metadata c.items)]

/-- An enabled entry that comes from no library. -/
def offered (kind : EntryKind) (label description : String) : Item :=
  .entry ⟨⟨label, some description, none, []⟩, ⟨kind, none, none, none, none, none, none⟩, true⟩

def flowGroups (stops loops : Bool) : List Item :=
  [.category
    ⟨"Statement", some "Fundamental executable units in a program", none,
      ["Statement", "Variable", "Assignment"]⟩
    [offered .declareVariable "Declare Variable" "New variable with type",
      offered .assign "Assign" "Assign a value to a variable",
      offered .callFunction "Function Call" "Both project and utility functions",
      offered .dataMapper "Data Mapper" "Map data from multiple variables to a record type"],
   .category
    ⟨"Control", some "Allows execution of different blocks of code based on conditions", none,
      ["Control", "Loop", "Condition", "Branch"]⟩
    ([offered .ifElse "If" "Add conditional branch to the integration flow.",
      offered .matchValue "Match" "Switches the data flow based on the value of an expression.",
      offered .whileLoop "While" "Loop over a block of code.",
      offered .foreachLoop "Foreach" "Iterate over a block of code.",
      offered .returnValue "Return" "Value of the function's return expression."]
      ++ (if stops then [offered .stop "Stop" "Stop the execution of the flow"] else [])
      ++ if loops then
          [offered .breakLoop "Break" "Break out of the loop",
            offered .continueLoop "Continue"
              "Skip the current iteration and continue with the next one"]
        else []),
   .category
    ⟨"Error Handling", some "Handles errors that occur during execution", none,
      ["Error", "Fail", "Panic"]⟩
    [offered .fail "Fail" "Fail the execution",
      offered .panic "Panic" "Panic and stop the execution"]]

section Draft

variable (model : SemanticModel) (path : List Tree.Site) (connections : List Category)

/-- The steps of a palette make the draft of `paletteItems`. -/
theorem run_paletteSteps :
    Draft.empty.run (paletteSteps (canStop model path) (inLoop path) connections) =
      .ok (addFlow model path
        (Draft.empty.fill .connections (connections.map Category.toItem))) := by
  have connected := Draft.run_filling .empty .connections (connections.map Category.toItem)
  have stated := Draft.run_append_filling connected .statement statementItems
  have controlled := Draft.run_append_filling stated .control controlItems
  have handled := Draft.run_append_filling controlled .errorHandling errorItems
  have stopped := Draft.run_append_ite_filling handled (canStop model path) .control
    [.ofKind .stop]
  exact Draft.run_append_ite_filling stopped (inLoop path) .control loopItems

@[simp] theorem path_addFlow (d : Draft) : (addFlow model path d).path = d.path := by
  unfold addFlow
  cases canStop model path <;> cases inLoop path <;> rfl

/-- The groups of a palette in order: re-entered groups are merged, and a group without items is
left out. -/
theorem category_addFlow :
    (addFlow model path
      (Draft.empty.fill .connections (connections.map Category.toItem))).root.category =
        ⟨CategoryName.root.metadata,
          connectionsGroup connections ++ flowGroups (canStop model path) (inLoop path)⟩ := by
  unfold addFlow
  cases canStop model path <;> cases inLoop path <;> cases connections <;> rfl

theorem paletteItems_eq :
    paletteItems model path connections =
      connectionsGroup connections ++ flowGroups (canStop model path) (inLoop path) :=
  congrArg Category.items (category_addFlow model path connections)

/-- No step of a palette fails, and every group that is entered is left again. -/
theorem finish_paletteSteps :
    Draft.empty.run (paletteSteps (canStop model path) (inLoop path) connections) >>= Draft.finish =
      .ok ⟨CategoryName.root.metadata, paletteItems model path connections⟩ := by
  rw [run_paletteSteps, paletteItems_eq, ← category_addFlow]
  simp [Draft.finish, bind, Except.bind]

end Draft

/-- A node is a definition that is known to yield nothing. -/
def YieldsNothing (model : SemanticModel) (node : Tree.Site) : Prop :=
  node.kind.ownsReturnType = true ∧ ∃ f, model.symbol? node = some (.function f) ∧
    ∀ type, f.returns = some type → model.isNil type = true

/-- Of the loops and blocks on a way up, the innermost is a loop. -/
def LoopDecides (path : List Tree.Site) : Prop :=
  ∃ inner node outer, path = inner ++ node :: outer ∧
    (∀ passed ∈ inner, passed.kind.construct = .other) ∧ node.kind.construct = .iterating

theorem asFunction?_eq_some_iff {s : Symbol} {f : FunctionDef} :
    s.asFunction? = some f ↔ s = .function f := by
  cases s <;> simp [Symbol.asFunction?]

theorem returnsNothing_iff {model : SemanticModel} {node : Tree.Site} :
    returnsNothing model node = true ↔ YieldsNothing model node := by
  unfold returnsNothing YieldsNothing
  rw [Bool.and_eq_true]
  refine and_congr_right fun _ => ?_
  cases found : (model.symbol? node).bind Symbol.asFunction? with
  | none =>
    refine ⟨fun h => by simp at h, ?_⟩
    rintro ⟨f, resolved, _⟩
    simp [resolved, Symbol.asFunction?] at found
  | some f =>
    obtain ⟨s, resolved, isFunction⟩ := Option.bind_eq_some_iff.mp found
    rw [asFunction?_eq_some_iff] at isFunction
    subst isFunction
    cases returns : f.returns <;> simp [resolved, returns]

/-- The flow can stop where any definition around yields nothing. -/
theorem canStop_iff {model : SemanticModel} {path : List Tree.Site} :
    canStop model path = true ↔ ∃ definition ∈ path, YieldsNothing model definition := by
  simp [canStop, returnsNothing_iff]

/-- Nodes that are neither loop nor block are passed on the way up; the first other one decides. -/
theorem decidingKind?_eq_find? (path : List Tree.Site) :
    decidingKind? path =
      (path.find? fun node => node.kind.construct ≠ .other).map Tree.Site.kind := by
  induction path with
  | nil => rfl
  | cons node path ih =>
    rw [decidingKind?, List.find?_cons, ih]
    by_cases other : node.kind.construct = .other <;> simp [other]

theorem decidingKind?_eq_some_iff {path : List Tree.Site} {kind : Tree.Kind} :
    decidingKind? path = some kind ↔
      ∃ inner node outer, path = inner ++ node :: outer ∧
        (∀ passed ∈ inner, passed.kind.construct = .other) ∧
        node.kind = kind ∧ kind.construct ≠ .other := by
  rw [decidingKind?_eq_find?, Option.map_eq_some_iff]
  simp only [List.find?_eq_some_iff_append, decide_eq_true_iff, Bool.not_eq_true',
    decide_eq_false_iff_not, ne_eq, Decidable.not_not]
  constructor
  · rintro ⟨node, ⟨decides, inner, outer, split, passed⟩, rfl⟩
    exact ⟨inner, node, outer, split, passed, rfl, decides⟩
  · rintro ⟨inner, node, outer, split, passed, rfl, decides⟩
    exact ⟨node, ⟨decides, inner, outer, split, passed⟩, rfl⟩

theorem inLoop_iff {path : List Tree.Site} : inLoop path = true ↔ LoopDecides path := by
  rw [inLoop, Option.any_eq_true]
  constructor
  · rintro ⟨kind, decides, loop⟩
    obtain ⟨inner, node, outer, split, passed, rfl, -⟩ := decidingKind?_eq_some_iff.mp decides
    exact ⟨inner, node, outer, split, passed, of_decide_eq_true loop⟩
  · rintro ⟨inner, node, outer, split, passed, loop⟩
    refine ⟨node.kind, decidingKind?_eq_some_iff.mpr ?_, decide_eq_true loop⟩
    exact ⟨inner, node, outer, split, passed, rfl, by simp [loop]⟩

variable {σ : Type}

/-- A position outside the document asks the lookup for nothing. -/
theorem run_itemsAt_of_none {w : Workspace σ} {p : Position} (h : w.document.offset? p = none)
    (s : σ) : (itemsAt w p).run s = (.error (.invalidPosition p), s, []) := by
  simp [itemsAt, Workspace.offset, h]

/-- Inside the document a palette opens with what became of the visible symbols, and the state and
the notices are those that this has left, but for the notice on what decided. -/
theorem run_itemsAt_of_some {w : Workspace σ} {p : Position} {offset : Nat}
    (h : w.document.offset? p = some offset) (s : σ) :
    let path := w.document.pathTo (.point offset)
    let (categories, s', notices) := (connectionCategories w (w.visibleSymbols p)).run s
    (itemsAt w p).run s =
      (.ok (connectionsGroup (sortedByLabel categories)
        ++ flowGroups (canStop w.model path) (inLoop path) ++ w.library),
        s', notices ++ [decisionNotice path]) := by
  simp [itemsAt, Workspace.offset, h, paletteItems_eq]

end FlowDiagram.Palette
