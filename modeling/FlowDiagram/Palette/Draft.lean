import FlowDiagram.Palette.Item

/-!
# Palettes in the making

A `Draft` collects items into nested groups. It stands in one group at a time: it enters a group
by name, which opens the group if it is new, and leaves it again. `Draft.finish` lists, for each
group, the groups inside it in the order in which they were opened, and then its own items;
groups without items are left out.
-/

namespace FlowDiagram.Palette

/-- A group of a draft: the groups inside it in the order of their opening, and its own items. -/
structure Group where
  name : CategoryName
  groups : List Group
  items : List Item

namespace Group

def empty (name : CategoryName) : Group := ⟨name, [], []⟩

def append (g : Group) (items : List Item) : Group := { g with items := g.items ++ items }

/-- Change the group with a name in a list; open it at the end of the list if it is not there. -/
def editNamed (name : CategoryName) (change : Group → Group) : List Group → List Group
  | [] => [change (empty name)]
  | g :: gs => if g.name = name then change g :: gs else g :: editNamed name change gs

/-- Change the group that a path leads to; groups of the path that are missing are opened. -/
def edit : List CategoryName → (Group → Group) → Group → Group
  | [], change, g => change g
  | name :: path, change, g => { g with groups := editNamed name (edit path change) g.groups }

def find? : List CategoryName → Group → Option Group
  | [], g => some g
  | name :: path, g => (g.groups.find? fun sub => sub.name == name).bind (find? path)

mutual

def category : Group → Category
  | ⟨name, groups, items⟩ => ⟨name.metadata, categories groups ++ items⟩

/-- The categories that groups become, without those that hold no items. -/
def categories : List Group → List Item
  | [] => []
  | g :: gs =>
    if (category g).items.isEmpty then categories gs else (category g).toItem :: categories gs

end

end Group

/-- A palette in the making, and the path from the root to the group it stands in. -/
structure Draft where
  root : Group
  path : List CategoryName

/-- What is wrong with a use of a draft. -/
inductive DraftError where
  | atRoot
  | leftOpen (path : List CategoryName)
  deriving DecidableEq

def DraftError.message : DraftError → String
  | .atRoot => "step_out called on the root category"
  | .leftOpen path =>
    "unbalanced step_in: [" ++ ", ".intercalate (path.map CategoryName.identifier)
      ++ "] still open"

namespace Draft

/-- The draft that holds nothing and stands at the root. -/
def empty : Draft := ⟨.empty .root, []⟩

def enter (d : Draft) (name : CategoryName) : Draft :=
  ⟨d.root.edit (d.path ++ [name]) id, d.path ++ [name]⟩

def leave (d : Draft) : Except DraftError Draft :=
  if d.path = [] then .error .atRoot else .ok { d with path := d.path.dropLast }

def append (d : Draft) (items : List Item) : Draft :=
  { d with root := d.root.edit d.path fun g => g.append items }

/-- Enter a group, add items to it and leave it again. -/
def fill (d : Draft) (name : CategoryName) (items : List Item) : Draft :=
  { (d.enter name).append items with path := d.path }

/-- The palette, once the draft stands at the root again. -/
def finish (d : Draft) : Except DraftError Category :=
  if d.path = [] then .ok d.root.category else .error (.leftOpen d.path)

inductive Step where
  | enter (name : CategoryName)
  | leave
  | append (items : List Item)

def apply (d : Draft) : Step → Except DraftError Draft
  | .enter name => .ok (d.enter name)
  | .leave => d.leave
  | .append items => .ok (d.append items)

@[simp] theorem path_empty : empty.path = [] := rfl

@[simp] theorem path_enter (d : Draft) (name : CategoryName) :
    (d.enter name).path = d.path ++ [name] := rfl

@[simp] theorem path_append (d : Draft) (items : List Item) : (d.append items).path = d.path := rfl

@[simp] theorem path_fill (d : Draft) (name : CategoryName) (items : List Item) :
    (d.fill name items).path = d.path := rfl

/-- Filling a group is entering it, adding the items and leaving it. -/
theorem leave_append_enter (d : Draft) (name : CategoryName) (items : List Item) :
    ((d.enter name).append items).leave = .ok (d.fill name items) := by
  simp [leave, fill]

/-- Leaving fails at the root only. -/
theorem leave_eq_error_iff {d : Draft} {e : DraftError} :
    d.leave = .error e ↔ d.path = [] ∧ e = .atRoot := by
  by_cases h : d.path = [] <;> simp [leave, h, eq_comm]

end Draft

end FlowDiagram.Palette
