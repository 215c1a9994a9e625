import Mathlib.Data.List.Induction
import Mathlib.Data.List.Nodup
import FlowDiagram.Proofs.Palette.Group

/-!
# Drafts by path

What a draft becomes, told from the steps that were taken and not from the groups that they left.
Each step is taken at a path; `entered` and `appended` collect what was entered and appended at one
path, and `itemsUnder` lists the items of the category there. The group at a path is what these
say after every step (`agrees_after`), so the draft finishes as the palette that `itemsUnder`
describes, in whatever order steps at different paths follow each other.
-/

namespace FlowDiagram.Palette.Draft

def Step.items : Step → List Item
  | .append items => items
  | _ => []

def Step.entry? : Step → Option CategoryName
  | .enter name => some name
  | _ => none

/-- The path after a step; leaving the root is not possible and changes nothing. -/
def Step.move (path : List CategoryName) : Step → List CategoryName
  | .enter name => path ++ [name]
  | .leave => path.dropLast
  | .append _ => path

def standing (steps : List Step) : List CategoryName := steps.foldl Step.move []

/-- Steps, each with the path at which it is taken. -/
def moments (path : List CategoryName) : List Step → List (List CategoryName × Step)
  | [] => []
  | s :: steps => (path, s) :: moments (s.move path) steps

/-- The steps that are taken at a path. -/
def takenAt (steps : List Step) (path : List CategoryName) : List Step :=
  (moments [] steps).filterMap fun (place, s) => if place = path then some s else none

/-- The names entered from a path, each once, in the order in which they were first entered. -/
def entered (steps : List Step) (path : List CategoryName) : List CategoryName :=
  ((takenAt steps path).filterMap Step.entry?).eraseDups

def appended (steps : List Step) (path : List CategoryName) : List Item :=
  (takenAt steps path).flatMap Step.items

/-- The draft after a step; a step that fails changes nothing. -/
def next (d : Draft) (s : Step) : Draft :=
  match d.apply s with
  | .ok d' => d'
  | .error _ => d

def after (steps : List Step) : Draft := steps.foldl next .empty

theorem standing_concat (steps : List Step) (s : Step) :
    standing (steps ++ [s]) = s.move (standing steps) := List.foldl_concat ..

theorem after_concat (steps : List Step) (s : Step) :
    after (steps ++ [s]) = (after steps).next s := List.foldl_concat ..

@[simp] theorem next_enter (d : Draft) (name : CategoryName) :
    d.next (.enter name) = d.enter name := rfl

@[simp] theorem next_append (d : Draft) (items : List Item) :
    d.next (.append items) = d.append items := rfl

@[simp] theorem next_leave (d : Draft) : d.next .leave = { d with path := d.path.dropLast } := by
  by_cases atRoot : d.path = []
  · rw [next, apply, leave, if_pos atRoot, atRoot, List.dropLast_nil, ← atRoot]
  · rw [next, apply, leave, if_neg atRoot]

theorem moments_concat (path : List CategoryName) (steps : List Step) (s : Step) :
    moments path (steps ++ [s]) = moments path steps ++ [(steps.foldl Step.move path, s)] := by
  induction steps generalizing path with
  | nil => rfl
  | cons first steps ih => exact congrArg ((path, first) :: ·) (ih (first.move path))

theorem takenAt_concat (steps : List Step) (s : Step) (path : List CategoryName) :
    takenAt (steps ++ [s]) path =
      takenAt steps path ++ if path = standing steps then [s] else [] := by
  rw [takenAt, moments_concat, List.filterMap_append, takenAt, ← standing]
  by_cases here : path = standing steps
  · simp [here]
  · simp [here, Ne.symm here]

theorem appended_concat (steps : List Step) (s : Step) (path : List CategoryName) :
    appended (steps ++ [s]) path =
      appended steps path ++ if path = standing steps then s.items else [] := by
  rw [appended, takenAt_concat, List.flatMap_append, appended]
  split <;> simp

theorem eraseDups_concat (names : List CategoryName) (name : CategoryName) :
    (names ++ [name]).eraseDups = Group.addName names.eraseDups name := by
  rw [List.eraseDups_append, Group.addName]
  by_cases known : name ∈ names <;> simp [List.removeAll, List.eraseDups_cons, known]

theorem nodup_eraseDups (names : List CategoryName) : names.eraseDups.Nodup := by
  induction names using List.reverseRecOn with
  | nil => simp
  | append_singleton names name ih =>
    rw [eraseDups_concat, Group.addName]
    split
    · exact ih
    · next new => exact List.nodup_append_comm.mp (by simpa [new] using ih)

theorem nodup_entered (steps : List Step) (path : List CategoryName) :
    (entered steps path).Nodup := nodup_eraseDups _

theorem entered_concat_enter (steps : List Step) (name : CategoryName) (path : List CategoryName) :
    entered (steps ++ [.enter name]) path =
      if path = standing steps then Group.addName (entered steps path) name
      else entered steps path := by
  rw [entered, takenAt_concat, List.filterMap_append, entered]
  split
  · exact eraseDups_concat _ name
  · simp

theorem entered_concat_of_entry?_eq_none {s : Step} (steps : List Step) (h : s.entry? = none)
    (path : List CategoryName) : entered (steps ++ [s]) path = entered steps path := by
  rw [entered, takenAt_concat, List.filterMap_append, entered]
  split <;> simp [h]

/-- A path from which a group was entered is shorter than the steps are many. -/
theorem length_lt_of_mem_moments {path place : List CategoryName} {steps : List Step} {s : Step}
    (h : (place, s) ∈ moments path steps) : place.length < path.length + steps.length := by
  induction steps generalizing path with
  | nil => cases h
  | cons first steps ih =>
    rw [moments, List.mem_cons] at h
    rw [List.length_cons]
    rcases h with here | later
    · cases here
      omega
    · have bound := ih later
      have step : (first.move path).length ≤ path.length + 1 := by
        cases first <;> simp [Step.move, Nat.le_add_right_of_le]
      omega

theorem length_lt_of_mem_entered {steps : List Step} {path : List CategoryName}
    {name : CategoryName} (h : name ∈ entered steps path) : path.length < steps.length := by
  rw [entered, List.mem_eraseDups, List.mem_filterMap] at h
  obtain ⟨s, taken, -⟩ := h
  obtain ⟨⟨place, s'⟩, moment, here⟩ := List.mem_filterMap.mp taken
  obtain ⟨rfl, -⟩ : place = path ∧ s' = s := by simpa using here
  simpa using length_lt_of_mem_moments moment

/-- The items of the category at a path: the categories of the names entered from there, without
those that hold no items, and then the items appended there. -/
def itemsUnder (steps : List Step) (path : List CategoryName) : List Item :=
  ((entered steps path).attach.flatMap fun ⟨name, _⟩ =>
    Group.shown ⟨name.metadata, itemsUnder steps (path ++ [name])⟩) ++ appended steps path
termination_by steps.length - path.length
decreasing_by
  have bound := length_lt_of_mem_entered ‹_›
  rw [List.length_append, List.length_singleton]
  omega

theorem itemsUnder_eq (steps : List Step) (path : List CategoryName) :
    itemsUnder steps path =
      ((entered steps path).flatMap fun name =>
        Group.shown ⟨name.metadata, itemsUnder steps (path ++ [name])⟩) ++
          appended steps path := by
  rw [itemsUnder]
  simp

/-- A draft is what steps say: it stands where they lead, in a group that is open, and the group at
each path has the names entered from there and the items appended there. -/
structure Agrees (d : Draft) (steps : List Step) : Prop where
  path_eq : d.path = standing steps
  isOpen : (d.root.find? d.path).isSome = true
  name_eq : d.root.name = .root
  names_eq : ∀ path, (Group.reach path d.root).names = entered steps path
  items_eq : ∀ path, (Group.reach path d.root).items = appended steps path

theorem agrees_empty : Agrees .empty [] where
  path_eq := rfl
  isOpen := by simp [empty]
  name_eq := rfl
  names_eq path := (Group.reach_empty path .root).2
  items_eq path := (Group.reach_empty path .root).1

section Agrees

variable {d : Draft} {steps : List Step}

theorem Agrees.enter (h : d.Agrees steps) (name : CategoryName) :
    (d.enter name).Agrees (steps ++ [.enter name]) where
  path_eq := by rw [path_enter, h.path_eq, standing_concat, Step.move]
  isOpen := Group.isSome_find?_edit Group.keepsGroups_id.name _ _
  name_eq := (Group.name_edit Group.keepsGroups_id.name _ _).trans h.name_eq
  names_eq path := by
    rw [Draft.enter, Group.names_reach_open name path h.isOpen, entered_concat_enter, h.path_eq]
    split
    · next here => rw [← here, h.names_eq]
    · exact h.names_eq path
  items_eq path := by
    rw [Draft.enter, Group.items_reach_edit Group.keepsGroups_id, appended_concat]
    have same : (Group.reach path d.root).items = appended steps path := h.items_eq path
    split
    · next here => rw [id, ← here, same]; simp [Step.items]
    · rw [same]; simp [Step.items]

theorem Agrees.append (h : d.Agrees steps) (items : List Item) :
    (d.append items).Agrees (steps ++ [.append items]) where
  path_eq := by rw [path_append, h.path_eq, standing_concat, Step.move]
  isOpen := Group.isSome_find?_edit (Group.keepsGroups_append items).name _ _
  name_eq := (Group.name_edit (Group.keepsGroups_append items).name _ _).trans h.name_eq
  names_eq path := by
    rw [Draft.append, Group.names_reach_edit (Group.keepsGroups_append items) path h.isOpen,
      entered_concat_of_entry?_eq_none steps rfl, h.names_eq]
  items_eq path := by
    rw [Draft.append, Group.items_reach_edit (Group.keepsGroups_append items), appended_concat,
      ← h.path_eq]
    split
    · next here => rw [← here, ← h.items_eq path]; rfl
    · rw [h.items_eq path, List.append_nil]

theorem Agrees.leave (h : d.Agrees steps) :
    Agrees { d with path := d.path.dropLast } (steps ++ [.leave]) where
  path_eq := by rw [h.path_eq, standing_concat, Step.move]
  isOpen := by
    have isOpen := h.isOpen
    obtain ⟨last, split⟩ := List.dropLast_prefix d.path
    rw [← split] at isOpen
    exact Group.isSome_find?_of_append isOpen
  name_eq := h.name_eq
  names_eq path := by rw [entered_concat_of_entry?_eq_none steps rfl, h.names_eq]
  items_eq path := by
    rw [appended_concat, h.items_eq]
    simp [Step.items]

/-- One step keeps the agreement, also one that fails. -/
theorem Agrees.next (h : d.Agrees steps) (s : Step) : (d.next s).Agrees (steps ++ [s]) := by
  cases s with
  | enter name => exact h.enter name
  | append items => exact h.append items
  | leave =>
    rw [next_leave]
    exact h.leave

end Agrees

theorem agrees_after (steps : List Step) : (after steps).Agrees steps := by
  induction steps using List.reverseRecOn with
  | nil => exact agrees_empty
  | append_singleton steps s ih =>
    rw [after_concat]
    exact ih.next s

/-- The category of a group that has, at each path, the names and items that steps say. -/
theorem items_category_eq_itemsUnder (steps : List Step) (path : List CategoryName) (g : Group)
    (names_eq : ∀ rest, (Group.reach rest g).names = entered steps (path ++ rest))
    (items_eq : ∀ rest, (Group.reach rest g).items = appended steps (path ++ rest)) :
    (Group.category g).items = itemsUnder steps path := by
  induction path using itemsUnder.induct steps generalizing g with
  | case1 path ih =>
    have names := names_eq []
    have items := items_eq []
    rw [Group.reach_nil, List.append_nil] at names items
    rw [Group.items_category (names ▸ nodup_entered steps path), itemsUnder_eq, names, items]
    congr 1
    refine List.flatMap_congr fun name mem => ?_
    have inside := ih name mem (g.sub name) (fun rest => by simpa using names_eq (name :: rest))
      (fun rest => by simpa using items_eq (name :: rest))
    rw [← inside, Group.category_eq, Group.name_sub]

/-- The palette depends on what is entered and appended at each path, and on nothing else. -/
theorem itemsUnder_congr {steps steps' : List Step}
    (sameEntered : ∀ path, entered steps' path = entered steps path)
    (sameAppended : ∀ path, appended steps' path = appended steps path)
    (path : List CategoryName) : itemsUnder steps' path = itemsUnder steps path := by
  induction path using itemsUnder.induct steps with
  | case1 path ih =>
    rw [itemsUnder_eq, itemsUnder_eq, sameEntered, sameAppended]
    congr 1
    refine List.flatMap_congr fun name mem => ?_
    rw [ih name mem]

/-- The groups of a draft hold the items that were appended. -/
theorem allItems_after_perm (steps : List Step) :
    (Group.allItems (after steps).root).Perm (steps.flatMap Step.items) := by
  induction steps using List.reverseRecOn with
  | nil => simp [after, empty, Group.empty, Group.allItems, Group.allItemsOf]
  | append_singleton steps s ih =>
    rw [after_concat, List.flatMap_append, List.flatMap_singleton]
    have entered (path : List CategoryName) :
        (Group.allItems ((after steps).root.edit path id)).Perm
          (Group.allItems (after steps).root ++ []) :=
      Group.allItems_edit (fun g => by simp) path _
    cases s with
    | enter name => exact (entered _).trans (ih.append_right [])
    | append items =>
      have added := Group.allItems_edit (Group.allItems_append items) (after steps).path
        (after steps).root
      exact added.trans (ih.append_right items)
    | leave =>
      rw [next_leave]
      simpa [Step.items] using ih

/-- A draft after any steps, of which some may fail. It stands at the path where the steps lead, and
the groups on this path are all open; leaving fails at the root only, and changes nothing there.
Finishing fails below the root only, and names the path. At the root it gives the palette by path:
at each path first the categories of the names entered from there, each once and in the order of
their first entering, without those that hold no items, and then the items appended there. So every
item in the palette is either the category of a group or part of one appended item, which is there
as often as it was appended; and steps that differ only in how those at different paths follow each
other make the same palette. -/
theorem after_exact (steps : List Step) :
    let d := after steps
    d.path = standing steps ∧
    (d.root.find? d.path).isSome = true ∧
    (∀ e, d.apply .leave = .error e ↔ standing steps = [] ∧ e = .atRoot) ∧
    (standing steps = [] → after (steps ++ [.leave]) = d) ∧
    d.finish = (if standing steps = [] then
      .ok ⟨CategoryName.root.metadata, itemsUnder steps []⟩
      else .error (.leftOpen (standing steps))) ∧
    (∀ path, (entered steps path).Nodup ∧ itemsUnder steps path =
      ((entered steps path).flatMap fun name =>
        Group.shown ⟨name.metadata, itemsUnder steps (path ++ [name])⟩) ++
          appended steps path) ∧
    (∃ groups : List Category,
      (∀ c ∈ groups, c.items ≠ [] ∧ ∃ name : CategoryName, c.metadata = name.metadata) ∧
      (Item.partsOfAll (itemsUnder steps [])).Perm
        (groups.map Category.toItem ++ Item.partsOfAll (steps.flatMap Step.items))) ∧
    (∀ steps', standing steps' = standing steps →
      (∀ path, entered steps' path = entered steps path) →
      (∀ path, appended steps' path = appended steps path) →
      (after steps').finish = d.finish) := by
  intro d
  have agrees : d.Agrees steps := agrees_after steps
  have finished (steps : List Step) : (after steps).finish = if standing steps = [] then
      .ok ⟨CategoryName.root.metadata, itemsUnder steps []⟩
      else .error (.leftOpen (standing steps)) := by
    have agrees := agrees_after steps
    have items := items_category_eq_itemsUnder steps [] _ agrees.names_eq agrees.items_eq
    rw [finish, agrees.path_eq, ← items, Group.category_eq, agrees.name_eq]
  refine ⟨agrees.path_eq, agrees.isOpen, fun e => ?_, fun atRoot => ?_, finished steps,
    fun path => ⟨nodup_entered steps path, itemsUnder_eq steps path⟩, ?_,
    fun steps' samePath sameEntered sameAppended => ?_⟩
  · rw [apply, leave_eq_error_iff, agrees.path_eq]
  · rw [after_concat, next, apply, leave, agrees.path_eq, if_pos atRoot]
  · have items := items_category_eq_itemsUnder steps [] _ agrees.names_eq agrees.items_eq
    obtain ⟨groups, named, parts⟩ := Group.exists_groups d.root
    refine ⟨groups, named, ?_⟩
    rw [← items]
    exact parts.trans ((Item.partsOfAll_perm (allItems_after_perm steps)).append_left _)
  · rw [finished, finished, samePath, itemsUnder_congr sameEntered sameAppended]

-- A category that is left and entered again stays one category, before what is appended beside it.
example (a b : Item) :
    (after [.append [b], .enter .control, .leave, .enter .control, .append [a], .leave]).finish =
      (after [.enter .control, .append [a], .leave, .append [b]]).finish := by
  rfl

end FlowDiagram.Palette.Draft
