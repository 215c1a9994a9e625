import Mathlib.Data.List.Basic
import FlowDiagram.Palette.Draft

/-!
# Groups by path

A change to the group at the end of a path, seen from every other path. `Group.reach` gives the
group at a path, an empty one where none was opened; its items and the names of the groups inside it
are all that a group is. A change that leaves names and inner groups alone is seen at its own path
only (`items_reach_edit`), apart from the groups that it opens on the way.
-/

namespace FlowDiagram.Palette

namespace Group

/-- The group with a name inside a group; an empty one if it was not opened. -/
def sub (g : Group) (name : CategoryName) : Group :=
  (g.groups.find? fun inner => inner.name == name).getD (empty name)

/-- The group at the end of a path; an empty one if it was not opened. -/
def reach : List CategoryName → Group → Group
  | [], g => g
  | name :: path, g => reach path (g.sub name)

/-- The names of the groups inside a group, in the order of their opening. -/
def names (g : Group) : List CategoryName := g.groups.map Group.name

/-- Names with one more at the end, if it is new. -/
def addName (names : List CategoryName) (name : CategoryName) : List CategoryName :=
  if name ∈ names then names else names ++ [name]

theorem mem_addName (names : List CategoryName) (name : CategoryName) :
    name ∈ addName names name := by
  rw [addName]
  split <;> simp_all

/-- A change that concerns neither the name of a group nor the groups inside it. -/
structure KeepsGroups (change : Group → Group) : Prop where
  name : ∀ g, (change g).name = g.name
  groups : ∀ g, (change g).groups = g.groups

theorem keepsGroups_id : KeepsGroups id := ⟨fun _ => rfl, fun _ => rfl⟩

theorem keepsGroups_append (items : List Item) : KeepsGroups fun g => g.append items :=
  ⟨fun _ => rfl, fun _ => rfl⟩

@[simp] theorem reach_nil (g : Group) : reach [] g = g := rfl

@[simp] theorem reach_cons (name : CategoryName) (path : List CategoryName) (g : Group) :
    reach (name :: path) g = reach path (g.sub name) := rfl

@[simp] theorem find?_nil (g : Group) : find? [] g = some g := by
  simp [find?]

@[simp] theorem find?_cons (name : CategoryName) (path : List CategoryName) (g : Group) :
    find? (name :: path) g =
      (g.groups.find? fun inner => inner.name == name).bind (find? path) := by
  simp [find?]

@[simp] theorem edit_nil (change : Group → Group) (g : Group) : edit [] change g = change g := by
  simp [edit]

@[simp] theorem name_sub (g : Group) (name : CategoryName) : (g.sub name).name = name := by
  rw [sub]
  cases found : g.groups.find? fun inner => inner.name == name with
  | none => rfl
  | some inner => simpa using List.find?_some found

/-- A group at a path is open if the groups on the way are. -/
theorem isSome_find?_cons {name : CategoryName} {path : List CategoryName} {g : Group} :
    (g.find? (name :: path)).isSome = true ↔
      name ∈ g.names ∧ ((g.sub name).find? path).isSome = true := by
  rw [find?_cons, sub, names]
  cases found : g.groups.find? fun inner => inner.name == name with
  | none =>
    have unknown : name ∉ g.groups.map Group.name := by simpa using found
    simp [unknown]
  | some inner =>
    have member : name ∈ g.groups.map Group.name :=
      List.mem_map.mpr
        ⟨inner, List.mem_of_find?_eq_some found, by simpa using List.find?_some found⟩
    simp only [Option.bind_some, Option.getD_some, member, true_and]

theorem isSome_find?_of_append {path rest : List CategoryName} {g : Group}
    (h : (g.find? (path ++ rest)).isSome = true) : (g.find? path).isSome = true := by
  induction path generalizing g with
  | nil => simp
  | cons name path ih =>
    rw [List.cons_append, isSome_find?_cons] at h
    exact isSome_find?_cons.mpr ⟨h.1, ih h.2⟩

theorem reach_empty (path : List CategoryName) (name : CategoryName) :
    (reach path (empty name)).items = [] ∧ (reach path (empty name)).names = [] := by
  induction path generalizing name with
  | nil => exact ⟨rfl, rfl⟩
  | cons first path ih => exact ih first

section Edit

variable {change : Group → Group}

theorem name_edit (keeps : ∀ g, (change g).name = g.name) (path : List CategoryName) (g : Group) :
    (edit path change g).name = g.name := by
  cases path with
  | nil => rw [edit_nil, keeps]
  | cons name path => rfl

theorem find?_editNamed (keeps : ∀ g, (change g).name = g.name) (name other : CategoryName)
    (gs : List Group) :
    ((editNamed name change gs).find? fun inner => inner.name == other) =
      if other = name then
        some (change ((gs.find? fun inner => inner.name == name).getD (empty name)))
      else gs.find? fun inner => inner.name == other := by
  induction gs with
  | nil =>
    by_cases h : other = name
    · simp [editNamed, keeps, empty, h]
    · simp [editNamed, keeps, empty, h, Ne.symm h]
  | cons g gs ih =>
    rw [editNamed]
    by_cases here : g.name = name
    · subst here
      by_cases h : other = g.name
      · simp [keeps, h]
      · simp [keeps, h, Ne.symm h]
    · have passed : (g.name == name) = false := by simp [here]
      simp only [if_neg here, List.find?_cons, ih, passed]
      by_cases h : other = name
      · simp [h, passed]
      · by_cases first : g.name = other <;> simp [h]

theorem map_name_editNamed (keeps : ∀ g, (change g).name = g.name) (name : CategoryName)
    (gs : List Group) :
    (editNamed name change gs).map Group.name = addName (gs.map Group.name) name := by
  induction gs with
  | nil => simp [editNamed, keeps, empty, addName]
  | cons g gs ih =>
    rw [editNamed]
    by_cases here : g.name = name
    · simp [here, keeps, addName]
    · rw [if_neg here, List.map_cons, ih, List.map_cons, addName, addName]
      by_cases later : name ∈ gs.map Group.name <;> simp [later, Ne.symm here]

theorem sub_edit_cons (keeps : ∀ g, (change g).name = g.name) (name other : CategoryName)
    (path : List CategoryName) (g : Group) :
    (edit (name :: path) change g).sub other =
      if other = name then edit path change (g.sub name) else g.sub other := by
  rw [sub, edit, find?_editNamed (name_edit keeps path)]
  by_cases h : other = name <;> simp [h, sub]

theorem names_edit_cons (keeps : ∀ g, (change g).name = g.name) (name : CategoryName)
    (path : List CategoryName) (g : Group) :
    (edit (name :: path) change g).names = addName g.names name := by
  rw [names, edit, map_name_editNamed (name_edit keeps path)]
  rfl

/-- The items at a path after a change at a path. -/
theorem items_reach_edit (keeps : KeepsGroups change) (path other : List CategoryName) (g : Group) :
    (reach other (edit path change g)).items =
      if other = path then (change (reach path g)).items else (reach other g).items := by
  induction path generalizing other g with
  | nil =>
    cases other with
    | nil => simp
    | cons name other => simp [sub, keeps.groups]
  | cons name path ih =>
    cases other with
    | nil => rfl
    | cons first other =>
      rw [reach_cons, sub_edit_cons keeps.name]
      by_cases h : first = name
      · subst h
        simp [ih]
      · simp [h]

/-- A group is open after it was changed. -/
theorem isSome_find?_edit (keeps : ∀ g, (change g).name = g.name) (path : List CategoryName)
    (g : Group) : ((edit path change g).find? path).isSome = true := by
  induction path generalizing g with
  | nil => simp
  | cons name path ih =>
    rw [isSome_find?_cons, names_edit_cons keeps, sub_edit_cons keeps, if_pos rfl]
    exact ⟨mem_addName g.names name, ih (g.sub name)⟩

/-- Changing an open group opens no other. -/
theorem names_reach_edit (keeps : KeepsGroups change) {path : List CategoryName}
    (other : List CategoryName) {g : Group} (isOpen : (g.find? path).isSome = true) :
    (reach other (edit path change g)).names = (reach other g).names := by
  induction path generalizing other g with
  | nil =>
    cases other with
    | nil => simp [names, keeps.groups]
    | cons name other => simp [sub, keeps.groups]
  | cons name path ih =>
    obtain ⟨known, within⟩ := isSome_find?_cons.mp isOpen
    cases other with
    | nil => rw [reach_nil, reach_nil, names_edit_cons keeps.name, addName, if_pos known]
    | cons first other =>
      rw [reach_cons, reach_cons, sub_edit_cons keeps.name]
      by_cases h : first = name
      · rw [if_pos h, ih other within, h]
      · rw [if_neg h]

/-- Opening a group inside an open group adds its name there, if it is new. -/
theorem names_reach_open {path : List CategoryName} (name : CategoryName)
    (other : List CategoryName) {g : Group} (isOpen : (g.find? path).isSome = true) :
    (reach other (edit (path ++ [name]) id g)).names =
      if other = path then addName (reach path g).names name else (reach other g).names := by
  induction path generalizing other g with
  | nil =>
    cases other with
    | nil => simp [names_edit_cons keepsGroups_id.name]
    | cons first other =>
      rw [List.nil_append, reach_cons, sub_edit_cons keepsGroups_id.name, edit_nil, id]
      by_cases h : first = name <;> simp [h]
  | cons step path ih =>
    obtain ⟨known, within⟩ := isSome_find?_cons.mp isOpen
    cases other with
    | nil =>
      rw [List.cons_append, reach_nil, names_edit_cons keepsGroups_id.name, addName, if_pos known]
      simp
    | cons first other =>
      rw [List.cons_append, reach_cons, sub_edit_cons keepsGroups_id.name]
      by_cases h : first = step
      · subst h
        simp [ih other within]
      · simp [h]

end Edit

section Category

/-- A category as an item, unless it holds none. -/
def shown (c : Category) : List Item := if c.items.isEmpty then [] else [c.toItem]

theorem category_eq (g : Group) :
    category g = ⟨g.name.metadata, categories g.groups ++ g.items⟩ := by
  cases g
  simp [category]

theorem categories_eq (gs : List Group) :
    categories gs = gs.flatMap fun g => shown (category g) := by
  induction gs with
  | nil => simp [categories]
  | cons g gs ih =>
    rw [categories, List.flatMap_cons, ih, shown]
    split <;> rfl

theorem find?_name_of_mem {gs : List Group} (distinct : (gs.map Group.name).Nodup) {inner : Group}
    (h : inner ∈ gs) : (gs.find? fun g => g.name == inner.name) = some inner := by
  induction gs with
  | nil => cases h
  | cons g gs ih =>
    rw [List.map_cons, List.nodup_cons] at distinct
    rcases List.mem_cons.mp h with rfl | h
    · simp
    · have other : g.name ≠ inner.name := fun same =>
        distinct.1 (same ▸ List.mem_map_of_mem h)
      rw [List.find?_cons_of_neg (by simpa using other), ih distinct.2 h]

/-- A group with distinct names lists the groups inside it by name, and then its own items. -/
theorem items_category {g : Group} (distinct : g.names.Nodup) :
    (category g).items =
      (g.names.flatMap fun name => shown (category (g.sub name))) ++ g.items := by
  have byName : ∀ inner ∈ g.groups,
      shown (category inner) = shown (category (g.sub inner.name)) := by
    intro inner h
    rw [sub, find?_name_of_mem distinct h, Option.getD_some]
  rw [category_eq, categories_eq, names, List.flatMap_map]
  exact congrArg (· ++ g.items) (List.flatMap_congr byName)

end Category

end Group

namespace Item

mutual

/-- An item and all items inside it. -/
def parts : Item → List Item
  | .category metadata items => .category metadata items :: partsOfAll items
  | .entry e => [.entry e]

def partsOfAll : List Item → List Item
  | [] => []
  | i :: is => parts i ++ partsOfAll is

end

theorem partsOfAll_eq (items : List Item) : partsOfAll items = items.flatMap parts := by
  induction items with
  | nil => simp [partsOfAll]
  | cons i items ih => simp [partsOfAll, ih]

@[simp] theorem partsOfAll_nil : partsOfAll [] = [] := by
  simp [partsOfAll]

theorem partsOfAll_append (as bs : List Item) :
    partsOfAll (as ++ bs) = partsOfAll as ++ partsOfAll bs := by
  simp [partsOfAll_eq]

theorem partsOfAll_perm {as bs : List Item} (h : as.Perm bs) :
    (partsOfAll as).Perm (partsOfAll bs) := by
  rw [partsOfAll_eq, partsOfAll_eq]
  exact h.flatMap_right parts

end Item

namespace Group

section AllItems

mutual

/-- The items of a group and of the groups inside it. -/
def allItems : Group → List Item
  | ⟨_, groups, items⟩ => allItemsOf groups ++ items

def allItemsOf : List Group → List Item
  | [] => []
  | g :: gs => allItems g ++ allItemsOf gs

end

theorem allItems_eq (g : Group) : allItems g = allItemsOf g.groups ++ g.items := by
  cases g
  simp [allItems]

@[simp] theorem allItems_empty (name : CategoryName) : allItems (empty name) = [] := by
  simp [empty, allItems, allItemsOf]

theorem allItems_append (items : List Item) (g : Group) :
    (allItems (g.append items)).Perm (allItems g ++ items) := by
  simp [allItems_eq, append]

variable {change : Group → Group} {items : List Item}

theorem allItemsOf_editNamed (adds : ∀ g, (allItems (change g)).Perm (allItems g ++ items))
    (name : CategoryName) (gs : List Group) :
    (allItemsOf (editNamed name change gs)).Perm (allItemsOf gs ++ items) := by
  induction gs with
  | nil => simpa [editNamed, allItemsOf] using adds (empty name)
  | cons g gs ih =>
    rw [editNamed]
    split
    · rw [allItemsOf, allItemsOf, List.append_assoc]
      refine ((adds g).append_right _).trans ?_
      rw [List.append_assoc]
      exact List.perm_append_comm.append_left _
    · rw [allItemsOf, allItemsOf, List.append_assoc]
      exact ih.append_left _

/-- A change that adds items adds them wherever it is made. -/
theorem allItems_edit (adds : ∀ g, (allItems (change g)).Perm (allItems g ++ items))
    (path : List CategoryName) (g : Group) :
    (allItems (edit path change g)).Perm (allItems g ++ items) := by
  induction path generalizing g with
  | nil => exact adds g
  | cons name path ih =>
    have inside := allItemsOf_editNamed ih name g.groups
    rw [edit, allItems_eq, allItems_eq, List.append_assoc]
    refine (inside.append_right _).trans ?_
    rw [List.append_assoc]
    exact List.perm_append_comm.append_left _

private theorem perm_append_swap (as bs cs ds : List Item) :
    ((as ++ bs) ++ (cs ++ ds)).Perm ((as ++ cs) ++ (bs ++ ds)) := by
  rw [List.append_assoc, List.append_assoc]
  refine List.Perm.append_left as ?_
  rw [← List.append_assoc, ← List.append_assoc]
  exact List.perm_append_comm.append_right ds

mutual

/-- Every item in the category of a group is the category of a group inside it, or part of one of
the items that the groups hold. -/
theorem exists_groups : ∀ g : Group, ∃ groups : List Category,
    (∀ c ∈ groups, c.items ≠ [] ∧ ∃ name : CategoryName, c.metadata = name.metadata) ∧
      (Item.partsOfAll (category g).items).Perm
        (groups.map Category.toItem ++ Item.partsOfAll (allItems g))
  | ⟨name, groups, items⟩ => by
    obtain ⟨inner, named, parts⟩ := exists_groups_categories groups
    refine ⟨inner, named, ?_⟩
    rw [category, allItems, Item.partsOfAll_append, Item.partsOfAll_append, ← List.append_assoc]
    exact parts.append_right _

theorem exists_groups_categories : ∀ gs : List Group, ∃ groups : List Category,
    (∀ c ∈ groups, c.items ≠ [] ∧ ∃ name : CategoryName, c.metadata = name.metadata) ∧
      (Item.partsOfAll (categories gs)).Perm
        (groups.map Category.toItem ++ Item.partsOfAll (allItemsOf gs))
  | [] => ⟨[], by simp, by simp [categories, allItemsOf]⟩
  | g :: gs => by
    obtain ⟨first, named, parts⟩ := exists_groups g
    obtain ⟨rest, namedRest, partsRest⟩ := exists_groups_categories gs
    rw [categories, allItemsOf, Item.partsOfAll_append]
    split
    · next empty =>
      -- A group without items has no groups with items inside it either, so nothing is lost.
      rw [List.isEmpty_iff.mp empty, Item.partsOfAll_nil] at parts
      obtain ⟨-, nothing⟩ := List.append_eq_nil_iff.mp parts.nil_eq.symm
      exact ⟨rest, namedRest, by rwa [nothing]⟩
    · next shown =>
      refine ⟨category g :: first ++ rest, ?_, ?_⟩
      · intro c mem
        rcases List.mem_append.mp mem with mem | mem
        · rcases List.mem_cons.mp mem with rfl | mem
          · exact ⟨by simpa using shown, g.name, by rw [category_eq]⟩
          · exact named c mem
        · exact namedRest c mem
      · rw [Item.partsOfAll, Category.toItem, Item.parts]
        refine ((parts.cons _).append partsRest).trans ?_
        rw [List.map_append, List.map_cons]
        exact (perm_append_swap _ _ _ _).cons _

end

end AllItems

end Group

end FlowDiagram.Palette
