import FlowDiagram.Palette.EntryKind
import FlowDiagram.Palette.CategoryName

/-!
# Palette items

A palette is a list of items. An item is an entry that can be inserted, or a category that holds
items of its own.
-/

namespace FlowDiagram.Palette

/-- How an item is shown. -/
structure Metadata where
  label : String
  description : Option String
  icon : Option String
  keywords : List String
  deriving DecidableEq

def Metadata.ofLabel (label : String) : Metadata := ⟨label, none, none, []⟩

def CategoryName.metadata (name : CategoryName) : Metadata :=
  ⟨name.label, some name.description, none, name.keywords⟩

/-- What an entry inserts: its kind and, for what comes from a library, its place there. -/
structure Codedata where
  node : EntryKind
  org : Option String
  home : Option String
  object : Option String
  symbol : Option String
  version : Option String
  id : Option Int64
  deriving DecidableEq

def Codedata.ofKind (kind : EntryKind) : Codedata := ⟨kind, none, none, none, none, none, none⟩

/-- What can be inserted. -/
structure Entry where
  metadata : Metadata
  codedata : Codedata
  enabled : Bool
  deriving DecidableEq

/-- The enabled entry of a kind, with the kind's label and description. -/
def Entry.ofKind (kind : EntryKind) : Entry :=
  ⟨⟨kind.label, some kind.description, none, []⟩, .ofKind kind, true⟩

/-- An entry, or a category with its items. -/
inductive Item where
  | category (metadata : Metadata) (items : List Item)
  | entry (entry : Entry)

structure Category where
  metadata : Metadata
  items : List Item

def Item.ofKind (kind : EntryKind) : Item := .entry (.ofKind kind)

def Category.toItem (c : Category) : Item := .category c.metadata c.items

namespace Item

def category? : Item → Option Category
  | .category metadata items => some ⟨metadata, items⟩
  | .entry _ => none

def entry? : Item → Option Entry
  | .category _ _ => none
  | .entry e => some e

def label : Item → String
  | .category metadata _ => metadata.label
  | .entry e => e.metadata.label

end Item

namespace Category

def label (c : Category) : String := c.metadata.label

/-- The first category with a label among the items of a category. -/
def subcategory? (c : Category) (label : String) : Option Category :=
  (c.items.filterMap Item.category?).find? fun sub => sub.label == label

/-- The kinds of the entries among the items of a category, in order. -/
def entryKinds (c : Category) : List EntryKind :=
  (c.items.filterMap Item.entry?).map fun e => e.codedata.node

end Category

end FlowDiagram.Palette
