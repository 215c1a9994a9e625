import FlowDiagram.Json.Record
import FlowDiagram.Json.Strict
import FlowDiagram.Palette.Item

/-!
# Palette items in JSON

Fields that are absent are left out when an item is written. An item carries no mark of what it
is: it is read as a category if it can be, and otherwise as an entry. Because its shape is found
out by trial, the whole item has to be strict, whereas a category, an entry or their parts that
are expected as such may hold members that nobody reads.
-/

namespace FlowDiagram

namespace Palette

namespace EntryKind

def toJson (kind : EntryKind) : Json := .ofText kind.code

def ofJson? (j : Json) : Option EntryKind := j.oneOf? codes

end EntryKind

namespace Metadata

/-- Write metadata; an empty list of keywords is left out too. -/
def toJson (m : Metadata) : Json :=
  .ofFields
    ([("label", .ofText m.label)]
      ++ Json.presentField "description" Json.ofText m.description
      ++ Json.presentField "icon" Json.ofText m.icon
      ++ if m.keywords.isEmpty then [] else [("keywords", .ofList Json.ofText m.keywords)])

def ofJson? (j : Json) : Option Metadata := do
  let r ← j.record? ["label", "description", "icon", "keywords"]
  let label ← r.required? "label" Json.text?
  let description ← r.optional? "description" Json.text?
  let icon ← r.optional? "icon" Json.text?
  let keywords ← r.defaulted? "keywords" [] (Json.list? Json.text?)
  some ⟨label, description, icon, keywords⟩

end Metadata

namespace Codedata

def toJson (c : Codedata) : Json :=
  .ofFields
    ([("node", c.node.toJson)]
      ++ Json.presentField "org" Json.ofText c.org
      ++ Json.presentField "module" Json.ofText c.home
      ++ Json.presentField "object" Json.ofText c.object
      ++ Json.presentField "symbol" Json.ofText c.symbol
      ++ Json.presentField "version" Json.ofText c.version
      ++ Json.presentField "id" Json.ofInt64 c.id)

def ofJson? (j : Json) : Option Codedata := do
  let r ← j.record? ["node", "org", "module", "object", "symbol", "version", "id"]
  let node ← r.required? "node" EntryKind.ofJson?
  let org ← r.optional? "org" Json.text?
  let home ← r.optional? "module" Json.text?
  let object ← r.optional? "object" Json.text?
  let symbol ← r.optional? "symbol" Json.text?
  let version ← r.optional? "version" Json.text?
  let id ← r.optional? "id" Json.int64?
  some ⟨node, org, home, object, symbol, version, id⟩

end Codedata

namespace Entry

def toJson (e : Entry) : Json :=
  .ofFields
    [("metadata", e.metadata.toJson), ("codedata", e.codedata.toJson),
      ("enabled", .bool e.enabled)]

def ofJson? (j : Json) : Option Entry := do
  let r ← j.record? ["metadata", "codedata", "enabled"]
  let metadata ← r.required? "metadata" Metadata.ofJson?
  let codedata ← r.required? "codedata" Codedata.ofJson?
  let enabled ← r.required? "enabled" Json.bool?
  some ⟨metadata, codedata, enabled⟩

end Entry

namespace Item

mutual

def toJson : Item → Json
  | .category metadata items =>
    .ofFields [("metadata", metadata.toJson), ("items", .arr (toJsonAll items))]
  | .entry e => e.toJson

def toJsonAll : List Item → List Json
  | [] => []
  | i :: is => toJson i :: toJsonAll is

end

/-- Read an item that nests at most `depth` arrays and objects, whose literals hold. -/
def read? : Nat → Json → Option Item
  | depth + 2, j =>
    let category : Option Item := do
      let r ← j.record? ["metadata", "items"]
      let metadata ← r.required? "metadata" Metadata.ofJson?
      let items ← r.required? "items" (Json.list? (read? depth))
      some (.category metadata items)
    match category with
    | some i => some i
    | none => (Entry.ofJson? j).map .entry
  | _, j => (Entry.ofJson? j).map .entry

/-- Read an item where at most `depth` arrays and objects may be open. -/
def ofJson? (depth : Nat) (j : Json) : Option Item :=
  if j.strict depth then read? depth j else none

end Item

namespace Category

def toJson (c : Category) : Json := c.toItem.toJson

/-- Read a category; the items are two levels further in. -/
def ofJson? (j : Json) : Option Category := do
  let r ← j.record? ["metadata", "items"]
  let metadata ← r.required? "metadata" Metadata.ofJson?
  let items ← r.required? "items" (Json.list? (Item.ofJson? (Json.nestingLimit - 2)))
  some ⟨metadata, items⟩

end Category

end Palette

end FlowDiagram
