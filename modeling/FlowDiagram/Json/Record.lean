import FlowDiagram.Json.Value

/-!
# Records with known fields

A record is written as an object, or as an array of its fields in their order. In an object the
fields may come in any order and other members are skipped, but every key must be a text and no
known field may repeat. `Record` holds the fields found; the readers below differ in what they
make of a field that is missing or null.
-/

namespace FlowDiagram.Json

/-- The fields that a record gives, by name. `positional` tells that it is an array. -/
structure Record where
  positional : Bool
  fields : List (String × Json)

/-- The members of an object, if all keys are texts. -/
def namedMembers? (members : List (Option String × Json)) : Option (List (String × Json)) :=
  members.mapM fun (key, value) => key.map fun name => (name, value)

/-- The members with known names, if none of these repeats. -/
def knownFields? (names : List String) (members : List (String × Json)) :
    Option (List (String × Json)) :=
  let known := members.filter fun (name, _) => names.contains name
  if (known.map Prod.fst).Nodup then some known else none

/-- The record with fields of these names that an object writes. -/
def objectRecord? (names : List String) : Json → Option Record
  | .obj members => do
    let named ← namedMembers? members
    let fields ← knownFields? names named
    some ⟨false, fields⟩
  | _ => none

/-- The record with fields of these names that an object or an array writes. -/
def record? (names : List String) : Json → Option Record
  | .arr elements =>
    if elements.length ≤ names.length then some ⟨true, names.zip elements⟩ else none
  | j => objectRecord? names j

namespace Record

variable {α : Type}

def find? (r : Record) (name : String) : Option Json := r.fields.lookup name

def required? (r : Record) (name : String) (read : Json → Option α) : Option α :=
  r.find? name >>= read

/-- A field that may be null, and that an object may leave out. -/
def nullable? (r : Record) (name : String) (read : Json → Option α) : Option (Option α) :=
  match r.find? name with
  | none => if r.positional then none else some none
  | some .null => some none
  | some j => (read j).map some

/-- A field that may be null or left out. -/
def optional? (r : Record) (name : String) (read : Json → Option α) : Option (Option α) :=
  match r.find? name with
  | none => some none
  | some .null => some none
  | some j => (read j).map some

/-- A field that takes a value of its own when it is left out. -/
def defaulted? (r : Record) (name : String) (default : α) (read : Json → Option α) : Option α :=
  match r.find? name with
  | none => some default
  | some j => read j

end Record

end FlowDiagram.Json
