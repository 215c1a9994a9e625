import FlowDiagram.Json.Number

/-!
# JSON values

The value of a JSON text, with its literals as written: numbers are not rounded, the members of
an object keep their order and may repeat, and a string literal that escapes one half of a
surrogate pair without the other is a value that holds no text.
-/

namespace FlowDiagram

/-- A JSON value. Strings and keys are `none` where their literal denotes no text. -/
inductive Json where
  | null
  | bool (value : Bool)
  | num (value : Json.Number)
  | str (text : Option String)
  | arr (elements : List Json)
  | obj (members : List (Option String × Json))

namespace Json

def ofText (s : String) : Json := .str (some s)

def ofInt (n : Int) : Json := .num (.integer n)

def ofInt64 (n : Int64) : Json := .ofInt n.toInt

def ofFields (fields : List (String × Json)) : Json :=
  .obj (fields.map fun (key, value) => (some key, value))

def ofOption {α : Type} (f : α → Json) : Option α → Json
  | none => .null
  | some a => f a

/-- The field of a value that may be absent; no field for an absent one. -/
def presentField {α : Type} (name : String) (f : α → Json) : Option α → List (String × Json)
  | none => []
  | some a => [(name, f a)]

def ofList {α : Type} (f : α → Json) (as : List α) : Json := .arr (as.map f)

def text? : Json → Option String
  | .str s => s
  | _ => none

def bool? : Json → Option Bool
  | .bool b => some b
  | _ => none

def int? : Json → Option Int
  | .num (.integer n) => some n
  | _ => none

/-- The value of an integer literal from zero up to a bound, the bound excluded. -/
def natBelow? (bound : Nat) (j : Json) : Option Nat := do
  let n ← j.int?
  if 0 ≤ n ∧ n < bound then some n.toNat else none

def int64? (j : Json) : Option Int64 := do
  let n ← j.int?
  if Int64.minValue.toInt ≤ n ∧ n ≤ Int64.maxValue.toInt then some (Int64.ofInt n) else none

def uint32? (j : Json) : Option UInt32 := (j.natBelow? UInt32.size).map UInt32.ofNat

def elements? : Json → Option (List Json)
  | .arr elements => some elements
  | _ => none

/-- The elements of an array, each read by `f`. -/
def list? {α : Type} (f : Json → Option α) (j : Json) : Option (List α) := do
  let elements ← j.elements?
  elements.mapM f

/-- The entry of a table that a name selects: the name alone, or an object with the name as its
only key and null as its value. -/
def oneOf? {α : Type} (table : List (String × α)) : Json → Option α
  | .str (some name) => table.lookup name
  | .obj [(some name, .null)] => table.lookup name
  | _ => none

end Json

end FlowDiagram
