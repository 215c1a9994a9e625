/-!
# Modules, classes and types

What a type checker reports about types. A type is basic, a union of types, a reference to a type
by name, or a class. `TypeDesc.isNil` tells whether a type has no value but nil, and
`TypeDesc.signature` spells a type as source does.
-/

namespace FlowDiagram

/-- A module: its organization, its dotted name and its version. -/
structure ModuleId where
  org : String
  name : String
  version : String
  deriving DecidableEq

/-- The last segment of the dotted name of a module, under which source refers to it. -/
def ModuleId.shortName (m : ModuleId) : String :=
  String.ofList ((m.name.toList.reverse.takeWhile (· ≠ '.')).reverse)

inductive Qualifier where
  | isPublic
  | isolated
  | readonly
  | distinct
  | client
  | service
  | final
  | configurable
  | remote
  | resource
  deriving DecidableEq

/-- A class; its module is its home. -/
structure ClassDef where
  name : String
  qualifiers : List Qualifier
  home : Option ModuleId
  deriving DecidableEq

/-- Whether the class is one of connection endpoints. -/
def ClassDef.isClient (c : ClassDef) : Bool := c.qualifiers.contains .client

/-- A type without parts. -/
inductive BasicType where
  | nil
  | never
  | boolean
  | int
  | float
  | decimal
  | string
  | json
  | any
  | error
  deriving DecidableEq

def BasicType.signature : BasicType → String
  | .nil => "()"
  | .never => "never"
  | .boolean => "boolean"
  | .int => "int"
  | .float => "float"
  | .decimal => "decimal"
  | .string => "string"
  | .json => "json"
  | .any => "any"
  | .error => "error"

/-- A type. A reference names the type it refers to, in a module or without one. -/
inductive TypeDesc where
  | basic (type : BasicType)
  | union (members : List TypeDesc)
  | reference (name : String) (home : Option ModuleId) (target : TypeDesc)
  | object (definition : ClassDef)

namespace TypeDesc

mutual

def same : TypeDesc → TypeDesc → Bool
  | .basic a, .basic b => a == b
  | .union as, .union bs => sameAll as bs
  | .reference n h t, .reference n' h' t' => n == n' && h == h' && same t t'
  | .object c, .object d => c == d
  | _, _ => false

def sameAll : List TypeDesc → List TypeDesc → Bool
  | [], [] => true
  | a :: as, b :: bs => same a b && sameAll as bs
  | _, _ => false

end

mutual

theorem same_iff : ∀ a b : TypeDesc, same a b = true ↔ a = b
  | .basic a, b => by cases b <;> simp [same]
  | .union as, b => by cases b <;> simp [same, sameAll_iff as]
  | .reference n h t, b => by cases b <;> simp [same, same_iff t, and_assoc]
  | .object c, b => by cases b <;> simp [same]

theorem sameAll_iff : ∀ as bs : List TypeDesc, sameAll as bs = true ↔ as = bs
  | [], bs => by cases bs <;> simp [sameAll]
  | a :: as, bs => by cases bs <;> simp [sameAll, same_iff a, sameAll_iff as]

end

instance : DecidableEq TypeDesc := fun a b => decidable_of_iff _ (same_iff a b)

mutual

/-- Whether a type has no value but nil. -/
def isNil : TypeDesc → Bool
  | .basic type => type == .nil || type == .never
  | .union members => allNil members
  | .reference _ _ target => isNil target
  | .object _ => false

/-- Whether no type of a list has a value but nil. -/
def allNil : List TypeDesc → Bool
  | [] => true
  | t :: ts => isNil t && allNil ts

end

/-- A name, behind the short name of the module it belongs to. -/
def qualified (home : Option ModuleId) (name : String) : String :=
  match home with
  | some m => m.shortName ++ ":" ++ name
  | none => name

mutual

def signature : TypeDesc → String
  | .basic type => type.signature
  | .union members => "|".intercalate (signatures members)
  | .reference name home _ => qualified home name
  | .object definition => qualified definition.home definition.name

def signatures : List TypeDesc → List String
  | [] => []
  | t :: ts => signature t :: signatures ts

end

end TypeDesc

end FlowDiagram
