import FlowDiagram.Text.Span
import FlowDiagram.Semantics.TypeDesc

/-!
# Symbols

What a name can stand for: a variable, a function, a class or a module. `Variable.clientClass?`
recognizes the variables that hold a connection.
-/

namespace FlowDiagram

inductive VariableScope where
  | functionLocal
  | moduleLevel
  | configurable
  | objectField
  deriving DecidableEq

structure Variable where
  name : String
  type : TypeDesc
  scope : VariableScope
  home : Option ModuleId
  location : Option Span
  deriving DecidableEq

/-- A function; one that declares no return type returns nothing. -/
structure FunctionDef where
  name : String
  returns : Option TypeDesc
  qualifiers : List Qualifier
  home : Option ModuleId
  location : Option Span
  deriving DecidableEq

/-- What a name stands for. -/
inductive Symbol where
  | variable (definition : Variable)
  | function (definition : FunctionDef)
  | classDef (definition : ClassDef)
  | moduleId (id : ModuleId)
  deriving DecidableEq

/-- A class that is reached by a reference, with the name of the reference. -/
structure ReferredClass where
  reference : String
  definition : ClassDef
  deriving DecidableEq

/-- The client class behind a variable. The type must be a reference straight to such a class:
neither a union with one nor a reference to a reference counts. -/
def Variable.clientClass? (v : Variable) : Option ReferredClass :=
  match v.type with
  | .reference name _ (.object c) => if c.isClient then some ⟨name, c⟩ else none
  | _ => none

namespace Symbol

def asVariable? : Symbol → Option Variable
  | .variable v => some v
  | _ => none

def asFunction? : Symbol → Option FunctionDef
  | .function f => some f
  | _ => none

/-- The name of a symbol; a module goes by its short name. -/
def name : Symbol → String
  | .variable v => v.name
  | .function f => f.name
  | .classDef c => c.name
  | .moduleId m => m.shortName

/-- The module that a symbol belongs to; a module belongs to itself. -/
def home : Symbol → Option ModuleId
  | .variable v => v.home
  | .function f => f.home
  | .classDef c => c.home
  | .moduleId m => some m

def location : Symbol → Option Span
  | .variable v => v.location
  | .function f => f.location
  | .classDef _ => none
  | .moduleId _ => none

end Symbol

end FlowDiagram
