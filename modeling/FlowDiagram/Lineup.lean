import FlowDiagram.Fingerprint
import FlowDiagram.Notice
import FlowDiagram.Semantics.Model
import FlowDiagram.Text.Blank

/-!
# The lineup of a sequence diagram

A sequence diagram lists as participants the functions and clients that a flow talks to. A
`Lineup` lists them in the order in which they were found and remembers an identifier by name: the
first identifier for a name stays, and a reference with a name that is known is answered without
being resolved.
-/

namespace FlowDiagram

inductive ParticipantKind where
  | function
  | endpoint
  deriving DecidableEq

def ParticipantKind.code : ParticipantKind → String
  | .function => "FUNCTION"
  | .endpoint => "ENDPOINT"

/-- What participant a symbol can be: functions and variables that hold clients can be one. -/
def ParticipantKind.ofSymbol? : Symbol → Option ParticipantKind
  | .function _ => some .function
  | .variable v => v.clientClass?.map fun _ => .endpoint
  | _ => none

/-- A participant. Its location is where it is declared, if that is in the document; its source
is the participant that first referred to it. -/
structure Participant where
  id : String
  name : String
  kind : ParticipantKind
  moduleName : String
  location : Option LineRange
  sourceId : String
  deriving DecidableEq

/-- The participants in the order of discovery, and the identifiers known by name. -/
structure Lineup where
  ids : Memo String String
  participants : List Participant

/-- The name that a reference goes by: its last identifier, so that a reference through a module
goes by the same name as a plain one; without identifiers, its text without blanks around it. -/
def Tree.Site.referencedName (node : Tree.Site) : String :=
  match (Tree.Element.identifiersOfAll node.children).getLast? with
  | some name => name
  | none => String.ofList (Text.trim node.chars)

namespace Lineup

def empty : Lineup := ⟨.empty, []⟩

def participant? (d : Document) (symbol : Symbol) (sourceId moduleName : String) :
    Option Participant := do
  let kind ← ParticipantKind.ofSymbol? symbol
  let location := symbol.location.bind d.place?
  let id := Fingerprint.ofPlace moduleName symbol.name location
  some ⟨id, symbol.name, kind, moduleName, location, sourceId⟩

/-- List a participant, and remember its identifier by its name. -/
def add (l : Lineup) (p : Participant) : Lineup where
  ids := l.ids.record p.name p.id
  participants := l.participants ++ [p]

def remember (l : Lineup) (name id : String) : Lineup := { l with ids := l.ids.record name id }

@[simp] theorem participants_add (l : Lineup) (p : Participant) :
    (l.add p).participants = l.participants ++ [p] := rfl

@[simp] theorem ids_add (l : Lineup) (p : Participant) :
    (l.add p).ids = l.ids.record p.name p.id := rfl

@[simp] theorem ids_remember (l : Lineup) (name id : String) :
    (l.remember name id).ids = l.ids.record name id := rfl

/-- List the participant that a symbol is, and answer its identifier. -/
def introduce (d : Document) (symbol : Symbol) (sourceId moduleName : String) :
    Traced Notice Lineup (Option String) := do
  match participant? d symbol sourceId moduleName with
  | none => pure none
  | some p =>
    Traced.modify fun l => l.add p
    pure (some p.id)

/-- The symbol that a reference resolves to and the name of its module, if the symbol has a place
and a module. -/
def resolve? (model : SemanticModel) (node : Tree.Site) : Option (Symbol × String) := do
  let symbol ← model.symbol? node
  let _ ← symbol.location
  let home ← symbol.home
  some (symbol, home.name)

/-- The identifier of the participant that a node refers to. -/
def identify (model : SemanticModel) (d : Document) (node : Tree.Site) (sourceId : String) :
    Traced Notice Lineup (Option String) := do
  let l ← Traced.get
  match l.ids.find? node.referencedName with
  | some id =>
    Traced.note (.knownParticipant node.referencedName)
    pure (some id)
  | none =>
    match resolve? model node with
    | none => pure none
    | some (symbol, moduleName) =>
      match ← introduce d symbol sourceId moduleName with
      | none => pure none
      | some id =>
        Traced.modify fun l => l.remember node.referencedName id
        pure (some id)

/-- A request to a lineup: for a reference, or for a symbol of a module. -/
inductive Call where
  | reference (node : Tree.Site) (sourceId : String)
  | symbol (symbol : Symbol) (sourceId moduleName : String)

def answer (model : SemanticModel) (d : Document) : Call → Traced Notice Lineup (Option String)
  | .reference node sourceId => identify model d node sourceId
  | .symbol symbol sourceId moduleName => introduce d symbol sourceId moduleName

end Lineup

end FlowDiagram
