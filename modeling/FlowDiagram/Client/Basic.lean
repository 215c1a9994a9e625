import FlowDiagram.Fingerprint
import FlowDiagram.Text.SourceText
import FlowDiagram.Semantics.Symbol

/-!
# Clients

A `Client` is a connection that a program declares. A `ClientDraft` collects facts about one
client at a time; `ClientDraft.client` is the client it has become. One draft serves for many
clients: delivering a client empties the draft, so nothing of one client reaches the next.
-/

namespace FlowDiagram

/-- Whether a client is one for HTTP. -/
inductive ClientKind where
  | http
  | other
  deriving DecidableEq

namespace ClientKind

def code : ClientKind → String
  | .http => "HTTP"
  | .other => "OTHER"

def codes : List (String × ClientKind) := [.http, .other].map fun kind => (kind.code, kind)

def label : ClientKind → String
  | .http => "HTTP Client"
  | .other => "Client"

def httpSignature : String := "http:Client"

end ClientKind

/-- Where a client is declared, as a diagram tells it. -/
inductive ClientScope where
  | functionLocal
  | objectField
  | global
  deriving DecidableEq

namespace ClientScope

def code : ClientScope → String
  | .functionLocal => "LOCAL"
  | .objectField => "OBJECT"
  | .global => "GLOBAL"

def codes : List (String × ClientScope) :=
  [.functionLocal, .objectField, .global].map fun scope => (scope.code, scope)

def ofVariable : VariableScope → ClientScope
  | .functionLocal => .functionLocal
  | .objectField => .objectField
  | .moduleLevel => .global
  | .configurable => .global

end ClientScope

/-- A connection that a program declares. -/
structure Client where
  id : String
  label : String
  kind : ClientKind
  lineRange : Option LineRange
  scope : ClientScope
  value : Option String
  flags : UInt32
  deriving DecidableEq

/-- What is known of a client so far. -/
structure ClientDraft where
  label : String
  kind : ClientKind
  lineRange : Option LineRange
  scope : ClientScope
  value : Option String
  flags : UInt32
  deriving DecidableEq

namespace ClientDraft

def empty : ClientDraft := ⟨ClientKind.other.label, .other, none, .global, none, 0⟩

/-- Take the name of a variable, and its place if it has one, in a source text. -/
def declaredBy (d : ClientDraft) (source : SourceText) (v : Variable) : ClientDraft :=
  { d with
    lineRange :=
      match v.location with
      | some span => some (source.lineRange span)
      | none => d.lineRange
    value := some v.name }

/-- Take the spelling of the type: an HTTP client once it has been that of one. -/
def typed (d : ClientDraft) (signature : String) : ClientDraft :=
  if signature = ClientKind.httpSignature then
    { d with kind := .http, label := ClientKind.http.label }
  else d

def declaredIn (d : ClientDraft) (scope : ClientScope) : ClientDraft := { d with scope := scope }

/-- Take the bits of a flag beside those taken before. -/
def flagged (d : ClientDraft) (flag : UInt32) : ClientDraft := { d with flags := d.flags ||| flag }

/-- The client that a draft has become; its identifier depends on its line range alone. -/
def client (d : ClientDraft) : Client where
  id := Fingerprint.ofRange d.lineRange
  label := d.label
  kind := d.kind
  lineRange := d.lineRange
  scope := d.scope
  value := d.value
  flags := d.flags

inductive Fact where
  | variable (definition : Variable)
  | signature (text : String)
  | scope (scope : ClientScope)
  | flag (flag : UInt32)

/-- The draft after one more fact. -/
def learn (source : SourceText) (d : ClientDraft) : Fact → ClientDraft
  | .variable v => d.declaredBy source v
  | .signature text => d.typed text
  | .scope scope => d.declaredIn scope
  | .flag flag => d.flagged flag

/-- Deliver the client and start over. -/
def deliver (d : ClientDraft) : Client × ClientDraft := (d.client, empty)

/-- Learn all facts about one client after another, and deliver each. -/
def deliverAll (source : SourceText) (d : ClientDraft) : List (List Fact) → List Client
  | [] => []
  | facts :: rest =>
    let (client, d) := (facts.foldl (learn source) d).deliver
    client :: deliverAll source d rest

/-- Each client depends on the facts about it alone. -/
theorem deliverAll_empty (source : SourceText) (facts : List (List Fact)) :
    empty.deliverAll source facts =
      facts.map fun about => (about.foldl (learn source) empty).client := by
  generalize hd : empty = d
  induction facts with
  | nil => rfl
  | cons about rest ih => simp [deliverAll, deliver, hd, ih]

end ClientDraft

end FlowDiagram
