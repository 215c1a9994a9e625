import Mathlib.Data.List.Perm.Subperm
import FlowDiagram.Proofs.Palette.Connections
import FlowDiagram.Visible

/-!
# Clients and the connections of a palette

The clients in sight of a position and the connections of its palette come from the same variables.
The one draft that all clients are made with gives each as a draft of its own would; the palette
leaves out what the lookup does not resolve, and nothing else.
-/

namespace FlowDiagram

/-- Whether a symbol is a variable whose type refers straight to a client class of a module. -/
def HoldsClient (symbol : Symbol) (v : Variable) (home : ModuleId) : Prop :=
  symbol = .variable v ∧ ∃ reference referenceHome definition,
    v.type = .reference reference referenceHome (.object definition) ∧
      .client ∈ definition.qualifiers ∧ definition.home = some home

theorem ofSymbol_eq_ok_iff_holdsClient {symbol : Symbol} {c : Connection} :
    Connection.ofSymbol symbol = .ok c ↔ HoldsClient symbol c.holder c.home :=
  Connection.ofSymbol_eq_ok_iff

theorem HoldsClient.ofSymbol_eq_ok {symbol : Symbol} {v : Variable} {home : ModuleId}
    (h : HoldsClient symbol v home) : Connection.ofSymbol symbol = .ok ⟨v, home⟩ :=
  ofSymbol_eq_ok_iff_holdsClient.mpr h

namespace Visible

variable {σ : Type}

/-- The client that a draft of its own becomes for a connection. -/
def clientOf (source : SourceText) (c : Connection) : Client :=
  ((clientFacts c).foldl (ClientDraft.learn source) .empty).client

/-- Whether a client is the one that a symbol holds, made with a draft of its own. -/
def IsClientOf (source : SourceText) (symbol : Symbol) (client : Client) : Prop :=
  ∃ v home, HoldsClient symbol v home ∧
    client = clientOf source ⟨v, home⟩ ∧
    client.value = some v.name ∧
    (client.kind = .http ↔ v.type.signature = "http:Client") ∧
    client.label = client.kind.label ∧
    client.scope = .ofVariable v.scope ∧
    client.lineRange = v.location.map source.lineRange ∧
    client.id = Fingerprint.ofRange client.lineRange ∧
    client.flags = 0

def client? (source : SourceText) (symbol : Symbol) : Option Client :=
  (Connection.ofSymbol? symbol).map (clientOf source)

theorem client?_of_error {source : SourceText} {symbol : Symbol} {reason : NotConnection}
    (h : Connection.ofSymbol symbol = .error reason) : client? source symbol = none := by
  simp [client?, Connection.ofSymbol?, h, Except.toOption]

theorem client?_of_ok {source : SourceText} {symbol : Symbol} {c : Connection}
    (h : Connection.ofSymbol symbol = .ok c) :
    client? source symbol = some (clientOf source c) := by
  simp [client?, Connection.ofSymbol?, h, Except.toOption]

/-- The kind of the client that a variable holds whose type has a spelling. -/
def kindOf (signature : String) : ClientKind :=
  if signature = ClientKind.httpSignature then .http else .other

/-- A draft that knew nothing before knows of a connection only its own facts. -/
theorem learn_clientFacts (source : SourceText) (c : Connection) :
    (clientFacts c).foldl (ClientDraft.learn source) .empty =
      ⟨(kindOf c.holder.type.signature).label, kindOf c.holder.type.signature,
        c.holder.location.map source.lineRange, .ofVariable c.holder.scope,
        some c.holder.name, 0⟩ := by
  simp only [clientFacts, List.foldl_cons, List.foldl_nil, ClientDraft.learn,
    ClientDraft.declaredBy, ClientDraft.typed, ClientDraft.declaredIn, ClientDraft.empty, kindOf]
  cases c.holder.location <;> split <;> rfl

theorem value_clientOf (source : SourceText) (c : Connection) :
    (clientOf source c).value = some c.holder.name := by
  rw [clientOf, learn_clientFacts, ClientDraft.client]

theorem kind_clientOf (source : SourceText) (c : Connection) :
    (clientOf source c).kind = .http ↔ c.holder.type.signature = "http:Client" := by
  rw [clientOf, learn_clientFacts, ClientDraft.client, kindOf, ClientKind.httpSignature]
  by_cases h : c.holder.type.signature = "http:Client" <;> simp [h]

theorem client?_eq_some_iff {source : SourceText} {symbol : Symbol} {client : Client} :
    client? source symbol = some client ↔ IsClientOf source symbol client := by
  constructor
  · intro h
    cases narrowed : Connection.ofSymbol symbol with
    | error reason =>
      rw [client?_of_error narrowed] at h
      cases h
    | ok c =>
      rw [client?_of_ok narrowed] at h
      obtain rfl := Option.some.inj h
      refine ⟨c.holder, c.home, ofSymbol_eq_ok_iff_holdsClient.mp narrowed, rfl,
        value_clientOf source c, kind_clientOf source c, ?_⟩
      simp only [clientOf, learn_clientFacts, ClientDraft.client, and_self]
  · rintro ⟨v, home, holds, rfl, -⟩
    exact client?_of_ok holds.ofSymbol_eq_ok

/-- Inside the document the clients are those that the visible symbols hold. The draft that they
share gives each as a draft of its own would. -/
theorem clients_of_some {w : Workspace σ} {p : Position} {offset : Nat}
    (h : w.document.offset? p = some offset) :
    clients w p = .ok (((w.visibleSymbols p).map (client? w.document.source)).reduceOption) := by
  have each : (((w.visibleSymbols p).filterMap Connection.ofSymbol?).map clientFacts).map
        (fun about => (about.foldl (ClientDraft.learn w.document.source) .empty).client)
      = ((w.visibleSymbols p).map (client? w.document.source)).reduceOption := by
    rw [List.map_map, List.map_filterMap, List.reduceOption, List.filterMap_map]
    rfl
  simp [clients, Workspace.offset, h, ClientDraft.deliverAll_empty, ← each]

/-! ### Connections among the clients -/

open Palette (Category outcomes answersAt connectionCategory)

end Visible

end FlowDiagram
