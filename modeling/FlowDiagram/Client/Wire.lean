import FlowDiagram.Text.Wire
import FlowDiagram.Client.Basic

/-!
# Clients in JSON

The line range and the value of a client are written as null when they are absent.
-/

namespace FlowDiagram

def ClientKind.toJson (kind : ClientKind) : Json := .ofText kind.code

def ClientKind.ofJson? (j : Json) : Option ClientKind := j.oneOf? codes

def ClientScope.toJson (scope : ClientScope) : Json := .ofText scope.code

def ClientScope.ofJson? (j : Json) : Option ClientScope := j.oneOf? codes

namespace Client

def toJson (c : Client) : Json :=
  .ofFields
    [("id", .ofText c.id), ("label", .ofText c.label), ("kind", c.kind.toJson),
      ("lineRange", Json.ofOption LineRange.toJson c.lineRange), ("scope", c.scope.toJson),
      ("value", Json.ofOption Json.ofText c.value), ("flags", .ofInt c.flags.toNat)]

def ofJson? (j : Json) : Option Client := do
  let r ← j.record? ["id", "label", "kind", "lineRange", "scope", "value", "flags"]
  let id ← r.required? "id" Json.text?
  let label ← r.required? "label" Json.text?
  let kind ← r.required? "kind" ClientKind.ofJson?
  let lineRange ← r.nullable? "lineRange" LineRange.ofJson?
  let scope ← r.required? "scope" ClientScope.ofJson?
  let value ← r.nullable? "value" Json.text?
  let flags ← r.required? "flags" Json.uint32?
  some ⟨id, label, kind, lineRange, scope, value, flags⟩

end Client

end FlowDiagram
