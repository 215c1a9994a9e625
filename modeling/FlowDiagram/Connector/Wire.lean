import FlowDiagram.Json.Record
import FlowDiagram.Json.Reader
import FlowDiagram.Json.Strict
import FlowDiagram.Connector.Index
import FlowDiagram.Files

/-!
# Connector data in JSON

A connector of an index file is written as an object with the fields of a callable and its
actions among them. All members but the actions are set aside before they are read, so they have
to be strict; the kind of a connector may then also be an object whose value is empty.
-/

namespace FlowDiagram

open Json (Record)

namespace CallableKind

def toJson (kind : CallableKind) : Json := .ofText kind.code

def ofJson? (j : Json) : Option CallableKind := j.oneOf? codes

/-- Read a kind that was set aside. -/
def ofKept? : Json → Option CallableKind
  | .obj [(some code, .obj [])] => codes.lookup code
  | j => ofJson? j

end CallableKind

namespace Callable

def fieldNames : List String :=
  ["functionId", "name", "description", "kind", "org", "packageName", "version", "returnType"]

/-- Write a callable; its description is always written. -/
def toJson (c : Callable) : Json :=
  .ofFields
    ([("functionId", .ofInt64 c.id), ("name", .ofText c.name),
      ("description", .ofText c.description), ("kind", c.kind.toJson), ("org", .ofText c.org),
      ("packageName", .ofText c.package), ("version", .ofText c.version)]
      ++ Json.presentField "returnType" Json.ofText c.returns)

/-- Read a callable from its fields. -/
def ofRecord? (kind? : Json → Option CallableKind) (r : Record) : Option Callable := do
  let id ← r.required? "functionId" Json.int64?
  let name ← r.required? "name" Json.text?
  let description ← r.defaulted? "description" "" Json.text?
  let kind ← r.required? "kind" kind?
  let org ← r.required? "org" Json.text?
  let package ← r.required? "packageName" Json.text?
  let version ← r.required? "version" Json.text?
  let returns ← r.optional? "returnType" Json.text?
  some ⟨id, name, description, kind, org, package, version, returns⟩

def ofJson? (j : Json) : Option Callable := j.record? fieldNames >>= ofRecord? CallableKind.ofJson?

end Callable

namespace ConnectorIndex

/-- Whether the members of a connector that are set aside are strict; they are three levels inside
an index. -/
def keepsMembers (members : List (String × Json)) : Bool :=
  members.all fun (name, value) => name == "actions" || value.strict (Json.nestingLimit - 3)

def entryOfJson? (j : Json) : Option (Callable × List Callable) := do
  let r ← j.objectRecord? (Callable.fieldNames ++ ["actions"])
  let connector ← Callable.ofRecord? CallableKind.ofKept? r
  let actions ← r.defaulted? "actions" [] (Json.list? Callable.ofJson?)
  match j with
  | .obj members =>
    let named ← Json.namedMembers? members
    if keepsMembers named then some (connector, actions) else none
  | _ => none

def entriesOfJson? (j : Json) : Option (List (Callable × List Callable)) := do
  let r ← j.record? ["connectors"]
  r.defaulted? "connectors" [] (Json.list? entryOfJson?)

/-- Read an index from its text. The whole text is read before identifiers are compared. -/
def ofText (s : String) : Except RequestError ConnectorIndex :=
  match Json.parse? s >>= entriesOfJson? with
  | none => .error .malformed
  | some entries => (ofList entries).mapError .lookup

def ofFile (content : Option ByteArray) : Except RequestError ConnectorIndex :=
  fileText content >>= ofText

end ConnectorIndex

end FlowDiagram
