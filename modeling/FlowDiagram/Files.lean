import FlowDiagram.Error

/-!
# Text files

A file is the bytes it holds, if there are any. `fileText` is the text of a file.
-/

namespace FlowDiagram

/-- The bytes of the file at a path, if there is one. -/
abbrev Files := String → Option ByteArray

/-- The text of a file: there has to be one, and it has to be UTF-8. -/
def fileText (content : Option ByteArray) : Except RequestError String :=
  match content with
  | none => .error .fileNotFound
  | some bytes =>
    match String.fromUTF8? bytes with
    | none => .error .fileNotText
    | some text => .ok text

end FlowDiagram
