import FlowDiagram.Settings
import FlowDiagram.Palette.Wire

/-!
# Library entries

The items at the end of every palette, read from a file.
-/

namespace FlowDiagram.Palette.Library

/-- Read a list of items; the items are one level further in. -/
def ofJson? (j : Json) : Option (List Item) := j.list? (Item.ofJson? (Json.nestingLimit - 1))

def ofText (s : String) : Except RequestError (List Item) :=
  match Json.parse? s >>= ofJson? with
  | none => .error .malformed
  | some items => .ok items

def ofFile (content : Option ByteArray) : Except RequestError (List Item) :=
  fileText content >>= ofText

/-- The items of the file that settings name; none if they name no file. -/
def ofSettings (settings : Settings) (files : Files) : Except RequestError (List Item) :=
  match settings.libraryPath with
  | none => .ok []
  | some path => ofFile (files path)

end FlowDiagram.Palette.Library
