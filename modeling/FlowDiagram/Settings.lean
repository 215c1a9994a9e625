import FlowDiagram.Files
import FlowDiagram.Json.Record
import FlowDiagram.Json.Reader

/-!
# Settings

Where package icons are served from and which file holds the library entries of the palette.
Settings that a file leaves out keep their defaults.
-/

namespace FlowDiagram

/-- What every request shares. -/
structure Settings where
  iconBase : String
  libraryPath : Option String
  deriving DecidableEq

namespace Settings

/-- The settings that hold unless others are given. -/
def standard : Settings := ⟨"https://bcentral-packageicons.azureedge.net/images", none⟩

def withoutTrailingSlashes (s : String) : String :=
  String.ofList ((s.toList.reverse.dropWhile (· = '/')).reverse)

def iconUrl (s : Settings) (org package version : String) : String :=
  withoutTrailingSlashes s.iconBase ++ "/" ++ org ++ "_" ++ package ++ "_" ++ version ++ ".png"

def ofJson? (j : Json) : Option Settings := do
  let r ← j.record? ["iconBaseUrl", "localIndexPath"]
  let iconBase ← r.defaulted? "iconBaseUrl" standard.iconBase Json.text?
  let libraryPath ← r.optional? "localIndexPath" Json.text?
  some ⟨iconBase, libraryPath⟩

def ofText (s : String) : Except RequestError Settings :=
  match Json.parse? s >>= ofJson? with
  | none => .error .malformed
  | some settings => .ok settings

def ofFile (content : Option ByteArray) : Except RequestError Settings :=
  fileText content >>= ofText

end Settings

end FlowDiagram
