import FlowDiagram.Text.Position

/-!
# Errors

`LookupError` is what a source of connector data answers with when it cannot answer, and
`RequestError` is what stops a whole request. Each has one wording.
-/

namespace FlowDiagram

/-- Why a source of connector data did not answer. -/
inductive LookupError where
  | unavailable (reason : String)
  | corrupt (reason : String)
  deriving DecidableEq

def LookupError.message : LookupError → String
  | .unavailable reason => "Lookup backend unavailable: " ++ reason
  | .corrupt reason => "Corrupt lookup data: " ++ reason

/-- Why a request was not answered: the position is outside the document, a text is not JSON of
the right shape, there is no such file, a file is not UTF-8, or a lookup failed outright. -/
inductive RequestError where
  | invalidPosition (position : Position)
  | malformed
  | fileNotFound
  | fileNotText
  | lookup (error : LookupError)
  deriving DecidableEq

/-- The wording of a request error, if it is this library's to choose. -/
def RequestError.message? : RequestError → Option String
  | .invalidPosition p =>
    some ("Position " ++ toString p.line ++ ":" ++ toString p.column ++ " is outside the document")
  | .lookup error => some ("Lookup error: " ++ error.message)
  | _ => none

end FlowDiagram
