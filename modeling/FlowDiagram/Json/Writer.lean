import FlowDiagram.Json.Token
import FlowDiagram.Json.Value

/-!
# Writing JSON texts

`Json.render` writes a value without blanks.
-/

namespace FlowDiagram.Json

mutual

def tokens : Json → List Token
  | .null => [.null]
  | .bool b => [.bool b]
  | .num n => [.num n]
  | .str s => [.str s]
  | .arr elements => .openArray :: elementTokens elements ++ [.closeArray]
  | .obj members => .openObject :: memberTokens members ++ [.closeObject]

/-- The tokens of elements with commas between them. -/
def elementTokens : List Json → List Token
  | [] => []
  | [j] => tokens j
  | j :: js => tokens j ++ .comma :: elementTokens js

/-- The tokens of members with commas between them. -/
def memberTokens : List (Option String × Json) → List Token
  | [] => []
  | [(key, j)] => .str key :: .colon :: tokens j
  | (key, j) :: members => .str key :: .colon :: tokens j ++ .comma :: memberTokens members

end

def render (j : Json) : String := String.ofList (j.tokens.flatMap Token.text)

end FlowDiagram.Json
