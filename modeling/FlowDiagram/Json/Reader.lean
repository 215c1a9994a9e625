import FlowDiagram.Json.Token
import FlowDiagram.Json.Value

/-!
# Reading JSON texts

`Json.parse?` reads a strict JSON text. Tokens are assembled by a machine that keeps the open
arrays and objects on a stack, so nesting of any depth is read.
-/

namespace FlowDiagram.Json

/-- An array or object that is open, with what it holds so far, the last first. An open object
remembers the key whose value is being read. -/
inductive Enclosure where
  | array (elements : List Json)
  | object (members : List (Option String × Json)) (key : Option String)

/-- What the machine expects next. -/
inductive Expected where
  | value
  | valueOrClose
  | key (members : List (Option String × Json))
  | keyOrClose
  | colon (members : List (Option String × Json)) (key : Option String)
  | separator (finished : Json)

/-- The machine's state: what it expects and what is open, the innermost first. -/
structure Assembly where
  expected : Expected
  enclosing : List Enclosure

namespace Assembly

def initial : Assembly := ⟨.value, []⟩

/-- One token where a value is expected. -/
def takeValue? (enclosing : List Enclosure) : Token → Option Assembly
  | .null => some ⟨.separator .null, enclosing⟩
  | .bool b => some ⟨.separator (.bool b), enclosing⟩
  | .num n => some ⟨.separator (.num n), enclosing⟩
  | .str s => some ⟨.separator (.str s), enclosing⟩
  | .openArray => some ⟨.valueOrClose, .array [] :: enclosing⟩
  | .openObject => some ⟨.keyOrClose, enclosing⟩
  | _ => none

/-- One token behind a value. -/
def takeSeparator? (finished : Json) : List Enclosure → Token → Option Assembly
  | .array elements :: enclosing, .comma =>
    some ⟨.value, .array (finished :: elements) :: enclosing⟩
  | .array elements :: enclosing, .closeArray =>
    some ⟨.separator (.arr (finished :: elements).reverse), enclosing⟩
  | .object members key :: enclosing, .comma =>
    some ⟨.key ((key, finished) :: members), enclosing⟩
  | .object members key :: enclosing, .closeObject =>
    some ⟨.separator (.obj ((key, finished) :: members).reverse), enclosing⟩
  | _, _ => none

def step? : Assembly → Token → Option Assembly
  | ⟨.value, enclosing⟩, t => takeValue? enclosing t
  | ⟨.valueOrClose, .array [] :: enclosing⟩, .closeArray =>
    some ⟨.separator (.arr []), enclosing⟩
  | ⟨.valueOrClose, enclosing⟩, t => takeValue? enclosing t
  | ⟨.keyOrClose, enclosing⟩, .closeObject => some ⟨.separator (.obj []), enclosing⟩
  | ⟨.keyOrClose, enclosing⟩, .str key => some ⟨.colon [] key, enclosing⟩
  | ⟨.key members, enclosing⟩, .str key => some ⟨.colon members key, enclosing⟩
  | ⟨.colon members key, enclosing⟩, .colon => some ⟨.value, .object members key :: enclosing⟩
  | ⟨.separator finished, enclosing⟩, t => takeSeparator? finished enclosing t
  | _, _ => none

/-- The value, once everything is closed. -/
def result? : Assembly → Option Json
  | ⟨.separator finished, []⟩ => some finished
  | _ => none

end Assembly

def ofTokens? (tokens : List Token) : Option Json := do
  let state ← tokens.foldlM Assembly.step? Assembly.initial
  state.result?

def parse? (s : String) : Option Json := do
  let tokens ← Token.scan? s.toList
  ofTokens? tokens

end FlowDiagram.Json
