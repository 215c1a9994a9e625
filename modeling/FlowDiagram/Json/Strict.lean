import FlowDiagram.Json.Value

/-!
# Values that can be kept whole

A reader that keeps a value aside before it knows its shape needs every literal in it to hold:
strings must denote texts, numbers must be in range, and arrays and objects may nest only so
deep. What a reader skips need not be strict.
-/

namespace FlowDiagram.Json

/-- How many arrays and objects may be open at a time. -/
def nestingLimit : Nat := 127

mutual

/-- Whether every literal of a value holds and it nests at most `depth` arrays and objects. -/
def strict (depth : Nat) : Json → Bool
  | .null => true
  | .bool _ => true
  | .num n => n.inRange
  | .str s => s.isSome
  | .arr elements =>
    match depth with
    | 0 => false
    | depth + 1 => strictElements depth elements
  | .obj members =>
    match depth with
    | 0 => false
    | depth + 1 => strictMembers depth members

def strictElements (depth : Nat) : List Json → Bool
  | [] => true
  | j :: js => strict depth j && strictElements depth js

/-- Whether every member has a text for its key and a strict value. -/
def strictMembers (depth : Nat) : List (Option String × Json) → Bool
  | [] => true
  | (key, j) :: members => key.isSome && strict depth j && strictMembers depth members

end

end FlowDiagram.Json
