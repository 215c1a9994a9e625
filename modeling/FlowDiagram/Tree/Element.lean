import FlowDiagram.Text.Width
import FlowDiagram.Tree.Kind

/-!
# Elements of a lossless tree

A tree keeps every character of the text it was made from: its tokens in order spell the text. A
node holds elements of any number, and tokens may be empty, so siblings may have no width.
-/

namespace FlowDiagram.Tree

/-- A token with its text, or a node with its children. -/
inductive Element where
  | token (kind : Kind) (text : String)
  | node (kind : Kind) (children : List Element)

namespace Element

mutual

/-- The characters of all tokens of an element. -/
def chars : Element → List Char
  | .token _ text => text.toList
  | .node _ children => charsOfAll children

def charsOfAll : List Element → List Char
  | [] => []
  | e :: es => chars e ++ charsOfAll es

end

mutual

def width : Element → Nat
  | .token _ text => Text.width text.toList
  | .node _ children => widthOfAll children

def widthOfAll : List Element → Nat
  | [] => 0
  | e :: es => width e + widthOfAll es

end

mutual

/-- The texts of the identifier tokens of an element, in order. -/
def identifiers : Element → List String
  | .token kind text => if kind = .identifier then [text] else []
  | .node _ children => identifiersOfAll children

def identifiersOfAll : List Element → List String
  | [] => []
  | e :: es => identifiers e ++ identifiersOfAll es

end

@[simp] theorem chars_token (kind : Kind) (text : String) :
    (token kind text).chars = text.toList := by
  simp [chars]

@[simp] theorem chars_node (kind : Kind) (children : List Element) :
    (node kind children).chars = charsOfAll children := by
  simp [chars]

@[simp] theorem charsOfAll_nil : charsOfAll [] = [] := by
  simp [charsOfAll]

@[simp] theorem charsOfAll_cons (e : Element) (es : List Element) :
    charsOfAll (e :: es) = e.chars ++ charsOfAll es := by
  simp [charsOfAll]

@[simp] theorem charsOfAll_append (as bs : List Element) :
    charsOfAll (as ++ bs) = charsOfAll as ++ charsOfAll bs := by
  induction as with
  | nil => simp
  | cons e es ih => simp [ih]

mutual

/-- The width of an element is that of its characters. -/
theorem width_eq : ∀ e : Element, e.width = Text.width e.chars
  | .token kind text => by simp [width]
  | .node kind children => by simp [width, widthOfAll_eq children]

theorem widthOfAll_eq : ∀ es : List Element, widthOfAll es = Text.width (charsOfAll es)
  | [] => by simp [widthOfAll]
  | e :: es => by simp [widthOfAll, width_eq e, widthOfAll_eq es]

end

@[simp] theorem width_node (kind : Kind) (children : List Element) :
    (node kind children).width = widthOfAll children := by
  simp [width]

@[simp] theorem widthOfAll_nil : widthOfAll [] = 0 := by
  simp [widthOfAll]

@[simp] theorem widthOfAll_cons (e : Element) (es : List Element) :
    widthOfAll (e :: es) = e.width + widthOfAll es := by
  simp [widthOfAll]

@[simp] theorem widthOfAll_append (as bs : List Element) :
    widthOfAll (as ++ bs) = widthOfAll as + widthOfAll bs := by
  simp [widthOfAll_eq]

end Element

end FlowDiagram.Tree
