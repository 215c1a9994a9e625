import FlowDiagram.Text.Width
import FlowDiagram.Text.Span
import FlowDiagram.Text.Position

/-!
# Source text addressed by offset and by position

`SourceText.offset?` takes a position to a byte offset and `SourceText.position` takes an
offset to a position. Lines end at a line feed. A carriage return at the end of a line does not
belong to it, so no position addresses the place behind it; the way back is total: an offset
past the end counts as the end, and one inside a character as the start of that character.
-/

namespace FlowDiagram

open Text (width)

/-- A text whose places are addressed by byte offset and by line and column. -/
structure SourceText where
  chars : List Char
  deriving DecidableEq

namespace SourceText

def ofString (s : String) : SourceText := ⟨s.toList⟩

def size (t : SourceText) : Nat := width t.chars

def isEmpty (t : SourceText) : Bool := t.chars.isEmpty

/-- The number of lines: a line feed at the end opens an empty last line. -/
def lineCount (t : SourceText) : Nat := t.chars.count '\n' + 1

/-- The start of the `n`-th following line and the text from there on, where `start` is the
offset of the text given. -/
def seekLine (start : Nat) : List Char → Nat → Option (Nat × List Char)
  | cs, 0 => some (start, cs)
  | [], _ + 1 => none
  | c :: cs, n + 1 =>
    if c = '\n' then seekLine (start + c.utf8Size) cs n
    else seekLine (start + c.utf8Size) cs (n + 1)

/-- A line without one carriage return at its end. -/
def withoutReturn (line : List Char) : List Char :=
  if line.getLast? = some '\r' then line.dropLast else line

/-- The characters of the line that a text opens with. -/
def firstLine (cs : List Char) : List Char := withoutReturn (cs.takeWhile (· ≠ '\n'))

/-- The offset of a position; none where the line does not exist or ends before the column. -/
def offset? (t : SourceText) (p : Position) : Option Nat := do
  let (start, rest) ← seekLine 0 t.chars p.line
  let line := firstLine rest
  if p.column ≤ line.length then some (start + width (line.take p.column)) else none

/-- The position that is reached from `p` by the characters that fit into `room` bytes. -/
def walk (p : Position) : Nat → List Char → Position
  | _, [] => p
  | room, c :: cs =>
    if c.utf8Size ≤ room then walk (p.after c) (room - c.utf8Size) cs else p

def position (t : SourceText) (offset : Nat) : Position := walk .origin offset t.chars

def lineRange (t : SourceText) (s : Span) : LineRange := ⟨t.position s.start, t.position s.stop⟩

@[simp] theorem walk_nil (p : Position) (room : Nat) : walk p room [] = p := by
  cases room <;> rfl

theorem walk_cons_of_le {p : Position} {room : Nat} {c : Char} {cs : List Char}
    (h : c.utf8Size ≤ room) :
    walk p room (c :: cs) = walk (p.after c) (room - c.utf8Size) cs := by
  simp [walk, h]

theorem walk_cons_of_lt {p : Position} {room : Nat} {c : Char} {cs : List Char}
    (h : room < c.utf8Size) : walk p room (c :: cs) = p := by
  simp [walk, Nat.not_le.mpr h]

end SourceText

end FlowDiagram
