import FlowDiagram.Text.Encoding
import FlowDiagram.Text.SourceText

/-!
# Tables of lines

A `LineTable` addresses a text by its bytes: it keeps the offsets at which lines start, finds the
line of an offset by search among them, and slices that line out of the text. Bytes do not know of
characters, so a step can be impossible: a slice may cut a character, a line may be missing, a
number may not fit. A table answers with a `Fault` then.
-/

namespace FlowDiagram

open Text

/-- A text as bytes, and the offsets at which its lines start. -/
structure LineTable where
  bytes : List UInt8
  starts : Array Nat

namespace LineTable

/-- Why a step on a table cannot be taken. -/
inductive Fault where
  /-- An offset takes more than 32 bits. -/
  | tooWide
  /-- A number would be below zero. -/
  | belowZero
  /-- There is no line with the index. -/
  | missingLine
  /-- The ends of a slice are out of order, outside the text or inside a character. -/
  | cutCharacter
  deriving DecidableEq

/-- The result of steps that may be impossible. -/
abbrev Checked := Except Fault

/-- An offset, which has to fit into 32 bits. -/
def fit (offset : Nat) : Checked Nat :=
  if offset < UInt32.size then .ok offset else .error .tooWide

def before : Nat → Checked Nat
  | 0 => .error .belowZero
  | n + 1 => .ok n

/-- Whether an offset is an end of the text or that of the first byte of a character. -/
def isBoundary (bytes : List UInt8) (offset : Nat) : Bool :=
  offset == 0 || offset == bytes.length || bytes[offset]?.any startsChar

def slice (bytes : List UInt8) (start stop : Nat) : Checked (List UInt8) :=
  if start ≤ stop && isBoundary bytes start && isBoundary bytes stop then
    .ok ((bytes.drop start).take (stop - start))
  else .error .cutCharacter

/-- The offsets at which characters start, where the first byte is at `start`. -/
def charOffsets (start : Nat) (bytes : List UInt8) : List Nat :=
  (bytes.zipIdx start).filterMap fun (b, offset) => if startsChar b then some offset else none

/-- The offsets behind line feeds, where the first byte is at `start`. -/
def feedEnds (start : Nat) : List UInt8 → Checked (List Nat)
  | [] => .ok []
  | b :: bytes =>
    if b = lineFeed then do
      let offset ← fit (start + 1)
      let offsets ← feedEnds (start + 1) bytes
      return offset :: offsets
    else feedEnds (start + 1) bytes

def ofBytes (bytes : List UInt8) : Checked LineTable := do
  let offsets ← feedEnds 0 bytes
  return ⟨bytes, (0 :: offsets).toArray⟩

def ofText (t : SourceText) : Checked LineTable := ofBytes (encode t.chars)

def lineCount (t : LineTable) : Nat := t.starts.size

def size (t : LineTable) : Checked Nat := fit t.bytes.length

def start (t : LineTable) (line : Nat) : Checked Nat :=
  match t.starts[line]? with
  | some offset => .ok offset
  | none => .error .missingLine

/-- The number of entries with a property at the front of an array in which no other entries have
it, found by halving. -/
def partitionPoint (holds : Nat → Bool) (xs : Array Nat) : Nat :=
  search 0 xs.size (Nat.le_refl _)
where
  /-- The search among the entries from `low` up to `high`. -/
  search (low high : Nat) (inside : high ≤ xs.size) : Nat :=
    if h : low < high then
      if holds xs[(low + high) / 2] then search ((low + high) / 2 + 1) high inside
      else search low ((low + high) / 2) (by omega)
    else low
  termination_by high - low

/-- The nearest boundary at or before an offset: as long as the offset is not one, the next lower
offset is tried. -/
def roundDown (bytes : List UInt8) (offset : Nat) : Checked Nat :=
  if isBoundary bytes offset then .ok offset
  else
    match offset with
    | 0 => before 0
    | lower + 1 => roundDown bytes lower

/-- The position of an offset. An offset past the end counts as the end, one inside a character as
the start of that character. -/
def position (t : LineTable) (offset : Nat) : Checked Position := do
  let size ← t.size
  let stop ← fit (← roundDown t.bytes (min offset size))
  let line := partitionPoint (· ≤ stop) t.starts - 1
  let start ← t.start line
  let part ← slice t.bytes start stop
  return ⟨line, (charOffsets 0 part).length⟩

def lineRange (t : LineTable) (s : Span) : Checked LineRange := do
  let start ← t.position s.start
  let stop ← t.position s.stop
  return ⟨start, stop⟩

/-- A line without one carriage return at its end. -/
def withoutReturn (line : List UInt8) : List UInt8 :=
  if line.getLast? = some carriageReturn then line.dropLast else line

/-- The offset at which a line stops: that of the line feed before the next line, or the end of the
text. -/
def stop (t : LineTable) (line : Nat) : Checked Nat :=
  match t.starts[line + 1]? with
  | some next => before next
  | none => .ok t.bytes.length

/-- The bytes of a line, if there is one with the index; neither the line feed at its end nor a
carriage return before that belongs to it. -/
def line? (t : LineTable) (line : Nat) : Checked (Option (List UInt8)) :=
  match t.starts[line]? with
  | none => .ok none
  | some start => do
    let stop ← t.stop line
    let bytes ← slice t.bytes start stop
    return some (withoutReturn bytes)

/-- The offset of a position; none where the line does not exist or ends before the column. -/
def offset? (t : LineTable) (p : Position) : Checked (Option Nat) := do
  match ← t.line? p.line with
  | none => return none
  | some line =>
    let start ← t.start p.line
    if p.column = 0 then return some start
    else
      match (charOffsets 0 line).drop p.column with
      | offset :: _ => return some (← fit (start + offset))
      | [] =>
        if (charOffsets 0 line).length = p.column then return some (← fit (start + line.length))
        else return none

end LineTable

end FlowDiagram
