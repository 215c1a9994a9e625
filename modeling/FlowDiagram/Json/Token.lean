import FlowDiagram.Json.Number

/-!
# Tokens of a JSON text

`Token.scan?` cuts a text into tokens by an automaton that reads one character at a time, and
`Token.text` writes a token. Blanks between tokens are space, tab, line feed and carriage
return. String literals hold no raw control character; a literal that escapes one half of a
surrogate pair is a token that denotes no text.
-/

namespace FlowDiagram.Json

inductive Token where
  | openArray
  | closeArray
  | openObject
  | closeObject
  | comma
  | colon
  | null
  | bool (value : Bool)
  | num (value : Number)
  | str (text : Option String)
  deriving DecidableEq

/-- A part of a string literal: a character, or an escaped UTF-16 unit. -/
inductive Piece where
  | char (c : Char)
  | unit (value : Nat)
  deriving DecidableEq

namespace Piece

/-- Whether a unit opens a surrogate pair. -/
def isHigh (unit : Nat) : Bool := 0xd800 ≤ unit && unit < 0xdc00

/-- Whether a unit closes a surrogate pair. -/
def isLow (unit : Nat) : Bool := 0xdc00 ≤ unit && unit < 0xe000

/-- The character of a surrogate pair. -/
def joined (high low : Nat) : Char :=
  Char.ofNat (0x10000 + (high - 0xd800) * 0x400 + (low - 0xdc00))

/-- The characters that pieces denote, if no half of a surrogate pair stands alone. -/
def chars? : List Piece → Option (List Char)
  | [] => some []
  | .char c :: rest => (chars? rest).map (c :: ·)
  | .unit high :: .unit low :: rest =>
    if isHigh high then
      if isLow low then (chars? rest).map (joined high low :: ·) else none
    else if isLow high then none
    else (chars? (.unit low :: rest)).map (Char.ofNat high :: ·)
  | .unit value :: rest =>
    if isHigh value || isLow value then none else (chars? rest).map (Char.ofNat value :: ·)

end Piece

namespace Token

/-- What the automaton is inside of, with what it has read of it, the last first. -/
inductive Mode where
  | between
  | literal (pieces : List Piece)
  | escape (pieces : List Piece)
  | unit (pieces : List Piece) (digitsLeft value : Nat)
  | number (lexeme : List Char)
  | word (letters : List Char)

def ofWord? (letters : List Char) : Option Token :=
  if letters = ['n', 'u', 'l', 'l'] then some .null
  else if letters = ['t', 'r', 'u', 'e'] then some (.bool true)
  else if letters = ['f', 'a', 'l', 's', 'e'] then some (.bool false)
  else none

def ofPieces (pieces : List Piece) : Token := .str ((Piece.chars? pieces).map String.ofList)

/-- Whether a character separates tokens. -/
def isBlank (c : Char) : Bool := c == ' ' || c == '\t' || c == '\n' || c == '\r'

/-- Whether a character can continue a number literal. -/
def isNumeric (c : Char) : Bool :=
  c.isDigit || c == '-' || c == '+' || c == '.' || c == 'e' || c == 'E'

/-- The value of a hexadecimal digit of either case. -/
def hexValue? (c : Char) : Option Nat :=
  if c.isDigit then some (c.toNat - 48)
  else if 97 ≤ c.toNat ∧ c.toNat ≤ 102 then some (c.toNat - 87)
  else if 65 ≤ c.toNat ∧ c.toNat ≤ 70 then some (c.toNat - 55)
  else none

/-- The character that a letter behind a backslash denotes. -/
def escaped? (c : Char) : Option Char :=
  if c = '"' then some '"'
  else if c = '\\' then some '\\'
  else if c = '/' then some '/'
  else if c = 'b' then some '\x08'
  else if c = 'f' then some '\x0c'
  else if c = 'n' then some '\n'
  else if c = 'r' then some '\r'
  else if c = 't' then some '\t'
  else none

/-- The token that one character writes by itself. -/
def ofChar? (c : Char) : Option Token :=
  if c = '[' then some .openArray
  else if c = ']' then some .closeArray
  else if c = '\x7b' then some .openObject
  else if c = '\x7d' then some .closeObject
  else if c = ',' then some .comma
  else if c = ':' then some .colon
  else none

/-- One character read between tokens. -/
def start? (c : Char) : Option (List Token × Mode) :=
  if isBlank c then some ([], .between)
  else if c = '"' then some ([], .literal [])
  else if c = '-' || c.isDigit then some ([], .number [c])
  else if c.isAlpha then some ([], .word [c])
  else (ofChar? c).map fun t => ([t], .between)

/-- One character read inside a string literal. -/
def continueLiteral? (pieces : List Piece) (c : Char) : Option (List Token × Mode) :=
  if c = '"' then some ([ofPieces pieces.reverse], .between)
  else if c = '\\' then some ([], .escape pieces)
  else if c.toNat < 0x20 then none
  else some ([], .literal (.char c :: pieces))

/-- The token that is complete once something else than its own characters follows. -/
def pending? : Mode → Option (List Token)
  | .between => some []
  | .number lexeme => (Number.ofLexeme? lexeme.reverse).map fun n => [.num n]
  | .word letters => (ofWord? letters.reverse).map fun t => [t]
  | _ => none

/-- One step of the automaton: the tokens completed and the next mode. -/
def step? (mode : Mode) (c : Char) : Option (List Token × Mode) :=
  match mode with
  | .between => start? c
  | .literal pieces => continueLiteral? pieces c
  | .escape pieces =>
    if c = 'u' then some ([], .unit pieces 4 0)
    else (escaped? c).map fun d => ([], .literal (.char d :: pieces))
  | .unit pieces digitsLeft value => do
    let digit ← hexValue? c
    let value := 16 * value + digit
    if digitsLeft ≤ 1 then some ([], .literal (.unit value :: pieces))
    else some ([], .unit pieces (digitsLeft - 1) value)
  | .number lexeme =>
    if isNumeric c then some ([], .number (c :: lexeme))
    else do
      let before ← pending? (.number lexeme)
      let (tokens, mode) ← start? c
      some (before ++ tokens, mode)
  | .word letters =>
    if c.isAlpha then some ([], .word (c :: letters))
    else do
      let before ← pending? (.word letters)
      let (tokens, mode) ← start? c
      some (before ++ tokens, mode)

/-- The tokens of the rest of a text, read on from a mode. -/
def scanFrom? : Mode → List Char → Option (List Token)
  | mode, [] => pending? mode
  | mode, c :: cs => do
    let (tokens, mode) ← step? mode c
    let rest ← scanFrom? mode cs
    some (tokens ++ rest)

def scan? (cs : List Char) : Option (List Token) := scanFrom? .between cs

/-- A character as it stands in a string literal. -/
def literalChar (c : Char) : List Char :=
  if c = '"' then ['\\', '"']
  else if c = '\\' then ['\\', '\\']
  else if c = '\x08' then ['\\', 'b']
  else if c = '\x0c' then ['\\', 'f']
  else if c = '\n' then ['\\', 'n']
  else if c = '\r' then ['\\', 'r']
  else if c = '\t' then ['\\', 't']
  else if c.toNat < 0x20 then
    ['\\', 'u', '0', '0', Nat.digitChar (c.toNat / 16), Nat.digitChar (c.toNat % 16)]
  else [c]

/-- The characters of a token. A literal that denotes no text is one lone half of a pair. -/
def text : Token → List Char
  | .openArray => ['[']
  | .closeArray => [']']
  | .openObject => ['\x7b']
  | .closeObject => ['\x7d']
  | .comma => [',']
  | .colon => [':']
  | .null => ['n', 'u', 'l', 'l']
  | .bool true => ['t', 'r', 'u', 'e']
  | .bool false => ['f', 'a', 'l', 's', 'e']
  | .num n => n.lexeme
  | .str (some s) => '"' :: s.toList.flatMap literalChar ++ ['"']
  | .str none => ['"', '\\', 'u', 'd', '8', '0', '0', '"']

end Token

end FlowDiagram.Json
