import FlowDiagram.Text.Position

/-!
# Fingerprints

A fingerprint is a 64-bit number that stands for a sequence of words and texts. Words are absorbed
one after the other by an addition and a multiplication modulo `2 ^ 64`; a text is first condensed
to one word by folded products of its bytes. Equal inputs have equal fingerprints, so
identifiers made from them are stable.
-/

namespace FlowDiagram.Fingerprint

/-- The odd factor by which every absorbed word multiplies the state. -/
def factor : UInt64 := 0xf1357aea2e62a9c5

/-- The two words that the condensation of a text starts from. -/
def seeds : UInt64 × UInt64 := (0x243f6a8885a308d3, 0x13198a2e03707344)

/-- The word that meets the second half of every chunk of a long text. -/
def chunkSeed : UInt64 := 0xa4093822299f31d0

def absorb (state word : UInt64) : UInt64 := (state + word) * factor

/-- The two halves of the full product of two words, folded into one. -/
def fold (x y : UInt64) : UInt64 :=
  let product := x.toNat * y.toNat
  UInt64.ofNat product ^^^ UInt64.ofNat (product / UInt64.size)

/-- The word whose bytes these are, the least significant first. -/
def littleEndian (bytes : List UInt8) : UInt64 :=
  bytes.foldr (fun b word => word <<< 8 ||| b.toUInt64) 0

/-- Fold the first `chunks` chunks of sixteen bytes into the two words. -/
def foldChunks : Nat → UInt64 × UInt64 → List UInt8 → UInt64 × UInt64
  | 0, words, _ => words
  | chunks + 1, (first, second), bytes =>
    let folded := fold (first ^^^ littleEndian (bytes.take 8))
      (chunkSeed ^^^ littleEndian ((bytes.drop 8).take 8))
    foldChunks chunks (second, folded) (bytes.drop 16)

/-- The two words of a text of at most sixteen bytes; short texts let its ends overlap. -/
def foldShort (bytes : List UInt8) : UInt64 × UInt64 :=
  let size := bytes.length
  if 8 ≤ size then
    (seeds.1 ^^^ littleEndian (bytes.take 8), seeds.2 ^^^ littleEndian (bytes.drop (size - 8)))
  else if 4 ≤ size then
    (seeds.1 ^^^ littleEndian (bytes.take 4), seeds.2 ^^^ littleEndian (bytes.drop (size - 4)))
  else if 0 < size then
    (seeds.1 ^^^ (bytes.getD 0 0).toUInt64,
      seeds.2 ^^^ littleEndian [bytes.getD (size / 2) 0, bytes.getD (size - 1) 0])
  else seeds

/-- The two words of a text of more than sixteen bytes: whole chunks as long as a byte remains
behind them, then the last sixteen bytes. -/
def foldLong (bytes : List UInt8) : UInt64 × UInt64 :=
  let size := bytes.length
  let (first, second) := foldChunks ((size - 1) / 16) seeds bytes
  let tail := bytes.drop (size - 16)
  (first ^^^ littleEndian (tail.take 8), second ^^^ littleEndian (tail.drop 8))

def condense (bytes : List UInt8) : UInt64 :=
  let (first, second) := if bytes.length ≤ 16 then foldShort bytes else foldLong bytes
  fold first second ^^^ UInt64.ofNat bytes.length

/-- The state after one more text: its word, and a word that ends it. -/
def absorbText (state : UInt64) (s : String) : UInt64 :=
  absorb (absorb state (condense s.toUTF8.data.toList)) 255

def absorbNat (state : UInt64) (n : Nat) : UInt64 := absorb state (UInt64.ofNat n)

def absorbRange (state : UInt64) : Option LineRange → UInt64
  | none => absorb state 0
  | some r =>
    [r.start.line, r.start.column, r.stop.line, r.stop.column].foldl absorbNat (absorb state 1)

/-- The fingerprint in decimal digits; the state is first rotated by 26 bits to the left. -/
def text (state : UInt64) : String := toString (state <<< 26 ||| state >>> 38).toNat

/-- The identifier of something known by its line range only. -/
def ofRange (range : Option LineRange) : String := text (absorbRange 0 range)

/-- The identifier of something known by the module and name it has and the place it is at. -/
def ofPlace (moduleName name : String) (range : Option LineRange) : String :=
  text (absorbRange (absorbText (absorbText 0 moduleName) name) range)

end FlowDiagram.Fingerprint
