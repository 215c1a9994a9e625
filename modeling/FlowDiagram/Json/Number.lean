/-!
# Numbers of a JSON text

A number literal is an integer, or a decimal: a literal with a fraction or an exponent, and minus
zero. `Number.ofLexeme?` reads a literal and `Number.lexeme` writes one. `Number.inRange` tells
which literals a reader that turns them into binary floating point can hold.
-/

namespace FlowDiagram.Json

/-- The value of a number literal. `decimal` stands for `digits * 10 ^ scale`, with its sign. -/
inductive Number where
  | integer (value : Int)
  | decimal (negative : Bool) (digits : Nat) (scale : Int)
  deriving DecidableEq

namespace Number

/-- A minus sign at the front, and what follows it. -/
def takeSign : List Char → Bool × List Char
  | '-' :: cs => (true, cs)
  | cs => (false, cs)

/-- The whole digits of a literal, which start with zero only if they are just zero. -/
def takeWhole? (cs : List Char) : Option (List Char × List Char) :=
  let (digits, rest) := cs.span Char.isDigit
  match digits with
  | [] => none
  | ['0'] => some (digits, rest)
  | '0' :: _ => none
  | _ => some (digits, rest)

def takeFraction? : List Char → Option (Option (List Char) × List Char)
  | '.' :: cs =>
    let (digits, rest) := cs.span Char.isDigit
    if digits.isEmpty then none else some (some digits, rest)
  | cs => some (none, cs)

def natOfDigits (digits : List Char) : Nat := Nat.ofDigitChars 10 digits 0

/-- The exponent after its mark: an optional sign and at least one digit. -/
def exponentOfDigits? : List Char → Option Int
  | '-' :: cs => magnitude? cs |>.map fun n => -(n : Int)
  | '+' :: cs => magnitude? cs |>.map fun n => (n : Int)
  | cs => magnitude? cs |>.map fun n => (n : Int)
where
  /-- The number that nothing but digits write. -/
  magnitude? (cs : List Char) : Option Nat :=
    if cs.isEmpty || !cs.all Char.isDigit then none else some (natOfDigits cs)

def takeExponent? : List Char → Option (Option Int)
  | [] => some none
  | c :: cs => if c = 'e' ∨ c = 'E' then (exponentOfDigits? cs).map some else none

def ofLexeme? (cs : List Char) : Option Number := do
  let (negative, cs) := takeSign cs
  let (whole, cs) ← takeWhole? cs
  let (fraction, cs) ← takeFraction? cs
  let exponent ← takeExponent? cs
  let value := natOfDigits (whole ++ fraction.getD [])
  match fraction, exponent with
  | none, none =>
    if negative then
      if value = 0 then some (.decimal true 0 0) else some (.integer (-(value : Int)))
    else some (.integer value)
  | _, _ =>
    some (.decimal negative value (exponent.getD 0 - ((fraction.getD []).length : Int)))

/-- The decimal digits of an integer, behind a minus sign if it is negative. -/
def intLexeme : Int → List Char
  | .ofNat n => Nat.toDigits 10 n
  | .negSucc n => '-' :: Nat.toDigits 10 (n + 1)

def lexeme : Number → List Char
  | .integer n => intLexeme n
  | .decimal negative digits scale =>
    (if negative then ['-'] else []) ++ Nat.toDigits 10 digits ++ 'e' :: intLexeme scale

/-- The largest whole number that is kept in full while a literal is read. -/
def significandBound : Nat := UInt64.size - 1

/-- Drop digits from the right until the rest is within the bound: the rest and how many digits
were dropped. The first argument bounds their number. -/
def truncate : Nat → Nat → Nat × Nat
  | 0, n => (n, 0)
  | room + 1, n =>
    if n ≤ significandBound then (n, 0)
    else
      let (kept, dropped) := truncate room (n / 10)
      (kept, dropped + 1)

/-- The nearest number with at most 53 significant bits; a tie goes to the even neighbour. -/
def roundToDouble (n : Nat) : Nat :=
  if n < Nat.pow 2 53 then n
  else
    let unit := Nat.pow 2 (n.log2 - 52)
    let quotient := n / unit
    let remainder := n % unit
    if 2 * remainder < unit ∨ 2 * remainder = unit ∧ quotient % 2 = 0 then quotient * unit
    else (quotient + 1) * unit

/-- The least number that rounds beyond the largest finite double. -/
def overflowBound : Nat := Nat.pow 2 1024 - Nat.pow 2 970

/-- Whether `digits * 10 ^ scale` is held by a double. The digits are first truncated to the
significand bound; the product of the rounded significand and the rounded power of ten decides. -/
def fits (digits : Nat) (scale : Int) : Bool :=
  let (kept, dropped) := truncate (digits.log2 + 1) digits
  match scale + dropped with
  | .negSucc _ => true
  | .ofNat exponent =>
    kept == 0 ||
      exponent ≤ 308 && roundToDouble kept * roundToDouble (Nat.pow 10 exponent) < overflowBound

/-- Whether a reader that turns numbers into doubles where it must can hold a number. -/
def inRange : Number → Bool
  | .integer n => fits n.natAbs 0
  | .decimal _ digits scale => fits digits scale

end Number

end FlowDiagram.Json
