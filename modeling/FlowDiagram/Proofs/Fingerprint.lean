import Mathlib.Algebra.Group.Nat.Defs
import FlowDiagram.Fingerprint

/-!
# Fingerprints as numbers

The fingerprint of a line range, in the arithmetic of natural numbers. The range is told by a
sequence of numbers: whether there is one, then its four coordinates. Each is added to the state,
which is then multiplied by a fixed factor, and no state is kept beyond its last 64 bits; at the end
the state is turned by 26 bits. The words of the program wrap where these numbers are reduced.
-/

namespace FlowDiagram.Fingerprint

def rangeNumbers : Option LineRange → List Nat
  | none => [0]
  | some r => [1, r.start.line, r.start.column, r.stop.line, r.stop.column]

/-- What numbers leave in the state, one after the other. -/
def accumulated (state : Nat) (numbers : List Nat) : Nat :=
  numbers.foldl (fun state n => (state + n) * 0xf1357aea2e62a9c5 % 2 ^ 64) state

/-- A number of 64 bits, turned to the left by 26. -/
def turned (n : Nat) : Nat := n % 2 ^ 38 * 2 ^ 26 + n / 2 ^ 38

def hash (numbers : List Nat) : Nat := turned (accumulated 0 numbers)

theorem toNat_absorbNat (state : UInt64) (n : Nat) :
    (absorbNat state n).toNat = (state.toNat + n) * 0xf1357aea2e62a9c5 % 2 ^ 64 := by
  have factor : factor.toNat = 0xf1357aea2e62a9c5 := rfl
  rw [absorbNat, absorb, UInt64.toNat_mul, UInt64.toNat_add, UInt64.toNat_ofNat', factor,
    Nat.add_mod_mod, Nat.mod_mul_mod]

theorem toNat_foldl_absorbNat (state : UInt64) (numbers : List Nat) :
    (numbers.foldl absorbNat state).toNat = accumulated state.toNat numbers := by
  induction numbers generalizing state with
  | nil => rfl
  | cons n numbers ih =>
    rw [List.foldl_cons, ih, toNat_absorbNat, accumulated, accumulated, List.foldl_cons]

/-- A range is absorbed number by number. -/
theorem absorbRange_eq (state : UInt64) (range : Option LineRange) :
    absorbRange state range = (rangeNumbers range).foldl absorbNat state := by
  cases range <;> simp [absorbRange, rangeNumbers, absorbNat]

/-- Turning a word takes its first 26 bits behind the others. -/
theorem toNat_rotate (state : UInt64) :
    (state <<< 26 ||| state >>> 38).toNat = turned state.toNat := by
  have bounded := state.toNat_lt
  have front : state.toNat / 2 ^ 38 < 2 ^ 26 := by omega
  have back : state.toNat * 2 ^ 26 % 2 ^ 64 = state.toNat % 2 ^ 38 * 2 ^ 26 :=
    Nat.mul_mod_mul_right (2 ^ 26) state.toNat (2 ^ 38)
  have left : (state <<< 26).toNat = (state.toNat % 2 ^ 38) <<< 26 := by
    rw [UInt64.toNat_shiftLeft, Nat.shiftLeft_eq, Nat.shiftLeft_eq]
    exact back
  have right : (state >>> 38).toNat = state.toNat / 2 ^ 38 := by
    rw [UInt64.toNat_shiftRight, Nat.shiftRight_eq_div_pow]
    rfl
  rw [UInt64.toNat_or, left, right, ← Nat.shiftLeft_add_eq_or_of_lt front, Nat.shiftLeft_eq, turned]

/-- The identifier of a range is its hash in decimal digits. -/
theorem ofRange_eq (range : Option LineRange) :
    ofRange range = String.ofList (Nat.toDigits 10 (hash (rangeNumbers range))) := by
  have absorbed := toNat_foldl_absorbNat 0 (rangeNumbers range)
  rw [ofRange, text, toNat_rotate, absorbRange_eq, absorbed]
  rfl

example : ofRange (some ⟨⟨0, 12⟩, ⟨0, 14⟩⟩) = "92251887596488616" := by
  decide +kernel

end FlowDiagram.Fingerprint
