import Mathlib.Data.List.Basic
import Mathlib.Data.List.TakeDrop
import FlowDiagram.Json.Number

/-!
# Number literals are read back

`Number.lexeme` writes every number in such a way that `Number.ofLexeme?` reads the same number
again, decimals and minus zero included. The digits that are written never start with a zero
that is not alone, which is all that the reader asks of them.
-/

namespace FlowDiagram.Json.Number

/-! ### Digits -/

theorem isDigit_of_mem_toDigits {n : Nat} {c : Char} (h : c ∈ Nat.toDigits 10 n) :
    c.isDigit = true :=
  Nat.isDigit_of_mem_toDigits (by decide) (by decide) h

theorem natOfDigits_toDigits (n : Nat) : natOfDigits (Nat.toDigits 10 n) = n :=
  Nat.ofDigitChars_ten_toDigits

/-- The digits of a positive number start with another digit than zero. -/
theorem head?_toDigits_ne_zero {n : Nat} (hn : 0 < n) : (Nat.toDigits 10 n).head? ≠ some '0' := by
  induction n using Nat.strongRecOn with
  | ind n ih =>
    by_cases small : n < 10
    · rw [Nat.toDigits_of_lt_base small]
      simpa using Nat.pos_iff_ne_zero.mp hn
    · rw [Nat.toDigits_of_base_le (by decide) (by omega),
        List.head?_append_of_ne_nil _ Nat.toDigits_ne_nil]
      exact ih (n / 10) (by omega) (by omega)

/-- The first of the digits. -/
theorem exists_toDigits_eq_cons (n : Nat) :
    ∃ c cs, Nat.toDigits 10 n = c :: cs ∧ c.isDigit = true := by
  obtain ⟨c, cs, h⟩ := List.exists_cons_of_ne_nil (Nat.toDigits_ne_nil (n := n) (b := 10))
  exact ⟨c, cs, h, isDigit_of_mem_toDigits (h ▸ List.mem_cons_self)⟩

theorem span_toDigits_append (n : Nat) {rest : List Char}
    (h : ∀ c ∈ rest.head?, c.isDigit = false) :
    (Nat.toDigits 10 n ++ rest).span Char.isDigit = (Nat.toDigits 10 n, rest) := by
  have stops : rest.takeWhile Char.isDigit = [] ∧ rest.dropWhile Char.isDigit = rest := by
    cases rest with
    | nil => simp
    | cons c cs => simp [h c rfl]
  rw [List.span_eq_takeWhile_dropWhile,
    List.takeWhile_append_of_pos fun c => isDigit_of_mem_toDigits,
    List.dropWhile_append_of_pos fun c => isDigit_of_mem_toDigits, stops.1, stops.2,
    List.append_nil]

/-! ### The parts of a literal -/

theorem takeWhole?_toDigits_append (n : Nat) {rest : List Char}
    (h : ∀ c ∈ rest.head?, c.isDigit = false) :
    takeWhole? (Nat.toDigits 10 n ++ rest) = some (Nat.toDigits 10 n, rest) := by
  rw [takeWhole?, span_toDigits_append n h]
  obtain rfl | hn := Nat.eq_zero_or_pos n
  · simp
  · have lead := head?_toDigits_ne_zero hn
    obtain ⟨c, cs, digits, -⟩ := exists_toDigits_eq_cons n
    rw [digits] at lead ⊢
    have : c ≠ '0' := by simpa using lead
    simp [this]

theorem takeSign_toDigits_append (n : Nat) (rest : List Char) :
    takeSign (Nat.toDigits 10 n ++ rest) = (false, Nat.toDigits 10 n ++ rest) := by
  obtain ⟨c, cs, digits, hc⟩ := exists_toDigits_eq_cons n
  rw [digits, List.cons_append, takeSign]
  rintro cs' ⟨⟩
  exact absurd hc (by decide)

theorem magnitude?_toDigits (n : Nat) :
    exponentOfDigits?.magnitude? (Nat.toDigits 10 n) = some n := by
  have all : (Nat.toDigits 10 n).all Char.isDigit = true :=
    List.all_eq_true.mpr fun c => isDigit_of_mem_toDigits
  simp [exponentOfDigits?.magnitude?, all, natOfDigits_toDigits]

theorem exponentOfDigits?_intLexeme (z : Int) : exponentOfDigits? (intLexeme z) = some z := by
  cases z with
  | ofNat n =>
    obtain ⟨c, cs, digits, hc⟩ := exists_toDigits_eq_cons n
    have unsigned : exponentOfDigits? (Nat.toDigits 10 n)
        = (exponentOfDigits?.magnitude? (Nat.toDigits 10 n)).map Int.ofNat := by
      rw [digits, exponentOfDigits?]
      · cases exponentOfDigits?.magnitude? (c :: cs) <;> rfl
      · rintro cs' ⟨⟩
        exact absurd hc (by decide)
      · rintro cs' ⟨⟩
        exact absurd hc (by decide)
    rw [intLexeme, unsigned, magnitude?_toDigits, Option.map_some]
  | negSucc n =>
    simp [intLexeme, exponentOfDigits?, magnitude?_toDigits, Int.negSucc_eq]

/-! ### Whole literals -/

theorem ofLexeme?_intLexeme (z : Int) : ofLexeme? (intLexeme z) = some (.integer z) := by
  have whole (n : Nat) : takeWhole? (Nat.toDigits 10 n) = some (Nat.toDigits 10 n, []) := by
    have ended := @takeWhole?_toDigits_append n [] (by simp)
    rwa [List.append_nil] at ended
  cases z with
  | ofNat n =>
    have unsigned : takeSign (Nat.toDigits 10 n) = (false, Nat.toDigits 10 n) := by
      simpa using takeSign_toDigits_append n []
    simp [ofLexeme?, intLexeme, unsigned, whole, takeFraction?, takeExponent?,
      natOfDigits_toDigits]
  | negSucc n =>
    simp [ofLexeme?, intLexeme, takeSign, whole, takeFraction?, takeExponent?,
      natOfDigits_toDigits, Int.negSucc_eq]

theorem ofLexeme?_decimal (negative : Bool) (digits : Nat) (scale : Int) :
    ofLexeme? (lexeme (.decimal negative digits scale))
      = some (.decimal negative digits scale) := by
  have whole : takeWhole? (Nat.toDigits 10 digits ++ 'e' :: intLexeme scale)
      = some (Nat.toDigits 10 digits, 'e' :: intLexeme scale) :=
    takeWhole?_toDigits_append digits (by simp)
  cases negative with
  | false =>
    simp [ofLexeme?, lexeme, takeSign_toDigits_append, whole, takeFraction?, takeExponent?,
      exponentOfDigits?_intLexeme, natOfDigits_toDigits]
  | true =>
    simp [ofLexeme?, lexeme, takeSign, whole, takeFraction?, takeExponent?,
      exponentOfDigits?_intLexeme, natOfDigits_toDigits]

/-- Every number is read back from its literal. -/
theorem ofLexeme?_lexeme (n : Number) : ofLexeme? n.lexeme = some n := by
  cases n with
  | integer z => exact ofLexeme?_intLexeme z
  | decimal negative digits scale => exact ofLexeme?_decimal negative digits scale

end FlowDiagram.Json.Number
