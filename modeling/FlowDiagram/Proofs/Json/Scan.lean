import Mathlib.Data.List.Forall2
import FlowDiagram.Json.Writer
import FlowDiagram.Proofs.Json.Nesting
import FlowDiagram.Proofs.Json.Numeral

/-!
# The tokens of a written text

A number and a word end only where another character begins, so a scanner can cut a sequence of
tokens out of its text if every number and word stands before punctuation or at the end.
`SelfDelimiting` and `Scannable` keep that account, and the tokens that a value is written with
satisfy it: `Token.scan?` returns them from the text of any value.
-/

namespace FlowDiagram.Json

/-! ### Pieces of string literals -/

/-- Whether a piece is one way to write a character in a literal. -/
def Piece.Denotes (p : Piece) (c : Char) : Prop :=
  p = .char c ∨ p = .unit c.toNat ∧ c.toNat < 0x20

/-- A unit that is no half of a surrogate pair stands for itself, whatever follows it. -/
theorem Piece.chars?_unit_cons {value : Nat} (h : value < 0xd800) (rest : List Piece) :
    chars? (.unit value :: rest) = (chars? rest).map (Char.ofNat value :: ·) := by
  have plain : isHigh value = false ∧ isLow value = false := by
    constructor
    · simp only [isHigh, Bool.and_eq_false_iff, decide_eq_false_iff_not]
      omega
    · simp only [isLow, Bool.and_eq_false_iff, decide_eq_false_iff_not]
      omega
  rcases rest with - | ⟨p | low, rest⟩ <;> simp [chars?, plain]

theorem Piece.chars?_of_denotes {ps : List Piece} {cs : List Char}
    (h : List.Forall₂ Denotes ps cs) : chars? ps = some cs := by
  induction h with
  | nil => rfl
  | @cons p c ps cs head _ ih =>
    obtain rfl | ⟨rfl, small⟩ := head
    · rw [chars?, ih, Option.map_some]
    · rw [chars?_unit_cons (by omega), ih, Option.map_some, Char.ofNat_toNat]

namespace Token

/-! ### Steps of the scanner -/

theorem scanFrom?_cons {mode next : Mode} {c : Char} {tokens : List Token}
    (h : step? mode c = some (tokens, next)) (cs : List Char) :
    scanFrom? mode (c :: cs) = (scanFrom? next cs).map (tokens ++ ·) := by
  rw [scanFrom?, h, Option.map_eq_bind]
  rfl

/-- A step that completes no token. -/
theorem scanFrom?_cons_nil {mode : Mode} {c : Char} (next : Mode)
    (h : step? mode c = some ([], next)) (cs : List Char) :
    scanFrom? mode (c :: cs) = scanFrom? next cs := by
  simp [scanFrom?_cons h]

/-- A token that is complete once something else follows is delivered in front of what follows. -/
theorem scanFrom?_pending {mode : Mode} {tokens : List Token} {cs : List Char}
    (complete : pending? mode = some tokens)
    (next : ∀ c ∈ cs.head?,
      step? mode c = (start? c).map fun found => (tokens ++ found.1, found.2)) :
    scanFrom? mode cs = (scanFrom? .between cs).map (tokens ++ ·) := by
  cases cs with
  | nil =>
    have between : pending? .between = some [] := rfl
    simp [scanFrom?, complete, between]
  | cons c cs =>
    have first := next c rfl
    cases h : start? c with
    | none =>
      have between : step? .between c = none := h
      rw [h, Option.map_none] at first
      simp [scanFrom?, first, between]
    | some found =>
      rw [h, Option.map_some] at first
      have between : step? .between c = some (found.1, found.2) := h
      rw [scanFrom?_cons first, scanFrom?_cons between, Option.map_map]
      simp [Function.comp_def]

/-! ### String literals -/

theorem hexValue?_digitChar {n : Nat} (h : n < 16) : hexValue? n.digitChar = some n := by
  have all : ∀ n < 16, hexValue? n.digitChar = some n := by decide
  exact all n h

/-- The escape of a control character is read as its unit. -/
theorem scanFrom?_control {c : Char} (h : c.toNat < 0x20) (pieces : List Piece) (cs : List Char) :
    scanFrom? (.literal pieces)
        (['\\', 'u', '0', '0', Nat.digitChar (c.toNat / 16), Nat.digitChar (c.toNat % 16)] ++ cs)
      = scanFrom? (.literal (.unit c.toNat :: pieces)) cs := by
  have high : hexValue? (Nat.digitChar (c.toNat / 16)) = some (c.toNat / 16) :=
    hexValue?_digitChar (by omega)
  have low : hexValue? (Nat.digitChar (c.toNat % 16)) = some (c.toNat % 16) :=
    hexValue?_digitChar (by omega)
  have joined : 16 * (c.toNat / 16) + c.toNat % 16 = c.toNat := Nat.div_add_mod _ _
  simp only [List.cons_append, List.nil_append]
  rw [scanFrom?_cons_nil (.escape pieces) rfl,
    scanFrom?_cons_nil (.unit pieces 4 0) rfl,
    scanFrom?_cons_nil (.unit pieces 3 0) rfl,
    scanFrom?_cons_nil (.unit pieces 2 0) rfl,
    scanFrom?_cons_nil (.unit pieces 1 (c.toNat / 16)) (by simp [step?, high]),
    scanFrom?_cons_nil (.literal (.unit c.toNat :: pieces)) (by simp [step?, low, joined])]

/-- A short escape is read as the character it stands for. -/
theorem scanFrom?_escape {letter c : Char} (notUnit : letter ≠ 'u') (h : escaped? letter = some c)
    (pieces : List Piece) (cs : List Char) :
    scanFrom? (.literal pieces) ('\\' :: letter :: cs)
      = scanFrom? (.literal (.char c :: pieces)) cs := by
  rw [scanFrom?_cons_nil (.escape pieces) rfl,
    scanFrom?_cons_nil (.literal (.char c :: pieces)) (by simp [step?, notUnit, h])]

theorem scanFrom?_literalChar (pieces : List Piece) (c : Char) (cs : List Char) :
    ∃ p : Piece, p.Denotes c ∧ scanFrom? (.literal pieces) (literalChar c ++ cs)
      = scanFrom? (.literal (p :: pieces)) cs := by
  have short {letter d : Char} (notUnit : letter ≠ 'u') (h : escaped? letter = some d) :
      ∃ p : Piece, p.Denotes d ∧ scanFrom? (.literal pieces) (['\\', letter] ++ cs)
        = scanFrom? (.literal (p :: pieces)) cs :=
    ⟨.char d, .inl rfl, scanFrom?_escape notUnit h pieces cs⟩
  unfold literalChar
  split_ifs with quote backslash backspace feed newline carriage tab control
  · subst c
    exact short (by decide) rfl
  · subst c
    exact short (by decide) rfl
  · subst c
    exact short (by decide) rfl
  · subst c
    exact short (by decide) rfl
  · subst c
    exact short (by decide) rfl
  · subst c
    exact short (by decide) rfl
  · subst c
    exact short (by decide) rfl
  · exact ⟨.unit c.toNat, .inr ⟨rfl, control⟩, scanFrom?_control control pieces cs⟩
  · exact ⟨.char c, .inl rfl,
      scanFrom?_cons_nil _ (by simp [step?, continueLiteral?, quote, backslash, control]) cs⟩

theorem scanFrom?_literalChars (s : List Char) (pieces : List Piece) (cs : List Char) :
    ∃ read, List.Forall₂ Piece.Denotes read s ∧
      scanFrom? (.literal pieces) (s.flatMap literalChar ++ cs)
        = scanFrom? (.literal (read.reverse ++ pieces)) cs := by
  induction s generalizing pieces with
  | nil => exact ⟨[], .nil, rfl⟩
  | cons c s ih =>
    obtain ⟨p, denotes, first⟩ := scanFrom?_literalChar pieces c (s.flatMap literalChar ++ cs)
    obtain ⟨read, rest, scanned⟩ := ih (p :: pieces)
    refine ⟨p :: read, .cons denotes rest, ?_⟩
    rw [List.flatMap_cons, List.append_assoc, first, scanned, List.reverse_cons, List.append_assoc,
      List.singleton_append]

/-! ### Where tokens end -/

/-- Whether a text, if any follows, starts with a character that ends numbers and words. -/
def Stops (cs : List Char) : Prop := ∀ c ∈ cs.head?, isNumeric c = false ∧ c.isAlpha = false

/-- Whether tokens are scanned from their text, whatever follows. -/
def SelfDelimiting (tokens : List Token) : Prop :=
  ∀ cs, scanFrom? .between (tokens.flatMap text ++ cs)
    = (scanFrom? .between cs).map (tokens ++ ·)

/-- Whether tokens are scanned from their text, if what follows ends the last of them. -/
def Scannable (tokens : List Token) : Prop :=
  ∀ cs, Stops cs → scanFrom? .between (tokens.flatMap text ++ cs)
    = (scanFrom? .between cs).map (tokens ++ ·)

theorem SelfDelimiting.scannable {tokens : List Token} (h : SelfDelimiting tokens) :
    Scannable tokens := fun cs _ => h cs

theorem SelfDelimiting.append {before after : List Token} (first : SelfDelimiting before)
    (last : SelfDelimiting after) : SelfDelimiting (before ++ after) := by
  intro cs
  rw [List.flatMap_append, List.append_assoc, first, last, Option.map_map]
  simp [Function.comp_def]

theorem SelfDelimiting.append_scannable {before after : List Token}
    (first : SelfDelimiting before) (last : Scannable after) : Scannable (before ++ after) := by
  intro cs stops
  rw [List.flatMap_append, List.append_assoc, first, last cs stops, Option.map_map]
  simp [Function.comp_def]

theorem scannable_nil : Scannable [] := fun cs _ => by simp

/-- A token that is one character for itself. -/
def IsPunctuation (t : Token) : Prop :=
  t ∈ [openArray, closeArray, openObject, closeObject, comma, colon]

theorem IsPunctuation.selfDelimiting {t : Token} (h : t.IsPunctuation) : SelfDelimiting [t] := by
  intro cs
  simp only [IsPunctuation, List.mem_cons, List.not_mem_nil, or_false] at h
  rcases h with rfl | rfl | rfl | rfl | rfl | rfl <;> exact scanFrom?_cons rfl cs

theorem IsPunctuation.stops {t : Token} (h : t.IsPunctuation) (cs : List Char) :
    Stops (t.text ++ cs) := by
  simp only [IsPunctuation, List.mem_cons, List.not_mem_nil, or_false] at h
  rcases h with rfl | rfl | rfl | rfl | rfl | rfl <;> rintro c ⟨⟩ <;> decide

/-- Punctuation ends every token. -/
theorem Scannable.append_punctuation {tokens : List Token} {t : Token} (h : Scannable tokens)
    (ht : t.IsPunctuation) : SelfDelimiting (tokens ++ [t]) := by
  intro cs
  have last := ht.selfDelimiting cs
  rw [List.flatMap_singleton] at last
  rw [List.flatMap_append, List.flatMap_singleton, List.append_assoc, h _ (ht.stops cs), last,
    Option.map_map]
  simp [Function.comp_def]

/-! ### Single tokens -/

theorem selfDelimiting_str (s : Option String) : SelfDelimiting [.str s] := by
  intro cs
  rw [List.flatMap_singleton]
  cases s with
  | none =>
    have escape : scanFrom? (.literal []) (['\\', 'u', 'd', '8', '0', '0'] ++ '"' :: cs)
        = scanFrom? (.literal [.unit 0xd800]) ('"' :: cs) := by
      simp only [List.cons_append, List.nil_append]
      rw [scanFrom?_cons_nil _ rfl, scanFrom?_cons_nil _ rfl, scanFrom?_cons_nil _ rfl,
        scanFrom?_cons_nil _ rfl, scanFrom?_cons_nil _ rfl, scanFrom?_cons_nil _ rfl]
      rfl
    exact (scanFrom?_cons_nil _ rfl _).trans (escape.trans (scanFrom?_cons rfl cs))
  | some s =>
    obtain ⟨read, denotes, scanned⟩ := scanFrom?_literalChars s.toList [] ('"' :: cs)
    have closing : step? (.literal read.reverse) '"' = some ([.str (some s)], .between) := by
      simp [step?, continueLiteral?, ofPieces, Piece.chars?_of_denotes denotes]
    simp only [text, List.cons_append, List.append_assoc, List.nil_append]
    rw [scanFrom?_cons_nil (.literal []) rfl, scanned, List.append_nil,
      scanFrom?_cons closing]
    simp

theorem scanFrom?_numeric {lexeme : List Char} (h : ∀ c ∈ lexeme, isNumeric c = true)
    (before cs : List Char) :
    scanFrom? (.number before) (lexeme ++ cs)
      = scanFrom? (.number (lexeme.reverse ++ before)) cs := by
  induction lexeme generalizing before with
  | nil => rfl
  | cons c lexeme ih =>
    rw [List.cons_append, scanFrom?_cons_nil (.number (c :: before))
      (by simp [step?, h c List.mem_cons_self]), ih fun d hd => h d (List.mem_cons_of_mem c hd)]
    simp

theorem scanFrom?_alphabetic {letters : List Char} (h : ∀ c ∈ letters, c.isAlpha = true)
    (before cs : List Char) :
    scanFrom? (.word before) (letters ++ cs)
      = scanFrom? (.word (letters.reverse ++ before)) cs := by
  induction letters generalizing before with
  | nil => rfl
  | cons c letters ih =>
    rw [List.cons_append, scanFrom?_cons_nil (.word (c :: before))
      (by simp [step?, h c List.mem_cons_self]), ih fun d hd => h d (List.mem_cons_of_mem c hd)]
    simp

theorem isNumeric_of_mem_toDigits {n : Nat} {c : Char} (h : c ∈ Nat.toDigits 10 n) :
    isNumeric c = true := by
  simp [isNumeric, Number.isDigit_of_mem_toDigits h]

theorem isNumeric_of_mem_intLexeme {z : Int} {c : Char} (h : c ∈ Number.intLexeme z) :
    isNumeric c = true := by
  cases z with
  | ofNat n => exact isNumeric_of_mem_toDigits h
  | negSucc n =>
    obtain rfl | digit := List.mem_cons.mp h
    · rfl
    · exact isNumeric_of_mem_toDigits digit

/-- Every character of a literal continues it. -/
theorem isNumeric_of_mem_lexeme {n : Number} {c : Char} (h : c ∈ n.lexeme) :
    isNumeric c = true := by
  cases n with
  | integer z => exact isNumeric_of_mem_intLexeme h
  | decimal negative digits scale =>
    rw [Number.lexeme, List.mem_append, List.mem_append, List.mem_cons] at h
    rcases h with (sign | digit) | rfl | exponent
    · obtain rfl : c = '-' := by
        split at sign
        · exact List.mem_singleton.mp sign
        · cases sign
      rfl
    · exact isNumeric_of_mem_toDigits digit
    · rfl
    · exact isNumeric_of_mem_intLexeme exponent

/-- A literal starts with a minus sign or a digit. -/
theorem exists_lexeme_eq_cons (n : Number) :
    ∃ c cs, n.lexeme = c :: cs ∧ (c = '-' ∨ c.isDigit = true) := by
  have unsigned (digits : Nat) (rest : List Char) :
      ∃ c cs, Nat.toDigits 10 digits ++ rest = c :: cs ∧ (c = '-' ∨ c.isDigit = true) := by
    obtain ⟨c, cs, written, hc⟩ := Number.exists_toDigits_eq_cons digits
    exact ⟨c, cs ++ rest, by rw [written, List.cons_append], .inr hc⟩
  match n with
  | .integer (.ofNat n) => simpa [Number.lexeme, Number.intLexeme] using unsigned n []
  | .integer (.negSucc n) => exact ⟨'-', _, rfl, .inl rfl⟩
  | .decimal true digits scale => exact ⟨'-', _, rfl, .inl rfl⟩
  | .decimal false digits scale => exact unsigned digits _

theorem step?_number_start {c : Char} (h : c = '-' ∨ c.isDigit = true) :
    step? .between c = some ([], .number [c]) := by
  obtain rfl | h := h
  · rfl
  · have blank : isBlank c = false := by
      simp only [isBlank, Bool.or_eq_false_iff, beq_eq_false_iff_ne]
      refine ⟨⟨⟨?_, ?_⟩, ?_⟩, ?_⟩ <;> (rintro rfl; exact absurd h (by decide))
    have quote : c ≠ '"' := by
      rintro rfl
      exact absurd h (by decide)
    simp [step?, start?, blank, quote, h]

theorem scannable_num (n : Number) : Scannable [.num n] := by
  intro cs stops
  obtain ⟨c, rest, written, hc⟩ := exists_lexeme_eq_cons n
  have numeric : ∀ d ∈ rest, isNumeric d = true := fun d hd =>
    isNumeric_of_mem_lexeme (n := n) (written ▸ List.mem_cons_of_mem c hd)
  have complete : pending? (.number (rest.reverse ++ [c])) = some [.num n] := by
    have : (rest.reverse ++ [c]).reverse = n.lexeme := by simp [written]
    rw [pending?, this, Number.ofLexeme?_lexeme, Option.map_some]
  rw [List.flatMap_singleton, text, written, List.cons_append,
    scanFrom?_cons_nil _ (step?_number_start hc), scanFrom?_numeric numeric]
  refine scanFrom?_pending complete fun d hd => ?_
  simp only [step?, (stops d hd).1, complete, Option.map_eq_bind]
  rfl

/-- The words of the language are scanned. -/
theorem scannable_word {t : Token} (h : t ∈ [null, bool true, bool false]) : Scannable [t] := by
  intro cs stops
  simp only [List.mem_cons, List.not_mem_nil, or_false] at h
  obtain ⟨c, rest, written, start, alphabetic, complete⟩ : ∃ c rest, t.text = c :: rest ∧
      step? .between c = some ([], .word [c]) ∧ (∀ d ∈ rest, d.isAlpha = true) ∧
      pending? (.word (rest.reverse ++ [c])) = some [t] := by
    rcases h with rfl | rfl | rfl
    · exact ⟨'n', ['u', 'l', 'l'], rfl, rfl, List.all_eq_true.mp rfl, rfl⟩
    · exact ⟨'t', ['r', 'u', 'e'], rfl, rfl, List.all_eq_true.mp rfl, rfl⟩
    · exact ⟨'f', ['a', 'l', 's', 'e'], rfl, rfl, List.all_eq_true.mp rfl, rfl⟩
  rw [List.flatMap_singleton, written, List.cons_append, scanFrom?_cons_nil _ start,
    scanFrom?_alphabetic alphabetic]
  refine scanFrom?_pending complete fun d hd => ?_
  simp only [step?, (stops d hd).2, complete, Option.map_eq_bind]
  rfl

end Token

/-! ### Whole values -/

open Token

/-- A key with its value. -/
theorem scannable_keyed (key : Option String) {tokens : List Token} (h : Scannable tokens) :
    Scannable (.str key :: .colon :: tokens) :=
  ((selfDelimiting_str key).append
    (IsPunctuation.selfDelimiting (t := .colon) (by simp [IsPunctuation]))).append_scannable h

theorem scannable_elementTokens {elements : List Json} (h : ∀ j ∈ elements, Scannable j.tokens) :
    Scannable (elementTokens elements) := by
  induction elements with
  | nil => exact scannable_nil
  | cons j js ih =>
    have first := h j List.mem_cons_self
    have rest := ih fun k hk => h k (List.mem_cons_of_mem j hk)
    cases js with
    | nil => exact first
    | cons next js =>
      simpa [elementTokens] using
        (first.append_punctuation (t := .comma) (by simp [IsPunctuation])).append_scannable rest

theorem scannable_memberTokens {members : List (Option String × Json)}
    (h : ∀ m ∈ members, Scannable m.2.tokens) : Scannable (memberTokens members) := by
  induction members with
  | nil => exact scannable_nil
  | cons member members ih =>
    obtain ⟨key, j⟩ := member
    have first := scannable_keyed key (h (key, j) List.mem_cons_self)
    have rest := ih fun m hm => h m (List.mem_cons_of_mem _ hm)
    cases members with
    | nil => exact first
    | cons next members =>
      simpa [memberTokens] using
        (first.append_punctuation (t := .comma) (by simp [IsPunctuation])).append_scannable rest

/-- Tokens in brackets or braces. -/
theorem scannable_enclosed {first last : Token} (hf : first.IsPunctuation) (hl : last.IsPunctuation)
    {tokens : List Token} (h : Scannable tokens) : Scannable (first :: tokens ++ [last]) :=
  ((hf.selfDelimiting.append_scannable h).append_punctuation hl).scannable

theorem scannable_tokens (j : Json) : Scannable j.tokens := by
  induction j using induction with
  | null => exact scannable_word (by simp)
  | bool b => cases b <;> exact scannable_word (by simp)
  | num n => exact scannable_num n
  | str s => exact (selfDelimiting_str s).scannable
  | arr elements ih =>
    exact scannable_enclosed (by simp [IsPunctuation]) (by simp [IsPunctuation])
      (scannable_elementTokens ih)
  | obj members ih =>
    exact scannable_enclosed (by simp [IsPunctuation]) (by simp [IsPunctuation])
      (scannable_memberTokens ih)

/-- The text of a value is cut into the tokens it was written with. -/
theorem scan?_tokens (j : Json) : scan? (j.tokens.flatMap text) = some j.tokens := by
  simpa [scan?, scanFrom?, pending?] using scannable_tokens j [] (by simp [Stops])

end FlowDiagram.Json
