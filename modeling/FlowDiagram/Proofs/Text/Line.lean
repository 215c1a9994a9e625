import FlowDiagram.Proofs.Text.Offset

/-!
# Lines of a text

How the two ways of addressing a text divide it. `Lines n cs` holds of a text that is made of `n`
lines, each with its line feed; every front of a text is such lines and then a part of one line
(`exists_lines`). The search for a line passes exactly such a text (`seekLine_eq_some_iff`), and the
position behind it is the start of the line that follows (`Lines.advance`).
-/

namespace FlowDiagram.SourceText

open Text (width)

/-- Texts of whole lines, by the number of the lines. -/
inductive Lines : Nat → List Char → Prop where
  | none : Lines 0 []
  | feed {n : Nat} {cs : List Char} (rest : Lines n cs) : Lines (n + 1) ('\n' :: cs)
  | char {n : Nat} {c : Char} {cs : List Char} (h : c ≠ '\n') (rest : Lines (n + 1) cs) :
    Lines (n + 1) (c :: cs)

/-- The position behind a text that starts at `p`. -/
def advance (p : Position) (cs : List Char) : Position := cs.foldl Position.after p

theorem advance_append (p : Position) (front back : List Char) :
    advance p (front ++ back) = advance (advance p front) back := List.foldl_append

/-- Within a line, every character takes one column. -/
theorem advance_of_not_mem {p : Position} {cs : List Char} (h : '\n' ∉ cs) :
    advance p cs = ⟨p.line, p.column + cs.length⟩ := by
  induction cs generalizing p with
  | nil => rfl
  | cons c cs ih =>
    have step : p.after c = ⟨p.line, p.column + 1⟩ := if_neg (List.ne_of_not_mem_cons h).symm
    have tail := List.not_mem_of_not_mem_cons h
    rw [advance, List.foldl_cons, ← advance, step, ih tail, List.length_cons, Nat.add_assoc,
      Nat.add_comm 1]

/-- Behind whole lines, a line starts. -/
theorem Lines.advance {n : Nat} {cs : List Char} (h : Lines n cs) (p : Position) :
    advance p cs = ⟨p.line + n, if n = 0 then p.column else 0⟩ := by
  induction h generalizing p with
  | none => rfl
  | feed rest ih =>
    have step : p.after '\n' = ⟨p.line + 1, 0⟩ := if_pos rfl
    rw [SourceText.advance, List.foldl_cons, ← SourceText.advance, step, ih]
    simp [Nat.add_assoc, Nat.add_comm 1]
  | char ne rest ih =>
    have step : p.after _ = ⟨p.line, p.column + 1⟩ := if_neg ne
    rw [SourceText.advance, List.foldl_cons, ← SourceText.advance, step, ih]
    simp

/-- Whole lines end with a line feed. -/
theorem Lines.eq_of_getLast? {n : Nat} {cs : List Char} (h : Lines n cs) {c : Char}
    (last : cs.getLast? = some c) : c = '\n' := by
  induction h with
  | none => cases last
  | @feed n cs rest ih =>
    cases cs with
    | nil => exact (Option.some.inj last).symm
    | cons d ds => exact ih (by rwa [List.getLast?_cons_cons] at last)
  | @char n d cs ne rest ih =>
    cases rest with
    | feed rest => exact ih (by rwa [List.getLast?_cons_cons] at last)
    | char ne rest => exact ih (by rwa [List.getLast?_cons_cons] at last)

/-- Every text is whole lines and then a part of a line. -/
theorem exists_lines (cs : List Char) :
    ∃ n whole part, Lines n whole ∧ '\n' ∉ part ∧ cs = whole ++ part := by
  induction cs with
  | nil => exact ⟨0, [], [], .none, List.not_mem_nil, rfl⟩
  | cons c cs ih =>
    obtain ⟨n, whole, part, lines, inLine, rfl⟩ := ih
    by_cases isFeed : c = '\n'
    · subst isFeed
      exact ⟨n + 1, '\n' :: whole, part, .feed lines, inLine, rfl⟩
    · cases n with
      | zero =>
        cases lines
        have inLine' := List.not_mem_cons_of_ne_of_not_mem (Ne.symm isFeed) inLine
        exact ⟨0, [], c :: part, .none, inLine', rfl⟩
      | succ n => exact ⟨n + 1, c :: whole, part, .char isFeed lines, inLine, rfl⟩

/-- The search for a line passes whole lines. -/
theorem seekLine_lines {n : Nat} {front : List Char} (h : Lines n front) (start : Nat)
    (rest : List Char) :
    seekLine start (front ++ rest) n = some (start + width front, rest) := by
  induction h generalizing start with
  | none => rw [List.nil_append, seekLine, Text.width_nil, Nat.add_zero]
  | feed lines ih =>
    rw [List.cons_append, seekLine, if_pos rfl, ih, Text.width_cons, Nat.add_assoc]
  | char ne lines ih =>
    rw [List.cons_append, seekLine, if_neg ne, ih, Text.width_cons, Nat.add_assoc]

/-- The search for a line passes nothing but whole lines, as many as it is asked for. -/
theorem seekLine_eq_some_iff {start stop n : Nat} {cs rest : List Char} :
    seekLine start cs n = some (stop, rest) ↔
      ∃ front, Lines n front ∧ cs = front ++ rest ∧ stop = start + width front := by
  constructor
  · intro h
    induction cs generalizing start n with
    | nil =>
      cases n with
      | zero =>
        cases h
        exact ⟨[], .none, rfl, rfl⟩
      | succ n => cases h
    | cons c cs ih =>
      cases n with
      | zero =>
        cases h
        exact ⟨[], .none, rfl, rfl⟩
      | succ n =>
        rw [seekLine] at h
        split at h
        · next isFeed =>
          subst isFeed
          obtain ⟨front, lines, rfl, rfl⟩ := ih h
          exact ⟨'\n' :: front, .feed lines, rfl, by rw [Text.width_cons, Nat.add_assoc]⟩
        · next ne =>
          obtain ⟨front, lines, rfl, rfl⟩ := ih h
          exact ⟨c :: front, .char ne lines, rfl, by rw [Text.width_cons, Nat.add_assoc]⟩
  · rintro ⟨front, lines, rfl, rfl⟩
    exact seekLine_lines lines start rest

end FlowDiagram.SourceText
