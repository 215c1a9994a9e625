import FlowDiagram.Proofs.Text.Line

/-!
# Offsets and positions as inverses

The positions that have an offset and the offsets between characters are in one-to-one
correspondence, but for one kind of offset: a carriage return that closes a line does not belong to
it, so the place behind it has no position of its own (`offset?_position`). `position` still answers
there, and `offset?` then does not lead back.
-/

namespace FlowDiagram.SourceText

open Text (width)

/-- An offset that stands between two characters, or at an end of the text. -/
def IsBoundary (t : SourceText) (offset : Nat) : Prop :=
  ∃ front back, t.chars = front ++ back ∧ width front = offset

/-- A text that goes on with a line feed or not at all. -/
def EndsLine (cs : List Char) : Prop := cs = [] ∨ ∃ rest, cs = '\n' :: rest

/-- An offset right behind a carriage return that closes a line or the text. -/
def IsBehindReturn (t : SourceText) (offset : Nat) : Prop :=
  ∃ front back, t.chars = front ++ '\r' :: back ∧ width (front ++ ['\r']) = offset ∧ EndsLine back

/-- A text is divided at an offset in at most one way. -/
theorem append_inj_of_width {front back front' back' : List Char}
    (same : front ++ back = front' ++ back') (h : width front = width front') :
    front = front' ∧ back = back' := by
  induction front generalizing front' with
  | nil =>
    cases front' with
    | nil => exact ⟨rfl, same⟩
    | cons c front' =>
      have positive := Char.utf8Size_pos c
      rw [Text.width_nil, Text.width_cons] at h
      omega
  | cons c front ih =>
    cases front' with
    | nil =>
      have positive := Char.utf8Size_pos c
      rw [Text.width_nil, Text.width_cons] at h
      omega
    | cons d front' =>
      obtain ⟨rfl, rest⟩ := List.cons.inj same
      rw [Text.width_cons, Text.width_cons] at h
      obtain ⟨rfl, rfl⟩ := ih rest (Nat.add_left_cancel h)
      exact ⟨rfl, rfl⟩

theorem IsBoundary.le_size {t : SourceText} {offset : Nat} (h : t.IsBoundary offset) :
    offset ≤ t.size := by
  obtain ⟨front, back, split, rfl⟩ := h
  rw [size, split, Text.width_append]
  exact Nat.le_add_right _ _

/-- Whether an offset is behind a carriage return that closes a line can be told from one way to
divide the text there. -/
theorem isBehindReturn_iff {t : SourceText} {front back : List Char}
    (split : t.chars = front ++ back) :
    t.IsBehindReturn (width front) ↔ front.getLast? = some '\r' ∧ EndsLine back := by
  constructor
  · rintro ⟨before, behind, split', same, ends⟩
    have divided : before ++ ['\r'] ++ behind = front ++ back := by
      rw [← split, split', List.append_assoc, List.singleton_append]
    obtain ⟨rfl, rfl⟩ := append_inj_of_width divided same
    exact ⟨List.getLast?_concat, ends⟩
  · rintro ⟨last, ends⟩
    obtain ⟨before, rfl⟩ := List.getLast?_eq_some_iff.mp last
    exact ⟨before, back, by rw [split, List.append_assoc, List.singleton_append], rfl, ends⟩

/-- A walk with room for just the front of a text ends behind it. -/
theorem walk_append (p : Position) (front back : List Char) :
    walk p (width front) (front ++ back) = advance p front := by
  induction front generalizing p with
  | nil =>
    cases back with
    | nil => rfl
    | cons c back => exact walk_cons_of_lt (Char.utf8Size_pos c)
  | cons c front ih =>
    rw [Text.width_cons, List.cons_append, walk_cons_of_le (Nat.le_add_right _ _),
      Nat.add_sub_cancel_left, ih, advance, advance, List.foldl_cons]

theorem position_width {t : SourceText} {front back : List Char} (split : t.chars = front ++ back) :
    t.position (width front) = advance .origin front := by
  rw [position, split, walk_append]

/-- Behind whole lines and a part of a line, the line is the number of the lines and the column the
length of the part. -/
theorem advance_lines {n : Nat} {whole part : List Char} (lines : Lines n whole)
    (inLine : '\n' ∉ part) : advance .origin (whole ++ part) = ⟨n, part.length⟩ := by
  rw [advance_append, lines.advance, advance_of_not_mem inLine]
  simp [Position.origin]

/-- The offset of a position, once the lines before it are passed. -/
theorem offset?_of_lines {t : SourceText} {n : Nat} {whole rest : List Char}
    (lines : Lines n whole) (split : t.chars = whole ++ rest) (column : Nat) :
    t.offset? ⟨n, column⟩ =
      if column ≤ (firstLine rest).length then
        some (width (whole ++ (firstLine rest).take column))
      else none := by
  have found := seekLine_lines lines 0 rest
  rw [← split, Nat.zero_add] at found
  simp only [offset?, found, Option.bind_eq_bind, Option.bind_some, Text.width_append]

theorem firstLine_append {part : List Char} (inLine : '\n' ∉ part) (back : List Char) :
    firstLine (part ++ back) = withoutReturn (part ++ back.takeWhile (· ≠ '\n')) := by
  have all : ∀ c ∈ part, decide (c ≠ '\n') = true := by
    intro c mem
    exact decide_eq_true fun isFeed => inLine (isFeed ▸ mem)
  rw [firstLine, List.takeWhile_append_of_pos all]

/-- Where the line ends with a part of it, only a carriage return is taken off. -/
theorem firstLine_append_of_endsLine {part back : List Char} (inLine : '\n' ∉ part)
    (ends : EndsLine back) : firstLine (part ++ back) = withoutReturn part := by
  have nothing : back.takeWhile (· ≠ '\n') = [] := by
    obtain rfl | ⟨rest, rfl⟩ := ends
    · rfl
    · simp
  rw [firstLine_append inLine, nothing, List.append_nil]

/-- A part of a line is at the front of its line unless it takes in the carriage return that closes
it. -/
theorem isPrefix_firstLine {part back : List Char} (inLine : '\n' ∉ part)
    (h : ¬ (part.getLast? = some '\r' ∧ EndsLine back)) : part <+: firstLine (part ++ back) := by
  by_cases ends : EndsLine back
  · have last : part.getLast? ≠ some '\r' := fun last => h ⟨last, ends⟩
    have whole : firstLine (part ++ back) = part := by
      rw [firstLine_append_of_endsLine inLine ends, withoutReturn, if_neg last]
    exact whole.symm ▸ List.prefix_rfl
  · cases back with
    | nil => exact absurd (.inl rfl) ends
    | cons c back =>
      have ne : c ≠ '\n' := fun isFeed => ends (.inr ⟨back, isFeed ▸ rfl⟩)
      have goes_on : (c :: back).takeWhile (· ≠ '\n') = c :: back.takeWhile (· ≠ '\n') := by
        simp [ne]
      rw [firstLine_append inLine, goes_on, withoutReturn]
      split
      · rw [List.dropLast_append_cons]
        exact List.prefix_append _ _
      · exact List.prefix_append _ _

/-- A part of a line with the carriage return that closes it is longer than the line. -/
theorem length_firstLine_lt {part back : List Char} (inLine : '\n' ∉ part)
    (last : part.getLast? = some '\r') (ends : EndsLine back) :
    (firstLine (part ++ back)).length < part.length := by
  obtain ⟨before, rfl⟩ := List.getLast?_eq_some_iff.mp last
  rw [firstLine_append_of_endsLine inLine ends, withoutReturn, if_pos last,
    List.dropLast_concat, List.length_append]
  exact Nat.lt_succ_self _

/-- Whole lines do not end with a carriage return, so a text does only if its last line does. -/
theorem getLast?_lines_append {n : Nat} {whole part : List Char} (lines : Lines n whole) :
    (whole ++ part).getLast? = some '\r' ↔ part.getLast? = some '\r' := by
  rw [List.getLast?_append, Option.or_eq_some_iff]
  constructor
  · rintro (last | ⟨-, last⟩)
    · exact last
    · exact absurd (lines.eq_of_getLast? last) (by decide)
  · exact .inl

/-- The position of an offset between characters leads back to it, unless it is behind a carriage
return that closes a line: then it leads nowhere. -/
theorem offset?_position {t : SourceText} {offset : Nat} (h : t.IsBoundary offset) :
    (¬ t.IsBehindReturn offset → t.offset? (t.position offset) = some offset) ∧
    (t.IsBehindReturn offset → t.offset? (t.position offset) = none) := by
  obtain ⟨front, back, split, rfl⟩ := h
  rw [isBehindReturn_iff split, position_width split]
  obtain ⟨n, whole, part, lines, inLine, rfl⟩ := exists_lines front
  rw [getLast?_lines_append lines, advance_lines lines inLine,
    offset?_of_lines lines (by rw [split, List.append_assoc])]
  constructor
  · intro kept
    have atFront := isPrefix_firstLine inLine kept
    rw [if_pos atFront.length_le, ← List.prefix_iff_eq_take.mp atFront]
  · rintro ⟨last, ends⟩
    exact if_neg (Nat.not_le.mpr (length_firstLine_lt inLine last ends))

/-- What stands before the first line feed holds none. -/
theorem not_mem_takeWhile (cs : List Char) : '\n' ∉ cs.takeWhile (· ≠ '\n') := by
  intro mem
  have kept := List.all_eq_true.mp List.all_takeWhile '\n' mem
  simp at kept

/-- No line holds a line feed. -/
theorem not_mem_firstLine (cs : List Char) : '\n' ∉ firstLine cs := by
  intro mem
  have within : firstLine cs <+: cs.takeWhile (· ≠ '\n') := by
    unfold firstLine withoutReturn
    split
    · exact List.dropLast_prefix _
    · exact List.prefix_rfl
  exact not_mem_takeWhile cs (within.subset mem)

/-- The offset of a position stands between characters, and its position is the one given. -/
theorem position_of_offset? {t : SourceText} {p : Position} {offset : Nat}
    (h : t.offset? p = some offset) : t.IsBoundary offset ∧ t.position offset = p := by
  have found := h
  simp only [offset?, Option.bind_eq_bind, Option.bind_eq_some_iff] at found
  obtain ⟨⟨start, rest⟩, found, -⟩ := found
  obtain ⟨whole, lines, split, -⟩ := seekLine_eq_some_iff.mp found
  rw [offset?_of_lines lines split] at h
  split at h
  · next inside =>
    cases h
    obtain ⟨behind, line⟩ := (List.take_prefix p.column _).trans (firstLine_isPrefix rest)
    have divided : t.chars = whole ++ (firstLine rest).take p.column ++ behind := by
      rw [split, List.append_assoc, line]
    have inLine : '\n' ∉ (firstLine rest).take p.column := fun mem =>
      not_mem_firstLine rest (List.mem_of_mem_take mem)
    refine ⟨⟨_, behind, divided, rfl⟩, ?_⟩
    rw [position_width divided, advance_lines lines inLine, List.length_take_of_le inside]
  · cases h

end FlowDiagram.SourceText
