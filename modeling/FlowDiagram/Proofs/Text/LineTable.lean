import FlowDiagram.Proofs.Text.Bytes

/-!
# Tables of lines answer

A table that is made of a text never meets a step that it cannot take, and answers as the text does
(`position_tableOf`, `offset?_tableOf`). Its entries are the start of the text and the ends of its
line feeds, so they are in order and each is on a boundary; the line of an offset is found by
halving because the entries that are not behind the offset are at the front. What the text answers
is what counting gives (`position_counts`).
-/

namespace FlowDiagram

open Text

namespace SourceText

/-- The offsets at which the lines start that follow the first, where the text starts at `start`. -/
def lineStarts (start : Nat) : List Char → List Nat
  | [] => []
  | c :: cs =>
    if c = '\n' then (start + 1) :: lineStarts (start + 1) cs
    else lineStarts (start + c.utf8Size) cs

theorem lineStarts_append (start : Nat) (front back : List Char) :
    lineStarts start (front ++ back) =
      lineStarts start front ++ lineStarts (start + width front) back := by
  induction front generalizing start with
  | nil => rfl
  | cons c front ih =>
    rw [List.cons_append, lineStarts, lineStarts, width_cons]
    split
    · next isFeed =>
      subst isFeed
      rw [ih, List.cons_append, Nat.add_assoc]
      rfl
    · rw [ih, Nat.add_assoc]

theorem lineStarts_of_not_mem {cs : List Char} (h : '\n' ∉ cs) (start : Nat) :
    lineStarts start cs = [] := by
  induction cs generalizing start with
  | nil => rfl
  | cons c cs ih =>
    rw [lineStarts, if_neg (List.ne_of_not_mem_cons h).symm,
      ih (List.not_mem_of_not_mem_cons h)]

/-- Every line starts behind the start of the text and not behind its end. -/
theorem bounds_of_mem_lineStarts {start offset : Nat} {cs : List Char}
    (h : offset ∈ lineStarts start cs) : start < offset ∧ offset ≤ start + width cs := by
  induction cs generalizing start with
  | nil => cases h
  | cons c cs ih =>
    have positive := Char.utf8Size_pos c
    rw [lineStarts] at h
    rw [width_cons]
    split at h
    · next isFeed =>
      subst isFeed
      rcases List.mem_cons.mp h with rfl | behind
      · omega
      · have bounds := ih behind
        have one : '\n'.utf8Size = 1 := rfl
        omega
    · have bounds := ih h
      omega

theorem length_lineStarts (start : Nat) (cs : List Char) :
    (lineStarts start cs).length = cs.count '\n' := by
  induction cs generalizing start with
  | nil => rfl
  | cons c cs ih =>
    rw [lineStarts, List.count_cons]
    split
    · next isFeed => simp [ih, isFeed]
    · next other => simp [ih, other]

/-- Whole lines have a line feed each. -/
theorem Lines.count {n : Nat} {cs : List Char} (h : Lines n cs) : cs.count '\n' = n := by
  induction h with
  | none => rfl
  | feed rest ih => rw [List.count_cons_self, ih]
  | char ne rest ih => rw [List.count_cons_of_ne ne, ih]

theorem Lines.ends {n : Nat} {cs : List Char} (h : Lines n cs) :
    cs = [] ∨ cs.getLast? = some '\n' := by
  cases last : cs.getLast? with
  | none => exact .inl (List.getLast?_eq_none_iff.mp last)
  | some c => exact .inr (congrArg some (h.eq_of_getLast? last))

/-- The line that a search finds starts at the offset of its index among the starts of lines. -/
theorem getElem?_lineStarts (start : Nat) (cs : List Char) (n : Nat) :
    (start :: lineStarts start cs)[n]? = (seekLine start cs n).map Prod.fst := by
  induction cs generalizing start n with
  | nil => cases n <;> rfl
  | cons c cs ih =>
    cases n with
    | zero => rfl
    | succ n =>
      rw [List.getElem?_cons_succ, lineStarts, seekLine]
      split
      · next isFeed =>
        subst isFeed
        exact ih (start + 1) n
      · rw [← ih, List.getElem?_cons_succ]

end SourceText

namespace LineTable

open SourceText (Lines lineStarts)

@[simp] theorem ok_bind {α β : Type} (a : α) (next : α → Checked β) :
    (Except.ok a >>= next) = next a := rfl

theorem fit_of_lt {offset : Nat} (h : offset < UInt32.size) : fit offset = .ok offset := if_pos h

/-! ### Making a table -/

/-- The table of a text whose offsets fit. -/
def tableOf (t : SourceText) : LineTable :=
  ⟨encode t.chars, (0 :: lineStarts 0 t.chars).toArray⟩

/-- Bytes without a line feed are passed over. -/
theorem feedEnds_append {front : List UInt8} (h : lineFeed ∉ front) (start : Nat)
    (back : List UInt8) :
    feedEnds start (front ++ back) = feedEnds (start + front.length) back := by
  induction front generalizing start with
  | nil => rfl
  | cons b front ih =>
    rw [List.cons_append, feedEnds, if_neg (List.ne_of_not_mem_cons h).symm,
      ih (List.not_mem_of_not_mem_cons h), List.length_cons, Nat.add_assoc, Nat.add_comm 1]

theorem feedEnds_encode {start : Nat} {cs : List Char} (fits : start + width cs < UInt32.size) :
    feedEnds start (encode cs) = .ok (lineStarts start cs) := by
  induction cs generalizing start with
  | nil => rfl
  | cons c cs ih =>
    rw [width_cons] at fits
    rw [encode_cons, lineStarts]
    split
    · next isFeed =>
      subst isFeed
      have one : '\n'.utf8Size = 1 := rfl
      have single := utf8EncodeChar_of_toNat_eq lineFeed_ascii (c := '\n') rfl
      rw [single, List.singleton_append, feedEnds, if_pos rfl, fit_of_lt (by omega), ih (by omega)]
      rfl
    · next other =>
      have absent := mt (mem_utf8EncodeChar_iff lineFeed_ascii (a := '\n') rfl).mp other
      rw [feedEnds_append absent, String.length_utf8EncodeChar, ih (by omega)]

theorem ofText_eq {t : SourceText} (fits : t.size < UInt32.size) : ofText t = .ok (tableOf t) := by
  have offsets : feedEnds 0 (encode t.chars) = .ok (lineStarts 0 t.chars) :=
    feedEnds_encode (by rwa [Nat.zero_add])
  rw [ofText, ofBytes, offsets]
  rfl

/-! ### Searching a table -/

section Search

variable {holds : Nat → Bool} {xs : Array Nat} {front back : List Nat}
  (split : xs.toList = front ++ back) (yes : ∀ a ∈ front, holds a = true)
  (no : ∀ b ∈ back, holds b = false)

include split yes no

theorem holds_getElem_iff {i : Nat} (inside : i < xs.size) :
    holds xs[i] = true ↔ i < front.length := by
  have here : (front ++ back)[i]? = some xs[i] := by
    rw [← split, Array.getElem?_toList, Array.getElem?_eq_getElem inside]
  rcases Nat.lt_or_ge i front.length with passed | behind
  · rw [List.getElem?_append_left passed] at here
    exact iff_of_true (yes _ (List.mem_of_getElem? here)) passed
  · rw [List.getElem?_append_right behind] at here
    rw [no _ (List.mem_of_getElem? here)]
    exact iff_of_false Bool.false_ne_true (Nat.not_lt_of_le behind)

/-- Halving keeps the end of the front between the two bounds, and so finds it. -/
theorem search_eq {low high : Nat} (inside : high ≤ xs.size) (first : low ≤ front.length)
    (last : front.length ≤ high) :
    partitionPoint.search holds xs low high inside = front.length := by
  fun_induction partitionPoint.search holds xs low high inside with
  | case1 low high inside less found ih =>
    rw [holds_getElem_iff split yes no] at found
    exact ih found last
  | case2 low high inside less found ih =>
    rw [holds_getElem_iff split yes no] at found
    exact ih first (Nat.le_of_not_lt found)
  | case3 low high inside equal =>
    omega

theorem partitionPoint_eq : partitionPoint holds xs = front.length := by
  have size : xs.size = front.length + back.length := by
    rw [← Array.length_toList, split, List.length_append]
  exact search_eq split yes no _ (Nat.zero_le _) (by omega)

end Search

/-- The entries of a table are the starts of the lines that have been passed, and of the others. -/
theorem starts_tableOf {t : SourceText} {front back : List Char} (split : t.chars = front ++ back) :
    (tableOf t).starts.toList =
      (0 :: lineStarts 0 front) ++ lineStarts (width front) back := by
  rw [tableOf, List.toList_toArray, split, SourceText.lineStarts_append, Nat.zero_add,
    List.cons_append]

theorem length_passed {n : Nat} {whole : List Char} (lines : Lines n whole) :
    (0 :: lineStarts 0 whole).length = n + 1 := by
  rw [List.length_cons, SourceText.length_lineStarts, lines.count]

theorem getElem?_starts (t : SourceText) (n : Nat) :
    (tableOf t).starts[n]? = (SourceText.seekLine 0 t.chars n).map Prod.fst := by
  rw [← Array.getElem?_toList, tableOf, List.toList_toArray, SourceText.getElem?_lineStarts]

section Lookup

variable {t : SourceText} {n : Nat} {whole rest : List Char} (lines : Lines n whole)
  (split : t.chars = whole ++ rest)

include lines split

theorem getElem?_starts_of_lines : (tableOf t).starts[n]? = some (width whole) := by
  rw [getElem?_starts, split, SourceText.seekLine_lines lines, Option.map_some, Nat.zero_add]

theorem getElem?_starts_succ :
    (tableOf t).starts[n + 1]? = (lineStarts (width whole) rest).head? := by
  rw [← Array.getElem?_toList, starts_tableOf split,
    List.getElem?_append_right (Nat.le_of_eq (length_passed lines)), length_passed lines,
    Nat.sub_self, List.head?_eq_getElem?]

theorem start_tableOf : (tableOf t).start n = .ok (width whole) := by
  rw [start, getElem?_starts_of_lines lines split]

end Lookup

/-! ### Positions -/

/-- The lines that start at or before an offset are those that have been passed there. -/
theorem partitionPoint_starts {t : SourceText} {n : Nat} {whole part back : List Char}
    (lines : Lines n whole) (inLine : '\n' ∉ part) (split : t.chars = whole ++ part ++ back) :
    partitionPoint (· ≤ width (whole ++ part)) (tableOf t).starts = n + 1 := by
  have starts := starts_tableOf split
  rw [SourceText.lineStarts_append, SourceText.lineStarts_of_not_mem inLine, List.append_nil]
    at starts
  rw [← length_passed lines]
  refine partitionPoint_eq starts ?_ ?_
  · intro offset passed
    rw [decide_eq_true_eq, width_append]
    rcases List.mem_cons.mp passed with rfl | passed
    · exact Nat.zero_le _
    · have bounds := SourceText.bounds_of_mem_lineStarts passed
      omega
  · intro offset behind
    have bounds := SourceText.bounds_of_mem_lineStarts behind
    rw [decide_eq_false_iff_not]
    omega

theorem size_tableOf {t : SourceText} (fits : t.size < UInt32.size) :
    (tableOf t).size = .ok t.size := by
  rw [size, tableOf, length_encode]
  exact fit_of_lt fits

/-- A table finds the position of every offset. -/
theorem position_tableOf {t : SourceText} (fits : t.size < UInt32.size) (offset : Nat) :
    (tableOf t).position offset = .ok (t.position offset) := by
  obtain ⟨front, back, split, stop⟩ := t.isBoundary_floor offset
  obtain ⟨n, whole, part, lines, inLine, rfl⟩ := SourceText.exists_lines front
  have stops : roundDown (tableOf t).bytes (min offset t.size) = .ok (width (whole ++ part)) := by
    rw [tableOf, roundDown_encode, t.floor_min_size, stop]
  have narrow : fit (width (whole ++ part)) = .ok (width (whole ++ part)) := by
    have inside := (t.isGreatest_floor offset).1.2
    exact fit_of_lt (by omega)
  have start : (tableOf t).start n = .ok (width whole) :=
    start_tableOf lines (by rw [split, List.append_assoc])
  have sliced : slice (tableOf t).bytes (width whole) (width (whole ++ part)) =
      .ok (encode part) := by
    rw [tableOf, split, slice_encode]
  simp only [position, size_tableOf fits, ok_bind, stops, narrow,
    partitionPoint_starts lines inLine split, Nat.add_sub_cancel, start, sliced,
    length_charOffsets_encode]
  rw [← t.position_floor offset, ← stop, SourceText.position_width split,
    SourceText.advance_lines lines inLine]
  rfl

theorem lineRange_tableOf {t : SourceText} (fits : t.size < UInt32.size) (s : Span) :
    (tableOf t).lineRange s = .ok (t.lineRange s) := by
  simp only [lineRange, position_tableOf fits, ok_bind]
  rfl

/-! ### Offsets -/

/-- Every text is a line and then the end of that line. -/
theorem exists_line (rest : List Char) : ∃ line behind, rest = line ++ behind ∧
    rest.takeWhile (· ≠ '\n') = line ∧ '\n' ∉ line ∧ SourceText.EndsLine behind := by
  refine ⟨_, rest.dropWhile (· ≠ '\n'), List.takeWhile_append_dropWhile.symm, rfl,
    SourceText.not_mem_takeWhile rest, ?_⟩
  have stopped := List.head?_dropWhile_not (· ≠ '\n') rest
  cases behind : rest.dropWhile (· ≠ '\n') with
  | nil => exact .inl rfl
  | cons c cs =>
    rw [behind] at stopped
    obtain rfl : c = '\n' := by simpa using stopped
    exact .inr ⟨cs, rfl⟩

theorem withoutReturn_encode (line : List Char) :
    withoutReturn (encode line) = encode (SourceText.withoutReturn line) := by
  rw [withoutReturn, SourceText.withoutReturn]
  have last : (encode line).getLast? = some carriageReturn ↔ line.getLast? = some '\r' :=
    getLast?_encode_eq_some_iff carriageReturn_ascii rfl
  by_cases ends : line.getLast? = some '\r'
  · rw [if_pos ends, if_pos (last.mpr ends)]
    obtain ⟨front, rfl⟩ := List.getLast?_eq_some_iff.mp ends
    have single := utf8EncodeChar_of_toNat_eq carriageReturn_ascii (c := '\r') rfl
    rw [encode_append, encode_cons, single, encode_nil, List.append_nil, List.dropLast_concat,
      List.dropLast_concat]
  · rw [if_neg ends, if_neg (mt last.mp ends)]

/-- A line stops at the end of the text or before the feed that the next line follows. -/
theorem stop_tableOf {t : SourceText} {n : Nat} {whole line behind : List Char}
    (lines : Lines n whole) (inLine : '\n' ∉ line) (ends : SourceText.EndsLine behind)
    (split : t.chars = whole ++ (line ++ behind)) :
    (tableOf t).stop n = .ok (width (whole ++ line)) := by
  rw [stop, getElem?_starts_succ lines split, SourceText.lineStarts_append,
    SourceText.lineStarts_of_not_mem inLine, List.nil_append, width_append]
  obtain rfl | ⟨cs, rfl⟩ := ends
  · show Except.ok (encode t.chars).length = _
    rw [length_encode, split, List.append_nil, width_append]
  · rfl

/-- A table slices every line out of its text. -/
theorem line?_of_lines {t : SourceText} {n : Nat} {whole rest : List Char} (lines : Lines n whole)
    (split : t.chars = whole ++ rest) :
    (tableOf t).line? n = .ok (some (encode (SourceText.firstLine rest))) := by
  obtain ⟨line, behind, rfl, first, inLine, ends⟩ := exists_line rest
  have sliced : slice (tableOf t).bytes (width whole) (width (whole ++ line)) =
      .ok (encode line) := by
    rw [tableOf, split, ← List.append_assoc, slice_encode]
  rw [line?, getElem?_starts_of_lines lines split]
  simp only [stop_tableOf lines inLine ends split, ok_bind, sliced, withoutReturn_encode]
  rw [SourceText.firstLine, first]
  rfl

theorem line?_of_seekLine_eq_none {t : SourceText} {n : Nat}
    (h : SourceText.seekLine 0 t.chars n = none) : (tableOf t).line? n = .ok none := by
  rw [line?, getElem?_starts, h]
  rfl

/-- In a line that exists, a table finds the offset of every column that the line has. -/
theorem offset?_of_lines {t : SourceText} (fits : t.size < UInt32.size) {n : Nat}
    {whole rest : List Char} (lines : Lines n whole) (split : t.chars = whole ++ rest)
    (column : Nat) : (tableOf t).offset? ⟨n, column⟩ = .ok (t.offset? ⟨n, column⟩) := by
  have narrow {front : List Char} (h : front <+: SourceText.firstLine rest) :
      fit (width whole + width front) = .ok (width (whole ++ front)) := by
    have inside := SourceText.width_le_of_isPrefix (h.trans (SourceText.firstLine_isPrefix rest))
    rw [SourceText.size, split, width_append] at fits
    rw [width_append]
    exact fit_of_lt (by omega)
  rw [SourceText.offset?_of_lines lines split column]
  simp only [offset?, line?_of_lines lines split, ok_bind, start_tableOf lines split,
    drop_charOffsets_encode, length_charOffsets_encode, length_encode]
  by_cases atStart : column = 0
  · rw [if_pos atStart, atStart, if_pos (Nat.zero_le _), List.take_zero, List.append_nil]
    rfl
  rw [if_neg atStart]
  -- The column is that of a character of the line, that of its end, or behind that.
  cases behind : (SourceText.firstLine rest).drop column with
  | cons c cs =>
    have inside : column < (SourceText.firstLine rest).length := by
      rw [← Nat.sub_pos_iff_lt, ← List.length_drop, behind]
      exact Nat.succ_pos _
    rw [charOffsets_encode_cons, if_pos (Nat.le_of_lt inside)]
    simp only [Nat.zero_add, narrow (List.take_prefix _ _), ok_bind]
    rfl
  | nil =>
    have outside := List.drop_eq_nil_iff.mp behind
    simp only [encode_nil, narrow List.prefix_rfl, ok_bind]
    by_cases atEnd : (SourceText.firstLine rest).length = column
    · rw [if_pos atEnd, if_pos (Nat.le_of_eq atEnd.symm), List.take_of_length_le outside]
      rfl
    · rw [if_neg atEnd, if_neg (by omega)]
      rfl

/-- A table finds the offset of every position that has one. -/
theorem offset?_tableOf {t : SourceText} (fits : t.size < UInt32.size) (p : Position) :
    (tableOf t).offset? p = .ok (t.offset? p) := by
  cases found : SourceText.seekLine 0 t.chars p.line with
  | none =>
    have nowhere : t.offset? p = none := by simp [SourceText.offset?, found]
    rw [offset?, line?_of_seekLine_eq_none found, nowhere]
    rfl
  | some place =>
    obtain ⟨whole, lines, split, -⟩ := SourceText.seekLine_eq_some_iff.mp found
    exact offset?_of_lines fits lines split p.column

end LineTable

namespace SourceText

/-- Every offset counts as the end of some lines and a part of a line, and these are its position:
as many lines as there are line feeds before it, and as many columns as the part has characters. -/
theorem exists_position_eq (t : SourceText) (offset : Nat) :
    ∃ before part after, t.chars = before ++ part ++ after ∧
      (before = [] ∨ before.getLast? = some '\n') ∧ '\n' ∉ part ∧
      width (before ++ part) = t.floor offset ∧
      t.position offset =
        ⟨((encode t.chars).take (width (before ++ part))).count lineFeed, part.length⟩ := by
  obtain ⟨front, after, split, stop⟩ := t.isBoundary_floor offset
  obtain ⟨n, before, part, lines, inLine, rfl⟩ := exists_lines front
  refine ⟨before, part, after, split, lines.ends, inLine, stop, ?_⟩
  have passed : (encode t.chars).take (width (before ++ part)) = encode (before ++ part) := by
    rw [split, encode_append, ← length_encode (before ++ part), List.take_left]
  rw [passed, count_encode lineFeed_ascii (a := '\n') rfl, List.count_append, lines.count,
    List.count_eq_zero_of_not_mem inLine, ← t.position_floor offset, ← stop,
    position_width split, advance_lines lines inLine, Nat.add_zero]

/-- Positions are counted. An offset of a text counts as the last boundary that is neither behind it
nor behind the end of the text: its line is the number of line feeds before there, and its column
the number of characters since the last of them, or since the start of the text. A text has a line
more than line feeds. A table of lines can be made of every text whose offsets take 32 bits, and
then no offset, span or position leads it to a step that it cannot take: it answers all of them as
the text does. -/
theorem position_counts (t : SourceText) (fits : t.size < UInt32.size) :
    (∀ offset, ∃ before part after, t.chars = before ++ part ++ after ∧
      (before = [] ∨ before.getLast? = some '\n') ∧ '\n' ∉ part ∧
      IsGreatest {b | t.IsBoundary b ∧ b ≤ min offset t.size} (width (before ++ part)) ∧
      t.position offset =
        ⟨((encode t.chars).take (width (before ++ part))).count lineFeed, part.length⟩) ∧
    t.lineCount = (encode t.chars).count lineFeed + 1 ∧
    ∃ table, LineTable.ofText t = .ok table ∧ table.lineCount = t.lineCount ∧
      (∀ offset, table.position offset = .ok (t.position offset)) ∧
      (∀ s, table.lineRange s = .ok (t.lineRange s)) ∧
      ∀ p, table.offset? p = .ok (t.offset? p) := by
  refine ⟨?_, ?_, LineTable.tableOf t, LineTable.ofText_eq fits, ?_,
    LineTable.position_tableOf fits, LineTable.lineRange_tableOf fits,
    LineTable.offset?_tableOf fits⟩
  · intro offset
    obtain ⟨before, part, after, split, ends, inLine, stop, counts⟩ := t.exists_position_eq offset
    exact ⟨before, part, after, split, ends, inLine, stop ▸ t.isGreatest_floor offset, counts⟩
  · rw [count_encode lineFeed_ascii (a := '\n') rfl, lineCount]
  · rw [LineTable.lineCount, LineTable.tableOf, List.size_toArray, List.length_cons,
      length_lineStarts, lineCount]

/-- An offset inside a character of two bytes has the position of its start. -/
theorem position_counts_inside_char :
    let t := ofString "x\né = 1\r\n"
    t.size < UInt32.size ∧ t.position 3 = ⟨1, 0⟩ ∧
      ∃ table, LineTable.ofText t = .ok table ∧ table.position 3 = .ok ⟨1, 0⟩ := by
  intro t
  have fits : t.size < UInt32.size := by decide +kernel
  have here : t.position 3 = ⟨1, 0⟩ := by decide +kernel
  obtain ⟨-, -, table, made, -, positions, -⟩ := position_counts t fits
  exact ⟨fits, here, table, made, here ▸ positions 3⟩

end SourceText

end FlowDiagram
