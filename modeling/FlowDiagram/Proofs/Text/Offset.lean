import FlowDiagram.Text.SourceText

/-!
# Offsets of positions

Where `SourceText.offset?` can lead. A position that has an offset has one inside the text: the
search for its line drops what it has passed, and its column counts characters of that line only.
-/

namespace FlowDiagram.SourceText

open Text (width)

/-- The front of a text is no wider than the text. -/
theorem width_le_of_isPrefix {front cs : List Char} (h : front <+: cs) : width front ≤ width cs := by
  obtain ⟨back, rfl⟩ := h
  simp

/-- What a search for a line has passed and what it has left make up the text. -/
theorem add_width_of_seekLine {start stop : Nat} {cs rest : List Char} {n : Nat}
    (h : seekLine start cs n = some (stop, rest)) : stop + width rest = start + width cs := by
  induction cs generalizing start n with
  | nil =>
    cases n with
    | zero => cases h; rfl
    | succ n => cases h
  | cons c cs ih =>
    cases n with
    | zero => cases h; rfl
    | succ n =>
      have passed : ∀ m, seekLine (start + c.utf8Size) cs m = some (stop, rest) →
          stop + width rest = start + width (c :: cs) := by
        intro m found
        rw [ih found, Text.width_cons, Nat.add_assoc]
      rw [seekLine] at h
      split at h
      · exact passed n h
      · exact passed (n + 1) h

/-- The first line of a text stands at its front. -/
theorem firstLine_isPrefix (cs : List Char) : firstLine cs <+: cs := by
  unfold firstLine withoutReturn
  split
  · exact (List.dropLast_prefix _).trans (List.takeWhile_prefix _)
  · exact List.takeWhile_prefix _

/-- Every position with an offset lies inside the text. -/
theorem offset?_le_size {t : SourceText} {p : Position} {offset : Nat}
    (h : t.offset? p = some offset) : offset ≤ t.size := by
  simp only [offset?, Option.bind_eq_bind, Option.bind_eq_some_iff] at h
  obtain ⟨⟨start, rest⟩, found, h⟩ := h
  have inside := add_width_of_seekLine found
  have column : width ((firstLine rest).take p.column) ≤ width rest :=
    width_le_of_isPrefix ((List.take_prefix _ _).trans (firstLine_isPrefix rest))
  split at h
  · cases h
    simp only [size]
    omega
  · cases h

end FlowDiagram.SourceText
