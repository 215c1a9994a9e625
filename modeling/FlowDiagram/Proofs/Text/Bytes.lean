import FlowDiagram.Proofs.Text.Floor
import FlowDiagram.Text.LineTable

/-!
# Bytes and characters

What the bytes of a text tell about its characters. The bytes that start characters mark off the
boundaries of the text (`isBoundary_encode_iff`), a slice between boundaries is the text between
them (`slice_encode`), and the byte of a line feed or of a carriage return is nothing but that
character.
-/

namespace FlowDiagram

namespace Text

theorem lineFeed_ascii : lineFeed.toNat < 0x80 := by decide

theorem carriageReturn_ascii : carriageReturn.toNat < 0x80 := by decide

section Ascii

variable {b : UInt8} {a : Char}

/-- A byte below `0x80` is in the bytes of its character only. -/
theorem mem_utf8EncodeChar_iff (ascii : b.toNat < 0x80) (same : a.toNat = b.toNat) {c : Char} :
    b ∈ String.utf8EncodeChar c ↔ c = a := by
  constructor
  · intro mem
    have number := toNat_eq_of_mem_utf8EncodeChar ascii mem
    exact Char.ext (UInt32.toNat_inj.mp (number.trans same.symm))
  · rintro rfl
    rw [utf8EncodeChar_of_toNat_eq ascii same]
    exact List.mem_singleton_self b

/-- A byte below `0x80` occurs as often as its character. -/
theorem count_encode (ascii : b.toNat < 0x80) (same : a.toNat = b.toNat) (cs : List Char) :
    (encode cs).count b = cs.count a := by
  induction cs with
  | nil => rfl
  | cons c cs ih =>
    rw [encode_cons, List.count_append, ih, List.count_cons]
    by_cases isChar : c = a
    · subst isChar
      rw [utf8EncodeChar_of_toNat_eq ascii same]
      simp [Nat.add_comm]
    · have absent := mt (mem_utf8EncodeChar_iff ascii same).mp isChar
      rw [List.count_eq_zero.mpr absent]
      simp [isChar]

/-- A text ends with a byte below `0x80` if it ends with its character. -/
theorem getLast?_encode_eq_some_iff (ascii : b.toNat < 0x80) (same : a.toNat = b.toNat)
    {cs : List Char} : (encode cs).getLast? = some b ↔ cs.getLast? = some a := by
  rcases List.eq_nil_or_concat cs with rfl | ⟨cs, c, rfl⟩
  · simp
  · rw [List.concat_eq_append, encode_append, encode_cons, encode_nil, List.append_nil,
      List.getLast?_append, List.getLast?_concat, Option.some.injEq]
    constructor
    · intro last
      have mem : b ∈ String.utf8EncodeChar c := by
        rw [Option.or_eq_some_iff] at last
        rcases last with last | ⟨none, -⟩
        · exact List.mem_of_getLast? last
        · exact absurd (List.getLast?_eq_none_iff.mp none) String.utf8EncodeChar_ne_nil
      exact (mem_utf8EncodeChar_iff ascii same).mp mem
    · rintro rfl
      rw [utf8EncodeChar_of_toNat_eq ascii same]
      rfl

end Ascii

end Text

namespace LineTable

open Text

section Boundary

theorem isBoundary_iff {bytes : List UInt8} {offset : Nat} :
    isBoundary bytes offset = true ↔
      offset = 0 ∨ offset = bytes.length ∨ ∃ b, bytes[offset]? = some b ∧ startsChar b = true := by
  rw [isBoundary, Bool.or_eq_true, Bool.or_eq_true, beq_iff_eq, beq_iff_eq, Option.any_eq_true,
    or_assoc]

theorem isBoundary_encode_append (front back : List Char) :
    isBoundary (encode (front ++ back)) (width front) = true := by
  rw [isBoundary_iff]
  cases back with
  | nil => exact .inr (.inl (by rw [List.append_nil, length_encode]))
  | cons c back =>
    obtain ⟨first, rest, bytes, starts, -⟩ := exists_utf8EncodeChar_eq c
    refine .inr (.inr ⟨first, ?_, starts⟩)
    rw [encode_append, encode_cons, bytes, ← length_encode front]
    simp

/-- Bytes have a boundary only where the text can be divided. -/
theorem exists_split_of_isBoundary {cs : List Char} {offset : Nat}
    (h : isBoundary (encode cs) offset = true) :
    ∃ front back, cs = front ++ back ∧ width front = offset := by
  induction cs generalizing offset with
  | nil =>
    have atEnd : offset = 0 := by simpa [isBoundary] using h
    exact ⟨[], [], rfl, atEnd.symm⟩
  | cons c cs ih =>
    obtain ⟨first, rest, bytes, -, continues⟩ := exists_utf8EncodeChar_eq c
    have size := String.length_utf8EncodeChar c
    rw [isBoundary_iff, length_encode, width_cons, encode_cons] at h
    by_cases behind : c.utf8Size ≤ offset
    · obtain ⟨lower, rfl⟩ := Nat.exists_eq_add_of_le behind
      rw [List.getElem?_append_right (by omega), size, Nat.add_sub_cancel_left] at h
      obtain ⟨front, back, rfl, rfl⟩ : ∃ front back, cs = front ++ back ∧ width front = lower := by
        apply ih
        rw [isBoundary_iff, length_encode]
        exact h.imp (by omega) (Or.imp_left (by omega))
      exact ⟨c :: front, back, rfl, rfl⟩
    · rw [List.getElem?_append_left (by omega), bytes] at h
      cases offset with
      | zero => exact ⟨[], c :: cs, rfl, rfl⟩
      | succ offset =>
        obtain atStart | atEnd | ⟨b, found, starts⟩ := h
        · cases atStart
        · omega
        · rw [List.getElem?_cons_succ] at found
          rw [continues b (List.mem_of_getElem? found)] at starts
          cases starts

/-- The boundaries of a text are those of its bytes. -/
theorem isBoundary_encode_iff {t : SourceText} {offset : Nat} :
    isBoundary (encode t.chars) offset = true ↔ t.IsBoundary offset := by
  constructor
  · exact exists_split_of_isBoundary
  · rintro ⟨front, back, split, rfl⟩
    rw [split]
    exact isBoundary_encode_append front back

/-- Between boundaries a slice is a part of the text. -/
theorem slice_encode (front part back : List Char) :
    slice (encode (front ++ part ++ back)) (width front) (width (front ++ part)) =
      .ok (encode part) := by
  have starts : isBoundary (encode (front ++ part ++ back)) (width front) = true := by
    rw [List.append_assoc]
    exact isBoundary_encode_append front _
  have stops := isBoundary_encode_append (front ++ part) back
  have ordered : width front ≤ width (front ++ part) := by
    rw [width_append]
    exact Nat.le_add_right _ _
  have bytes : ((encode (front ++ part ++ back)).drop (width front)).take
      (width (front ++ part) - width front) = encode part := by
    rw [width_append, Nat.add_sub_cancel_left, List.append_assoc, encode_append, encode_append,
      ← length_encode front, List.drop_left, ← length_encode part, List.take_left]
  rw [slice, starts, stops, bytes, decide_eq_true ordered]
  rfl

-- No slice ends inside a character.
example : slice (encode ['x', 'é']) 0 2 = .error .cutCharacter := by decide +kernel

/-- Stepping down from an offset ends at its floor. -/
theorem roundDown_encode (t : SourceText) (offset : Nat) :
    roundDown (encode t.chars) offset = .ok (t.floor offset) := by
  induction offset with
  | zero =>
    have boundary : t.IsBoundary 0 := ⟨[], t.chars, rfl, rfl⟩
    rw [roundDown, if_pos (isBoundary_encode_iff.mpr boundary), boundary.floor_eq]
  | succ lower ih =>
    rw [roundDown]
    split
    · next boundary => rw [(isBoundary_encode_iff.mp boundary).floor_eq]
    · next inside =>
      rw [isBoundary_encode_iff] at inside
      rw [ih, t.floor_succ_of_not_isBoundary inside]

end Boundary

section CharOffsets

theorem charOffsets_append (start : Nat) (front back : List UInt8) :
    charOffsets start (front ++ back) =
      charOffsets start front ++ charOffsets (start + front.length) back := by
  rw [charOffsets, List.zipIdx_append, List.filterMap_append, charOffsets, charOffsets]

theorem charOffsets_of_continues {bytes : List UInt8} (h : ∀ b ∈ bytes, startsChar b = false)
    (start : Nat) : charOffsets start bytes = [] := by
  rw [charOffsets, List.filterMap_eq_nil_iff]
  rintro ⟨b, offset⟩ mem
  simp [h b (List.fst_mem_of_mem_zipIdx mem)]

/-- The first character of a text is at its start. -/
theorem charOffsets_encode_cons (start : Nat) (c : Char) (cs : List Char) :
    charOffsets start (encode (c :: cs)) =
      start :: charOffsets (start + c.utf8Size) (encode cs) := by
  obtain ⟨first, rest, bytes, starts, continues⟩ := exists_utf8EncodeChar_eq c
  have one : charOffsets start (String.utf8EncodeChar c) = [start] := by
    rw [bytes, ← List.singleton_append, charOffsets_append, charOffsets_of_continues continues]
    simp [charOffsets, starts]
  rw [encode_cons, charOffsets_append, one, String.length_utf8EncodeChar, List.singleton_append]

/-- Behind the characters that are passed over stand the offsets of the others. -/
theorem drop_charOffsets_encode (start column : Nat) (cs : List Char) :
    (charOffsets start (encode cs)).drop column =
      charOffsets (start + width (cs.take column)) (encode (cs.drop column)) := by
  induction column generalizing start cs with
  | zero => simp
  | succ column ih =>
    cases cs with
    | nil => rfl
    | cons c cs =>
      rw [charOffsets_encode_cons, List.drop_succ_cons, ih, List.take_succ_cons, width_cons,
        List.drop_succ_cons, Nat.add_assoc]

theorem length_charOffsets_encode (start : Nat) (cs : List Char) :
    (charOffsets start (encode cs)).length = cs.length := by
  induction cs generalizing start with
  | nil => rfl
  | cons c cs ih => rw [charOffsets_encode_cons, List.length_cons, ih, List.length_cons]

end CharOffsets

end LineTable

end FlowDiagram
