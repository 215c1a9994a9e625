import FlowDiagram.Text.Width

/-!
# Texts as bytes

`encode cs` is the text of `cs` in UTF-8. Its bytes tell where characters start: a byte that goes
on with a character is one of `0x80` to `0xBF`, and no other byte is. Bytes below `0x80` are
characters of their own and occur in no other (`utf8EncodeChar_cases`).
-/

namespace FlowDiagram.Text

def encode (cs : List Char) : List UInt8 := cs.flatMap String.utf8EncodeChar

def lineFeed : UInt8 := 0x0A

def carriageReturn : UInt8 := 0x0D

/-- Whether a byte goes on with a character that an earlier byte starts. -/
def continuesChar (b : UInt8) : Bool := 0x80 ≤ b && b < 0xC0

/-- Whether a byte is the first of a character. -/
def startsChar (b : UInt8) : Bool := !continuesChar b

theorem continuesChar_iff {b : UInt8} :
    continuesChar b = true ↔ 0x80 ≤ b.toNat ∧ b.toNat < 0xC0 := by
  simp [continuesChar, UInt8.le_iff_toNat_le, UInt8.lt_iff_toNat_lt]

@[simp] theorem encode_nil : encode [] = [] := rfl

@[simp] theorem encode_cons (c : Char) (cs : List Char) :
    encode (c :: cs) = String.utf8EncodeChar c ++ encode cs := rfl

@[simp] theorem encode_append (as bs : List Char) : encode (as ++ bs) = encode as ++ encode bs :=
  List.flatMap_append

@[simp] theorem length_encode (cs : List Char) : (encode cs).length = width cs := by
  induction cs with
  | nil => rfl
  | cons c cs ih =>
    rw [encode_cons, List.length_append, ih, String.length_utf8EncodeChar, width_cons]

theorem continuesChar_ofNat (n : Nat) : continuesChar (UInt8.ofNat (n % 64 + 128)) = true := by
  rw [continuesChar_iff, UInt8.toNat_ofNat']
  omega

/-- A character is a byte below `0x80`, or a byte that starts it and bytes that go on with it. -/
theorem utf8EncodeChar_cases (c : Char) :
    (c.toNat < 0x80 ∧ String.utf8EncodeChar c = [UInt8.ofNat c.toNat]) ∨
    (0x80 ≤ c.toNat ∧ ∃ first rest, String.utf8EncodeChar c = first :: rest ∧
      0xC0 ≤ first.toNat ∧ ∀ b ∈ rest, continuesChar b = true) := by
  rw [String.utf8EncodeChar.eq_1, show c.val.toNat = c.toNat from rfl]
  split
  · next single =>
    exact .inl ⟨Nat.lt_succ_of_le single, rfl⟩
  · next several =>
    refine .inr ⟨Nat.lt_of_not_le several, ?_⟩
    -- Two, three or four bytes: the first has a mark of its own, the others have the same.
    repeat' split
    all_goals refine ⟨_, _, rfl, ?_, by simp only [List.forall_mem_cons, List.not_mem_nil,
      continuesChar_ofNat, false_implies, implies_true, and_self]⟩
    all_goals
      rw [UInt8.toNat_ofNat']
      omega

/-- The first byte of a character starts it, and its other bytes go on with it. -/
theorem exists_utf8EncodeChar_eq (c : Char) : ∃ first rest,
    String.utf8EncodeChar c = first :: rest ∧ startsChar first = true ∧
      ∀ b ∈ rest, startsChar b = false := by
  obtain ⟨ascii, single⟩ | ⟨-, first, rest, several, lead, rest_continues⟩ :=
    utf8EncodeChar_cases c
  · refine ⟨_, [], single, ?_, by simp⟩
    rw [startsChar, Bool.not_eq_true', ← Bool.not_eq_true, continuesChar_iff, UInt8.toNat_ofNat']
    omega
  · refine ⟨first, rest, several, ?_, fun b mem => ?_⟩
    · rw [startsChar, Bool.not_eq_true', ← Bool.not_eq_true, continuesChar_iff]
      omega
    · rw [startsChar, rest_continues b mem]
      rfl

/-- A byte below `0x80` is the whole of the character of its number. -/
theorem utf8EncodeChar_of_toNat_eq {b : UInt8} {c : Char} (ascii : b.toNat < 0x80)
    (same : c.toNat = b.toNat) : String.utf8EncodeChar c = [b] := by
  obtain ⟨-, single⟩ | ⟨large, -⟩ := utf8EncodeChar_cases c
  · rw [single, same, UInt8.ofNat_toNat]
  · omega

/-- A byte below `0x80` is in no character but that of its number. -/
theorem toNat_eq_of_mem_utf8EncodeChar {b : UInt8} {c : Char} (ascii : b.toNat < 0x80)
    (mem : b ∈ String.utf8EncodeChar c) : c.toNat = b.toNat := by
  obtain ⟨small, single⟩ | ⟨-, first, rest, several, lead, rest_continues⟩ :=
    utf8EncodeChar_cases c
  · rw [single, List.mem_singleton] at mem
    rw [mem, UInt8.toNat_ofNat']
    omega
  · exfalso
    rw [several, List.mem_cons] at mem
    rcases mem with rfl | mem
    · omega
    · have high := continuesChar_iff.mp (rest_continues b mem)
      omega

end FlowDiagram.Text
