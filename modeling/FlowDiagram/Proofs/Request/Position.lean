import FlowDiagram.Proofs.Palette.Offer
import FlowDiagram.Proofs.Text.Boundary
import FlowDiagram.Visible

/-!
# The positions that requests accept

Every request about a position first asks for its offset, and is refused for nothing else. So all
requests accept the same positions, and these are the positions of the offsets between characters
but for those behind a carriage return that closes a line.
-/

namespace FlowDiagram

/-- An answer to a request at a position: it is given under a condition, and otherwise the request
is refused for the position. -/
def AnsweredIff {α : Type} (condition : Prop) (p : Position) (answer : Except RequestError α) :
    Prop :=
  (condition → answer.isOk = true) ∧ (¬ condition → answer = .error (.invalidPosition p))

namespace Workspace

variable {σ : Type} (w : Workspace σ) (p : Position)

theorem offset_answeredIff : AnsweredIff ((w.document.offset? p).isSome = true) p (w.offset p) := by
  unfold offset
  cases w.document.offset? p with
  | none => exact ⟨nofun, fun _ => rfl⟩
  | some offset => exact ⟨fun _ => rfl, fun refused => absurd rfl refused⟩

/-- A request that only needs the offset of its position to be there. -/
theorem answeredIff_of_offset {α : Type} (answer : α) :
    AnsweredIff ((w.document.offset? p).isSome = true) p (do let _ ← w.offset p; pure answer) := by
  obtain ⟨given, refused⟩ := offset_answeredIff w p
  constructor
  · intro inside
    have ok := given inside
    cases offset : w.offset p with
    | error e => simp [offset, Except.isOk, Except.toBool] at ok
    | ok offset => rfl
  · intro outside
    rw [refused outside]
    rfl

theorem clients_answeredIff :
    AnsweredIff ((w.document.offset? p).isSome = true) p (Visible.clients w p) :=
  answeredIff_of_offset w p _

theorem variableGroups_answeredIff :
    AnsweredIff ((w.document.offset? p).isSome = true) p (Visible.variableGroups w p) :=
  answeredIff_of_offset w p _

theorem itemsAt_answeredIff (s : σ) :
    AnsweredIff ((w.document.offset? p).isSome = true) p ((Palette.itemsAt w p).run s).1 := by
  cases inside : w.document.offset? p with
  | none => exact ⟨nofun, fun _ => congrArg Prod.fst (Palette.run_itemsAt_of_none inside s)⟩
  | some offset =>
    refine ⟨fun _ => ?_, fun refused => absurd rfl refused⟩
    rw [Palette.run_itemsAt_of_some inside s]
    rfl

end Workspace

namespace SourceText

/-- The positions with an offset are those of the offsets between characters, but for the offsets
behind a carriage return that closes a line. -/
theorem isSome_offset?_iff (t : SourceText) (p : Position) :
    (t.offset? p).isSome = true ↔
      ∃ offset, t.IsBoundary offset ∧ ¬ t.IsBehindReturn offset ∧ t.position offset = p := by
  constructor
  · intro some
    obtain ⟨offset, found⟩ := Option.isSome_iff_exists.mp some
    obtain ⟨boundary, rfl⟩ := position_of_offset? found
    refine ⟨offset, boundary, fun behind => ?_, rfl⟩
    rw [(offset?_position boundary).2 behind] at found
    cases found
  · rintro ⟨offset, boundary, kept, rfl⟩
    rw [(offset?_position boundary).1 kept]
    rfl

/-- Offsets and positions of a text. The offset of a position stands between two characters or at
an end of the text and has that position, so no two positions have one offset. The position of an
offset between characters has this offset, unless the offset is behind a carriage return that
closes a line or the text: then it has none. Every request about a document is answered exactly at
the positions of the other offsets between characters, and elsewhere refused for its position. -/
theorem addressing_exact (t : SourceText) :
    (∀ p offset, t.offset? p = some offset →
      t.IsBoundary offset ∧ offset ≤ t.size ∧ t.position offset = p) ∧
    (∀ p q offset, t.offset? p = some offset → t.offset? q = some offset → p = q) ∧
    (∀ offset, t.IsBoundary offset →
      (¬ t.IsBehindReturn offset → t.offset? (t.position offset) = some offset) ∧
      (t.IsBehindReturn offset → t.offset? (t.position offset) = none)) ∧
    ∀ {σ : Type} (w : Workspace σ) (p : Position) (s : σ), w.document.source = t →
      let accepted :=
        ∃ offset, t.IsBoundary offset ∧ ¬ t.IsBehindReturn offset ∧ t.position offset = p
      AnsweredIff accepted p (w.offset p) ∧
      AnsweredIff accepted p (Visible.clients w p) ∧
      AnsweredIff accepted p (Visible.variableGroups w p) ∧
      AnsweredIff accepted p ((Palette.itemsAt w p).run s).1 := by
  refine ⟨fun p offset found => ?_, fun p q offset first second => ?_,
    fun offset boundary => offset?_position boundary, fun w p s source => ?_⟩
  · obtain ⟨boundary, same⟩ := position_of_offset? found
    exact ⟨boundary, boundary.le_size, same⟩
  · calc
      p = t.position offset := (position_of_offset? first).2.symm
      _ = q := (position_of_offset? second).2
  · intro accepted
    have inside : ((w.document.offset? p).isSome = true) = accepted := by
      rw [Document.offset?, source]
      exact propext (isSome_offset?_iff t p)
    rw [← inside]
    exact ⟨w.offset_answeredIff p, w.clients_answeredIff p, w.variableGroups_answeredIff p,
      w.itemsAt_answeredIff p s⟩

-- A line feed takes its carriage return with it: the place between them has no position of its own.
example : (ofString "ab\r\ncd").offset? ((ofString "ab\r\ncd").position 3) = none := by
  decide +kernel

end SourceText

end FlowDiagram
