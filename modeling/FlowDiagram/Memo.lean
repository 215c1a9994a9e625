/-!
# Memos: the first answer for a key stays

A `Memo` remembers one value per key. Recording a second value for a key changes nothing.
-/

namespace FlowDiagram

/-- Values remembered by key. -/
structure Memo (κ α : Type) where
  entries : List (κ × α)

namespace Memo

variable {κ α : Type} [BEq κ]

def empty : Memo κ α := ⟨[]⟩

def find? (m : Memo κ α) (k : κ) : Option α := m.entries.lookup k

/-- Remember a value for a key unless the key already has one. -/
def record (m : Memo κ α) (k : κ) (a : α) : Memo κ α :=
  match m.find? k with
  | some _ => m
  | none => ⟨(k, a) :: m.entries⟩

@[simp] theorem find?_empty (k : κ) : (empty : Memo κ α).find? k = none := rfl

variable [LawfulBEq κ]

theorem find?_record_self (m : Memo κ α) (k : κ) (a : α) :
    (m.record k a).find? k = some ((m.find? k).getD a) := by
  unfold record
  split
  · next h => simp [h]
  · next h =>
    rw [h]
    simp [find?]

theorem find?_record_of_ne (m : Memo κ α) {k l : κ} (a : α) (h : l ≠ k) :
    (m.record k a).find? l = m.find? l := by
  unfold record
  split
  · rfl
  · have hb : (l == k) = false := by simpa using h
    simp [find?, List.lookup_cons, hb]

/-- Recording adds a value for a key that has none, and does nothing else. -/
theorem find?_record (m : Memo κ α) (k l : κ) (a : α) :
    (m.record k a).find? l = (m.find? l).or (if l == k then some a else none) := by
  by_cases same : l = k
  · subst same
    cases h : m.find? l <;> simp [find?_record_self, h]
  · have hb : (l == k) = false := by simpa using same
    rw [find?_record_of_ne m a same, hb, if_neg Bool.false_ne_true, Option.or_none]

end Memo

end FlowDiagram
