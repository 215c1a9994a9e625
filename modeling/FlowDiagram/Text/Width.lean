/-!
# Byte widths of character lists

`width cs` is the number of bytes that `cs` takes in UTF-8. Offsets into a text are sums of
such widths, so everything that speaks of offsets rests on the two equations below.
-/

namespace FlowDiagram.Text

/-- The number of bytes that a list of characters takes in UTF-8. -/
def width : List Char → Nat
  | [] => 0
  | c :: cs => c.utf8Size + width cs

@[simp] theorem width_nil : width [] = 0 := rfl

@[simp] theorem width_cons (c : Char) (cs : List Char) :
    width (c :: cs) = c.utf8Size + width cs := rfl

@[simp] theorem width_append (as bs : List Char) :
    width (as ++ bs) = width as + width bs := by
  induction as with
  | nil => simp
  | cons c as ih => simp [ih, Nat.add_assoc]

end FlowDiagram.Text
