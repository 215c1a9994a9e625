import FlowDiagram.Json.Reader
import FlowDiagram.Proofs.Json.Scan

/-!
# Every value is read back from its text

`Json.parse?` undoes `Json.render`, for every value of any depth. The machine that assembles a
value from its tokens arrives behind the value and leaves what was open around it as it was; that
is the step from one value to the arrays and objects that hold it.
-/

namespace FlowDiagram.Json

/-- The states that the machine goes through while it takes tokens. -/
def takeAll? (state : Assembly) (tokens : List Token) : Option Assembly :=
  tokens.foldlM Assembly.step? state

@[simp] theorem takeAll?_nil (state : Assembly) : takeAll? state [] = some state := rfl

theorem takeAll?_cons (state : Assembly) (t : Token) (tokens : List Token) :
    takeAll? state (t :: tokens) = (state.step? t).bind (takeAll? · tokens) := by
  simp [takeAll?]

theorem takeAll?_append (state : Assembly) (before after : List Token) :
    takeAll? state (before ++ after) = (takeAll? state before).bind (takeAll? · after) := by
  simp [takeAll?]

/-- The first token of a value closes nothing. -/
theorem exists_tokens_eq_cons (j : Json) :
    ∃ t rest, j.tokens = t :: rest ∧ t ≠ .closeArray := by
  cases j <;> exact ⟨_, _, rfl, by simp⟩

/-- Where an array may end or go on with a value, a value is taken as anywhere else. -/
theorem takeAll?_valueOrClose (j : Json) (enclosing : List Enclosure) (rest : List Token) :
    takeAll? ⟨.valueOrClose, enclosing⟩ (j.tokens ++ rest)
      = takeAll? ⟨.value, enclosing⟩ (j.tokens ++ rest) := by
  obtain ⟨t, ts, starts, opening⟩ := exists_tokens_eq_cons j
  have same : Assembly.step? ⟨.valueOrClose, enclosing⟩ t
      = Assembly.step? ⟨.value, enclosing⟩ t := by
    cases t <;> simp_all [Assembly.step?]
  rw [starts, List.cons_append, takeAll?_cons, takeAll?_cons, same]

/-- Whether the tokens of a value bring the machine behind the value, whatever is open. -/
def Taken (j : Json) : Prop :=
  ∀ enclosing, takeAll? ⟨.value, enclosing⟩ j.tokens = some ⟨.separator j, enclosing⟩

/-- Elements and the bracket that closes them bring the machine behind the array. -/
theorem takeAll?_elements {j : Json} {js : List Json} (h : ∀ k ∈ j :: js, k.Taken)
    (before : List Json) (enclosing : List Enclosure) :
    takeAll? ⟨.value, .array before :: enclosing⟩ (elementTokens (j :: js) ++ [.closeArray])
      = some ⟨.separator (.arr (before.reverse ++ j :: js)), enclosing⟩ := by
  have first := h j List.mem_cons_self (.array before :: enclosing)
  induction js generalizing j before with
  | nil =>
    rw [elementTokens, takeAll?_append, first]
    simp [takeAll?_cons, Assembly.step?, Assembly.takeSeparator?]
  | cons next js ih =>
    have rest : ∀ k ∈ next :: js, k.Taken := fun k hk => h k (List.mem_cons_of_mem j hk)
    have further := ih rest (j :: before) (rest next List.mem_cons_self _)
    rw [elementTokens, List.append_assoc, takeAll?_append, first, Option.bind_some,
      List.cons_append, takeAll?_cons]
    · simp only [Assembly.step?, Assembly.takeSeparator?, Option.bind_some]
      simpa using further
    · simp

/-- Members and the brace that closes them bring the machine behind the object. -/
theorem takeAll?_members {member : Option String × Json} {members : List (Option String × Json)}
    (h : ∀ m ∈ member :: members, m.2.Taken) (before : List (Option String × Json))
    (enclosing : List Enclosure) :
    takeAll? ⟨.key before, enclosing⟩ (memberTokens (member :: members) ++ [.closeObject])
      = some ⟨.separator (.obj (before.reverse ++ member :: members)), enclosing⟩ := by
  obtain ⟨key, j⟩ := member
  have first := h (key, j) List.mem_cons_self (.object before key :: enclosing)
  induction members generalizing key j before with
  | nil =>
    simp only [memberTokens, List.cons_append, takeAll?_cons, Assembly.step?, Option.bind_some]
    rw [takeAll?_append, first]
    simp [takeAll?_cons, Assembly.step?, Assembly.takeSeparator?]
  | cons next members ih =>
    have rest : ∀ m ∈ next :: members, m.2.Taken := fun m hm => h m (List.mem_cons_of_mem _ hm)
    have further := ih ((key, j) :: before) next.1 next.2 rest (rest next List.mem_cons_self _)
    simp only [memberTokens, List.cons_append, takeAll?_cons, Assembly.step?, Option.bind_some,
      List.append_assoc]
    rw [takeAll?_append, first, Option.bind_some, takeAll?_cons]
    simp only [Assembly.step?, Assembly.takeSeparator?, Option.bind_some]
    simpa using further

theorem taken_arr {elements : List Json} (h : ∀ j ∈ elements, j.Taken) :
    (arr elements).Taken := by
  intro enclosing
  cases elements with
  | nil => rfl
  | cons j js =>
    have opened : takeAll? ⟨.value, enclosing⟩ (arr (j :: js)).tokens
        = takeAll? ⟨.valueOrClose, .array [] :: enclosing⟩
          (elementTokens (j :: js) ++ [.closeArray]) := by
      simp [tokens, takeAll?_cons, Assembly.step?, Assembly.takeValue?]
    obtain ⟨rest, split⟩ : ∃ rest, elementTokens (j :: js) ++ [.closeArray] = j.tokens ++ rest := by
      cases js <;> simp [elementTokens]
    rw [opened, split, takeAll?_valueOrClose, ← split, takeAll?_elements h]
    rfl

theorem taken_obj {members : List (Option String × Json)} (h : ∀ m ∈ members, m.2.Taken) :
    (obj members).Taken := by
  intro enclosing
  cases members with
  | nil => rfl
  | cons member members =>
    obtain ⟨key, j⟩ := member
    have opened : takeAll? ⟨.value, enclosing⟩ (obj ((key, j) :: members)).tokens
        = takeAll? ⟨.keyOrClose, enclosing⟩
          (memberTokens ((key, j) :: members) ++ [.closeObject]) := by
      simp [tokens, takeAll?_cons, Assembly.step?, Assembly.takeValue?]
    obtain ⟨rest, split⟩ : ∃ rest, memberTokens ((key, j) :: members) ++ [.closeObject]
        = .str key :: rest := by
      cases members <;> simp [memberTokens]
    have keyed : Assembly.step? ⟨.keyOrClose, enclosing⟩ (.str key)
        = Assembly.step? ⟨.key [], enclosing⟩ (.str key) := rfl
    rw [opened, split, takeAll?_cons, keyed, ← takeAll?_cons, ← split, takeAll?_members h]
    rfl

theorem taken (j : Json) : j.Taken := by
  induction j using induction with
  | null => exact fun _ => rfl
  | bool => exact fun _ => rfl
  | num => exact fun _ => rfl
  | str => exact fun _ => rfl
  | arr elements ih => exact taken_arr ih
  | obj members ih => exact taken_obj ih

theorem ofTokens?_tokens (j : Json) : ofTokens? j.tokens = some j := by
  have assembled : j.tokens.foldlM Assembly.step? Assembly.initial = some ⟨.separator j, []⟩ :=
    taken j []
  simp [ofTokens?, assembled, Assembly.result?]

/-- Every value is read back from its text. -/
theorem parse?_render (j : Json) : parse? j.render = some j := by
  simp [parse?, render, scan?_tokens, ofTokens?_tokens]

end FlowDiagram.Json
