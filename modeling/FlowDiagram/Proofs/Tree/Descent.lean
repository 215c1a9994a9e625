import FlowDiagram.Proofs.Tree.Lineage

/-!
# The descent among siblings

Siblings tile the span of their parent: each starts where the one before it stops. To point at a
child is therefore to split the list of the children (`descendAt_append`), and a descent can be
told from what happens at one split. `mem_descend_of_enters` says that a descent passes every node
with a property if it always enters the child that has it, and `forall_mem_descend` that all nodes
passed have a property if the step from a parent to the child entered keeps it.
-/

namespace FlowDiagram.Tree

namespace Element

/-- Induction on elements: a node has a property if all its children have it. -/
theorem induction {motive : Element → Prop} (token : ∀ kind text, motive (.token kind text))
    (node : ∀ kind children, (∀ child ∈ children, motive child) → motive (.node kind children))
    (e : Element) : motive e := by
  cases e with
  | token kind text => exact token kind text
  | node kind children => exact node kind children fun child _ => induction token node child
termination_by sizeOf e

theorem le_add_width (start : Nat) (e : Element) : start ≤ start + e.width :=
  Nat.le_add_right start e.width

def span (start : Nat) (e : Element) : Span := ⟨start, start + e.width, le_add_width start e⟩

@[simp] theorem span_start (start : Nat) (e : Element) : (e.span start).start = start := rfl

@[simp] theorem span_stop (start : Nat) (e : Element) :
    (e.span start).stop = start + e.width := rfl

theorem span_node (start : Nat) (kind : Kind) (children : List Element) :
    (node kind children).span start = Site.span ⟨kind, start, children⟩ := by
  simp [span, Site.span, Site.width]

@[simp] theorem spans_nil (start : Nat) : spans start [] = [] := rfl

@[simp] theorem spans_cons (start : Nat) (e : Element) (es : List Element) :
    spans start (e :: es) = e.span start :: spans (start + e.width) es := rfl

theorem spans_append (start : Nat) (before rest : List Element) :
    spans start (before ++ rest) =
      spans start before ++ spans (start + widthOfAll before) rest := by
  induction before generalizing start with
  | nil => simp
  | cons e before ih => simp [ih, Nat.add_assoc]

/-- Siblings lie between the start of the first and the stop of the last. -/
theorem bounds_of_mem_spans {start : Nat} {es : List Element} {s : Span} (h : s ∈ spans start es) :
    start ≤ s.start ∧ s.stop ≤ start + widthOfAll es := by
  induction es generalizing start with
  | nil => cases h
  | cons e es ih =>
    rw [spans_cons, List.mem_cons] at h
    rw [widthOfAll_cons]
    rcases h with rfl | h
    · rw [span_start, span_stop]
      omega
    · have rest := ih h
      omega

/-- To point at a span of siblings is to split the siblings. -/
theorem exists_split_of_getElem?_spans {start i : Nat} {es : List Element} {s : Span}
    (h : (spans start es)[i]? = some s) :
    ∃ before child after, es = before ++ child :: after ∧ i = before.length ∧
      s = child.span (start + widthOfAll before) := by
  induction es generalizing start i with
  | nil => cases h
  | cons e es ih =>
    cases i with
    | zero =>
      cases h
      exact ⟨[], e, es, rfl, rfl, rfl⟩
    | succ i =>
      obtain ⟨before, child, after, rfl, rfl, rfl⟩ := ih h
      exact ⟨e :: before, child, after, rfl, rfl, by simp [Nat.add_assoc]⟩

theorem getElem?_spans_append (start : Nat) (before : List Element) (child : Element)
    (after : List Element) :
    (spans start (before ++ child :: after))[before.length]? =
      some (child.span (start + widthOfAll before)) := by
  simp [spans_append]

/-- A site among siblings is one of a sibling. -/
theorem exists_split_of_mem_sitesOfAll {start : Nat} {es : List Element} {site : Site}
    (h : site ∈ sitesOfAll start es) :
    ∃ before child after, es = before ++ child :: after ∧
      site ∈ child.sites (start + widthOfAll before) := by
  induction es generalizing start with
  | nil => simp at h
  | cons e es ih =>
    rw [sitesOfAll_cons, List.mem_append] at h
    rcases h with h | h
    · exact ⟨[], e, es, rfl, by simpa using h⟩
    · obtain ⟨before, child, after, rfl, inside⟩ := ih h
      exact ⟨e :: before, child, after, rfl, by simpa [Nat.add_assoc] using inside⟩

theorem mem_sitesOfAll_of_split {start : Nat} {before after : List Element} {child : Element}
    {site : Site} (h : site ∈ child.sites (start + widthOfAll before)) :
    site ∈ sitesOfAll start (before ++ child :: after) := by
  induction before generalizing start with
  | nil => exact List.mem_append_left _ (by simpa using h)
  | cons e before ih =>
    rw [List.cons_append, sitesOfAll_cons]
    exact List.mem_append_right _ (ih (by simpa [Nat.add_assoc] using h))

/-- A site inside an element lies within its span. -/
theorem covers_of_mem_sites (e : Element) {start : Nat} {site : Site} (h : site ∈ e.sites start) :
    (e.span start).covers site.span = true := by
  induction e using induction generalizing start with
  | token kind text => simp at h
  | node kind children ih =>
    rw [Span.covers_iff]
    rw [sites_node, List.mem_cons] at h
    rcases h with rfl | h
    · exact ⟨Nat.le_refl _, by simp [Site.width]⟩
    · obtain ⟨before, child, after, rfl, inside⟩ := exists_split_of_mem_sitesOfAll h
      have within := Span.covers_iff.mp (ih child (by simp) inside)
      simp only [span_start, span_stop, width_node, widthOfAll_append, widthOfAll_cons] at within ⊢
      omega

section Descend

variable {r : Span}

theorem descendAt_nil (r : Span) (start : Nat) (path : List Site) (index : Option Nat) :
    descendAt r start path index [] = path := by
  cases index <;> simp [descendAt]

theorem descendAt_none (r : Span) (start : Nat) (path : List Site) (es : List Element) :
    descendAt r start path none es = path := by
  cases es <;> simp [descendAt]

/-- Descending into one of several siblings is descending into it at its own offset. -/
theorem descendAt_append (r : Span) (start : Nat) (path : List Site) (before : List Element)
    (child : Element) (after : List Element) :
    descendAt r start path (some before.length) (before ++ child :: after) =
      child.descend r (start + widthOfAll before) path := by
  induction before generalizing start with
  | nil => simp [descendAt]
  | cons e before ih =>
    rw [List.cons_append, List.length_cons, descendAt, ih, widthOfAll_cons, Nat.add_assoc]

/-- A descent stays where it is, or enters one of the siblings. -/
theorem descendAt_eq_or (r : Span) (start : Nat) (path : List Site) (index : Option Nat)
    (es : List Element) :
    descendAt r start path index es = path ∨
      ∃ before child after, es = before ++ child :: after ∧ index = some before.length ∧
        descendAt r start path index es = child.descend r (start + widthOfAll before) path := by
  cases index with
  | none => exact .inl (descendAt_none r start path es)
  | some i =>
    induction es generalizing start i with
    | nil => exact .inl (descendAt_nil r start path _)
    | cons e es ih =>
      cases i with
      | zero => exact .inr ⟨[], e, es, rfl, rfl, by simp [descendAt]⟩
      | succ i =>
        rw [descendAt]
        rcases ih (start + e.width) i with stays | ⟨before, child, after, rfl, same, enters⟩
        · exact .inl stays
        · cases same
          exact .inr ⟨e :: before, child, after, rfl, rfl, by simpa [Nat.add_assoc] using enters⟩

theorem descend_node (r : Span) (start : Nat) (path : List Site) (kind : Kind)
    (children : List Element) :
    (node kind children).descend r start path =
      descendAt r start (⟨kind, start, children⟩ :: path)
        (enteredChild? r (spans start children)) children := by
  rw [descend]

/-- A descent only adds to the path. -/
theorem suffix_descend (e : Element) (r : Span) (start : Nat) (path : List Site) :
    path <:+ e.descend r start path := by
  induction e using induction generalizing start path with
  | token kind text =>
    simp only [descend, List.suffix_rfl]
  | node kind children ih =>
    have further : path <:+ (⟨kind, start, children⟩ :: path : List Site) := List.suffix_cons _ _
    rw [descend_node]
    rcases descendAt_eq_or r start (⟨kind, start, children⟩ :: path)
      (enteredChild? r (spans start children)) children with
      stays | ⟨before, child, after, rfl, -, enters⟩
    · rw [stays]
      exact further
    · rw [enters]
      exact further.trans (ih child (by simp) _ _)

/-- A descent among siblings only adds to the path. -/
theorem suffix_descendAt (r : Span) (start : Nat) (path : List Site) (index : Option Nat)
    (es : List Element) : path <:+ descendAt r start path index es := by
  rcases descendAt_eq_or r start path index es with stays | ⟨_, child, _, -, -, enters⟩
  · simp only [stays, List.suffix_rfl]
  · rw [enters]
    exact suffix_descend child r _ path

/-- A descent passes sites of the element only. -/
theorem mem_path_or_sites_of_mem_descend (e : Element) {start : Nat} {path : List Site}
    {site : Site} (h : site ∈ e.descend r start path) : site ∈ path ∨ site ∈ e.sites start := by
  induction e using induction generalizing start path with
  | token kind text => exact .inl (by simpa [descend] using h)
  | node kind children ih =>
    rw [descend_node] at h
    rw [sites_node, List.mem_cons]
    rcases descendAt_eq_or r start (⟨kind, start, children⟩ :: path)
      (enteredChild? r (spans start children)) children with
      stays | ⟨before, child, after, rfl, -, enters⟩
    · rw [stays, List.mem_cons] at h
      exact h.elim (fun here => .inr (.inl here)) .inl
    · rw [enters] at h
      rcases ih child (by simp) h with onPath | inside
      · exact (List.mem_cons.mp onPath).elim (fun here => .inr (.inl here)) .inl
      · exact .inr (.inr (mem_sitesOfAll_of_split inside))

/-- If the descent enters every child with a property, and what is around a span with the property
has it too, then the descent passes every node with the property. `W` restricts the elements. -/
theorem mem_descend_of_enters {W : Element → Prop} {P : Span → Prop}
    (inherit : ∀ {kind children}, W (.node kind children) → ∀ child ∈ children, W child)
    (around : ∀ {outer inner : Span}, outer.covers inner = true → P inner → P outer)
    (enters : ∀ {start before child after}, (∀ e ∈ before ++ child :: after, W e) →
      P (child.span (start + widthOfAll before)) →
        enteredChild? r (spans start (before ++ child :: after)) = some before.length)
    (e : Element) {start : Nat} {path : List Site} {site : Site} (restricted : W e)
    (inside : site ∈ e.sites start) (has : P site.span) : site ∈ e.descend r start path := by
  induction e using induction generalizing start path with
  | token kind text => simp at inside
  | node kind children ih =>
    rw [descend_node]
    rw [sites_node, List.mem_cons] at inside
    rcases inside with rfl | inside
    · exact (suffix_descendAt _ _ _ _ _).subset List.mem_cons_self
    · obtain ⟨before, child, after, rfl, below⟩ := exists_split_of_mem_sitesOfAll inside
      have childHas := around (covers_of_mem_sites child below) has
      rw [enters (inherit restricted) childHas, descendAt_append]
      exact ih child (by simp) (inherit restricted child (by simp)) below

/-- If a step from a node to the child entered keeps a property, then all nodes that the descent
passes have it. -/
theorem forall_mem_descend {I : Span → Prop}
    (step : ∀ {parent : Site} {before child after}, parent.children = before ++ child :: after →
      I parent.span → enteredChild? r (spans parent.start parent.children) = some before.length →
        I (child.span (parent.start + widthOfAll before)))
    (e : Element) {start : Nat} {path : List Site} (here : I (e.span start))
    (passed : ∀ site ∈ path, I site.span) : ∀ site ∈ e.descend r start path, I site.span := by
  induction e using induction generalizing start path with
  | token kind text => simpa [descend] using passed
  | node kind children ih =>
    rw [span_node] at here
    have passed : ∀ site ∈ (⟨kind, start, children⟩ :: path : List Site), I site.span :=
      List.forall_mem_cons.mpr ⟨here, passed⟩
    rw [descend_node]
    rcases descendAt_eq_or r start (⟨kind, start, children⟩ :: path)
      (enteredChild? r (spans start children)) children with
      stays | ⟨before, child, after, split, entered, enters⟩
    · rwa [stays]
    · rw [enters]
      exact ih child (by simp [split]) (step split here entered) passed

end Descend

end Element

end FlowDiagram.Tree
