import FlowDiagram.Lineup
import FlowDiagram.Proofs.Tree.Replay

/-!
# The names that references go by

`Site.referencedName`, told from the walk through a node: the last identifier that the walk passes,
at any depth, or else the text of the node without the white space at its ends. `Site.GoesBy` states
this of a name, and `goesBy_iff` says that there is exactly one such name.
-/

namespace FlowDiagram

namespace Text

/-- A text without the white space at its two ends: what is cut off is white space, and what is left
neither begins nor ends with any. -/
structure Trimmed (cs kept : List Char) : Prop where
  ends : ∃ left right, cs = left ++ kept ++ right ∧ ∀ c ∈ left ++ right, isBlank c = true
  first : ∀ c, kept.head? = some c → isBlank c = false
  last : ∀ c, kept.getLast? = some c → isBlank c = false

/-- White space is dropped from the front up to a text that does not begin with any. -/
theorem dropWhile_isBlank_append {left cs : List Char} (blank : ∀ c ∈ left, isBlank c = true)
    (h : ∀ c, cs.head? = some c → isBlank c = false) : (left ++ cs).dropWhile isBlank = cs := by
  rw [List.dropWhile_append_of_pos blank]
  cases cs with
  | nil => rfl
  | cons c cs => simp [h c rfl]

/-- What is dropped from the front is white space, and no white space is in front of the rest. -/
theorem exists_dropWhile_isBlank (cs : List Char) :
    ∃ left, cs = left ++ cs.dropWhile isBlank ∧ (∀ c ∈ left, isBlank c = true) ∧
      ∀ c, (cs.dropWhile isBlank).head? = some c → isBlank c = false := by
  refine ⟨cs.takeWhile isBlank, List.takeWhile_append_dropWhile.symm, ?_, ?_⟩
  · exact List.all_eq_true.mp List.all_takeWhile
  · intro c first
    have blank := List.head?_dropWhile_not isBlank cs
    rw [first] at blank
    simpa using blank

theorem trimmed_trim (cs : List Char) : Trimmed cs (trim cs) := by
  obtain ⟨left, front, leftBlank, begins⟩ := exists_dropWhile_isBlank cs
  obtain ⟨right, back, rightBlank, stops⟩ :=
    exists_dropWhile_isBlank (cs.dropWhile isBlank).reverse
  have kept : cs.dropWhile isBlank = trim cs ++ right.reverse := by
    rw [trim, ← List.reverse_append, ← back, List.reverse_reverse]
  refine ⟨⟨left, right.reverse, ?_, ?_⟩, ?_, ?_⟩
  · rw [List.append_assoc, ← kept, ← front]
  · intro c mem
    rcases List.mem_append.mp mem with mem | mem
    · exact leftBlank c mem
    · exact rightBlank c (List.mem_reverse.mp mem)
  · intro c first
    refine begins c ?_
    rw [kept, List.head?_append, first, Option.some_or]
  · intro c last
    refine stops c ?_
    rwa [trim, List.getLast?_reverse] at last

theorem Trimmed.eq_trim {cs kept : List Char} (h : Trimmed cs kept) : kept = trim cs := by
  obtain ⟨⟨left, right, rfl, blank⟩, first, last⟩ := h
  cases kept with
  | nil =>
    have nothing : (left ++ [] ++ right).dropWhile isBlank = [] := by
      rw [List.append_nil, ← List.append_nil (left ++ right)]
      exact dropWhile_isBlank_append blank nofun
    rw [trim, nothing]
    rfl
  | cons c kept =>
    have front : (left ++ (c :: kept) ++ right).dropWhile isBlank = c :: kept ++ right := by
      rw [List.append_assoc]
      exact dropWhile_isBlank_append (fun d mem => blank d (List.mem_append_left right mem))
        fun d h => first d (by simpa using h)
    have back : (c :: kept ++ right).reverse.dropWhile isBlank = (c :: kept).reverse := by
      rw [List.reverse_append]
      exact dropWhile_isBlank_append
        (fun d mem => blank d (List.mem_append_right left (List.mem_reverse.mp mem)))
        fun d h => last d (by rwa [List.head?_reverse] at h)
    rw [trim, front, back, List.reverse_reverse]

end Text

namespace Tree

def Event.identifier? : Event → Option String
  | .token .identifier text => some text
  | _ => none

theorem Event.identifier?_eq_some_iff {e : Event} {name : String} :
    e.identifier? = some name ↔ e = .token .identifier name := by
  constructor
  · intro h
    unfold identifier? at h
    split at h
    · exact Option.some.inj h ▸ rfl
    · cases h
  · rintro rfl
    rfl

namespace Element

mutual

/-- The identifiers of an element are those that a walk through it passes. -/
theorem identifiers_eq : ∀ e : Element, e.identifiers = e.events.filterMap Event.identifier?
  | .token kind text => by
    rw [identifiers, events_token]
    split
    · next isIdentifier => rw [isIdentifier]; rfl
    · next other =>
      cases h : (Event.token kind text).identifier? with
      | none => simp [h]
      | some name => cases Event.identifier?_eq_some_iff.mp h; exact absurd rfl other
  | .node kind children => by
    have inside := identifiersOfAll_eq children
    rw [identifiers, inside, events_node, List.cons_append, List.filterMap_cons_none rfl,
      List.filterMap_append, List.filterMap_cons_none rfl, List.filterMap_nil, List.append_nil]

theorem identifiersOfAll_eq :
    ∀ es : List Element, identifiersOfAll es = (eventsOfAll es).filterMap Event.identifier?
  | [] => by simp [identifiersOfAll]
  | e :: es => by
    have first := identifiers_eq e
    have rest := identifiersOfAll_eq es
    simp [identifiersOfAll, first, rest]

end

end Element

namespace Site

/-- The walk through a node in preorder. -/
def walk (s : Site) : List Event := (Element.node s.kind s.children).events

/-- What a reference goes by: the last identifier that the walk through it passes, or, if it passes
none, the text of the node without the white space at its ends. -/
inductive GoesBy (node : Site) (name : String) : Prop where
  | identifier (before after : List Event)
    (passed : node.walk = before ++ .token .identifier name :: after)
    (last : ∀ other, .token .identifier other ∉ after)
  | text (nonePassed : ∀ other, .token .identifier other ∉ node.walk)
    (trimmed : Text.Trimmed node.chars name.toList)

theorem identifiersOfAll_children (node : Site) :
    Element.identifiersOfAll node.children = node.walk.filterMap Event.identifier? := by
  rw [walk, ← Element.identifiers_eq, Element.identifiers]

theorem filterMap_identifier?_eq_nil {events : List Event} :
    events.filterMap Event.identifier? = [] ↔ ∀ name, .token .identifier name ∉ events := by
  rw [List.filterMap_eq_nil_iff]
  constructor
  · intro h name mem
    exact absurd (h _ mem) nofun
  · intro h e mem
    cases identifier : e.identifier? with
    | none => rfl
    | some name => exact absurd (Event.identifier?_eq_some_iff.mp identifier ▸ mem) (h name)

/-- A reference goes by exactly one name. -/
theorem goesBy_iff {node : Site} {name : String} :
    node.GoesBy name ↔ node.referencedName = name := by
  rw [referencedName, identifiersOfAll_children]
  constructor
  · rintro (⟨before, after, passed, last⟩ | ⟨noneLeft, trimmed⟩)
    · have found : (Event.token .identifier name).identifier? = some name := rfl
      rw [passed, List.filterMap_append, List.filterMap_cons_some found,
        filterMap_identifier?_eq_nil.mpr last, List.getLast?_concat]
    · rw [filterMap_identifier?_eq_nil.mpr noneLeft, List.getLast?_nil, ← trimmed.eq_trim,
        String.ofList_toList]
  · intro h
    split at h
    · next found =>
      subst h
      obtain ⟨identifiers, split⟩ := List.getLast?_eq_some_iff.mp found
      obtain ⟨front, rest, walk, -, last⟩ := List.filterMap_eq_append_iff.mp split
      obtain ⟨middle, e, after, rfl, -, isIdentifier, noneLeft⟩ :=
        List.filterMap_eq_cons_iff.mp last
      cases Event.identifier?_eq_some_iff.mp isIdentifier
      refine .identifier (front ++ middle) after ?_ (filterMap_identifier?_eq_nil.mp noneLeft)
      rw [walk, List.append_assoc]
    · next none =>
      subst h
      refine .text (filterMap_identifier?_eq_nil.mp (List.getLast?_eq_none_iff.mp none)) ?_
      rw [String.toList_ofList]
      exact Text.trimmed_trim node.chars

end Site

end Tree

end FlowDiagram
