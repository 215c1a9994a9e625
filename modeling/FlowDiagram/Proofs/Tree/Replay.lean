import FlowDiagram.Proofs.Tree.EventSequence
import FlowDiagram.Tree.Document

/-!
# Replays

A growing tree remembers all events that it was given. `Growth.Tracks` compares it with the events
so far: the open nodes, the walk through what is there, the offset, the marks and the top level. One
step keeps the comparison and fails exactly where an event does not fit (`Growth.Tracks.step`), so
a replay fails at the first such event, and a finished tree, walked in preorder, gives the events
back.
-/

namespace FlowDiagram.Tree

namespace Element

mutual

/-- The events that replay an element. -/
def events : Element → List Event
  | .token kind text => [.token kind text]
  | .node kind children => .start kind :: eventsOfAll children ++ [.finish]

def eventsOfAll : List Element → List Event
  | [] => []
  | e :: es => events e ++ eventsOfAll es

end

/-- The event that begins an element. -/
def firstEvent : Element → Event
  | .token kind text => .token kind text
  | .node kind _ => .start kind

@[simp] theorem events_token (kind : Kind) (text : String) :
    (token kind text).events = [.token kind text] := by
  simp [events]

@[simp] theorem events_node (kind : Kind) (children : List Element) :
    (node kind children).events = .start kind :: eventsOfAll children ++ [.finish] := by
  simp [events]

@[simp] theorem eventsOfAll_nil : eventsOfAll [] = [] := by
  simp [eventsOfAll]

@[simp] theorem eventsOfAll_cons (e : Element) (es : List Element) :
    eventsOfAll (e :: es) = e.events ++ eventsOfAll es := by
  simp [eventsOfAll]

@[simp] theorem eventsOfAll_append (as bs : List Element) :
    eventsOfAll (as ++ bs) = eventsOfAll as ++ eventsOfAll bs := by
  induction as with
  | nil => simp
  | cons e as ih => simp [ih]

mutual

/-- The events of an element spell its characters. -/
theorem spelled_events : ∀ e : Element, spelled e.events = e.chars
  | .token kind text => by simp [spelled, Event.chars]
  | .node kind children => by
    have inside := spelled_eventsOfAll children
    simpa [spelled, Event.chars] using inside

theorem spelled_eventsOfAll : ∀ es : List Element, spelled (eventsOfAll es) = charsOfAll es
  | [] => by simp [spelled]
  | e :: es => by
    have first := spelled_events e
    have rest := spelled_eventsOfAll es
    simp_all [spelled]

end

end Element

/-- The walk through a tree in preorder. -/
def walk (t : Tree) : List Event := .start t.kind :: Element.eventsOfAll t.children ++ [.finish]

/-- The walk spells the text of the tree. -/
theorem spelled_walk (t : Tree) : spelled t.walk = t.root.chars := by
  have inside := Element.spelled_eventsOfAll t.children
  simpa [walk, spelled, Event.chars, Site.chars, root] using inside

namespace Growth

/-- The walk through open nodes and what stands in them before the rest. -/
def walkInto : List Opening → List Event → List Event
  | [], rest => rest
  | o :: os, rest => walkInto os (Element.eventsOfAll o.before.reverse ++ .start o.kind :: rest)

/-- The walk through a growing tree, up to where it grows. -/
def walk (g : Growth) : List Event :=
  walkInto g.openings (Element.eventsOfAll g.elements.reverse)

/-- The events that begin the elements outside all open nodes, given those inside all of them. -/
def topOf : List Opening → List Event → List Event
  | [], begun => begun
  | o :: os, _ => topOf os ((o.before.map Element.firstEvent).reverse ++ [.start o.kind])

/-- The events that begin the elements at the top of a growing tree. -/
def top (g : Growth) : List Event :=
  topOf g.openings (g.elements.map Element.firstEvent).reverse

theorem walkInto_append (os : List Opening) (first rest : List Event) :
    walkInto os (first ++ rest) = walkInto os first ++ rest := by
  induction os generalizing first with
  | nil => rfl
  | cons o os ih => simp [walkInto, ← ih]

theorem topOf_append (os : List Opening) (begun : List Event) (e : Event) :
    topOf os (begun ++ [e]) = topOf os begun ++ if os.isEmpty then [e] else [] := by
  cases os <;> simp [topOf]

/-- A growing tree is the one that events have replayed so far. -/
structure Tracks (g : Growth) (past : List Event) : Prop where
  depth : g.openings.length + finishes past = starts past
  walk_eq : g.walk = unmarked past
  offset_eq : g.offset = Text.width (spelled past)
  marks_eq : g.marks.reverse = markOffsets past
  top_eq : g.top = topLevel past

theorem tracks_empty : Tracks .empty [] :=
  ⟨rfl, rfl, rfl, rfl, rfl⟩

/-- No node is open just where as many are closed as opened. -/
theorem Tracks.isEmpty_openings {g : Growth} {past : List Event} (h : g.Tracks past) :
    g.openings.isEmpty = (starts past == finishes past) := by
  have depth := h.depth
  cases openings : g.openings with
  | nil => simp_all
  | cons o os =>
    rw [openings, List.length_cons] at depth
    rw [List.isEmpty_cons, eq_comm, beq_eq_false_iff_ne]
    omega

variable {g : Growth} {past : List Event}

theorem Tracks.start (h : g.Tracks past) (kind : Kind) :
    Tracks { g with openings := ⟨kind, g.elements⟩ :: g.openings, elements := [] }
      (past ++ [.start kind]) where
  depth := by
    have depth := h.depth
    simp
    omega
  walk_eq := by
    have walk_eq := h.walk_eq
    rw [walk] at walk_eq
    simp [← walk_eq, walk, walkInto, walkInto_append]
  offset_eq := by simp [h.offset_eq]
  marks_eq := by simp [markOffsets_concat, h.marks_eq]
  top_eq := by
    rw [topLevel_concat, ← h.top_eq, ← h.isEmpty_openings]
    simp [top, topOf, topOf_append]

theorem Tracks.token (h : g.Tracks past) (kind : Kind) (text : String) :
    Tracks { g with
      elements := .token kind text :: g.elements
      offset := g.offset + Text.width text.toList } (past ++ [.token kind text]) where
  depth := by simpa using h.depth
  walk_eq := by simp [← h.walk_eq, walk, walkInto_append]
  offset_eq := by simp [h.offset_eq]
  marks_eq := by simp [markOffsets_concat, h.marks_eq]
  top_eq := by
    rw [topLevel_concat, ← h.top_eq, ← h.isEmpty_openings]
    simp [top, topOf_append, Element.firstEvent]

theorem Tracks.finish {o : Opening} {os : List Opening} (h : g.Tracks past)
    (openings : g.openings = o :: os) :
    Tracks { g with openings := os, elements := .node o.kind g.elements.reverse :: o.before }
      (past ++ [.finish]) where
  depth := by
    have depth := h.depth
    rw [openings, List.length_cons] at depth
    simp
    omega
  walk_eq := by
    have walk_eq := h.walk_eq
    rw [walk, openings] at walk_eq
    simp [← walk_eq, walk, walkInto, ← walkInto_append]
  offset_eq := by simp [h.offset_eq]
  marks_eq := by simp [markOffsets_concat, h.marks_eq]
  top_eq := by
    rw [topLevel_concat, ← h.top_eq]
    simp [top, topOf, openings, Element.firstEvent]

theorem Tracks.mark (h : g.Tracks past) :
    Tracks { g with marks := g.offset :: g.marks } (past ++ [.mark]) where
  depth := by simpa using h.depth
  walk_eq := by simp [← h.walk_eq, walk]
  offset_eq := by simp [h.offset_eq]
  marks_eq := by simp [markOffsets_concat, h.marks_eq, h.offset_eq]
  top_eq := by simp [topLevel_concat, ← h.top_eq, top]

/-- An event that does not fit is refused. -/
theorem Tracks.step_of_misuse {e : Event} {misuse : Misuse} (h : g.Tracks past)
    (wrong : misuse? past e = some misuse) : g.step e = .error misuse := by
  cases e with
  | start kind =>
    cases token : kind.isToken <;> simp_all [misuse?, step]
  | token kind text =>
    cases token : kind.isToken <;> simp_all [misuse?, step]
  | mark => cases wrong
  | finish =>
    have depth := h.depth
    simp only [misuse?, Option.ite_none_right_eq_some, Option.some.injEq] at wrong
    obtain ⟨closed, rfl⟩ := wrong
    have none_open : g.openings = [] := List.length_eq_zero_iff.mp (by omega)
    simp [step, none_open]

/-- An event that fits is taken, and the tree keeps track. -/
theorem Tracks.step_of_fits {e : Event} (h : g.Tracks past) (fits : misuse? past e = none) :
    ∃ g', g.step e = .ok g' ∧ g'.Tracks (past ++ [e]) := by
  cases e with
  | start kind =>
    have node : kind.isToken = false := by simpa [misuse?] using fits
    exact ⟨_, by simp only [step, node]; rfl, h.start kind⟩
  | token kind text =>
    have token : kind.isToken = true := by simpa [misuse?] using fits
    exact ⟨_, by simp only [step, token]; rfl, h.token kind text⟩
  | mark => exact ⟨_, rfl, h.mark⟩
  | finish =>
    have open_node : ¬ starts past ≤ finishes past := by simpa [misuse?] using fits
    cases openings : g.openings with
    | nil =>
      have depth := h.depth
      rw [openings, List.length_nil] at depth
      omega
    | cons o os => exact ⟨_, by simp only [step, openings], h.finish openings⟩

/-- The end of a replay: nodes are left open, or there is not one node at the top, or there is, and
the walk through it is what was replayed. -/
theorem Tracks.tree_cases (h : g.Tracks past) :
    (finishes past ≠ starts past ∧ g.tree = .error .leftOpen) ∨
    (finishes past = starts past ∧ (¬ ∃ kind, topLevel past = [.start kind]) ∧
      g.tree = .error .notOneNode) ∨
    (finishes past = starts past ∧ (∃ kind, topLevel past = [.start kind]) ∧
      ∃ t, g.tree = .ok t ∧ t.walk = unmarked past) := by
  have depth := h.depth
  have top_eq := h.top_eq
  have walk_eq := h.walk_eq
  rw [top] at top_eq
  rw [walk] at walk_eq
  cases openings : g.openings with
  | cons o os =>
    rw [openings, List.length_cons] at depth
    exact .inl ⟨by omega, by simp [Growth.tree, openings]⟩
  | nil =>
    rw [openings, List.length_nil, Nat.zero_add] at depth
    rw [openings, topOf] at top_eq
    rw [openings, walkInto] at walk_eq
    right
    rw [← top_eq]
    match elements : g.elements with
    | [] => exact .inl ⟨depth, by simp, by simp [Growth.tree, openings, elements]⟩
    | [.token kind text] =>
      exact .inl ⟨depth, by simp [Element.firstEvent],
        by simp [Growth.tree, openings, elements]⟩
    | [.node kind children] =>
      refine .inr ⟨depth, ⟨kind, rfl⟩, ⟨kind, children⟩,
        by simp [Growth.tree, openings, elements], ?_⟩
      rw [← walk_eq, elements]
      simp [Tree.walk]
    | first :: second :: more =>
      refine .inl ⟨depth, ?_, by simp [Growth.tree, openings, elements]⟩
      rintro ⟨kind, one⟩
      have length := congrArg List.length one
      simp at length

end Growth

theorem replayFrom_append (g : Growth) (index : Nat) (es es' : List Event) :
    replayFrom g index (es ++ es') =
      (replayFrom g index es).bind fun g => replayFrom g (index + es.length) es' := by
  induction es generalizing g index with
  | nil => rfl
  | cons e es ih =>
    rw [List.cons_append, replayFrom, replayFrom]
    cases g.step e with
    | error misuse => rfl
    | ok g => simp only [ih, List.length_cons, Nat.add_right_comm, Nat.add_assoc]

/-- Events that fit are all replayed. -/
theorem replay_of_allFit {events : List Event} (h : AllFit events) :
    ∃ g, replayFrom .empty 0 events = .ok g ∧ g.Tracks events := by
  induction events using List.reverseRecOn with
  | nil => exact ⟨.empty, rfl, Growth.tracks_empty⟩
  | append_singleton es e ih =>
    obtain ⟨fits, last⟩ := allFit_concat.mp h
    obtain ⟨g, replayed, tracks⟩ := ih fits
    obtain ⟨g', stepped, tracks'⟩ := tracks.step_of_fits last
    refine ⟨g', ?_, tracks'⟩
    simp [replayFrom_append, replayed, replayFrom, stepped, Except.bind]

/-- A replay stops at the first event that does not fit. -/
theorem replay_of_firstMisuse {events : List Event} {index : Nat} {misuse : Misuse}
    (h : FirstMisuse events index misuse) :
    replayFrom .empty 0 events = .error ⟨misuse, some index⟩ := by
  obtain ⟨before, e, after, rfl, rfl, fits, wrong⟩ := h
  obtain ⟨g, replayed, tracks⟩ := replay_of_allFit fits
  simp [replayFrom_append, replayed, replayFrom, tracks.step_of_misuse wrong, Except.bind]

/-- A finished replay holds what was replayed: its tree, walked in preorder, gives the events back
without the marks and spells their text, which is also the text that positions are counted in; the
marks are the offsets at which they were set. -/
structure Replay.Records (r : Replay) (events : List Event) : Prop where
  walk_eq : r.tree.walk = unmarked events
  chars_eq : r.tree.root.chars = spelled events
  marks_eq : r.marks = markOffsets events
  offset_eq : r.offset = Text.width (spelled events)
  source_eq : ∀ name, (Document.mk name r.tree).source = ⟨spelled events⟩

theorem ofEvents_of_firstMisuse {events : List Event} {index : Nat} {misuse : Misuse}
    (h : FirstMisuse events index misuse) :
    ofEvents events = .error ⟨misuse, some index⟩ := by
  simp [ofEvents, replay_of_firstMisuse h, bind, Except.bind]

/-- The three ends of a replay of events that fit. -/
theorem ofEvents_of_allFit {events : List Event} (h : AllFit events) :
    (finishes events ≠ starts events ∧ ofEvents events = .error ⟨.leftOpen, none⟩) ∨
    (finishes events = starts events ∧ (¬ ∃ kind, topLevel events = [.start kind]) ∧
      ofEvents events = .error ⟨.notOneNode, none⟩) ∨
    (finishes events = starts events ∧ (∃ kind, topLevel events = [.start kind]) ∧
      ∃ r, ofEvents events = .ok r ∧ r.Records events) := by
  obtain ⟨g, replayed, tracks⟩ := replay_of_allFit h
  rcases tracks.tree_cases with ⟨unbalanced, fails⟩ | ⟨balanced, notOne, fails⟩ |
    ⟨balanced, one, t, finished, walk_eq⟩
  · exact .inl ⟨unbalanced, by simp [ofEvents, replayed, bind, Except.bind, fails]⟩
  · exact .inr (.inl ⟨balanced, notOne, by simp [ofEvents, replayed, bind, Except.bind, fails]⟩)
  · have chars_eq : t.root.chars = spelled events := by
      rw [← spelled_walk, walk_eq, spelled_unmarked]
    refine .inr (.inr ⟨balanced, one, ⟨t, g.marks.reverse, g.offset⟩,
      by simp [ofEvents, replayed, bind, Except.bind, finished], ?_⟩)
    exact ⟨walk_eq, chars_eq, tracks.marks_eq, tracks.offset_eq,
      fun name => congrArg SourceText.mk chars_eq⟩

/-- What is replayed is recorded. -/
theorem records_of_eq_ok {events : List Event} {r : Replay} (h : ofEvents events = .ok r) :
    r.Records events := by
  rcases allFit_or_firstMisuse events with fits | ⟨index, misuse, first⟩
  · rcases ofEvents_of_allFit fits with ⟨-, fails⟩ | ⟨-, -, fails⟩ | ⟨-, -, _, succeeds, records⟩
    · cases fails.symm.trans h
    · cases fails.symm.trans h
    · cases succeeds.symm.trans h
      exact records
  · cases (ofEvents_of_firstMisuse first).symm.trans h

theorem wellFormed_iff {events : List Event} :
    WellFormed events ↔ AllFit events ∧ finishes events = starts events ∧
      ∃ kind, topLevel events = [.start kind] := by
  rw [allFit_iff]
  constructor
  · rintro ⟨starts_nodes, tokens_tokens, never_under, balanced, one_node⟩
    exact ⟨⟨starts_nodes, tokens_tokens, never_under⟩, balanced, one_node⟩
  · rintro ⟨⟨starts_nodes, tokens_tokens, never_under⟩, balanced, one_node⟩
    exact ⟨starts_nodes, tokens_tokens, never_under, balanced, one_node⟩

/-- A replay succeeds just for the well-formed sequences of events, and then it records them. It
fails at an index just where the first event stands that does not fit, and at the end, if all fit,
for nodes that are left open, whatever stands at the top, or else for what stands at the top. -/
theorem ofEvents_exact (events : List Event) :
    ((∃ r, ofEvents events = .ok r) ↔ WellFormed events) ∧
    (∀ r, ofEvents events = .ok r → r.Records events) ∧
    (∀ misuse index, ofEvents events = .error ⟨misuse, some index⟩ ↔
      FirstMisuse events index misuse) ∧
    (∀ misuse, ofEvents events = .error ⟨misuse, none⟩ ↔ AllFit events ∧
      (misuse = .leftOpen ∧ finishes events ≠ starts events ∨
        misuse = .notOneNode ∧ finishes events = starts events ∧
          ¬ ∃ kind, topLevel events = [.start kind])) := by
  rw [wellFormed_iff]
  rcases allFit_or_firstMisuse events with fits | ⟨index, misuse, first⟩
  · have noMisuse (misuse : Misuse) (index : Nat) : ¬ FirstMisuse events index misuse :=
      fun first => first.not_allFit fits
    rcases ofEvents_of_allFit fits with ⟨unbalanced, fails⟩ | ⟨balanced, notOne, fails⟩ |
      ⟨balanced, one, r, succeeds, records⟩
    · simp [fails, fits, unbalanced, noMisuse, eq_comm]
    · simp [fails, fits, balanced, notOne, noMisuse, eq_comm]
    · simp [succeeds, fits, balanced, one, records, noMisuse]
  · have fails := ofEvents_of_firstMisuse first
    have unfit := first.not_allFit
    refine ⟨by simp [fails, unfit], by simp [fails], fun misuse' index' => ?_,
      by simp [fails, unfit]⟩
    constructor
    · intro same
      cases fails.symm.trans same
      exact first
    · exact ofEvents_of_firstMisuse

-- That a node is left open counts before what stands at the top.
example : ofEvents [.start .sourceFile, .finish, .start .sourceFile] =
    .error ⟨.leftOpen, none⟩ := by
  rfl

end FlowDiagram.Tree
