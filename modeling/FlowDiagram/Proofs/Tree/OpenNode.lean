import FlowDiagram.Proofs.Tree.Descent
import FlowDiagram.Proofs.Tree.Replay

/-!
# Open nodes

Which nodes are open between two events of a sequence, told from the events. A start and a finish
belong together if the events between them are `Balanced`; a node is open where its start is past
and its finish is yet to come (`OpenAt`). Two steps lead through the walk of a tree: whatever is
balanced can be passed, and the nodes that are open stay the same (`openAt_append`); behind the
start of a node, that node is open too (`openAt_concat_start`).
-/

namespace FlowDiagram.Tree

/-- Events that close every node they open, and no other. -/
structure Balanced (events : List Event) : Prop where
  never_under : ∀ past, past <+: events → finishes past ≤ starts past
  settled : finishes events = starts events

section Balanced

variable {as bs front back : List Event} {kind : Kind}

/-- An element of two lists stands in the first or in the second. -/
theorem append_cons_cases {α : Type} {xs ys before after : List α} {x : α}
    (h : xs ++ ys = before ++ x :: after) :
    (∃ after', xs = before ++ x :: after' ∧ after = after' ++ ys) ∨
      ∃ before', before = xs ++ before' ∧ ys = before' ++ x :: after := by
  rcases List.append_eq_append_iff.mp h with ⟨more, rfl, rfl⟩ | ⟨more, rfl, split⟩
  · exact .inr ⟨more, rfl, rfl⟩
  · rcases List.cons_eq_append_iff.mp split with ⟨rfl, rfl⟩ | ⟨after', rfl, rfl⟩
    · exact .inr ⟨[], by simp, rfl⟩
    · exact .inl ⟨after', rfl, rfl⟩

/-- A front of two lists ends in the first or in the second. -/
theorem isPrefix_append_cases {α : Type} {past xs ys : List α} (h : past <+: xs ++ ys) :
    past <+: xs ∨ ∃ more, more <+: ys ∧ past = xs ++ more := by
  rcases List.prefix_or_prefix_of_prefix h (List.prefix_append xs ys) with within | ⟨more, rfl⟩
  · exact .inl within
  · exact .inr ⟨more, (List.prefix_append_right_inj xs).mp h, rfl⟩

theorem balanced_nil : Balanced [] where
  never_under past front := by
    rw [List.prefix_nil.mp front]
    exact Nat.le_refl 0
  settled := rfl

theorem balanced_token (kind : Kind) (text : String) : Balanced [.token kind text] where
  never_under past front := by
    rcases List.prefix_cons_iff.mp front with rfl | ⟨more, rfl, rest⟩
    · exact Nat.le_refl 0
    · rw [List.prefix_nil.mp rest]
      exact Nat.le_refl 0
  settled := rfl

theorem Balanced.append (h : Balanced as) (h' : Balanced bs) : Balanced (as ++ bs) where
  never_under past front := by
    rcases isPrefix_append_cases front with within | ⟨more, within, rfl⟩
    · exact h.never_under past within
    · have first := h.settled
      have second := h'.never_under more within
      rw [finishes_append, starts_append]
      omega
  settled := by rw [finishes_append, starts_append, h.settled, h'.settled]

/-- A start and a finish around balanced events balance each other. -/
theorem Balanced.node (h : Balanced as) (kind : Kind) :
    Balanced (.start kind :: as ++ [.finish]) where
  never_under past front := by
    have settled := h.settled
    rw [List.cons_append] at front
    rcases List.prefix_cons_iff.mp front with rfl | ⟨more, rfl, behind⟩
    · exact Nat.le_refl 0
    · rcases List.prefix_concat_iff.mp behind with rfl | within
      · simp
        omega
      · have inside := h.never_under more within
        simp
        omega
  settled := by
    have settled := h.settled
    simp [settled]

theorem Balanced.le_front (h : Balanced (front ++ back)) : finishes front ≤ starts front :=
  h.never_under front (List.prefix_append front back)

theorem Balanced.settled_append (h : Balanced (front ++ back)) :
    finishes front + finishes back = starts front + starts back := by
  simpa using h.settled

/-- What a balanced sequence closes it has opened before. -/
theorem Balanced.lt_of_finish (h : Balanced (front ++ .finish :: back)) :
    finishes front < starts front := by
  have closed := h.never_under (front ++ [.finish]) ⟨back, by simp⟩
  simp at closed
  omega

/-- What a balanced sequence opens it closes behind. -/
theorem Balanced.lt_of_start (h : Balanced (front ++ .start kind :: back)) :
    starts back < finishes back := by
  have opened := h.le_front
  have settled := h.settled_append
  simp at settled
  omega

/-- Where balanced events are followed by a finish, another way to split at a finish closes within
them what has been opened there, or is at that finish, or goes beyond it. -/
theorem Balanced.append_finish_cases {rest after : List Event} (h : Balanced as)
    (split : as ++ .finish :: rest = back ++ .finish :: after) :
    finishes back < starts back ∨ (back = as ∧ after = rest) ∨
      ∃ beyond, back = as ++ .finish :: beyond ∧ rest = beyond ++ .finish :: after := by
  obtain ⟨within, rfl, -⟩ | ⟨beyond, rfl, behind⟩ := append_cons_cases split
  · exact .inl h.lt_of_finish
  · obtain ⟨rfl, same⟩ | ⟨beyond, rfl, same⟩ := List.cons_eq_append_iff.mp behind
    · exact .inr (.inl ⟨List.append_nil as, (List.cons.inj same).2⟩)
    · exact .inr (.inr ⟨beyond, rfl, same⟩)

end Balanced

namespace Element

theorem balanced_eventsOfAll_of {es : List Element} (h : ∀ e ∈ es, Balanced e.events) :
    Balanced (eventsOfAll es) := by
  induction es with
  | nil =>
    rw [eventsOfAll_nil]
    exact balanced_nil
  | cons e es ih =>
    obtain ⟨first, rest⟩ := List.forall_mem_cons.mp h
    rw [eventsOfAll_cons]
    exact first.append (ih rest)

/-- The walk through an element is balanced. -/
theorem balanced_events (e : Element) : Balanced e.events := by
  induction e using induction with
  | token kind text =>
    rw [events_token]
    exact balanced_token kind text
  | node kind children ih =>
    rw [events_node]
    exact (balanced_eventsOfAll_of ih).node kind

theorem balanced_eventsOfAll (es : List Element) : Balanced (eventsOfAll es) :=
  balanced_eventsOfAll_of fun e _ => e.balanced_events

theorem exists_events_eq_cons (e : Element) :
    ∃ more, e.events = e.firstEvent :: more ∧ e.firstEvent ≠ .finish := by
  cases e with
  | token kind text => exact ⟨[], by simp [firstEvent], by simp [firstEvent]⟩
  | node kind children =>
    exact ⟨eventsOfAll children ++ [.finish], by simp [firstEvent], by simp [firstEvent]⟩

mutual

/-- A walk marks nothing. -/
theorem unmarked_events : ∀ e : Element, unmarked e.events = e.events
  | .token kind text => by simp
  | .node kind children => by simp [unmarked_eventsOfAll children]

theorem unmarked_eventsOfAll : ∀ es : List Element, unmarked (eventsOfAll es) = eventsOfAll es
  | [] => by simp
  | e :: es => by simp [unmarked_events e, unmarked_eventsOfAll es]

end

-- What follows the walk is arbitrary, but for the walk of a list, which a finish has to follow.
mutual

/-- An element can be told from its walk, whatever follows. -/
theorem eq_of_events_append : ∀ (a b : Element) {x y : List Event},
    a.events ++ x = b.events ++ y → a = b ∧ x = y
  | .token _ _, .token _ _, _, _, same => by simpa using same
  | .token _ _, .node _ _, _, _, same => by simp at same
  | .node _ _, .token _ _, _, _, same => by simp at same
  | .node kind children, .node kind' children', x, y, same => by
    simp only [events_node, List.cons_append, List.append_assoc, List.cons.injEq,
      Event.start.injEq, List.nil_append] at same
    obtain ⟨rfl, rest⟩ := same
    obtain ⟨rfl, after⟩ := eq_of_eventsOfAll_append children children' rest
    exact ⟨rfl, after⟩

theorem eq_of_eventsOfAll_append : ∀ (as bs : List Element) {x y : List Event},
    eventsOfAll as ++ .finish :: x = eventsOfAll bs ++ .finish :: y → as = bs ∧ x = y
  | [], [], _, _, same => by simpa using same
  | [], b :: _, _, _, same => by
    obtain ⟨more, first, notFinish⟩ := b.exists_events_eq_cons
    simp only [eventsOfAll_nil, eventsOfAll_cons, first, List.nil_append, List.cons_append,
      List.cons.injEq] at same
    exact absurd same.1.symm notFinish
  | a :: _, [], _, _, same => by
    obtain ⟨more, first, notFinish⟩ := a.exists_events_eq_cons
    simp only [eventsOfAll_nil, eventsOfAll_cons, first, List.nil_append, List.cons_append,
      List.cons.injEq] at same
    exact absurd same.1 notFinish
  | a :: as, b :: bs, _, _, same => by
    rw [eventsOfAll_cons, eventsOfAll_cons, List.append_assoc, List.append_assoc] at same
    obtain ⟨rfl, rest⟩ := eq_of_events_append a b same
    obtain ⟨rfl, after⟩ := eq_of_eventsOfAll_append as bs rest
    exact ⟨rfl, after⟩

end

/-- Elements can be told from their walk. -/
theorem eventsOfAll_injective {as bs : List Element} (h : eventsOfAll as = eventsOfAll bs) :
    as = bs :=
  (eq_of_eventsOfAll_append as bs (x := []) (y := []) (by rw [h])).1

end Element

/-- A node is open between two parts of a sequence: its start is in the first part, behind `number`
others, and its finish in the second, and what is between the two is the walk through its children,
marks apart. -/
def OpenAt (past rest : List Event) (number : Nat) (site : Site) : Prop :=
  ∃ before front back after,
    past = before ++ .start site.kind :: front ∧
    rest = back ++ .finish :: after ∧
    Balanced (front ++ back) ∧
    starts before = number ∧
    Text.width (spelled before) = site.start ∧
    unmarked (front ++ back) = Element.eventsOfAll site.children

section OpenAt

variable {past rest es : List Event} {number : Nat} {site : Site}

theorem not_openAt_nil : ¬ OpenAt [] rest number site := by
  rintro ⟨before, front, back, after, split, -⟩
  simp at split

theorem OpenAt.number_lt (h : OpenAt past rest number site) : number < starts past := by
  obtain ⟨before, front, back, after, rfl, -, -, rfl, -⟩ := h
  simp

/-- Passing balanced events opens no node and closes none. -/
theorem openAt_append (h : Balanced es) :
    OpenAt (past ++ es) rest number site ↔ OpenAt past (es ++ rest) number site := by
  constructor
  · rintro ⟨before, front, back, after, starting, rfl, balanced, facts⟩
    rcases append_cons_cases starting with ⟨front', rfl, rfl⟩ | ⟨before', rfl, rfl⟩
    · rw [List.append_assoc] at balanced facts
      exact ⟨before, front', es ++ back, after, rfl, by simp, balanced, facts⟩
    · -- the start would be one of the balanced events, which close what they open
      have closed := h.lt_of_start
      have kept := balanced.le_front
      omega
  · rintro ⟨before, front, back, after, rfl, finishing, balanced, facts⟩
    rcases append_cons_cases finishing with ⟨after', rfl, rfl⟩ | ⟨back', rfl, rfl⟩
    · -- the finish would be one of the balanced events, which have opened what they close
      have opened := h.lt_of_finish
      have kept := balanced.le_front
      have settled := balanced.settled_append
      omega
    · rw [← List.append_assoc] at balanced facts
      exact ⟨before, front ++ es, back', after, by simp, rfl, balanced, facts⟩

/-- Behind the start of a node, that node is open, and else those that were. -/
theorem openAt_concat_start (kind : Kind) (children : List Element) :
    OpenAt (past ++ [.start kind]) (Element.eventsOfAll children ++ .finish :: rest) number site ↔
      (number = starts past ∧ site = ⟨kind, Text.width (spelled past), children⟩) ∨
      OpenAt past ((Element.node kind children).events ++ rest) number site := by
  have inside := Element.balanced_eventsOfAll children
  have settledInside := inside.settled
  constructor
  · rintro ⟨before, front, back, after, starting, finishing, balanced, counted, placed, replayed⟩
    have ending := inside.append_finish_cases finishing
    obtain ⟨front', rfl, rfl⟩ | ⟨before', rfl, isStart⟩ := append_cons_cases starting
    · right
      rw [List.append_assoc, List.singleton_append] at balanced replayed
      have closed := balanced.lt_of_start
      obtain early | ⟨rfl, -⟩ | ⟨back', rfl, rfl⟩ := ending
      · omega
      · omega
      · exact ⟨before, front', .start kind :: Element.eventsOfAll children ++ .finish :: back',
          after, rfl, by simp, by simpa using balanced, counted, placed, by simpa using replayed⟩
    · left
      obtain ⟨rfl, rfl, rfl⟩ : before' = [] ∧ kind = site.kind ∧ front = [] := by
        obtain ⟨rfl, same⟩ | ⟨_, rfl, same⟩ := List.cons_eq_append_iff.mp isStart
        · simp_all
        · simp at same
      rw [List.nil_append] at balanced replayed
      obtain early | ⟨rfl, rfl⟩ | ⟨back', rfl, -⟩ := ending
      · have settled := balanced.settled
        omega
      · rw [Element.unmarked_eventsOfAll] at replayed
        refine ⟨by simpa using counted.symm, ?_⟩
        rw [List.append_nil] at placed
        rw [Element.eventsOfAll_injective replayed, placed]
      · have opened := balanced.lt_of_finish
        omega
  · rintro (⟨rfl, rfl⟩ | ⟨before, front, back, after, rfl, finishing, balanced, facts⟩)
    · exact ⟨past, [], _, rest, rfl, rfl, inside, rfl, rfl, Element.unmarked_eventsOfAll children⟩
    · rcases append_cons_cases finishing with ⟨after', within, -⟩ | ⟨back', rfl, rfl⟩
      · have around := (Element.node kind children).balanced_events
        rw [within] at around
        have opened := around.lt_of_finish
        have kept := balanced.le_front
        have settled := balanced.settled_append
        omega
      · exact ⟨before, front ++ [.start kind], Element.eventsOfAll children ++ .finish :: back',
          after, by simp, by simp, by simpa using balanced, by simpa using facts⟩

end OpenAt

/-! ### Marks -/

section Marks

variable {past rest es : List Event} {number : Nat} {site : Site}

@[simp] theorem starts_unmarked (es : List Event) : starts (unmarked es) = starts es := by
  induction es with
  | nil => rfl
  | cons e es ih => cases e <;> simp [ih]

@[simp] theorem finishes_unmarked (es : List Event) : finishes (unmarked es) = finishes es := by
  induction es with
  | nil => rfl
  | cons e es ih => cases e <;> simp [ih]

@[simp] theorem unmarked_unmarked (es : List Event) : unmarked (unmarked es) = unmarked es := by
  simp [unmarked]

theorem balanced_unmarked_iff : Balanced (unmarked es) ↔ Balanced es := by
  constructor
  · intro h
    refine ⟨fun past front => ?_, by simpa using h.settled⟩
    simpa using h.never_under (unmarked past) (front.filter _)
  · intro h
    refine ⟨fun past front => ?_, by simpa using h.settled⟩
    obtain ⟨marked, within, rfl⟩ := List.prefix_filter_iff.mp front
    have kept := h.never_under marked within
    rwa [← starts_unmarked, ← finishes_unmarked] at kept

/-- Where an event stands among those that are not marks, it stands among all. -/
theorem exists_split_of_unmarked {before after : List Event} {e : Event}
    (h : unmarked es = before ++ e :: after) :
    ∃ before' after', es = before' ++ e :: after' ∧ unmarked before' = before ∧
      unmarked after' = after := by
  obtain ⟨front, back, rfl, rfl, split⟩ := List.filter_eq_append_iff.mp h
  obtain ⟨dropped, after', rfl, isMark, -, rfl⟩ := List.filter_eq_cons_iff.mp split
  refine ⟨front ++ dropped, after', by simp, ?_, rfl⟩
  have none : unmarked dropped = [] := List.filter_eq_nil_iff.mpr isMark
  rw [unmarked_append, none, List.append_nil]
  rfl

/-- Marks open no node and close none. -/
theorem openAt_unmarked :
    OpenAt (unmarked past) (unmarked rest) number site ↔ OpenAt past rest number site := by
  constructor
  · rintro ⟨before, front, back, after, starting, finishing, balanced, counted, placed, replayed⟩
    obtain ⟨before, front, rfl, rfl, rfl⟩ := exists_split_of_unmarked starting
    obtain ⟨back, after, rfl, rfl, rfl⟩ := exists_split_of_unmarked finishing
    rw [← unmarked_append, balanced_unmarked_iff] at balanced
    refine ⟨before, front, back, after, rfl, rfl, balanced, by simpa using counted, ?_, ?_⟩
    · rwa [spelled_unmarked] at placed
    · simpa using replayed
  · rintro ⟨before, front, back, after, rfl, rfl, balanced, counted, placed, replayed⟩
    refine ⟨unmarked before, unmarked front, unmarked back, unmarked after, by simp, by simp, ?_,
      by simpa using counted, ?_, ?_⟩
    · rwa [← unmarked_append, balanced_unmarked_iff]
    · rwa [spelled_unmarked]
    · simpa using replayed

/-- How many offsets events mark. -/
def marks (events : List Event) : Nat := events.countP Event.isMark

theorem length_markOffsets (events : List Event) : (markOffsets events).length = marks events := by
  induction events using List.reverseRecOn with
  | nil => rfl
  | append_singleton es e ih => cases e <;> simp_all [markOffsets_concat, marks]

/-- The offset of a mark is found behind those of the marks before it. -/
theorem getElem?_markOffsets (past rest : List Event) :
    (markOffsets (past ++ .mark :: rest))[marks past]? = some (Text.width (spelled past)) := by
  obtain ⟨later, split⟩ : ∃ later, markOffsets (past ++ .mark :: rest)
      = markOffsets past ++ Text.width (spelled past) :: later := by
    rw [markOffsets, moments_append, List.filterMap_append]
    exact ⟨_, rfl⟩
  rw [split, ← length_markOffsets, List.getElem?_append_right (Nat.le_refl _)]
  simp

end Marks

end FlowDiagram.Tree
