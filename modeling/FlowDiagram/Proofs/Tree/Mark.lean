import FlowDiagram.Proofs.Tree.Enclosure
import FlowDiagram.Proofs.Tree.OpenNode

/-!
# What encloses a mark

A mark between two tokens with text is a place in the tree, and the offset that it records leads
back to it: the nodes around the offset are just those that were open when the mark was set. The
descent is followed along the walk of the tree. Down to the two tokens it enters the child that has
both of them, for the offset is strictly inside that child; at the two tokens it enters the first,
where the offset is the end, and stops. `ListsOpen` holds all the way: the path lists the nodes
that are open where the walk has come to.
-/

namespace FlowDiagram

theorem Text.width_pos {s : String} (h : s ≠ "") : 0 < width s.toList := by
  obtain ⟨c, cs, chars⟩ := List.exists_cons_of_ne_nil (mt String.toList_eq_nil_iff.mp h)
  rw [chars, width_cons]
  exact Nat.add_pos_left c.utf8Size_pos _

end FlowDiagram

namespace FlowDiagram.Tree

/-- A path lists the nodes that are open between two parts of a sequence, the one opened last first.
Each is listed with its number, and is the node with this number in the tree below a root. -/
def ListsOpen (root : Site) (past rest : List Event) (path : List Site) : Prop :=
  ∃ opened : List (Nat × Site), opened.map Prod.snd = path ∧
    (opened.Pairwise fun inner outer => outer.1 < inner.1) ∧
    ∀ number site, ((number, site) ∈ opened ↔ OpenAt past rest number site) ∧
      ((number, site) ∈ opened → root.nodes[number]? = some site)

namespace ListsOpen

variable {root : Site} {past rest es : List Event} {path : List Site}

/-- Before the first event no node is open. -/
theorem nil (root : Site) (rest : List Event) : ListsOpen root [] rest [] :=
  ⟨[], rfl, List.Pairwise.nil, fun _ _ => ⟨by simp [not_openAt_nil], by simp⟩⟩

theorem append (h : ListsOpen root past (es ++ rest) path) (balanced : Balanced es) :
    ListsOpen root (past ++ es) rest path := by
  obtain ⟨opened, listed, ordered, exactly⟩ := h
  exact ⟨opened, listed, ordered, fun number site =>
    ⟨(exactly number site).1.trans (openAt_append balanced).symm, (exactly number site).2⟩⟩

theorem concat_start {kind : Kind} {children : List Element}
    (h : ListsOpen root past ((Element.node kind children).events ++ rest) path)
    (placed : root.nodes[starts past]? = some ⟨kind, Text.width (spelled past), children⟩) :
    ListsOpen root (past ++ [.start kind]) (Element.eventsOfAll children ++ .finish :: rest)
      (⟨kind, Text.width (spelled past), children⟩ :: path) := by
  obtain ⟨opened, listed, ordered, exactly⟩ := h
  refine ⟨(starts past, ⟨kind, Text.width (spelled past), children⟩) :: opened, by simp [listed],
    List.pairwise_cons.mpr ⟨fun earlier mem => ?_, ordered⟩, fun number site => ⟨?_, fun mem => ?_⟩⟩
  · exact ((exactly earlier.1 earlier.2).1.mp mem).number_lt
  · rw [openAt_concat_start, ← (exactly number site).1, List.mem_cons, Prod.mk.injEq]
  · rcases List.mem_cons.mp mem with here | before
    · cases here
      exact placed
    · exact (exactly number site).2 before

theorem unmarked_iff :
    ListsOpen root (unmarked past) (unmarked rest) path ↔ ListsOpen root past rest path := by
  simp only [ListsOpen, openAt_unmarked]

end ListsOpen

namespace Element

section Sites

theorem sitesOfAll_append (start : Nat) (as bs : List Element) :
    sitesOfAll start (as ++ bs) = sitesOfAll start as ++ sitesOfAll (start + widthOfAll as) bs := by
  induction as generalizing start with
  | nil => simp
  | cons e as ih => simp [ih, Nat.add_assoc]

mutual

/-- The walk through an element starts each of its nodes. -/
theorem starts_events : ∀ (e : Element) (start : Nat), starts e.events = (e.sites start).length
  | .token kind text, _ => by simp
  | .node kind children, start => by simp [starts_eventsOfAll children start]

theorem starts_eventsOfAll : ∀ (es : List Element) (start : Nat),
    starts (eventsOfAll es) = (sitesOfAll start es).length
  | [], _ => by simp
  | e :: es, start => by
    simp [starts_events e start, starts_eventsOfAll es (start + e.width)]

end

/-- A node is listed first, and the nodes of its children behind it. -/
theorem getElem?_of_sites_isPrefix_drop {listed : List Site} {n start : Nat} {kind : Kind}
    {children : List Element} (h : (node kind children).sites start <+: listed.drop n) :
    listed[n]? = some ⟨kind, start, children⟩ ∧
      sitesOfAll start children <+: listed.drop (n + 1) := by
  rw [sites_node] at h
  obtain ⟨others, whole⟩ := h
  constructor
  · rw [← List.head?_drop, ← whole]
    rfl
  · refine ⟨others, ?_⟩
    rw [← List.drop_drop, ← whole]
    rfl

/-- The nodes of a child are listed behind those of the siblings before it. -/
theorem sites_isPrefix_drop {listed : List Site} {n start : Nat} {first last : List Element}
    {child : Element} (h : sitesOfAll start (first ++ child :: last) <+: listed.drop n) :
    child.sites (start + widthOfAll first) <+:
      listed.drop (n + starts (eventsOfAll first)) := by
  obtain ⟨others, whole⟩ := h
  refine ⟨sitesOfAll (start + widthOfAll first + child.width) last ++ others, ?_⟩
  rw [← List.drop_drop, ← whole, sitesOfAll_append, sitesOfAll_cons, starts_eventsOfAll _ start]
  simp

@[simp] theorem width_spelled_eventsOfAll (es : List Element) :
    Text.width (spelled (eventsOfAll es)) = widthOfAll es := by
  rw [spelled_eventsOfAll, widthOfAll_eq]

end Sites

section Split

variable {kind k k' : Kind} {t t' : String} {es children : List Element} {before after : List Event}

theorem eq_token_of_events_eq_concat {e : Element} (h : e.events = before ++ [.token k t]) :
    before = [] ∧ e = .token k t := by
  cases e with
  | token kind text =>
    rw [events_token] at h
    cases before with
    | nil => simpa using h
    | cons first before => simp at h
  | node kind children =>
    rw [events_node] at h
    have last := List.append_inj_right' h rfl
    simp at last

theorem exists_of_eventsOfAll_eq_cons (h : eventsOfAll es = .token k t :: after) :
    ∃ rest, es = .token k t :: rest ∧ after = eventsOfAll rest := by
  cases es with
  | nil => simp at h
  | cons e es =>
    cases e with
    | token kind text =>
      simp only [eventsOfAll_cons, events_token, List.singleton_append, List.cons.injEq,
        Event.token.injEq] at h
      obtain ⟨⟨rfl, rfl⟩, rfl⟩ := h
      exact ⟨es, rfl, rfl⟩
    | node kind children => simp at h

/-- Two tokens next to each other in the walk of a node are so in that of its children. -/
theorem exists_of_events_node
    (h : (node kind children).events = before ++ .token k t :: .token k' t' :: after) :
    ∃ before' after', before = .start kind :: before' ∧ after = after' ++ [.finish] ∧
      eventsOfAll children = before' ++ .token k t :: .token k' t' :: after' := by
  rw [events_node, List.cons_append] at h
  rcases List.cons_eq_append_iff.mp h with ⟨-, first⟩ | ⟨before', rfl, rest⟩
  · simp at first
  · rcases append_cons_cases rest with ⟨between, inside, behind⟩ | ⟨between, -, behind⟩
    · rcases List.cons_eq_append_iff.mp behind with ⟨-, last⟩ | ⟨after', rfl, rfl⟩
      · simp at last
      · exact ⟨before', after', rfl, rfl, inside⟩
    · rcases List.cons_eq_append_iff.mp behind with ⟨-, last⟩ | ⟨_, -, last⟩
      · simp at last
      · simp at last

/-- Two tokens next to each other in the walk of a list are in one element, or are two elements. -/
theorem eventsOfAll_cases (h : eventsOfAll es = before ++ .token k t :: .token k' t' :: after) :
    (∃ first child last p q, es = first ++ child :: last ∧ before = eventsOfAll first ++ p ∧
      child.events = p ++ .token k t :: .token k' t' :: q ∧ after = q ++ eventsOfAll last) ∨
    ∃ first last, es = first ++ .token k t :: .token k' t' :: last ∧
      before = eventsOfAll first ∧ after = eventsOfAll last := by
  induction es generalizing before with
  | nil => simp at h
  | cons e es ih =>
    rw [eventsOfAll_cons] at h
    rcases append_cons_cases h with ⟨between, inside, behind⟩ | ⟨before', rfl, behind⟩
    · rcases List.cons_eq_append_iff.mp behind with ⟨rfl, next⟩ | ⟨q, rfl, rfl⟩
      · obtain ⟨rfl, rfl⟩ := eq_token_of_events_eq_concat inside
        obtain ⟨last, rfl, rfl⟩ := exists_of_eventsOfAll_eq_cons next
        exact .inr ⟨[], last, rfl, rfl, rfl⟩
      · exact .inl ⟨[], e, es, before, q, rfl, rfl, inside, rfl⟩
    · rcases ih behind with ⟨first, child, last, p, q, rfl, rfl, inside, rfl⟩ |
        ⟨first, last, rfl, rfl, rfl⟩
      · exact .inl ⟨e :: first, child, last, p, q, rfl, by simp, inside, rfl⟩
      · exact .inr ⟨e :: first, last, rfl, by simp, rfl⟩

end Split

section Descend

variable {root : Site} {k k' : Kind} {t t' : String}

/-- The offset between two tokens with text is strictly inside every element that has both. -/
theorem enteredChild?_of_tokens (start : Nat) (first last : List Element) {child : Element}
    {p q : List Event} (split : child.events = p ++ .token k t :: .token k' t' :: q)
    (behind : 0 < Text.width t.toList) (ahead : 0 < Text.width t'.toList) :
    enteredChild? (.point (start + widthOfAll first + Text.width (spelled p) + Text.width t.toList))
      (spans start (first ++ child :: last)) = some first.length := by
  have width : child.width = Text.width (spelled p) + Text.width t.toList +
      Text.width t'.toList + Text.width (spelled q) := by
    rw [child.width_eq, ← spelled_events, split]
    simp [Nat.add_assoc]
  apply enteredChild?_of_inside
  rw [strictlyInside_iff, span_start, span_stop]
  omega

/-- The offset between two tokens with text enters the first, which ends there. -/
theorem enteredChild?_between_tokens (start : Nat) (first last : List Element)
    (ahead : 0 < Text.width t'.toList) :
    enteredChild? (.point (start + widthOfAll first + Text.width t.toList))
      (spans start (first ++ token k t :: token k' t' :: last)) = some first.length := by
  refine enteredChild?_of_last (fun s mem => ?_) (by rw [width])
  rw [spans_cons, List.mem_cons] at mem
  rcases mem with rfl | mem
  · rw [span_stop, width, width]
    omega
  · have bounds := bounds_of_mem_spans mem
    have ordered := s.start_le_stop
    rw [width, width] at bounds
    omega

/-- Descending to the offset between two tokens with text leads through the nodes that are open
there. -/
theorem listsOpen_descend (e : Element) {past rest before after : List Event} {path : List Site}
    (split : e.events = before ++ .token k t :: .token k' t' :: after)
    (behind : 0 < Text.width t.toList) (ahead : 0 < Text.width t'.toList)
    (placed : e.sites (Text.width (spelled past)) <+: root.nodes.drop (starts past))
    (h : ListsOpen root past (e.events ++ rest) path) :
    ListsOpen root (past ++ before ++ [.token k t]) (.token k' t' :: after ++ rest)
      (e.descend (.point (Text.width (spelled (past ++ before ++ [.token k t]))))
        (Text.width (spelled past)) path) := by
  induction e using induction generalizing past rest before after path with
  | token kind text =>
    have length := congrArg List.length split
    simp at length
    omega
  | node kind children ih =>
    obtain ⟨before, after, rfl, rfl, inside⟩ := exists_of_events_node split
    obtain ⟨here, below⟩ := getElem?_of_sites_isPrefix_drop placed
    have entered : ListsOpen root (past ++ [.start kind]) (eventsOfAll children ++ .finish :: rest)
        (⟨kind, Text.width (spelled past), children⟩ :: path) := h.concat_start here
    rw [descend_node]
    rcases eventsOfAll_cases inside with ⟨first, child, last, p, q, rfl, rfl, within, rfl⟩ |
      ⟨first, last, rfl, rfl, rfl⟩
    · -- the walk passes the children before the one that has both tokens, and goes on in that one
      have passed : ListsOpen root (past ++ [.start kind] ++ eventsOfAll first)
          (child.events ++ (eventsOfAll last ++ .finish :: rest))
          (⟨kind, Text.width (spelled past), first ++ child :: last⟩ :: path) := by
        apply ListsOpen.append _ (balanced_eventsOfAll first)
        simpa using entered
      have placed : child.sites (Text.width (spelled (past ++ [.start kind] ++ eventsOfAll first)))
          <+: root.nodes.drop (starts (past ++ [.start kind] ++ eventsOfAll first)) := by
        simpa [Nat.add_assoc, Nat.add_comm 1] using sites_isPrefix_drop below
      have offset : Text.width (spelled (past ++ .start kind :: (eventsOfAll first ++ p) ++
          [.token k t])) = Text.width (spelled past) + widthOfAll first +
            Text.width (spelled p) + Text.width t.toList := by
        simp [Nat.add_assoc]
      rw [offset, enteredChild?_of_tokens _ first last within behind ahead, descendAt_append]
      simpa [Nat.add_assoc] using ih child (by simp) within placed passed
    · -- the walk passes the children before the two tokens and then the first of these
      have passed : ListsOpen root (past ++ [.start kind] ++ (eventsOfAll first ++ [.token k t]))
          (.token k' t' :: eventsOfAll last ++ .finish :: rest)
          (⟨kind, Text.width (spelled past), first ++ .token k t :: .token k' t' :: last⟩ :: path)
        := by
        apply ListsOpen.append _ ((balanced_eventsOfAll first).append (balanced_token k t))
        simpa using entered
      have offset : Text.width (spelled (past ++ .start kind :: eventsOfAll first ++
          [.token k t])) = Text.width (spelled past) + widthOfAll first +
            Text.width t.toList := by
        simp [Nat.add_assoc]
      rw [offset, enteredChild?_between_tokens _ first last ahead, descendAt_append, descend]
      simpa using passed

end Descend

end Element

/-- The path to the offset between two tokens with text lists the nodes that are open there. -/
theorem listsOpen_covering {t : Tree} {k k' : Kind} {text text' : String}
    {before after : List Event}
    (split : t.walk = before ++ .token k text :: .token k' text' :: after)
    (behind : 0 < Text.width text.toList) (ahead : 0 < Text.width text'.toList) :
    ListsOpen t.root (before ++ [.token k text]) (.token k' text' :: after)
      (t.root.covering (.point (Text.width (spelled (before ++ [.token k text]))))) := by
  have walked : (Element.node t.kind t.children).events = t.walk := Element.events_node ..
  have placed : (Element.node t.kind t.children).sites (Text.width (spelled [])) <+:
      t.root.nodes.drop (starts []) := by
    rw [starts_nil, List.drop_zero, Site.nodes_eq]
    exact List.prefix_rfl
  have initial : ListsOpen t.root [] ((Element.node t.kind t.children).events ++ []) [] :=
    .nil t.root _
  have reached := Element.listsOpen_descend _ (walked.trans split) behind ahead placed initial
  simpa [Site.covering, root] using reached

end FlowDiagram.Tree

namespace FlowDiagram.Document

open FlowDiagram.Tree (Event Kind Lineage ListsOpen Replay ofEvents marks spelled unmarked)

/-- A mark with a token on either side, both with text, other marks apart. The nodes around the
offset that it has recorded are exactly those that were open when it was set: those whose start
comes before it and whose finish behind it, the one opened last first. What else is without width
does not matter. -/
theorem pathTo_mark_exact (name : String) {events past rest front back : List Event} {r : Replay}
    {k k' : Kind} {text text' : String} (replayed : ofEvents events = .ok r)
    (marked : events = past ++ .mark :: rest)
    (behind : unmarked past = front ++ [.token k text]) (filled : text ≠ "")
    (ahead : unmarked rest = .token k' text' :: back) (filled' : text' ≠ "") :
    let d : Document := ⟨name, r.tree⟩
    ∃ offset node outer,
      r.marks[marks past]? = some offset ∧
      d.nodeAt? (.point offset) = some node ∧
      d.pathTo (.point offset) = node :: outer ∧
      Lineage d.root (node :: outer) ∧
      ListsOpen d.root past rest (node :: outer) := by
  intro d
  have records := Tree.records_of_eq_ok replayed
  have split : r.tree.walk = front ++ .token k text :: .token k' text' :: back := by
    rw [records.walk_eq, marked]
    simp [behind, ahead]
  have lists := Tree.listsOpen_covering split (Text.width_pos filled) (Text.width_pos filled')
  rw [← behind, ← ahead, Tree.spelled_unmarked] at lists
  have within : Text.width (spelled past) ≤ d.source.size := by
    rw [records.source_eq name, SourceText.size, marked]
    simp
  have lineage := d.root.lineage_covering (.point (Text.width (spelled past)))
  obtain ⟨node, outer, path⟩ := List.exists_cons_of_ne_nil lineage.ne_nil
  have same : d.pathTo (.point (Text.width (spelled past))) = node :: outer :=
    (pathTo_point_of_le within).trans path
  refine ⟨_, node, outer, ?_, by simp [nodeAt?, same], same, path ▸ lineage, ?_⟩
  · rw [records.marks_eq, marked, Tree.getElem?_markOffsets]
  · rw [← path]
    exact ListsOpen.unmarked_iff.mp lists

/-- Two marks between blanks of a block, with nodes without width before the block, in it and at
the end of the file: around the second mark are the block and the file. -/
theorem pathTo_mark_between_blanks :
    let past : List Event := [.start .sourceFile, .start .error, .finish, .start .blockStatement,
      .token .openBrace "\x7b", .start .error, .finish, .blank "\n", .mark]
    let rest : List Event := [.blank "\n", .start .error, .finish, .token .closeBrace "\x7d",
      .finish, .start .error, .finish, .finish]
    let empty : Tree.Element := .node .error []
    let block : Tree.Element := .node .blockStatement [.token .openBrace "\x7b", empty,
      .token .whitespace "\n", .token .whitespace "\n", empty, .token .closeBrace "\x7d"]
    let r : Replay := ⟨⟨.sourceFile, [empty, block, empty]⟩, [2, 2], 4⟩
    let d : Document := ⟨"main.bal", r.tree⟩
    ofEvents (past ++ .mark :: rest) = .ok r ∧
      unmarked past = unmarked past.dropLast.dropLast ++ [.token .whitespace "\n"] ∧
      unmarked rest = .token .whitespace "\n" :: rest.tail ∧
      (∃ offset node outer, r.marks[marks past]? = some offset ∧
        d.pathTo (.point offset) = node :: outer ∧ ListsOpen d.root past rest (node :: outer)) ∧
      (d.pathTo (.point 2)).map Tree.Site.kind = [.blockStatement, .sourceFile] := by
  intro past rest empty block r d
  have replayed : ofEvents (past ++ .mark :: rest) = .ok r := rfl
  have behind : unmarked past = unmarked past.dropLast.dropLast ++ [.token .whitespace "\n"] := rfl
  have ahead : unmarked rest = .token .whitespace "\n" :: rest.tail := rfl
  obtain ⟨offset, node, outer, found, -, path, -, lists⟩ :=
    pathTo_mark_exact "main.bal" replayed rfl behind (by decide) ahead (by decide)
  exact ⟨replayed, behind, ahead, ⟨offset, node, outer, found, path, lists⟩, by decide +kernel⟩

end FlowDiagram.Document
