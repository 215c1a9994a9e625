import Mathlib.Data.Set.Insert
import FlowDiagram.Proofs.Lineup.Duplicate

/-!
# Consistent references

References are `Consistent` where those that go by one name stand for one symbol, and that symbol
has this name. In runs of such references the memory of a lineup cannot be told from the outside:
every reference is answered as by a lineup that nobody has used (`replies_eq`). What a run has
listed and remembers is given by the set of references that it visited (`visited_after`), and so it
depends neither on their order nor on how often they come.
-/

namespace FlowDiagram

theorem exists_mem_concat_iff {α : Type} {P : α → Prop} {xs : List α} {x : α} :
    (∃ y ∈ xs ++ [x], P y) ↔ (∃ y ∈ xs, P y) ∨ P x := by
  simp only [List.mem_append, List.mem_singleton, or_and_right, exists_or, exists_eq_left]

def Participant.unsourced (p : Participant) : Participant := { p with sourceId := "" }

namespace Lineup

/-- The calls for references, each with its source. -/
def references (refs : List (Tree.Site × String)) : List Call :=
  refs.map fun (node, sourceId) => .reference node sourceId

theorem references_concat (refs : List (Tree.Site × String)) (last : Tree.Site × String) :
    references (refs ++ [last]) = references refs ++ [.reference last.1 last.2] :=
  List.map_append

/-- References that go by one name stand for one symbol or all for none, and symbols have the names
that their references go by. -/
structure Consistent (model : SemanticModel) (refs : Set Tree.Site) : Prop where
  agree : ∀ a ∈ refs, ∀ b ∈ refs, a.referencedName = b.referencedName →
    resolve? model a = resolve? model b
  named : ∀ a ∈ refs, ∀ found, resolve? model a = some found → found.1.name = a.referencedName

/-- References are consistent if the model knows those that go by one name for one symbol, or none
of them, and knows them for symbols with this name. -/
theorem Consistent.of_symbol? {model : SemanticModel} {refs : Set Tree.Site}
    (agree : ∀ a ∈ refs, ∀ b ∈ refs, a.referencedName = b.referencedName →
      model.symbol? a = model.symbol? b)
    (named : ∀ a ∈ refs, ∀ symbol, model.symbol? a = some symbol →
      symbol.name = a.referencedName) : Consistent model refs where
  agree a aMem b bMem same := by simp only [resolve?, agree a aMem b bMem same]
  named a mem found resolved := by
    obtain ⟨symbol, known, rest⟩ := Option.bind_eq_some_iff.mp resolved
    obtain ⟨-, -, rest⟩ := Option.bind_eq_some_iff.mp rest
    obtain ⟨home, -, rest⟩ := Option.bind_eq_some_iff.mp rest
    cases rest
    exact named a mem symbol known

section Targets

variable (model : SemanticModel) (d : Document)

/-- The participant that a reference stands for, its source apart. -/
def target? (node : Tree.Site) : Option Participant := candidate? model d (.reference node "")

theorem unsourced_participant? (symbol : Symbol) (sourceId moduleName : String) :
    (participant? d symbol sourceId moduleName).map Participant.unsourced =
      participant? d symbol "" moduleName := by
  unfold participant?
  cases ParticipantKind.ofSymbol? symbol <;> rfl

/-- Whatever the source of a call is, what it finds is the participant that its reference stands
for. -/
theorem unsourced_candidate? (node : Tree.Site) (sourceId : String) :
    (candidate? model d (.reference node sourceId)).map Participant.unsourced =
      target? model d node := by
  simp only [target?, candidate?]
  cases resolve? model node with
  | none => rfl
  | some found => exact unsourced_participant? d found.1 sourceId found.2

theorem id_candidate? (node : Tree.Site) (sourceId : String) :
    (candidate? model d (.reference node sourceId)).map Participant.id =
      (target? model d node).map Participant.id := by
  rw [← unsourced_candidate? model d node sourceId, Option.map_map]
  rfl

variable {model d}

/-- A reference finds a participant with the name of the symbol that it resolves to. -/
theorem exists_resolved_of_candidate? {node : Tree.Site} {sourceId : String} {p : Participant}
    (found : candidate? model d (.reference node sourceId) = some p) :
    ∃ symbol, resolve? model node = some symbol ∧ p.name = symbol.1.name := by
  obtain ⟨symbol, resolved, found⟩ := Option.bind_eq_some_iff.mp found
  obtain ⟨kind, -, made⟩ := Option.bind_eq_some_iff.mp found
  cases made
  exact ⟨symbol, resolved, rfl⟩

/-- References that resolve alike stand for one participant. -/
theorem target?_congr {a b : Tree.Site} (h : resolve? model a = resolve? model b) :
    target? model d a = target? model d b := by
  simp only [target?, candidate?, h]

/-- A lineup that nobody has used answers a reference with the identifier of the participant that it
stands for. -/
theorem reply_empty (node : Tree.Site) (sourceId : String) :
    reply model d empty (.reference node sourceId) = (target? model d node).map Participant.id := by
  rw [← id_candidate? model d node sourceId]
  exact reply_of_unknown rfl

end Targets

/-- A lineup as references leave it: it lists the participants that they stand for, and remembers
the identifiers of these by the names that the references go by. -/
structure Visited (model : SemanticModel) (d : Document) (nodes : List Tree.Site) (l : Lineup) :
    Prop where
  participants : ∀ p, p ∈ l.participants.map Participant.unsourced ↔
    ∃ node ∈ nodes, target? model d node = some p
  ids : ∀ name id, l.ids.find? name = some id ↔
    ∃ node ∈ nodes, node.referencedName = name ∧ (target? model d node).map Participant.id = some id

theorem visited_empty (model : SemanticModel) (d : Document) : Visited model d [] empty where
  participants p := by simp [empty]
  ids name id := by simp [empty]

section Concat

variable {model : SemanticModel} {d : Document} {visited : List Tree.Site} {node : Tree.Site}
  {l : Lineup} (hl : Visited model d visited l)
include hl

/-- A reference that goes by the name of one that was visited, and stands for the same, adds
nothing. -/
theorem Visited.concat_of_same {other : Tree.Site} (seen : other ∈ visited)
    (sameName : other.referencedName = node.referencedName)
    (same : target? model d other = target? model d node) :
    Visited model d (visited ++ [node]) l where
  participants p := by
    rw [exists_mem_concat_iff, hl.participants, or_iff_left_of_imp]
    exact fun found => ⟨other, seen, same.trans found⟩
  ids name id := by
    rw [exists_mem_concat_iff, hl.ids, or_iff_left_of_imp]
    exact fun ⟨named, found⟩ => ⟨other, seen, sameName.trans named, same ▸ found⟩

/-- A reference that stands for nobody adds nothing. -/
theorem Visited.concat_of_nobody (nobody : target? model d node = none) :
    Visited model d (visited ++ [node]) l where
  participants p := by
    rw [exists_mem_concat_iff, hl.participants, or_iff_left_of_imp]
    exact fun found => absurd (nobody ▸ found) nofun
  ids name id := by
    rw [exists_mem_concat_iff, hl.ids, or_iff_left_of_imp]
    exact fun ⟨_, found⟩ => absurd (nobody ▸ found) nofun

/-- A reference with a new name that finds a participant of this name adds that participant. -/
theorem Visited.concat_of_new {sourceId : String} {p : Participant}
    (new : l.ids.find? node.referencedName = none) (named : p.name = node.referencedName)
    (target : target? model d node = some p.unsourced) :
    Visited model d (visited ++ [node]) (l.enroll (.reference node sourceId) p) where
  participants q := by
    rw [exists_mem_concat_iff, participants_enroll, List.map_append, List.mem_append,
      hl.participants, target, Option.some_inj, List.map_singleton, List.mem_singleton, eq_comm]
  ids name id := by
    rw [exists_mem_concat_iff, find?_enroll, ← hl.ids, target, named]
    by_cases same : node.referencedName = name
    · subst same
      simp [new, Participant.unsourced]
    · have differs : name ≠ node.referencedName := Ne.symm same
      simp [Call.key?, same, differs]

end Concat

section Runs

variable {model : SemanticModel} {d : Document} {refs : Set Tree.Site} (h : Consistent model refs)
include h

theorem Consistent.name_candidate? {node : Tree.Site} (mem : node ∈ refs) {sourceId : String}
    {p : Participant} (found : candidate? model d (.reference node sourceId) = some p) :
    p.name = node.referencedName := by
  obtain ⟨symbol, resolved, same⟩ := exists_resolved_of_candidate? found
  rw [same, h.named node mem symbol resolved]

theorem Consistent.asksForOwnName {node : Tree.Site} (mem : node ∈ refs) (sourceId : String) :
    AsksForOwnName model d (.reference node sourceId) := fun p found => by
  rw [Call.key?, h.name_candidate? mem found]

section Steps

variable {visited : List Tree.Site} (visitedRefs : ∀ other ∈ visited, other ∈ refs)
  {node : Tree.Site} (mem : node ∈ refs) {l : Lineup} (hl : Visited model d visited l)
  (sourceId : String)
include visitedRefs mem hl

/-- What is remembered for a reference comes from one that goes by the same name, and stands for the
same participant. -/
theorem Visited.exists_of_known {id : String}
    (known : l.known? (.reference node sourceId) = some id) :
    (target? model d node).map Participant.id = some id ∧
      ∃ other ∈ visited, other.referencedName = node.referencedName ∧
        target? model d other = target? model d node := by
  obtain ⟨other, seen, sameName, answered⟩ := (hl.ids node.referencedName id).mp known
  have same : target? model d other = target? model d node :=
    target?_congr (h.agree other (visitedRefs other seen) node mem sameName)
  exact ⟨same ▸ answered, other, seen, sameName, same⟩

/-- A reference is answered as if it were the first. -/
theorem Visited.reply_eq :
    reply model d l (.reference node sourceId) =
      reply model d empty (.reference node sourceId) := by
  rw [reply_empty]
  cases known : l.known? (.reference node sourceId) with
  | some id => rw [reply_of_known known, (hl.exists_of_known h visitedRefs mem sourceId known).1]
  | none => rw [reply_of_unknown known, id_candidate?]

/-- A reference leaves a lineup with one more reference visited. -/
theorem Visited.next :
    Visited model d (visited ++ [node]) (next model d l (.reference node sourceId)) := by
  cases known : l.known? (.reference node sourceId) with
  | some id =>
    obtain ⟨-, other, seen, sameName, same⟩ := hl.exists_of_known h visitedRefs mem sourceId known
    rw [next_of_known known]
    exact hl.concat_of_same seen sameName same
  | none =>
    have target := unsourced_candidate? model d node sourceId
    cases found : candidate? model d (.reference node sourceId) with
    | none =>
      rw [next_of_nobody known found]
      exact hl.concat_of_nobody (by rw [← target, found, Option.map_none])
    | some p =>
      rw [next_of_candidate known found]
      exact hl.concat_of_new known (h.name_candidate? mem found)
        (by rw [← target, found, Option.map_some])

end Steps

variable {calls : List (Tree.Site × String)} (inRefs : ∀ call ∈ calls, call.1 ∈ refs)
include inRefs

/-- A run leaves a lineup with all its references visited. -/
theorem visited_after (d : Document) :
    Visited model d (calls.map Prod.fst) (after model d empty (references calls)) := by
  induction calls using List.reverseRecOn with
  | nil => exact visited_empty model d
  | append_singleton past last ih =>
    obtain ⟨before, here⟩ := List.forall_mem_append.mp inRefs
    have lastMem := List.forall_mem_singleton.mp here
    rw [references_concat, after_concat, List.map_append]
    exact (ih before).next h (List.forall_mem_map.mpr before) lastMem last.2

/-- A run answers every reference as if it were the first. -/
theorem replies_eq (d : Document) :
    replies model d empty (references calls) = (references calls).map (reply model d empty) := by
  induction calls using List.reverseRecOn with
  | nil => rfl
  | append_singleton past last ih =>
    obtain ⟨before, here⟩ := List.forall_mem_append.mp inRefs
    have lastMem := List.forall_mem_singleton.mp here
    have answered :=
      (visited_after h before d).reply_eq h (List.forall_mem_map.mpr before) lastMem last.2
    rw [references_concat, replies_concat, ih before, answered, List.map_append, List.map_singleton]

/-- No participant is listed twice. -/
theorem nodup_unsourced_after (d : Document) :
    ((after model d empty (references calls)).participants.map Participant.unsourced).Nodup := by
  have own : ∀ call ∈ references calls, AsksForOwnName model d call := by
    intro call mem
    obtain ⟨ref, seen, rfl⟩ := List.mem_map.mp mem
    exact h.asksForOwnName (inRefs ref seen) ref.2
  have distinct := (distinct_empty.after own).nodup
  have forgets : Participant.name = Participant.name ∘ Participant.unsourced := rfl
  rw [names, forgets, ← List.map_map] at distinct
  exact distinct.of_map _

end Runs

/-- Runs of references in which those that go by one name stand for one symbol of this name, or all
for none. Each reference is answered as by a lineup that nobody has used, whatever came before it.
So two runs answer a reference alike, wherever it comes in each and whatever its source is, and
runs of the same references, in any order and with any repetitions, list the same participants up
to their order and their sources. -/
theorem references_transparent {model : SemanticModel} {refs : Set Tree.Site}
    (h : Consistent model refs) (d : Document) {calls others : List (Tree.Site × String)}
    (inRefs : ∀ call ∈ calls, call.1 ∈ refs) (othersInRefs : ∀ call ∈ others, call.1 ∈ refs) :
    replies model d empty (references calls) = (references calls).map (reply model d empty) ∧
    (∀ i j : Nat, calls[i]?.map Prod.fst = others[j]?.map Prod.fst →
      (replies model d empty (references calls))[i]? =
        (replies model d empty (references others))[j]?) ∧
    ((∀ node, node ∈ calls.map Prod.fst ↔ node ∈ others.map Prod.fst) →
      ((after model d empty (references calls)).participants.map Participant.unsourced).Perm
        ((after model d empty (references others)).participants.map Participant.unsourced)) := by
  refine ⟨replies_eq h inRefs d, ?_, ?_⟩
  · intro i j same
    have answer (cs : List (Tree.Site × String)) (k : Nat) :
        ((references cs).map (reply model d empty))[k]? =
          (cs[k]?.map Prod.fst).map fun node => (target? model d node).map Participant.id := by
      simp only [references, List.getElem?_map, Option.map_map]
      exact congrArg (cs[k]?.map ·) (funext fun call => reply_empty call.1 call.2)
    rw [replies_eq h inRefs d, replies_eq h othersInRefs d, answer, answer, same]
  · intro sameSet
    refine (List.perm_ext_iff_of_nodup (nodup_unsourced_after h inRefs d)
      (nodup_unsourced_after h othersInRefs d)).mpr fun p => ?_
    rw [(visited_after h inRefs d).participants, (visited_after h othersInRefs d).participants]
    simp only [sameSet]

/-- A reference through a module stands for the same function as a plain one, and another reference
for nothing. -/
theorem references_transparent_of_qualified :
    let plain : Tree.Site := ⟨.nameReference, 17, [.token .identifier "helper"]⟩
    let qualified : Tree.Site :=
      ⟨.qualifiedNameReference, 24,
        [.token .identifier "orders", .token .colon ":", .token .identifier "helper"]⟩
    let missing : Tree.Site := ⟨.nameReference, 38, [.token .identifier "missing"]⟩
    let definition : Tree.Element :=
      .node .functionDefinition
        [.token .functionKeyword "function", .token .whitespace " ", .token .identifier "helper"]
    let d : Document :=
      ⟨"main.bal",
        ⟨.sourceFile,
          [definition, .token .whitespace "; ", .node plain.kind plain.children,
            .token .whitespace " ", .node qualified.kind qualified.children,
            .token .whitespace " ", .node missing.kind missing.children]⟩⟩
    let helper : Symbol :=
      .function ⟨"helper", none, [], some ⟨"wso2", "orders", "0.1.0"⟩, some ⟨0, 15, by decide⟩⟩
    let model := ((Snapshot.empty.bind plain helper).bind qualified helper).model
    let calls := [(missing, "main"), (plain, "main"), (qualified, "main"), (plain, "other")]
    let others := [(qualified, "other"), (plain, "main"), (missing, "other")]
    let shown (cs : List (Tree.Site × String)) :=
      (after model d empty (references cs)).participants.map Participant.unsourced
    let refs : Set Tree.Site := {plain, qualified, missing}
    Consistent model refs ∧ (∀ call ∈ calls, call.1 ∈ refs) ∧ (∀ call ∈ others, call.1 ∈ refs) ∧
      replies model d empty (references calls) = (references calls).map (reply model d empty) ∧
      (replies model d empty (references calls))[1]? =
        (replies model d empty (references others))[1]? ∧
      (shown calls).Perm (shown others) ∧
      (shown calls).map Participant.name = ["helper"] := by
  intro plain qualified missing definition d helper model calls others shown refs
  have consistent : Consistent model refs := by
    refine .of_symbol? ?_ ?_
    · rintro a (rfl | rfl | rfl) b (rfl | rfl | rfl) same
      all_goals first | rfl | exact absurd same (by decide)
    · rintro a (rfl | rfl | rfl) symbol known
      all_goals cases known
      all_goals rfl
  have inRefs : ∀ call ∈ calls, call.1 ∈ refs := by simp [calls, refs]
  have othersInRefs : ∀ call ∈ others, call.1 ∈ refs := by simp [others, refs]
  have sameSet : ∀ node, node ∈ calls.map Prod.fst ↔ node ∈ others.map Prod.fst := by
    intro node
    simp only [calls, others, List.map_cons, List.map_nil, List.mem_cons]
    tauto
  obtain ⟨fresh, alike, permuted⟩ := references_transparent consistent d inRefs othersInRefs
  exact ⟨consistent, inRefs, othersInRefs, fresh, alike 1 1 rfl, permuted sameSet, rfl⟩

end Lineup

end FlowDiagram
