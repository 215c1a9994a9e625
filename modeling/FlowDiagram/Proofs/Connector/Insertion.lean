import Mathlib.Tactic.Tauto
import FlowDiagram.Connector.Lookup

/-!
# Insertions into an index

What an index answers after connectors were inserted one by one, whatever their identifiers are.
Inserts that collide are resolved in opposite ways: of connectors that answer one query the first
stays, while under one identifier the actions of all connectors accumulate. The connector that a
query finds and the actions under its identifier can so come from different insertions.
-/

namespace FlowDiagram

/-- The query that asks for a callable. -/
def Callable.query (c : Callable) : Query := ⟨c.org, c.package, c.name, c.kind⟩

theorem Query.asksFor_iff_query_eq {q : Query} {c : Callable} :
    q.asksFor c = true ↔ c.query = q := by
  obtain ⟨org, package, symbol, kind⟩ := q
  rw [asksFor_iff, Callable.query, mk.injEq]

namespace ConnectorIndex

/-- The index after the insertion of connectors, whatever their identifiers are. -/
def insertEach (index : ConnectorIndex) (entries : List (Callable × List Callable)) :
    ConnectorIndex :=
  entries.foldl (fun index (connector, offered) => index.insert connector offered) index

def ids (entries : List (Callable × List Callable)) : List Int64 :=
  entries.map fun entry => entry.1.id

section InsertEach

variable (index : ConnectorIndex) (entries : List (Callable × List Callable))

theorem insertEach_cons (entry : Callable × List Callable) :
    index.insertEach (entry :: entries) = (index.insert entry.1 entry.2).insertEach entries := rfl

theorem hasId_insertEach (id : Int64) :
    (index.insertEach entries).hasId id = true ↔ id ∈ ids entries ∨ index.hasId id = true := by
  induction entries generalizing index with
  | nil => simp [insertEach, ids]
  | cons entry entries ih =>
    rw [insertEach_cons, ih, hasId_insert, Bool.or_eq_true, beq_iff_eq]
    simp only [ids, List.map_cons, List.mem_cons]
    tauto

theorem size_insertEach : (index.insertEach entries).size = index.size + entries.length := by
  induction entries generalizing index with
  | nil => rfl
  | cons entry entries ih =>
    rw [insertEach_cons, ih, size_insert, List.length_cons]
    omega

/-- Of the connectors that a query asks for, the first inserted answers it. -/
theorem find?_insertEach (q : Query) :
    (index.insertEach entries).find? q
      = (index.find? q).or ((entries.map Prod.fst).find? q.asksFor) := by
  induction entries generalizing index with
  | nil => simp [insertEach]
  | cons entry entries ih =>
    rw [insertEach_cons, ih, find?_insert, Option.or_assoc, List.map_cons, List.find?_cons]
    cases q.asksFor entry.1 <;> simp

/-- The actions under an identifier are those of all connectors that have it. -/
theorem actions_insertEach (id : Int64) :
    (index.insertEach entries).actions id
      = index.actions id ++ (entries.filter fun entry => entry.1.id = id).flatMap Prod.snd := by
  induction entries generalizing index with
  | nil => simp [insertEach]
  | cons entry entries ih =>
    rw [insertEach_cons, ih, actions_insert, List.filter_cons]
    by_cases h : entry.1.id = id <;> simp [h]

end InsertEach

section Queries

variable {history : List (Callable × List Callable)} {q : Query}

theorem find?_insertEach_empty :
    (empty.insertEach history).find? q = (history.map Prod.fst).find? q.asksFor := by
  rw [find?_insertEach, find?_empty, Option.none_or]

/-- A query finds the first connector inserted that it asks for. -/
theorem find?_insertEach_eq_some_iff {c : Callable} :
    (empty.insertEach history).find? q = some c ↔
      ∃ before offered after, history = before ++ (c, offered) :: after ∧ c.query = q ∧
        ∀ earlier ∈ before, earlier.1.query ≠ q := by
  rw [find?_insertEach_empty, List.find?_eq_some_iff_append]
  constructor
  · rintro ⟨asked, front, back, split, first⟩
    obtain ⟨before, rest, rfl, rfl, inserted⟩ := List.map_eq_append_iff.mp split
    obtain ⟨⟨connector, offered⟩, after, rfl, rfl, -⟩ := List.map_eq_cons_iff.mp inserted
    refine ⟨before, offered, after, rfl, Query.asksFor_iff_query_eq.mp asked, ?_⟩
    intro earlier mem same
    have notAsked := first earlier.1 (List.mem_map_of_mem mem)
    rw [Query.asksFor_iff_query_eq.mpr same] at notAsked
    cases notAsked
  · rintro ⟨before, offered, after, rfl, same, first⟩
    refine ⟨Query.asksFor_iff_query_eq.mpr same, before.map Prod.fst, after.map Prod.fst, ?_, ?_⟩
    · rw [List.map_append, List.map_cons]
    · intro connector mem
      obtain ⟨earlier, inserted, rfl⟩ := List.mem_map.mp mem
      rw [Bool.not_eq_true', ← Bool.not_eq_true, Query.asksFor_iff_query_eq]
      exact first earlier inserted

theorem find?_insertEach_eq_none_iff :
    (empty.insertEach history).find? q = none ↔ ∀ entry ∈ history, entry.1.query ≠ q := by
  rw [find?_insertEach_empty, List.find?_eq_none, List.forall_mem_map]
  simp only [Query.asksFor_iff_query_eq, ne_eq]

/-- Only what was inserted as a connector is found. -/
theorem mem_of_find?_insertEach {c : Callable}
    (found : (empty.insertEach history).find? q = some c) :
    c ∈ history.map Prod.fst := by
  rw [find?_insertEach_empty] at found
  exact List.mem_of_find?_eq_some found

end Queries

theorem isEmpty_iff_size {index : ConnectorIndex} : index.isEmpty = true ↔ index.size = 0 := by
  rw [isEmpty, size, List.isEmpty_iff, List.length_eq_zero_iff]

/-- An insertion changes the answer to its own query only, and that only if there was none. -/
theorem find?_insert_eq (index : ConnectorIndex) (connector : Callable) (offered : List Callable)
    (q : Query) :
    (index.insert connector offered).find? q =
      if q = connector.query ∧ index.find? q = none then some connector else index.find? q := by
  rw [find?_insert]
  by_cases asked : q = connector.query
  · subst asked
    rw [if_pos (Query.asksFor_iff_query_eq.mpr rfl)]
    cases index.find? connector.query <;> simp
  · have notAsked : ¬ q.asksFor connector = true := by
      rw [Query.asksFor_iff_query_eq]
      exact fun same => asked same.symm
    rw [if_neg notAsked, Option.or_none, if_neg fun both => asked both.1]

/-- What an index answers after any insertions; its queries never fail. Under an identifier stand
the actions of all connectors inserted with it, in this order. A query for a callable finds the
first connector inserted that it asks for, and finds it after all later insertions; actions are not
found unless they were inserted as connectors too. All insertions count. One more insertion changes
the actions under its own identifier only, to which it adds, and of the queries for a callable at
most its own, if nothing answered that. -/
theorem answers_of_insertions (history : List (Callable × List Callable)) :
    let index := empty.insertEach history
    (∀ id, (Backend.ofIndex index).actions id =
      .ok ((history.filter fun entry => entry.1.id = id).flatMap Prod.snd)) ∧
    (∀ q, ∃ found, (Backend.ofIndex index).function q = .ok found ∧
      (∀ c, found = some c ↔ ∃ before offered after,
        history = before ++ (c, offered) :: after ∧ c.query = q ∧
          ∀ earlier ∈ before, earlier.1.query ≠ q) ∧
      (found = none ↔ ∀ entry ∈ history, entry.1.query ≠ q) ∧
      ∀ c later, found = some c →
        (Backend.ofIndex (index.insertEach later)).function q = .ok (some c)) ∧
    (∀ entry ∈ history, ∀ action ∈ entry.2, action ∉ history.map Prod.fst →
      ∀ q, (Backend.ofIndex index).function q ≠ .ok (some action)) ∧
    index.size = history.length ∧
    (index.isEmpty = true ↔ index.size = 0) ∧
    ∀ connector offered,
      (∀ id, (Backend.ofIndex (index.insert connector offered)).actions id =
        .ok (if id = connector.id then index.actions id ++ offered else index.actions id)) ∧
      ∀ q, (Backend.ofIndex (index.insert connector offered)).function q =
        .ok (if q = connector.query ∧ index.find? q = none then some connector
          else index.find? q) := by
  intro index
  refine ⟨?_, ?_, ?_, ?_, isEmpty_iff_size, ?_⟩
  · intro id
    show Except.ok (index.actions id) = _
    rw [actions_insertEach, actions_empty, List.nil_append]
  · intro q
    refine ⟨index.find? q, rfl, fun c => find?_insertEach_eq_some_iff,
      find?_insertEach_eq_none_iff, ?_⟩
    intro c later found
    show Except.ok ((index.insertEach later).find? q) = _
    rw [find?_insertEach, found, Option.some_or]
  · intro entry _ action _ absent q found
    apply absent
    exact mem_of_find?_insertEach (Except.ok.inj found)
  · rw [size_insertEach, size_empty, Nat.zero_add]
  · intro connector offered
    constructor
    · intro id
      show Except.ok ((index.insert connector offered).actions id) = _
      rw [actions_insert]
      simp only [eq_comm]
    · intro q
      show Except.ok ((index.insert connector offered).find? q) = _
      rw [find?_insert_eq]

end ConnectorIndex

end FlowDiagram
