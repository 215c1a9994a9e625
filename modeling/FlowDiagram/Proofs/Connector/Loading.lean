import Mathlib.Data.List.Induction
import FlowDiagram.Proofs.Connector.Insertion
import FlowDiagram.Proofs.Json.Assembly
import FlowDiagram.Proofs.Wire.Record

/-!
# Loading an index and filling one

An index that is loaded from its text is the one that holds the connectors of the text, inserted
one after the other. Loading stops at the first connector that repeats an identifier, and before
that at any value of the text that is no connector: the whole text is read before identifiers are
compared.
-/

namespace FlowDiagram

open Json

theorem CallableKind.ofKept?_toJson (kind : CallableKind) : ofKept? kind.toJson = some kind := by
  cases kind <;> rfl

/-! ### The objects of callables -/

namespace Callable

/-- Whether a value is the object of a callable with other members beside its fields; the members
may stand in any order. -/
def WrittenWith (c : Callable) (others : List (String × Json)) (j : Json) : Prop :=
  ∃ fields members, c.toJson = .ofFields fields ∧ members.Perm (fields ++ others) ∧
    j = .ofFields members

variable {c : Callable} {others : List (String × Json)} {j : Json}

theorem writtenWith_iff :
    c.WrittenWith others j ↔ ∃ members, members.Perm (c.fields ++ others) ∧
      j = .ofFields members := by
  constructor
  · rintro ⟨fields, members, same, perm, written⟩
    obtain rfl := ofFields_injective (c.toJson_eq.symm.trans same)
    exact ⟨members, perm, written⟩
  · rintro ⟨members, perm, written⟩
    exact ⟨c.fields, members, c.toJson_eq, perm, written⟩

section Members

variable {names : List String} {members : List (String × Json)}
  (named : names = fieldNames ++ others.map Prod.fst) (distinct : names.Nodup)
  (perm : members.Perm (c.fields ++ others))

include named

theorem sublist_names : ((c.fields ++ others).map Prod.fst).Sublist names := by
  rw [named, List.map_append]
  exact c.sublist_fields.append (List.Sublist.refl _)

include distinct perm

theorem nodup_members : (members.map Prod.fst).Nodup :=
  (perm.map Prod.fst).nodup_iff.mpr (distinct.sublist (sublist_names named))

theorem objectRecord?_members : (ofFields members).objectRecord? names = some ⟨false, members⟩ :=
  objectRecord?_ofFields
    (fun _ h => (sublist_names named).subset ((perm.map Prod.fst).mem_iff.mp h))
    (nodup_members named distinct perm)

/-- A callable is read from its fields among others, in any order. -/
theorem ofRecord?_members {kind? : Json → Option CallableKind}
    (kindBack : kind? c.kind.toJson = some c.kind) :
    ofRecord? kind? ⟨false, members⟩ = some c := by
  refine ofRecord?_eq kindBack fun name known => ?_
  have apart : others.lookup name = none := by
    refine List.lookup_eq_none_iff.mpr fun field h => bne_iff_ne.mpr ?_
    exact (List.nodup_append.mp (named ▸ distinct)).2.2 name known field.1 (List.mem_map_of_mem h)
  rw [Record.find?, lookup_eq_of_perm perm (distinct.sublist (sublist_names named)),
    List.lookup_append, apart, Option.or_none]

end Members

theorem ofJson?_of_writtenWith (written : c.WrittenWith [] j) : ofJson? j = some c := by
  obtain ⟨members, perm, rfl⟩ := writtenWith_iff.mp written
  have named : fieldNames = fieldNames ++ ([] : List (String × Json)).map Prod.fst := by simp
  have distinct : fieldNames.Nodup := by decide
  have read : (ofFields members).record? fieldNames = some ⟨false, members⟩ :=
    objectRecord?_members named distinct perm
  rw [ofJson?, read, Option.bind_eq_bind, Option.bind_some]
  exact ofRecord?_members named distinct perm c.kind.ofJson?_toJson

/-- No field of a callable nests arrays or objects, and every literal in one holds. -/
theorem strict_of_mem_fields {field : String × Json} (h : field ∈ c.fields) (depth : Nat) :
    field.2.strict depth = true := by
  obtain plain | present := List.mem_append.mp h
  · have sound : field.2.Sound ∧ field.2.depth = 0 := by
      simp only [List.mem_cons, List.not_mem_nil, or_false] at plain
      obtain rfl | rfl | rfl | rfl | rfl | rfl | rfl := plain
      · exact ⟨sound_ofInt64 c.id, rfl⟩
      all_goals exact ⟨sound_ofText _, rfl⟩
    exact sound.1 depth (sound.2 ▸ Nat.zero_le depth)
  · obtain ⟨text, -, rfl⟩ := mem_presentField.mp present
    rfl

end Callable

namespace ConnectorIndex

/-! ### The texts of indexes -/

/-- Whether a value is the object of a connector with its actions in it. -/
def WritesEntry (entry : Callable × List Callable) (j : Json) : Prop :=
  ∃ actions, List.Forall₂ (fun action => Callable.WrittenWith action []) entry.2 actions ∧
    entry.1.WrittenWith [("actions", .arr actions)] j

/-- Whether a text is that of an index with these connectors and their actions, in this order. -/
def Writes (entries : List (Callable × List Callable)) (s : String) : Prop :=
  ∃ elements, Json.parse? s = some (.ofFields [("connectors", .arr elements)]) ∧
    List.Forall₂ WritesEntry entries elements

/-- Every list of connectors has a text. -/
theorem exists_writes (entries : List (Callable × List Callable)) : ∃ s, Writes entries s := by
  let actionsOf (entry : Callable × List Callable) : Json := Json.ofList Callable.toJson entry.2
  let objectOf (entry : Callable × List Callable) : Json :=
    .ofFields (entry.1.fields ++ [("actions", actionsOf entry)])
  refine ⟨(ofFields [("connectors", Json.ofList objectOf entries)]).render, entries.map objectOf,
    parse?_render _, List.forall₂_map_right_iff.mpr (List.forall₂_same.mpr fun entry _ => ?_)⟩
  refine ⟨entry.2.map Callable.toJson, List.forall₂_map_right_iff.mpr
    (List.forall₂_same.mpr fun action _ => ?_), Callable.writtenWith_iff.mpr ⟨_, .refl _, rfl⟩⟩
  exact Callable.writtenWith_iff.mpr ⟨action.fields, by simp, action.toJson_eq⟩

theorem entryOfJson?_of_writesEntry {entry : Callable × List Callable} {j : Json}
    (written : WritesEntry entry j) : entryOfJson? j = some entry := by
  obtain ⟨connector, offered⟩ := entry
  obtain ⟨actions, each, written⟩ := written
  obtain ⟨members, perm, rfl⟩ := Callable.writtenWith_iff.mp written
  have named : Callable.fieldNames ++ ["actions"]
      = Callable.fieldNames ++ [("actions", Json.arr actions)].map Prod.fst := rfl
  have distinct : (Callable.fieldNames ++ ["actions"]).Nodup := by decide
  have read := Callable.objectRecord?_members named distinct perm
  have first : Callable.ofRecord? CallableKind.ofKept? ⟨false, members⟩ = some connector :=
    Callable.ofRecord?_members named distinct perm connector.kind.ofKept?_toJson
  have listed : Record.defaulted? ⟨false, members⟩ "actions" [] (list? Callable.ofJson?)
      = some offered := by
    have found : Record.find? ⟨false, members⟩ "actions" = some (.arr actions) :=
      lookup_of_mem (Callable.nodup_members named distinct perm)
        (perm.mem_iff.mpr (List.mem_append_right _ List.mem_cons_self))
    refine (Record.defaulted?_eq found).trans (mapM_eq_some_iff_forall₂.mpr ?_)
    exact each.imp fun action value => Callable.ofJson?_of_writtenWith
  have kept : keepsMembers members = true := by
    refine List.all_eq_true.mpr fun field h => ?_
    obtain h | h := List.mem_append.mp (perm.mem_iff.mp h)
    · simp [Callable.strict_of_mem_fields h]
    · simp [List.mem_singleton.mp h]
  rw [entryOfJson?, read]
  simp only [Option.bind_eq_bind, Option.bind_some, first, listed]
  rw [ofFields]
  simp only [namedMembers?_ofFields, Option.bind_some, kept, if_true]

theorem entriesOfJson?_ofFields (elements : List Json) :
    entriesOfJson? (.ofFields [("connectors", .arr elements)]) = elements.mapM entryOfJson? := by
  rfl

/-- Text that is no index is refused as such. -/
theorem ofText_eq_malformed_iff {s : String} :
    ofText s = .error .malformed ↔ Json.parse? s >>= entriesOfJson? = none := by
  unfold ofText
  cases Json.parse? s >>= entriesOfJson? with
  | none => simp
  | some entries =>
    simp only [reduceCtorEq, iff_false]
    cases ofList entries with
    | ok index =>
      intro loaded
      cases loaded
    | error e =>
      intro refused
      cases refused

theorem ofText_of_writes {entries : List (Callable × List Callable)} {s : String}
    (written : Writes entries s) : ofText s = (ofList entries).mapError .lookup := by
  obtain ⟨elements, text, each⟩ := written
  have read : Json.parse? s >>= entriesOfJson? = some entries := by
    rw [text, Option.bind_eq_bind, Option.bind_some, entriesOfJson?_ofFields]
    exact mapM_eq_some_iff_forall₂.mpr (each.imp fun entry j => entryOfJson?_of_writesEntry)
  rw [ofText, read]

/-! ### Connectors with new identifiers -/

/-- As long as identifiers are new, connectors are inserted one by one. -/
theorem insertAll_append {index : ConnectorIndex} {before : List (Callable × List Callable)}
    (distinct : (ids before).Nodup) (fresh : ∀ id ∈ ids before, index.hasId id = false)
    (after : List (Callable × List Callable)) :
    index.insertAll (before ++ after) = (index.insertEach before).insertAll after := by
  induction before generalizing index with
  | nil => rfl
  | cons entry before ih =>
    obtain ⟨connector, offered⟩ := entry
    obtain ⟨absent, distinct⟩ := List.nodup_cons.mp distinct
    have new : index.hasId connector.id = false := fresh connector.id List.mem_cons_self
    have further : ∀ id ∈ ids before, (index.insert connector offered).hasId id = false := by
      intro id h
      have other : connector.id ≠ id := by
        rintro rfl
        exact absent h
      rw [hasId_insert, fresh id (List.mem_cons_of_mem _ h), beq_false_of_ne other, Bool.or_false]
    rw [List.cons_append, insertAll, new, if_neg Bool.false_ne_true, ih distinct further]
    rfl

theorem ofList_append {before : List (Callable × List Callable)} (distinct : (ids before).Nodup)
    (after : List (Callable × List Callable)) :
    ofList (before ++ after) = (empty.insertEach before).insertAll after :=
  insertAll_append distinct (fun id _ => hasId_empty id) after

/-- Connectors with identifiers of their own make the index of their insertion. -/
theorem ofList_of_nodup {entries : List (Callable × List Callable)}
    (distinct : (ids entries).Nodup) : ofList entries = .ok (empty.insertEach entries) := by
  have all := ofList_append distinct []
  rwa [List.append_nil, insertAll] at all

/-- The first connector that repeats an identifier is the one that is reported. -/
theorem ofList_of_repeated {before after : List (Callable × List Callable)} {connector : Callable}
    {offered : List Callable} (distinct : (ids before).Nodup)
    (repeated : connector.id ∈ ids before) :
    ofList (before ++ (connector, offered) :: after) = .error (duplicateId connector) := by
  have held : (empty.insertEach before).hasId connector.id = true :=
    (hasId_insertEach _ _ _).mpr (.inl repeated)
  rw [ofList_append distinct, insertAll, if_pos held]

/-- Of connectors that do not all have identifiers of their own, one is the first to repeat. -/
theorem exists_first_repeated {entries : List (Callable × List Callable)}
    (h : ¬ (ids entries).Nodup) :
    ∃ before connector offered after, entries = before ++ (connector, offered) :: after ∧
      (ids before).Nodup ∧ connector.id ∈ ids before := by
  induction entries using List.reverseRecOn with
  | nil => exact absurd List.nodup_nil h
  | append_singleton entries last ih =>
    by_cases distinct : (ids entries).Nodup
    · refine ⟨entries, last.1, last.2, [], rfl, distinct, ?_⟩
      by_contra new
      refine h ?_
      rw [ids, List.map_append]
      exact (List.perm_append_singleton _ _).nodup_iff.mpr (List.nodup_cons.mpr ⟨new, distinct⟩)
    · obtain ⟨before, connector, offered, after, rfl, first, repeated⟩ := ih distinct
      exact ⟨before, connector, offered, after ++ [last], by simp, first, repeated⟩

/-! ### Loading -/

/-- A text with a value among its connectors that is none is refused as such, whatever connectors
stand before that value. -/
theorem ofText_eq_malformed_iff_exists {elements : List Json} {s : String}
    (text : Json.parse? s = some (.ofFields [("connectors", .arr elements)])) :
    ofText s = .error .malformed ↔ ∃ j ∈ elements, entryOfJson? j = none := by
  rw [ofText_eq_malformed_iff, text, Option.bind_eq_bind, Option.bind_some,
    entriesOfJson?_ofFields, mapM_eq_none_iff]

theorem ofText_of_nodup {entries : List (Callable × List Callable)} {s : String}
    (written : Writes entries s) (distinct : (ids entries).Nodup) :
    ofText s = .ok (empty.insertEach entries) := by
  rw [ofText_of_writes written, ofList_of_nodup distinct]
  rfl

theorem ofText_of_repeated {before after : List (Callable × List Callable)} {connector : Callable}
    {offered : List Callable} {s : String}
    (written : Writes (before ++ (connector, offered) :: after) s) (distinct : (ids before).Nodup)
    (repeated : connector.id ∈ ids before) :
    ofText s = .error (.lookup (duplicateId connector)) := by
  rw [ofText_of_writes written, ofList_of_repeated distinct repeated]
  rfl

/-- Loading the text of connectors succeeds if their identifiers are pairwise distinct, and only
then; actions may have any identifiers. What is loaded is the index that inserting the connectors
one after the other makes: it holds as many, the first connector that a query asks for answers it,
and under an identifier stand the actions of its connector. Otherwise the error names the first
connector that has the identifier of an earlier one. Text that is no index is refused as such even
if connectors repeat identifiers before the value that is no connector. -/
theorem ofText_exact :
    (∀ entries s, Writes entries s →
      ((∃ index, ofText s = .ok index) ↔ (ids entries).Nodup) ∧
      (∀ index, ofText s = .ok index →
        index = empty.insertEach entries ∧
        index.size = entries.length ∧
        (∀ q, index.find? q = (entries.map Prod.fst).find? q.asksFor) ∧
        ∀ id, index.actions id = (entries.filter fun entry => entry.1.id = id).flatMap Prod.snd) ∧
      (¬ (ids entries).Nodup → ∃ before connector offered after,
        entries = before ++ (connector, offered) :: after ∧
        (ids before).Nodup ∧ connector.id ∈ ids before ∧
        ofText s = .error (.lookup (.corrupt ("duplicate connector id "
          ++ toString connector.id.toInt ++ " (" ++ connector.org ++ "/" ++ connector.package
          ++ ")"))))) ∧
    (∀ s, ofText s = .error .malformed ↔
      ¬ ∃ entries, Json.parse? s >>= entriesOfJson? = some entries) ∧
    (∀ elements s, Json.parse? s = some (.ofFields [("connectors", .arr elements)]) →
      (ofText s = .error .malformed ↔ ∃ j ∈ elements, entryOfJson? j = none)) ∧
    ∀ entries, ∃ s, Writes entries s := by
  refine ⟨fun entries s written => ?_, fun s => ?_,
    fun elements s => ofText_eq_malformed_iff_exists, exists_writes⟩
  · by_cases distinct : (ids entries).Nodup
    · have loaded := ofText_of_nodup written distinct
      refine ⟨iff_of_true ⟨_, loaded⟩ distinct, fun index h => ?_, fun h => absurd distinct h⟩
      obtain rfl := Except.ok.inj (h.symm.trans loaded)
      refine ⟨rfl, ?_, fun q => ?_, fun id => ?_⟩
      · rw [size_insertEach, size_empty, Nat.zero_add]
      · rw [find?_insertEach, find?_empty, Option.none_or]
      · rw [actions_insertEach, actions_empty, List.nil_append]
    · obtain ⟨before, connector, offered, after, rfl, first, repeated⟩ :=
        exists_first_repeated distinct
      have refused := ofText_of_repeated written first repeated
      have never : ∀ index, ofText s ≠ .ok index := by
        intro index loaded
        cases refused.symm.trans loaded
      exact ⟨iff_of_false (fun ⟨index, loaded⟩ => never index loaded) distinct,
        fun index loaded => absurd loaded (never index),
        fun _ => ⟨before, connector, offered, after, rfl, first, repeated, refused⟩⟩
  · rw [ofText_eq_malformed_iff, ← Option.isSome_iff_exists, Option.not_isSome_iff_eq_none]

end ConnectorIndex

end FlowDiagram
