import Mathlib.Data.Set.Lattice
import FlowDiagram.Semantics.TypeDesc

/-!
# Values of types

An `Interpretation` says which values the basic types and the classes have, and with that which
values every type has: a union has those of its members, and a reference those of the type that it
refers to. Under every interpretation, `TypeDesc.isNil` decides whether the values of a type are
among those of nil (`isNil_iff`), however unions and references are nested.
-/

namespace FlowDiagram

/-- Sets of values for the types without parts. Beside nil, which has one value, and never, which
has none, every basic type and every class has some value that is not that of nil. -/
structure Interpretation (α : Type*) where
  nil : α
  basic : BasicType → Set α
  object : ClassDef → Set α
  basic_nil : basic .nil = {nil}
  basic_never : basic .never = ∅
  exists_basic : ∀ type, type ≠ .nil → type ≠ .never → ∃ v ∈ basic type, v ≠ nil
  exists_object : ∀ definition, ∃ v ∈ object definition, v ≠ nil

namespace Interpretation

variable {α : Type*} (I : Interpretation α)

inductive Has : TypeDesc → α → Prop where
  | basic {type : BasicType} {v : α} (value : v ∈ I.basic type) : Has (.basic type) v
  | union {members : List TypeDesc} {t : TypeDesc} {v : α} (member : t ∈ members)
      (value : Has t v) : Has (.union members) v
  | reference {name : String} {home : Option ModuleId} {target : TypeDesc} {v : α}
      (value : Has target v) : Has (.reference name home target) v
  | object {definition : ClassDef} {v : α} (value : v ∈ I.object definition) :
      Has (.object definition) v

def values (t : TypeDesc) : Set α := {v | I.Has t v}

@[simp] theorem values_basic (type : BasicType) : I.values (.basic type) = I.basic type := by
  ext v
  constructor
  · rintro ⟨value⟩
    exact value
  · exact .basic

/-- A union has the values of its members; without members it has none. -/
@[simp] theorem values_union (members : List TypeDesc) :
    I.values (.union members) = ⋃ t ∈ members, I.values t := by
  ext v
  rw [Set.mem_iUnion₂]
  constructor
  · intro value
    cases value with
    | union member value => exact ⟨_, member, value⟩
  · rintro ⟨t, member, value⟩
    exact .union member value

@[simp] theorem values_reference (name : String) (home : Option ModuleId) (target : TypeDesc) :
    I.values (.reference name home target) = I.values target := by
  ext v
  constructor
  · intro value
    cases value with
    | reference value => exact value
  · exact .reference

@[simp] theorem values_object (definition : ClassDef) :
    I.values (.object definition) = I.object definition := by
  ext v
  constructor
  · intro value
    cases value with
    | object value => exact value
  · exact .object

/-- A set with a value that is not that of nil is not among the values of nil. -/
theorem not_subset_of_exists {s : Set α} (h : ∃ v ∈ s, v ≠ I.nil) : ¬ s ⊆ {I.nil} := by
  obtain ⟨v, value, other⟩ := h
  intro subset
  exact other (subset value)

/-- Of the basic types, only nil and never have no value but nil. -/
theorem basic_subset_iff {type : BasicType} :
    I.basic type ⊆ {I.nil} ↔ type = .nil ∨ type = .never := by
  by_cases isNil : type = .nil
  · simp [isNil, I.basic_nil]
  · by_cases isNever : type = .never
    · simp [isNever, I.basic_never]
    · simpa [isNil, isNever] using I.not_subset_of_exists (I.exists_basic type isNil isNever)

/-- The interpretation in which every basic type but nil and never and every class has a value of
its own, and in which nil is a value of `json` and `any` also. -/
def tagged : Interpretation (Option (BasicType ⊕ ClassDef)) where
  nil := none
  basic
    | .nil => {none}
    | .never => ∅
    | .json => {none, some (.inl .json)}
    | .any => {none, some (.inl .any)}
    | type => {some (.inl type)}
  object definition := {some (.inr definition)}
  basic_nil := rfl
  basic_never := rfl
  exists_basic type isNotNil isNotNever := by
    refine ⟨some (.inl type), ?_, by simp⟩
    cases type <;> simp at *
  exists_object definition := ⟨some (.inr definition), Set.mem_singleton _, by simp⟩

end Interpretation

namespace TypeDesc

/-- Induction over a type and its parts, in which the members of a union come together. -/
theorem induction {motive : TypeDesc → Prop} (basic : ∀ type, motive (.basic type))
    (union : ∀ members, (∀ t ∈ members, motive t) → motive (.union members))
    (reference : ∀ name home target, motive target → motive (.reference name home target))
    (object : ∀ definition, motive (.object definition)) (t : TypeDesc) : motive t := by
  cases t with
  | basic type => exact basic type
  | union members =>
    exact union members fun t _ => induction basic union reference object t
  | reference name home target =>
    exact reference name home target (induction basic union reference object target)
  | object definition => exact object definition
termination_by sizeOf t

theorem allNil_iff {ts : List TypeDesc} : allNil ts = true ↔ ∀ t ∈ ts, t.isNil = true := by
  induction ts with
  | nil => simp [allNil]
  | cons t ts ih => simp [allNil, ih]

/-- A type passes the check just if it has no value but nil. -/
theorem isNil_iff {α : Type*} (I : Interpretation α) (t : TypeDesc) :
    t.isNil = true ↔ I.values t ⊆ {I.nil} := by
  induction t using TypeDesc.induction with
  | basic type => simp [isNil, I.basic_subset_iff]
  | union members ih =>
    rw [isNil, allNil_iff, I.values_union, Set.iUnion₂_subset_iff]
    exact forall₂_congr ih
  | reference name home target ih =>
    rw [isNil, I.values_reference]
    exact ih
  | object definition =>
    have other := I.not_subset_of_exists (I.exists_object definition)
    simp [isNil, other]

-- An empty union has no values, and what refers to such types can hide them.
example :
    let unit : TypeDesc := .reference "Unit" none (.basic .nil)
    (union [unit, .basic .never, union []]).isNil = true ∧
      (union [unit, .basic .json]).isNil = false := by
  decide +kernel

end TypeDesc

end FlowDiagram
