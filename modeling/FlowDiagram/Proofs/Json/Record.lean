import Mathlib.Data.List.Forall2
import FlowDiagram.Json.Record
import FlowDiagram.Proofs.Json.Nesting

/-!
# Written records are read back

The fields that a record is written with are found again under their names, and a field that was
left out is found to be missing. What is found in any record that is read nests less deep than
the record does.
-/

namespace FlowDiagram.Json

variable {α : Type}

/-! ### Lists -/

/-- Values are read as a list if each is read as the value of the list at its place. -/
theorem mapM_eq_some_iff_forall₂ {read : Json → Option α} {js : List Json} {as : List α} :
    js.mapM read = some as ↔ List.Forall₂ (fun a j => read j = some a) as js := by
  induction js generalizing as with
  | nil => simp [eq_comm]
  | cons j js ih =>
    simp only [List.mapM_cons, List.forall₂_cons_right_iff, ← ih, Option.bind_eq_bind,
      Option.bind_eq_some_iff, Option.pure_def, Option.some.injEq]
    constructor
    · rintro ⟨a, first, rest, others, rfl⟩
      exact ⟨a, rest, first, others, rfl⟩
    · rintro ⟨a, rest, first, others, rfl⟩
      exact ⟨a, first, rest, others, rfl⟩

/-- Values are not read as a list if one of them is not read, and only then. -/
theorem mapM_eq_none_iff {read : Json → Option α} {js : List Json} :
    js.mapM read = none ↔ ∃ j ∈ js, read j = none := by
  induction js with
  | nil => simp
  | cons j js ih =>
    rw [List.mapM_cons, List.exists_mem_cons_iff, ← ih]
    cases read j with
    | none => simp
    | some a => cases js.mapM read <;> simp

/-- A list is read back if each of its values is. -/
theorem list?_ofList {read : Json → Option α} {write : α → Json} {as : List α}
    (h : ∀ a ∈ as, read (write a) = some a) : list? read (ofList write as) = some as :=
  mapM_eq_some_iff_forall₂.mpr (List.forall₂_map_right_iff.mpr (List.forall₂_same.mpr h))

/-- Each value that was read comes from one of the list. -/
theorem exists_of_mem_mapM {β : Type} {read : β → Option α} {bs : List β} {as : List α}
    (h : bs.mapM read = some as) {a : α} (ha : a ∈ as) : ∃ b ∈ bs, read b = some a := by
  induction bs generalizing as with
  | nil =>
    obtain rfl : [] = as := by simpa using h
    cases ha
  | cons b bs ih =>
    rw [List.mapM_cons] at h
    obtain ⟨first, hb, h⟩ := Option.bind_eq_some_iff.mp h
    obtain ⟨rest, hbs, all⟩ := Option.bind_eq_some_iff.mp h
    obtain rfl := Option.some.inj all
    obtain rfl | ha := List.mem_cons.mp ha
    · exact ⟨b, List.mem_cons_self, hb⟩
    · obtain ⟨c, hc, same⟩ := ih hbs ha
      exact ⟨c, List.mem_cons_of_mem b hc, same⟩

/-! ### The record of written fields -/

theorem namedMembers?_ofFields (fields : List (String × Json)) :
    namedMembers? (fields.map fun (name, value) => (some name, value)) = some fields := by
  induction fields with
  | nil => rfl
  | cons f fields ih =>
    rw [namedMembers?] at ih
    simp [namedMembers?, ih]

theorem ofFields_injective {fields others : List (String × Json)}
    (h : ofFields fields = ofFields others) : fields = others := by
  have same := congrArg namedMembers? (Json.obj.inj h)
  rw [namedMembers?_ofFields, namedMembers?_ofFields] at same
  exact Option.some.inj same

/-- An object is read as a record of its members if they stand under different names of the
record. -/
theorem objectRecord?_ofFields {names : List String} {fields : List (String × Json)}
    (known : fields.map Prod.fst ⊆ names) (distinct : (fields.map Prod.fst).Nodup) :
    (ofFields fields).objectRecord? names = some ⟨false, fields⟩ := by
  have all : fields.filter (fun (name, _) => names.contains name) = fields := by
    refine List.filter_eq_self.mpr fun f hf => ?_
    exact List.contains_iff_mem.mpr (known (List.mem_map_of_mem hf))
  have once : knownFields? names fields = some fields := by
    rw [knownFields?, all, if_pos distinct]
  simp [objectRecord?, ofFields, namedMembers?_ofFields, once]

/-- A record is read from its fields if they stand under different names of the record. -/
theorem record?_ofFields {names : List String} {fields : List (String × Json)}
    (known : (fields.map Prod.fst).Sublist names) (distinct : names.Nodup) :
    (ofFields fields).record? names = some ⟨false, fields⟩ :=
  objectRecord?_ofFields known.subset (distinct.sublist known)

/-- The record of written fields, by what is found in it. -/
theorem exists_record_ofFields (names : List String) (fields : List (String × Json))
    (known : (fields.map Prod.fst).Sublist names) (distinct : names.Nodup) :
    ∃ r : Record, (ofFields fields).record? names = some r ∧
      ∀ name, r.find? name = fields.lookup name :=
  ⟨⟨false, fields⟩, record?_ofFields known distinct, fun _ => rfl⟩

/-- A name that was not written is not found, whatever names are read. -/
theorem find?_eq_none_of_not_mem {names : List String} {fields : List (String × Json)} {r : Record}
    (read : (ofFields fields).record? names = some r) {name : String}
    (missing : name ∉ fields.map Prod.fst) : r.find? name = none := by
  obtain ⟨named, texts, read⟩ := Option.bind_eq_some_iff.mp read
  obtain rfl := Option.some.inj ((namedMembers?_ofFields fields).symm.trans texts)
  obtain ⟨found, known, read⟩ := Option.bind_eq_some_iff.mp read
  obtain rfl := Option.some.inj read
  simp only [knownFields?, Option.ite_none_right_eq_some, Option.some.injEq] at known
  obtain ⟨-, rfl⟩ := known
  refine List.lookup_eq_none_iff.mpr fun f hf => bne_iff_ne.mpr ?_
  rintro rfl
  exact missing (List.mem_map_of_mem (List.mem_filter.mp hf).1)

theorem mem_of_lookup {fields : List (String × α)} {name : String} {a : α}
    (h : fields.lookup name = some a) : (name, a) ∈ fields := by
  obtain ⟨before, after, split, -⟩ := List.lookup_eq_some_iff.mp h
  simp [split]

/-- Under different names each field is found. -/
theorem lookup_of_mem {fields : List (String × α)} (distinct : (fields.map Prod.fst).Nodup)
    {name : String} {a : α} (h : (name, a) ∈ fields) : fields.lookup name = some a := by
  obtain ⟨before, after, rfl⟩ := List.append_of_mem h
  refine List.lookup_eq_some_iff.mpr ⟨before, after, rfl, fun f hf => bne_iff_ne.mpr ?_⟩
  rintro rfl
  rw [List.map_append, List.map_cons, List.nodup_append] at distinct
  exact distinct.2.2 f.1 (List.mem_map_of_mem hf) f.1 List.mem_cons_self rfl

/-- Under different names the order of the fields does not matter. -/
theorem lookup_eq_of_perm {fields others : List (String × α)} (perm : fields.Perm others)
    (distinct : (others.map Prod.fst).Nodup) (name : String) :
    fields.lookup name = others.lookup name := by
  have distinct' : (fields.map Prod.fst).Nodup := (perm.map Prod.fst).nodup_iff.mpr distinct
  refine Option.ext fun a => ⟨fun found => ?_, fun found => ?_⟩
  · exact lookup_of_mem distinct (perm.mem_iff.mp (mem_of_lookup found))
  · exact lookup_of_mem distinct' (perm.mem_iff.mpr (mem_of_lookup found))

theorem sublist_presentField (name : String) (f : α → Json) (a : Option α) :
    ((presentField name f a).map Prod.fst).Sublist [name] := by
  cases a <;> simp [presentField]

@[simp] theorem lookup_presentField (key name : String) (f : α → Json) (a : Option α) :
    (presentField name f a).lookup key = if key = name then a.map f else none := by
  cases a with
  | none => simp [presentField]
  | some a =>
    by_cases h : key = name
    · simp [presentField, h]
    · simp [presentField, List.lookup_cons, h, beq_false_of_ne h]

theorem mem_presentField {name : String} {f : α → Json} {a : Option α} {field : String × Json} :
    field ∈ presentField name f a ↔ ∃ b, a = some b ∧ field = (name, f b) := by
  cases a <;> simp [presentField]

/-! ### The readers of fields -/

namespace Record

variable {r : Record} {name : String} {read : Json → Option α}

theorem required?_eq {j : Json} (found : r.find? name = some j) :
    r.required? name read = read j := by
  simp [required?, found]

theorem defaulted?_eq {default : α} {j : Json} (found : r.find? name = some j) :
    r.defaulted? name default read = read j := by
  simp [defaulted?, found]

theorem defaulted?_eq_default {default : α} (missing : r.find? name = none) :
    r.defaulted? name default read = some default := by
  simp [defaulted?, missing]

/-- A field that was written only if it was present is read back. -/
theorem optional?_eq (write : α → Json) {a : Option α} (found : r.find? name = a.map write)
    (value : ∀ a, write a ≠ .null) (back : ∀ a, read (write a) = some a) :
    r.optional? name read = some a := by
  cases a with
  | none => simp [optional?, found]
  | some a =>
    rw [optional?, found, Option.map_some]
    split
    · next h => cases h
    · next h => exact absurd (Option.some.inj h) (value a)
    · next h =>
      obtain rfl := Option.some.inj h
      rw [back, Option.map_some]

/-- A field that was written as null when it was absent is read back. -/
theorem nullable?_eq {write : α → Json} {a : Option α}
    (found : r.find? name = some (ofOption write a))
    (value : ∀ b ∈ a, write b ≠ .null) (back : ∀ b ∈ a, read (write b) = some b) :
    r.nullable? name read = some a := by
  cases a with
  | none => simp [nullable?, found, ofOption]
  | some a =>
    rw [nullable?, found, ofOption]
    split
    · next h => cases h
    · next h => exact absurd (Option.some.inj h) (value a rfl)
    · next h =>
      obtain rfl := Option.some.inj h
      rw [back a rfl, Option.map_some]

theorem exists_of_required? {a : α} (h : r.required? name read = some a) :
    ∃ j, r.find? name = some j ∧ read j = some a := Option.bind_eq_some_iff.mp h

/-- What a field holds that is read with a default, unless it is the default. -/
theorem exists_of_defaulted? {default a : α} (h : r.defaulted? name default read = some a) :
    a = default ∨ ∃ j, r.find? name = some j ∧ read j = some a := by
  rw [defaulted?] at h
  split at h
  · exact .inl (Option.some.inj h).symm
  · next j found => exact .inr ⟨j, found, h⟩

/-- What a nullable field holds, if there is something in it. -/
theorem exists_of_nullable? {a : α} (h : r.nullable? name read = some (some a)) :
    ∃ j, r.find? name = some j ∧ read j = some a := by
  rw [nullable?] at h
  split at h
  · split at h <;> cases h
  · cases h
  · next j _ found =>
    obtain ⟨b, same, hb⟩ := Option.map_eq_some_iff.mp h
    exact ⟨j, found, Option.some.inj hb ▸ same⟩

end Record

/-! ### Depths of fields -/

theorem depth_lt_of_mem_fields {names : List String} {j : Json} {r : Record}
    (read : j.record? names = some r) {f : String × Json} (hf : f ∈ r.fields) :
    f.2.depth < j.depth := by
  cases j with
  | arr elements =>
    simp only [record?, Option.ite_none_right_eq_some, Option.some.injEq] at read
    obtain ⟨-, rfl⟩ := read
    exact depth_lt_of_mem_arr (List.of_mem_zip hf).2
  | obj members =>
    obtain ⟨named, texts, read⟩ := Option.bind_eq_some_iff.mp read
    obtain ⟨fields, known, read⟩ := Option.bind_eq_some_iff.mp read
    obtain rfl := Option.some.inj read
    simp only [knownFields?, Option.ite_none_right_eq_some, Option.some.injEq] at known
    obtain ⟨-, rfl⟩ := known
    obtain ⟨m, hm, keyed⟩ := exists_of_mem_mapM texts (List.mem_filter.mp hf).1
    obtain ⟨key, -, rfl⟩ := Option.map_eq_some_iff.mp keyed
    exact depth_lt_of_mem_obj hm
  | null => cases read
  | bool => cases read
  | num => cases read
  | str => cases read

/-- Only arrays and objects are read as records. -/
theorem depth_pos_of_record? {names : List String} {j : Json} {r : Record}
    (read : j.record? names = some r) : 0 < j.depth := by
  cases j with
  | arr => exact Nat.succ_pos _
  | obj => exact Nat.succ_pos _
  | null => cases read
  | bool => cases read
  | num => cases read
  | str => cases read

/-- Only arrays are read as lists. -/
theorem exists_of_list? {read : Json → Option α} {j : Json} {as : List α}
    (h : list? read j = some as) : ∃ elements, j = arr elements ∧ elements.mapM read = some as := by
  obtain ⟨elements, held, all⟩ := Option.bind_eq_some_iff.mp h
  cases j with
  | arr => exact ⟨elements, congrArg arr (Option.some.inj held), all⟩
  | null => cases held
  | bool => cases held
  | num => cases held
  | str => cases held
  | obj => cases held

theorem depth_pos_of_list? {read : Json → Option α} {j : Json} {as : List α}
    (h : list? read j = some as) : 0 < j.depth := by
  obtain ⟨elements, rfl, -⟩ := exists_of_list? h
  exact Nat.succ_pos _

theorem depth_lt_of_find? {names : List String} {j value : Json} {r : Record} {name : String}
    (read : j.record? names = some r) (found : r.find? name = some value) :
    value.depth < j.depth :=
  depth_lt_of_mem_fields read (mem_of_lookup found)

end FlowDiagram.Json
