import FlowDiagram.Client.Wire
import FlowDiagram.Connector.Wire
import FlowDiagram.Proofs.Json.Record

/-!
# Positions, clients and callables are read back

Each of these records is written under the names that it is read by, and each value inside is
read back. Lines and columns of positions are only read below `2 ^ 64`, and what is read is.
-/

namespace FlowDiagram

/-! ### Numbers and names -/

namespace Json

theorem natBelow?_ofInt {bound n : Nat} (h : n < bound) : natBelow? bound (ofInt n) = some n := by
  simp [natBelow?, int?, ofInt, h]

theorem lt_of_natBelow? {bound n : Nat} {j : Json} (h : natBelow? bound j = some n) :
    n < bound := by
  obtain ⟨z, -, h⟩ := Option.bind_eq_some_iff.mp h
  simp only [Option.ite_none_right_eq_some, Option.some.injEq] at h
  omega

theorem int64?_ofInt64 (n : Int64) : int64? (ofInt64 n) = some n := by
  have bounds : Int64.minValue.toInt ≤ n.toInt ∧ n.toInt ≤ Int64.maxValue.toInt :=
    ⟨n.minValue_le_toInt, n.toInt_le⟩
  simp only [int64?, int?, ofInt64, ofInt, Option.bind_eq_bind, Option.bind_some, if_pos bounds,
    Int64.ofInt_toInt]

theorem uint32?_ofInt (n : UInt32) : uint32? (ofInt n.toNat) = some n := by
  rw [uint32?, natBelow?_ofInt n.toNat_lt_size, Option.map_some, UInt32.ofNat_toNat]

end Json

open Json

theorem CallableKind.ofJson?_toJson (kind : CallableKind) : ofJson? kind.toJson = some kind := by
  cases kind <;> rfl

theorem ClientKind.ofJson?_toJson (kind : ClientKind) : ofJson? kind.toJson = some kind := by
  cases kind <;> rfl

theorem ClientScope.ofJson?_toJson (scope : ClientScope) : ofJson? scope.toJson = some scope := by
  cases scope <;> rfl

/-! ### Positions -/

namespace Position

/-- Whether line and column are integers of 64 bits. -/
def Representable (p : Position) : Prop := p.line < UInt64.size ∧ p.column < UInt64.size

theorem ofJson?_toJson {p : Position} (h : p.Representable) : ofJson? p.toJson = some p := by
  obtain ⟨r, read, found⟩ := exists_record_ofFields ["line", "column"]
    [("line", .ofInt p.line), ("column", .ofInt p.column)] (by simp) (by decide)
  have line : r.required? "line" (natBelow? UInt64.size) = some p.line :=
    (Record.required?_eq (found _)).trans (natBelow?_ofInt h.1)
  have column : r.required? "column" (natBelow? UInt64.size) = some p.column :=
    (Record.required?_eq (found _)).trans (natBelow?_ofInt h.2)
  rw [ofJson?, toJson, read]
  simp only [Option.bind_eq_bind, Option.bind_some, line, column]

theorem representable_of_ofJson? {j : Json} {p : Position} (h : ofJson? j = some p) :
    p.Representable := by
  obtain ⟨r, -, h⟩ := Option.bind_eq_some_iff.mp h
  obtain ⟨line, hline, h⟩ := Option.bind_eq_some_iff.mp h
  obtain ⟨column, hcolumn, h⟩ := Option.bind_eq_some_iff.mp h
  obtain ⟨_, -, hline⟩ := Record.exists_of_required? hline
  obtain ⟨_, -, hcolumn⟩ := Record.exists_of_required? hcolumn
  obtain rfl := Option.some.inj h
  exact ⟨lt_of_natBelow? hline, lt_of_natBelow? hcolumn⟩

theorem depth_toJson_le (p : Position) : p.toJson.depth ≤ 1 :=
  depth_ofFields_le_iff.mpr (by simp [ofInt, depth])

end Position

namespace LineRange

def Representable (r : LineRange) : Prop := r.start.Representable ∧ r.stop.Representable

theorem ofJson?_toJson {range : LineRange} (h : range.Representable) :
    ofJson? range.toJson = some range := by
  obtain ⟨r, read, found⟩ := exists_record_ofFields ["start", "end"]
    [("start", range.start.toJson), ("end", range.stop.toJson)] (by simp) (by decide)
  have start : r.required? "start" Position.ofJson? = some range.start :=
    (Record.required?_eq (found _)).trans (Position.ofJson?_toJson h.1)
  have stop : r.required? "end" Position.ofJson? = some range.stop :=
    (Record.required?_eq (found _)).trans (Position.ofJson?_toJson h.2)
  rw [ofJson?, toJson, read]
  simp only [Option.bind_eq_bind, Option.bind_some, start, stop]

theorem representable_of_ofJson? {j : Json} {range : LineRange} (h : ofJson? j = some range) :
    range.Representable := by
  obtain ⟨r, -, h⟩ := Option.bind_eq_some_iff.mp h
  obtain ⟨start, hstart, h⟩ := Option.bind_eq_some_iff.mp h
  obtain ⟨stop, hstop, h⟩ := Option.bind_eq_some_iff.mp h
  obtain ⟨_, -, hstart⟩ := Record.exists_of_required? hstart
  obtain ⟨_, -, hstop⟩ := Record.exists_of_required? hstop
  obtain rfl := Option.some.inj h
  exact ⟨Position.representable_of_ofJson? hstart, Position.representable_of_ofJson? hstop⟩

theorem depth_toJson_le (range : LineRange) : range.toJson.depth ≤ 2 :=
  depth_ofFields_le_iff.mpr (by simp [Position.depth_toJson_le])

end LineRange

/-! ### Clients -/

namespace Client

def Representable (c : Client) : Prop := ∀ range ∈ c.lineRange, range.Representable

theorem ofJson?_toJson {c : Client} (h : c.Representable) : ofJson? c.toJson = some c := by
  obtain ⟨r, read, found⟩ := exists_record_ofFields
    ["id", "label", "kind", "lineRange", "scope", "value", "flags"]
    [("id", .ofText c.id), ("label", .ofText c.label), ("kind", c.kind.toJson),
      ("lineRange", ofOption LineRange.toJson c.lineRange), ("scope", c.scope.toJson),
      ("value", ofOption ofText c.value), ("flags", .ofInt c.flags.toNat)] (by simp) (by decide)
  have id : r.required? "id" text? = some c.id :=
    (Record.required?_eq (found _)).trans rfl
  have label : r.required? "label" text? = some c.label :=
    (Record.required?_eq (found _)).trans rfl
  have kind : r.required? "kind" ClientKind.ofJson? = some c.kind :=
    (Record.required?_eq (found _)).trans c.kind.ofJson?_toJson
  have lineRange : r.nullable? "lineRange" LineRange.ofJson? = some c.lineRange :=
    Record.nullable?_eq (found _) (by simp [LineRange.toJson, ofFields])
      fun range hr => LineRange.ofJson?_toJson (h range hr)
  have scope : r.required? "scope" ClientScope.ofJson? = some c.scope :=
    (Record.required?_eq (found _)).trans c.scope.ofJson?_toJson
  have value : r.nullable? "value" text? = some c.value :=
    Record.nullable?_eq (found _) (by simp [ofText]) fun _ _ => rfl
  have flags : r.required? "flags" uint32? = some c.flags :=
    (Record.required?_eq (found _)).trans (uint32?_ofInt c.flags)
  rw [ofJson?, toJson, read]
  simp only [Option.bind_eq_bind, Option.bind_some, id, label, kind, lineRange, scope, value, flags]

theorem representable_of_ofJson? {j : Json} {c : Client} (h : ofJson? j = some c) :
    c.Representable := by
  obtain ⟨r, -, h⟩ := Option.bind_eq_some_iff.mp h
  obtain ⟨id, -, h⟩ := Option.bind_eq_some_iff.mp h
  obtain ⟨label, -, h⟩ := Option.bind_eq_some_iff.mp h
  obtain ⟨kind, -, h⟩ := Option.bind_eq_some_iff.mp h
  obtain ⟨lineRange, hrange, h⟩ := Option.bind_eq_some_iff.mp h
  obtain ⟨scope, -, h⟩ := Option.bind_eq_some_iff.mp h
  obtain ⟨value, -, h⟩ := Option.bind_eq_some_iff.mp h
  obtain ⟨flags, -, h⟩ := Option.bind_eq_some_iff.mp h
  obtain rfl := Option.some.inj h
  rintro range rfl
  obtain ⟨_, -, hrange⟩ := Record.exists_of_nullable? hrange
  exact LineRange.representable_of_ofJson? hrange

theorem depth_toJson_le (c : Client) : c.toJson.depth ≤ 3 := by
  have range : (ofOption LineRange.toJson c.lineRange).depth ≤ 2 := by
    cases c.lineRange with
    | none => exact Nat.zero_le 2
    | some r => exact r.depth_toJson_le
  have value : (ofOption ofText c.value).depth ≤ 2 := by
    cases c.value <;> exact Nat.zero_le 2
  refine depth_ofFields_le_iff.mpr ?_
  simp [range, value, ofText, ofInt, depth, ClientKind.toJson, ClientScope.toJson]

end Client

/-! ### Callables -/

namespace Callable

def fields (c : Callable) : List (String × Json) :=
  [("functionId", .ofInt64 c.id), ("name", .ofText c.name), ("description", .ofText c.description),
    ("kind", c.kind.toJson), ("org", .ofText c.org), ("packageName", .ofText c.package),
    ("version", .ofText c.version)] ++ presentField "returnType" ofText c.returns

theorem toJson_eq (c : Callable) : c.toJson = ofFields c.fields := rfl

theorem sublist_fields (c : Callable) : (c.fields.map Prod.fst).Sublist fieldNames := by
  rw [fields, List.map_append]
  exact (List.Sublist.refl _).append (sublist_presentField _ _ _)

/-- A callable is read from a record in which its fields are found, whatever else is, and however
kinds are read. -/
theorem ofRecord?_eq {kind? : Json → Option CallableKind} {c : Callable} {r : Record}
    (kindBack : kind? c.kind.toJson = some c.kind)
    (found : ∀ name ∈ fieldNames, r.find? name = c.fields.lookup name) :
    ofRecord? kind? r = some c := by
  have id : r.required? "functionId" int64? = some c.id :=
    (Record.required?_eq (found _ (by decide))).trans (int64?_ofInt64 c.id)
  have name : r.required? "name" text? = some c.name :=
    (Record.required?_eq (found _ (by decide))).trans rfl
  have description : r.defaulted? "description" "" text? = some c.description :=
    (Record.defaulted?_eq (found _ (by decide))).trans rfl
  have kind : r.required? "kind" kind? = some c.kind :=
    (Record.required?_eq (found _ (by decide))).trans kindBack
  have org : r.required? "org" text? = some c.org :=
    (Record.required?_eq (found _ (by decide))).trans rfl
  have package : r.required? "packageName" text? = some c.package :=
    (Record.required?_eq (found _ (by decide))).trans rfl
  have version : r.required? "version" text? = some c.version :=
    (Record.required?_eq (found _ (by decide))).trans rfl
  have present : r.find? "returnType" = c.returns.map ofText := by
    rw [found _ (by decide)]
    simp [fields, List.lookup_cons]
  have returns : r.optional? "returnType" text? = some c.returns :=
    Record.optional?_eq ofText present (by simp [ofText]) fun _ => rfl
  rw [ofRecord?]
  simp only [Option.bind_eq_bind, Option.bind_some, id, name, description, kind, org, package,
    version, returns]

theorem ofJson?_toJson (c : Callable) : ofJson? c.toJson = some c := by
  obtain ⟨r, read, found⟩ := exists_record_ofFields _ _ c.sublist_fields (by decide)
  rw [ofJson?, toJson_eq, read, Option.bind_eq_bind, Option.bind_some]
  exact ofRecord?_eq c.kind.ofJson?_toJson fun name _ => found name

theorem depth_toJson_le (c : Callable) : c.toJson.depth ≤ 1 := by
  refine depth_ofFields_le_iff.mpr (List.forall_mem_append.mpr ⟨?_, fun f hf => ?_⟩)
  · simp [ofText, ofInt64, ofInt, depth, CallableKind.toJson]
  · obtain ⟨text, -, rfl⟩ := mem_presentField.mp hf
    exact Nat.zero_le 0

end Callable

end FlowDiagram
