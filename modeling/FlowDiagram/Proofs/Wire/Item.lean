import FlowDiagram.Palette.Wire
import FlowDiagram.Proofs.Wire.Record

/-!
# Palette items are read back

An item does not say what it is, but what is written for an entry never has the items that a
category must have, so every item is read as what it was. What is written for an item that was
read nests no deeper than the text it was read from: fields that nobody reads are gone, and the
fields that are written were there.
-/

namespace FlowDiagram.Palette

open Json

theorem EntryKind.ofJson?_toJson (kind : EntryKind) : ofJson? kind.toJson = some kind := by
  cases kind <;> rfl

/-! ### Metadata -/

namespace Metadata

/-- The fields that metadata are written with; an empty list of keywords counts as absent. -/
def fields (m : Metadata) : List (String × Json) :=
  [("label", .ofText m.label)]
    ++ presentField "description" ofText m.description
    ++ presentField "icon" ofText m.icon
    ++ presentField "keywords" (ofList ofText)
      (if m.keywords.isEmpty then none else some m.keywords)

theorem toJson_eq (m : Metadata) : m.toJson = ofFields m.fields := by
  rw [toJson, fields]
  split <;> rfl

theorem sublist_fields (m : Metadata) :
    (m.fields.map Prod.fst).Sublist ["label", "description", "icon", "keywords"] := by
  simp only [fields, List.map_append]
  exact (((List.Sublist.refl ["label"]).append (sublist_presentField "description" _ _)).append
    (sublist_presentField "icon" _ _)).append (sublist_presentField "keywords" _ _)

theorem ofJson?_toJson (m : Metadata) : ofJson? m.toJson = some m := by
  obtain ⟨r, read, found⟩ := exists_record_ofFields _ _ m.sublist_fields (by decide)
  have label : r.required? "label" text? = some m.label :=
    (Record.required?_eq (j := ofText m.label) (by simp [found, fields])).trans rfl
  have description : r.optional? "description" text? = some m.description :=
    Record.optional?_eq ofText (by simp [found, fields, List.lookup_append, List.lookup_cons])
      (by simp [ofText]) fun _ => rfl
  have icon : r.optional? "icon" text? = some m.icon :=
    Record.optional?_eq ofText (by simp [found, fields, List.lookup_append, List.lookup_cons])
      (by simp [ofText]) fun _ => rfl
  have keywords : r.defaulted? "keywords" [] (list? text?) = some m.keywords := by
    have written : r.find? "keywords"
        = (if m.keywords.isEmpty then none else some m.keywords).map (ofList ofText) := by
      simp [found, fields, List.lookup_append, List.lookup_cons]
    split at written
    · next empty => rw [Record.defaulted?_eq_default written, List.isEmpty_iff.mp empty]
    · exact (Record.defaulted?_eq written).trans (list?_ofList fun _ _ => rfl)
  rw [ofJson?, toJson_eq, read]
  simp only [Option.bind_eq_bind, Option.bind_some, label, description, icon, keywords]

theorem sound_toJson (m : Metadata) : m.toJson.Sound := by
  rw [toJson_eq]
  refine sound_ofFields fun f hf => ?_
  simp only [fields, List.mem_append, List.mem_singleton, mem_presentField] at hf
  rcases hf with ((rfl | ⟨text, -, rfl⟩) | ⟨text, -, rfl⟩) | ⟨texts, -, rfl⟩
  · exact sound_ofText _
  · exact sound_ofText _
  · exact sound_ofText _
  · refine sound_arr fun j hj => ?_
    obtain ⟨text, -, rfl⟩ := List.mem_map.mp hj
    exact sound_ofText text

/-- Metadata nest two deep if there are keywords, and else one. -/
theorem depth_toJson_le (m : Metadata) {n : Nat} (positive : 0 < n)
    (keywords : m.keywords ≠ [] → 1 < n) : m.toJson.depth ≤ n := by
  rw [toJson_eq]
  refine depth_ofFields_le_of_lt positive fun f hf => ?_
  simp only [fields, List.mem_append, List.mem_singleton, mem_presentField] at hf
  rcases hf with ((rfl | ⟨text, -, rfl⟩) | ⟨text, -, rfl⟩) | ⟨texts, shown, rfl⟩
  · exact positive
  · exact positive
  · exact positive
  · have present : m.keywords ≠ [] := by
      intro empty
      simp [empty] at shown
    have flat : (ofList ofText texts).depth ≤ 1 := by
      refine depth_arr_le_iff.mpr fun j hj => ?_
      obtain ⟨text, -, rfl⟩ := List.mem_map.mp hj
      exact Nat.zero_le 0
    exact Nat.lt_of_le_of_lt flat (keywords present)

/-- What is written for metadata that were read nests no deeper than what they were read from. -/
theorem depth_toJson_le_of_ofJson? {j : Json} {m : Metadata} (h : ofJson? j = some m) :
    m.toJson.depth ≤ j.depth := by
  obtain ⟨r, read, h⟩ := Option.bind_eq_some_iff.mp h
  obtain ⟨label, -, h⟩ := Option.bind_eq_some_iff.mp h
  obtain ⟨description, -, h⟩ := Option.bind_eq_some_iff.mp h
  obtain ⟨icon, -, h⟩ := Option.bind_eq_some_iff.mp h
  obtain ⟨keywords, hkeywords, h⟩ := Option.bind_eq_some_iff.mp h
  obtain rfl := Option.some.inj h
  refine depth_toJson_le _ (depth_pos_of_record? read) fun present => ?_
  obtain rfl | ⟨list, found, hlist⟩ := Record.exists_of_defaulted? hkeywords
  · exact absurd rfl present
  · have deep : 0 < list.depth := depth_pos_of_list? hlist
    exact Nat.lt_of_le_of_lt deep (depth_lt_of_find? read found)

end Metadata

/-! ### Codedata -/

namespace Codedata

def fields (c : Codedata) : List (String × Json) :=
  [("node", c.node.toJson)]
    ++ presentField "org" ofText c.org
    ++ presentField "module" ofText c.home
    ++ presentField "object" ofText c.object
    ++ presentField "symbol" ofText c.symbol
    ++ presentField "version" ofText c.version
    ++ presentField "id" ofInt64 c.id

theorem sublist_fields (c : Codedata) :
    (c.fields.map Prod.fst).Sublist
      ["node", "org", "module", "object", "symbol", "version", "id"] := by
  simp only [fields, List.map_append]
  exact ((((((List.Sublist.refl ["node"]).append (sublist_presentField "org" _ _)).append
    (sublist_presentField "module" _ _)).append (sublist_presentField "object" _ _)).append
    (sublist_presentField "symbol" _ _)).append (sublist_presentField "version" _ _)).append
    (sublist_presentField "id" _ _)

/-- Every field of codedata is a text or an integer of 64 bits. -/
theorem forall_mem_fields (c : Codedata) (P : Json → Prop) (text : ∀ s, P (ofText s))
    (int : ∀ n, P (ofInt64 n)) : ∀ f ∈ c.fields, P f.2 := by
  intro f hf
  simp only [fields, List.mem_append, List.mem_singleton, mem_presentField] at hf
  rcases hf with (((((rfl | ⟨s, -, rfl⟩) | ⟨s, -, rfl⟩) | ⟨s, -, rfl⟩) | ⟨s, -, rfl⟩)
    | ⟨s, -, rfl⟩) | ⟨n, -, rfl⟩
  · exact text c.node.code
  · exact text s
  · exact text s
  · exact text s
  · exact text s
  · exact text s
  · exact int n

theorem sound_toJson (c : Codedata) : c.toJson.Sound :=
  sound_ofFields (c.forall_mem_fields Sound sound_ofText sound_ofInt64)

theorem depth_toJson_le (c : Codedata) : c.toJson.depth ≤ 1 :=
  depth_ofFields_le_iff.mpr
    (c.forall_mem_fields (·.depth ≤ 0) (fun _ => Nat.zero_le 0) fun _ => Nat.zero_le 0)

theorem ofJson?_toJson (c : Codedata) : ofJson? c.toJson = some c := by
  obtain ⟨r, read, found⟩ := exists_record_ofFields _ _ c.sublist_fields (by decide)
  have text {name : String} {s : Option String} (written : r.find? name = s.map ofText) :
      r.optional? name text? = some s :=
    Record.optional?_eq ofText written (by simp [ofText]) fun _ => rfl
  have node : r.required? "node" EntryKind.ofJson? = some c.node :=
    (Record.required?_eq (by simp [found, fields])).trans c.node.ofJson?_toJson
  have org := @text "org" c.org (by simp [found, fields, List.lookup_append, List.lookup_cons])
  have home := @text "module" c.home
    (by simp [found, fields, List.lookup_append, List.lookup_cons])
  have object := @text "object" c.object
    (by simp [found, fields, List.lookup_append, List.lookup_cons])
  have symbol := @text "symbol" c.symbol
    (by simp [found, fields, List.lookup_append, List.lookup_cons])
  have version := @text "version" c.version
    (by simp [found, fields, List.lookup_append, List.lookup_cons])
  have id : r.optional? "id" int64? = some c.id :=
    Record.optional?_eq ofInt64 (by simp [found, fields, List.lookup_append, List.lookup_cons])
      (by simp [ofInt64, ofInt]) int64?_ofInt64
  have written : c.toJson = ofFields c.fields := rfl
  rw [ofJson?, written, read]
  simp only [Option.bind_eq_bind, Option.bind_some, node, org, home, object, symbol, version, id]

end Codedata

/-! ### Entries -/

namespace Entry

theorem ofJson?_toJson (e : Entry) : ofJson? e.toJson = some e := by
  obtain ⟨r, read, found⟩ := exists_record_ofFields ["metadata", "codedata", "enabled"]
    [("metadata", e.metadata.toJson), ("codedata", e.codedata.toJson), ("enabled", .bool e.enabled)]
    (by simp) (by decide)
  have metadata : r.required? "metadata" Metadata.ofJson? = some e.metadata :=
    (Record.required?_eq (found _)).trans e.metadata.ofJson?_toJson
  have codedata : r.required? "codedata" Codedata.ofJson? = some e.codedata :=
    (Record.required?_eq (found _)).trans e.codedata.ofJson?_toJson
  have enabled : r.required? "enabled" bool? = some e.enabled :=
    (Record.required?_eq (found _)).trans rfl
  rw [ofJson?, toJson, read]
  simp only [Option.bind_eq_bind, Option.bind_some, metadata, codedata, enabled]

theorem sound_toJson (e : Entry) : e.toJson.Sound := by
  refine sound_ofFields ?_
  simp [e.metadata.sound_toJson, e.codedata.sound_toJson, sound_bool]

theorem depth_toJson_le_of_lt (e : Entry) {n : Nat} (metadata : e.metadata.toJson.depth < n)
    (codedata : 1 < n) : e.toJson.depth ≤ n := by
  refine depth_ofFields_le_of_lt (by omega) ?_
  have inside := e.codedata.depth_toJson_le
  have flat : (Json.bool e.enabled).depth = 0 := rfl
  simp only [List.forall_mem_cons, List.not_mem_nil, false_implies, implies_true, and_true]
  omega

/-- Entries nest at most three deep. -/
theorem depth_toJson_le (e : Entry) : e.toJson.depth ≤ 3 := by
  refine e.depth_toJson_le_of_lt ?_ (by decide)
  exact Nat.lt_succ_of_le (e.metadata.depth_toJson_le (by decide) fun _ => by decide)

/-- What is written for an entry that was read nests no deeper than what it was read from. -/
theorem depth_toJson_le_of_ofJson? {j : Json} {e : Entry} (h : ofJson? j = some e) :
    e.toJson.depth ≤ j.depth := by
  obtain ⟨r, read, h⟩ := Option.bind_eq_some_iff.mp h
  obtain ⟨metadata, hmetadata, h⟩ := Option.bind_eq_some_iff.mp h
  obtain ⟨codedata, hcodedata, h⟩ := Option.bind_eq_some_iff.mp h
  obtain ⟨enabled, -, h⟩ := Option.bind_eq_some_iff.mp h
  obtain rfl := Option.some.inj h
  obtain ⟨mj, foundMetadata, hmetadata⟩ := Record.exists_of_required? hmetadata
  obtain ⟨cj, foundCodedata, hcodedata⟩ := Record.exists_of_required? hcodedata
  refine depth_toJson_le_of_lt _ ?_ ?_
  · exact Nat.lt_of_le_of_lt (Metadata.depth_toJson_le_of_ofJson? hmetadata)
      (depth_lt_of_find? read foundMetadata)
  · obtain ⟨inner, readInner, -⟩ := Option.bind_eq_some_iff.mp hcodedata
    exact Nat.lt_of_le_of_lt (depth_pos_of_record? readInner)
      (depth_lt_of_find? read foundCodedata)

end Entry

/-! ### Items -/

namespace Item

/-- Induction on items: a category has a property if all its items have it. -/
theorem induction {motive : Item → Prop}
    (category : ∀ metadata items, (∀ i ∈ items, motive i) → motive (.category metadata items))
    (entry : ∀ e, motive (.entry e)) : ∀ i, motive i
  | .category metadata items => category metadata items fun i _ => induction category entry i
  | .entry e => entry e
termination_by i => sizeOf i

theorem toJsonAll_eq (items : List Item) : toJsonAll items = items.map toJson := by
  induction items with
  | nil => rfl
  | cons i items ih => rw [toJsonAll, ih, List.map_cons]

theorem toJson_category (metadata : Metadata) (items : List Item) :
    toJson (.category metadata items)
      = ofFields [("metadata", metadata.toJson), ("items", ofList toJson items)] := by
  rw [toJson, toJsonAll_eq, ofList]

theorem sound_toJson (i : Item) : i.toJson.Sound := by
  induction i using induction with
  | category metadata items ih =>
    rw [toJson_category]
    have inside : (ofList toJson items).Sound :=
      sound_arr (List.forall_mem_map.mpr ih)
    exact sound_ofFields (by simp [metadata.sound_toJson, inside])
  | entry e => exact e.sound_toJson

/-- A category nests at least two deep, and its items two less deep than it. -/
theorem depth_category_le_iff {metadata : Metadata} {items : List Item} {n : Nat} :
    (toJson (.category metadata items)).depth ≤ n + 2 ↔
      metadata.toJson.depth ≤ n + 1 ∧ ∀ i ∈ items, i.toJson.depth ≤ n := by
  rw [toJson_category, depth_ofFields_le_iff]
  simp [ofList, depth_arr_le_iff]

theorem one_lt_depth_category (metadata : Metadata) (items : List Item) :
    1 < (toJson (.category metadata items)).depth := by
  have inside : (ofList toJson items).depth < (toJson (.category metadata items)).depth := by
    rw [toJson_category]
    exact @depth_lt_of_mem_obj _ (some "items", ofList toJson items) (by simp)
  exact Nat.lt_of_le_of_lt (Nat.succ_pos _) inside

end Item

/-! ### Categories, by the way their items are read -/

namespace Category

/-- Read a category, its items by `read`. -/
def readBy? (read : Json → Option Item) (j : Json) : Option Category := do
  let r ← j.record? ["metadata", "items"]
  let metadata ← r.required? "metadata" Metadata.ofJson?
  let items ← r.required? "items" (list? read)
  some ⟨metadata, items⟩

theorem ofJson?_eq (j : Json) : ofJson? j = readBy? (Item.ofJson? (nestingLimit - 2)) j := rfl

theorem toJson_eq (c : Category) :
    c.toJson = ofFields [("metadata", c.metadata.toJson), ("items", ofList Item.toJson c.items)] :=
  Item.toJson_category c.metadata c.items

variable {read : Json → Option Item}

theorem readBy?_toJson {c : Category} (items : ∀ i ∈ c.items, read i.toJson = some i) :
    readBy? read c.toJson = some c := by
  obtain ⟨r, record, found⟩ := exists_record_ofFields ["metadata", "items"]
    [("metadata", c.metadata.toJson), ("items", ofList Item.toJson c.items)]
    (by simp) (by decide)
  have metadata : r.required? "metadata" Metadata.ofJson? = some c.metadata :=
    (Record.required?_eq (found _)).trans c.metadata.ofJson?_toJson
  have held : r.required? "items" (list? read) = some c.items :=
    (Record.required?_eq (found _)).trans (list?_ofList items)
  rw [readBy?, toJson_eq, record]
  simp only [Option.bind_eq_bind, Option.bind_some, metadata, held]

/-- What is written without items is no category. -/
theorem readBy?_ofFields {fields : List (String × Json)} (missing : "items" ∉ fields.map Prod.fst) :
    readBy? read (ofFields fields) = none := by
  refine Option.eq_none_iff_forall_ne_some.mpr fun c h => ?_
  obtain ⟨r, record, h⟩ := Option.bind_eq_some_iff.mp h
  obtain ⟨metadata, -, h⟩ := Option.bind_eq_some_iff.mp h
  obtain ⟨items, held, -⟩ := Option.bind_eq_some_iff.mp h
  obtain ⟨list, found, -⟩ := Record.exists_of_required? held
  rw [find?_eq_none_of_not_mem record missing] at found
  cases found

/-- The parts of a category that was read come from values that lie in what it was read from. -/
theorem exists_of_readBy? {j : Json} {c : Category} (h : readBy? read j = some c) :
    (∃ m, m.depth < j.depth ∧ Metadata.ofJson? m = some c.metadata) ∧ 1 < j.depth ∧
      ∀ i ∈ c.items, ∃ k, k.depth + 1 < j.depth ∧ read k = some i := by
  obtain ⟨r, record, h⟩ := Option.bind_eq_some_iff.mp h
  obtain ⟨metadata, hmetadata, h⟩ := Option.bind_eq_some_iff.mp h
  obtain ⟨items, hitems, h⟩ := Option.bind_eq_some_iff.mp h
  obtain rfl := Option.some.inj h
  obtain ⟨m, foundMetadata, hmetadata⟩ := Record.exists_of_required? hmetadata
  obtain ⟨list, foundItems, hitems⟩ := Record.exists_of_required? hitems
  obtain ⟨elements, rfl, hitems⟩ := exists_of_list? hitems
  have inside := depth_lt_of_find? record foundItems
  refine ⟨⟨m, depth_lt_of_find? record foundMetadata, hmetadata⟩, ?_, fun i hi => ?_⟩
  · exact Nat.lt_of_le_of_lt (Nat.succ_pos _) inside
  · obtain ⟨k, hk, hread⟩ := exists_of_mem_mapM hitems hi
    exact ⟨k, Nat.lt_of_le_of_lt (depth_lt_of_mem_arr hk) inside, hread⟩

end Category

namespace Item

/-- An item is read as a category if it can be, and else as an entry. -/
theorem read?_succ_succ (n : Nat) (j : Json) :
    read? (n + 2) j = ((Category.readBy? (read? n) j).map Category.toItem).or
      ((Entry.ofJson? j).map entry) := by
  have same : (Category.readBy? (read? n) j).map Category.toItem = (do
      let r ← j.record? ["metadata", "items"]
      let metadata ← r.required? "metadata" Metadata.ofJson?
      let items ← r.required? "items" (list? (read? n))
      some (.category metadata items)) := by
    simp [Category.readBy?, Category.toItem, Option.map_bind, Function.comp_def]
  rw [read?, ← same]
  cases Category.readBy? (read? n) j <;> rfl

/-- An entry is read as an entry, since no items are written for it. -/
theorem read?_entry (n : Nat) (e : Entry) : read? n e.toJson = some (.entry e) := by
  have asEntry : (Entry.ofJson? e.toJson).map entry = some (.entry e) := by
    rw [e.ofJson?_toJson, Option.map_some]
  have noCategory : Category.readBy? (read? (n - 2)) e.toJson = none :=
    Category.readBy?_ofFields (by simp)
  match n with
  | 0 => exact asEntry
  | 1 => exact asEntry
  | n + 2 =>
    rw [Nat.add_sub_cancel] at noCategory
    rw [read?_succ_succ, noCategory, asEntry, Option.map_none, Option.none_or]

/-- Every item that nests no deeper than is read is read back as what it was. -/
theorem read?_toJson (i : Item) {n : Nat} (room : i.toJson.depth ≤ n) :
    read? n i.toJson = some i := by
  induction i using induction generalizing n with
  | entry e => exact read?_entry n e
  | category metadata items ih =>
    obtain ⟨n, rfl⟩ : ∃ k, n = k + 2 :=
      ⟨n - 2, by have := one_lt_depth_category metadata items; omega⟩
    have back : Category.readBy? (read? n) (Category.toJson ⟨metadata, items⟩)
        = some ⟨metadata, items⟩ :=
      Category.readBy?_toJson fun i hi => ih i hi ((depth_category_le_iff.mp room).2 i hi)
    rw [Category.toJson, Category.toItem] at back
    rw [read?_succ_succ, back]
    rfl

/-- What is written for an item that was read nests no deeper than what it was read from. -/
theorem depth_toJson_le_of_read? {n : Nat} {j : Json} {i : Item} (h : read? n j = some i) :
    i.toJson.depth ≤ j.depth := by
  induction n using Nat.strongRecOn generalizing j i with
  | ind n ih =>
    have asEntry (h : (Entry.ofJson? j).map entry = some i) : i.toJson.depth ≤ j.depth := by
      obtain ⟨e, he, rfl⟩ := Option.map_eq_some_iff.mp h
      exact Entry.depth_toJson_le_of_ofJson? he
    match n with
    | 0 => exact asEntry h
    | 1 => exact asEntry h
    | n + 2 =>
      rw [read?_succ_succ, Option.or_eq_some_iff] at h
      obtain h | ⟨-, h⟩ := h
      · obtain ⟨⟨metadata, items⟩, hc, rfl⟩ := Option.map_eq_some_iff.mp h
        obtain ⟨⟨m, hm, readMetadata⟩, deep, held⟩ := Category.exists_of_readBy? hc
        obtain ⟨d, hd⟩ : ∃ d, j.depth = d + 2 := ⟨j.depth - 2, by omega⟩
        rw [hd]
        refine depth_category_le_iff.mpr ⟨?_, fun i hi => ?_⟩
        · have := Metadata.depth_toJson_le_of_ofJson? readMetadata
          omega
        · obtain ⟨k, hk, readItem⟩ := held i hi
          have := ih n (by omega) readItem
          omega
      · exact asEntry h

theorem ofJson?_toJson (i : Item) {n : Nat} (room : i.toJson.depth ≤ n) :
    ofJson? n i.toJson = some i := by
  rw [ofJson?, if_pos (i.sound_toJson n room), read?_toJson i room]

theorem depth_toJson_le_of_ofJson? {n : Nat} {j : Json} {i : Item} (h : ofJson? n j = some i) :
    i.toJson.depth ≤ n := by
  obtain ⟨kept, h⟩ := Option.ite_none_right_eq_some.mp h
  exact Nat.le_trans (depth_toJson_le_of_read? h) (depth_le_of_strict kept)

end Item

/-! ### Categories -/

namespace Category

theorem ofJson?_toJson (c : Category) (room : c.toJson.depth ≤ nestingLimit) :
    ofJson? c.toJson = some c := by
  have inside := (Item.depth_category_le_iff (n := nestingLimit - 2)).mp room
  rw [ofJson?_eq]
  exact readBy?_toJson fun i hi => Item.ofJson?_toJson i (inside.2 i hi)

theorem depth_toJson_le_of_ofJson? {j : Json} {c : Category} (h : ofJson? j = some c) :
    c.toJson.depth ≤ nestingLimit := by
  rw [ofJson?_eq] at h
  obtain ⟨-, -, held⟩ := exists_of_readBy? h
  have metadata : c.metadata.toJson.depth ≤ nestingLimit - 2 + 1 :=
    c.metadata.depth_toJson_le (by decide) fun _ => by decide
  refine (Item.depth_category_le_iff (n := nestingLimit - 2)).mpr ⟨metadata, fun i hi => ?_⟩
  obtain ⟨k, -, readItem⟩ := held i hi
  exact Item.depth_toJson_le_of_ofJson? readItem

end Category

end FlowDiagram.Palette
