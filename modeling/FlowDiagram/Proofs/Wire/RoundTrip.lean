import FlowDiagram.Proofs.Json.Assembly
import FlowDiagram.Proofs.Wire.Item

/-!
# Texts are read back

A `Codec` writes the values of a type as texts and reads them from texts. It round-trips if every
value whose text may be read is read back from it, and if every value that any text gives is one
of these. `Wire.roundTrips` states this of all types that are exchanged as texts.
-/

namespace FlowDiagram

/-- How the values of a type are written as JSON and read from JSON. -/
structure Codec (α : Type) where
  toJson : α → Json
  ofJson? : Json → Option α

namespace Codec

variable {α : Type} (c : Codec α)

def write (a : α) : String := (c.toJson a).render

def read? (s : String) : Option α := Json.parse? s >>= c.ofJson?

/-- Whether the text of a value nests no more arrays and objects than are read. -/
def Shallow (a : α) : Prop := (c.toJson a).depth ≤ Json.nestingLimit

instance (a : α) : Decidable (c.Shallow a) :=
  inferInstanceAs (Decidable ((c.toJson a).depth ≤ Json.nestingLimit))

/-- Whether the representable values are read back from their texts, and whatever a text gives is
such a value. -/
structure RoundTrips (representable : α → Prop) : Prop where
  read?_write : ∀ a, representable a → c.Shallow a → c.read? (c.write a) = some a
  of_read? : ∀ s a, c.read? s = some a →
    representable a ∧ c.Shallow a ∧ c.read? (c.write a) = some a

theorem read?_write_eq (a : α) : c.read? (c.write a) = c.ofJson? (c.toJson a) := by
  rw [read?, write, Json.parse?_render]
  rfl

/-- Texts are read back if values are: between the two stands the text of a JSON value. -/
theorem RoundTrips.of_ofJson? {c : Codec α} {representable : α → Prop}
    (back : ∀ a, representable a → c.Shallow a → c.ofJson? (c.toJson a) = some a)
    (bounded : ∀ j a, c.ofJson? j = some a → representable a ∧ c.Shallow a) :
    c.RoundTrips representable where
  read?_write a valid shallow := (c.read?_write_eq a).trans (back a valid shallow)
  of_read? s a h := by
    obtain ⟨j, -, read⟩ := Option.bind_eq_some_iff.mp h
    obtain ⟨valid, shallow⟩ := bounded j a read
    exact ⟨valid, shallow, (c.read?_write_eq a).trans (back a valid shallow)⟩

end Codec

/-! ### The codecs -/

def Position.codec : Codec Position := ⟨toJson, ofJson?⟩

def LineRange.codec : Codec LineRange := ⟨toJson, ofJson?⟩

def Client.codec : Codec Client := ⟨toJson, ofJson?⟩

def Callable.codec : Codec Callable := ⟨toJson, ofJson?⟩

namespace Palette

def Metadata.codec : Codec Metadata := ⟨toJson, ofJson?⟩

def Codedata.codec : Codec Codedata := ⟨toJson, ofJson?⟩

def Entry.codec : Codec Entry := ⟨toJson, ofJson?⟩

/-- Items in JSON, each a text of its own. -/
def Item.codec : Codec Item := ⟨toJson, ofJson? Json.nestingLimit⟩

/-- Categories in JSON, each a text of its own. -/
def Category.codec : Codec Category := ⟨toJson, ofJson?⟩

end Palette

/-- Everything that is exchanged as texts is read back from its text: items of any nesting,
categories, entries and their parts, clients with their line ranges, and callables. Only line and
column of a position have to be representable, in 64 bits, and each value that some text gives
is. An item is read as what it was, an entry or a category, as are all items inside it. -/
theorem Wire.roundTrips :
    Palette.Item.codec.RoundTrips (fun _ => True) ∧
      Palette.Category.codec.RoundTrips (fun _ => True) ∧
      Palette.Entry.codec.RoundTrips (fun _ => True) ∧
      Palette.Metadata.codec.RoundTrips (fun _ => True) ∧
      Palette.Codedata.codec.RoundTrips (fun _ => True) ∧
      Client.codec.RoundTrips Client.Representable ∧
      Callable.codec.RoundTrips (fun _ => True) ∧
      LineRange.codec.RoundTrips LineRange.Representable ∧
      Position.codec.RoundTrips Position.Representable := by
  have within {n : Nat} {j : Json} (small : n ≤ 3) (h : j.depth ≤ n) :
      j.depth ≤ Json.nestingLimit :=
    Nat.le_trans h (Nat.le_trans small (by decide))
  refine ⟨.of_ofJson? ?_ ?_, .of_ofJson? ?_ ?_, .of_ofJson? ?_ ?_, .of_ofJson? ?_ ?_,
    .of_ofJson? ?_ ?_, .of_ofJson? ?_ ?_, .of_ofJson? ?_ ?_, .of_ofJson? ?_ ?_, .of_ofJson? ?_ ?_⟩
  · exact fun i _ room => i.ofJson?_toJson room
  · exact fun j i read => ⟨trivial, Palette.Item.depth_toJson_le_of_ofJson? read⟩
  · exact fun c _ room => c.ofJson?_toJson room
  · exact fun j c read => ⟨trivial, Palette.Category.depth_toJson_le_of_ofJson? read⟩
  · exact fun e _ _ => e.ofJson?_toJson
  · exact fun j e _ => ⟨trivial, within (by decide) e.depth_toJson_le⟩
  · exact fun m _ _ => m.ofJson?_toJson
  · exact fun j m _ => ⟨trivial, within (by decide)
      (m.depth_toJson_le (n := 2) (by decide) fun _ => by decide)⟩
  · exact fun c _ _ => c.ofJson?_toJson
  · exact fun j c _ => ⟨trivial, within (by decide) c.depth_toJson_le⟩
  · exact fun c valid _ => Client.ofJson?_toJson valid
  · exact fun j c read =>
      ⟨Client.representable_of_ofJson? read, within (by decide) c.depth_toJson_le⟩
  · exact fun c _ _ => c.ofJson?_toJson
  · exact fun j c _ => ⟨trivial, within (by decide) c.depth_toJson_le⟩
  · exact fun r valid _ => LineRange.ofJson?_toJson valid
  · exact fun j r read =>
      ⟨LineRange.representable_of_ofJson? read, within (by decide) r.depth_toJson_le⟩
  · exact fun p valid _ => Position.ofJson?_toJson valid
  · exact fun j p read =>
      ⟨Position.representable_of_ofJson? read, within (by decide) p.depth_toJson_le⟩

/-- A category beside an entry, inside a category; the text of the labels needs escapes. -/
theorem Wire.roundTrips_nested :
    Palette.Item.codec.Shallow
        (.category (.ofLabel "a\"b") [.category (.ofLabel "\n") [], .ofKind .ifElse]) ∧
      Palette.Item.codec.read? (Palette.Item.codec.write
        (.category (.ofLabel "a\"b") [.category (.ofLabel "\n") [], .ofKind .ifElse]))
        = some (.category (.ofLabel "a\"b") [.category (.ofLabel "\n") [], .ofKind .ifElse]) :=
  have shallow : Palette.Item.codec.Shallow
      (.category (.ofLabel "a\"b") [.category (.ofLabel "\n") [], .ofKind .ifElse]) := by decide
  ⟨shallow, Wire.roundTrips.1.read?_write _ trivial shallow⟩

end FlowDiagram
