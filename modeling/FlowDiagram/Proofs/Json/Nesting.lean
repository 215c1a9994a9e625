import FlowDiagram.Json.Strict

/-!
# How deep values nest

`Json.depth` counts the arrays and objects that are open at a time in the text of a value. A
value is strict within a depth only if it nests no deeper, and a `Sound` value, every literal of
which holds, is strict wherever there is room for it.
-/

namespace FlowDiagram.Json

/-- Induction on values: an array or object has a property if all that it holds have it. -/
theorem induction {motive : Json → Prop} (null : motive .null) (bool : ∀ b, motive (.bool b))
    (num : ∀ n, motive (.num n)) (str : ∀ s, motive (.str s))
    (arr : ∀ elements, (∀ j ∈ elements, motive j) → motive (.arr elements))
    (obj : ∀ members, (∀ m ∈ members, motive m.2) → motive (.obj members)) : ∀ j, motive j
  | .null => null
  | .bool b => bool b
  | .num n => num n
  | .str s => str s
  | .arr elements => arr elements fun j _ => induction null bool num str arr obj j
  | .obj members => obj members fun m _ => induction null bool num str arr obj m.2
termination_by j => sizeOf j
decreasing_by
  · next mem =>
    have := List.sizeOf_lt_of_mem mem
    simp only [Json.arr.sizeOf_spec]
    omega
  · next mem =>
    have inside := List.sizeOf_lt_of_mem mem
    have value : sizeOf m.2 < sizeOf m := by
      cases m
      simp only [Prod.mk.sizeOf_spec]
      omega
    simp only [Json.obj.sizeOf_spec]
    omega

mutual

/-- How many arrays and objects of a value are open at a time. -/
def depth : Json → Nat
  | .arr elements => depthOfElements elements + 1
  | .obj members => depthOfMembers members + 1
  | _ => 0

def depthOfElements : List Json → Nat
  | [] => 0
  | j :: js => max (depth j) (depthOfElements js)

def depthOfMembers : List (Option String × Json) → Nat
  | [] => 0
  | (_, j) :: members => max (depth j) (depthOfMembers members)

end

theorem depthOfElements_le_iff {elements : List Json} {n : Nat} :
    depthOfElements elements ≤ n ↔ ∀ j ∈ elements, j.depth ≤ n := by
  induction elements with
  | nil => simp [depthOfElements]
  | cons j js ih => rw [depthOfElements, Nat.max_le, ih, List.forall_mem_cons]

theorem depthOfMembers_le_iff {members : List (Option String × Json)} {n : Nat} :
    depthOfMembers members ≤ n ↔ ∀ m ∈ members, m.2.depth ≤ n := by
  induction members with
  | nil => simp [depthOfMembers]
  | cons m members ih => rw [depthOfMembers, Nat.max_le, ih, List.forall_mem_cons]

theorem depth_arr_le_iff {elements : List Json} {n : Nat} :
    (arr elements).depth ≤ n + 1 ↔ ∀ j ∈ elements, j.depth ≤ n := by
  rw [depth, Nat.add_le_add_iff_right, depthOfElements_le_iff]

theorem depth_obj_le_iff {members : List (Option String × Json)} {n : Nat} :
    (obj members).depth ≤ n + 1 ↔ ∀ m ∈ members, m.2.depth ≤ n := by
  rw [depth, Nat.add_le_add_iff_right, depthOfMembers_le_iff]

theorem depth_lt_of_mem_arr {elements : List Json} {j : Json} (h : j ∈ elements) :
    j.depth < (arr elements).depth :=
  Nat.lt_succ_of_le (depthOfElements_le_iff.mp (Nat.le_refl _) j h)

theorem depth_lt_of_mem_obj {members : List (Option String × Json)} {m : Option String × Json}
    (h : m ∈ members) : m.2.depth < (obj members).depth :=
  Nat.lt_succ_of_le (depthOfMembers_le_iff.mp (Nat.le_refl _) m h)

theorem depth_ofFields_le_iff {fields : List (String × Json)} {n : Nat} :
    (ofFields fields).depth ≤ n + 1 ↔ ∀ f ∈ fields, f.2.depth ≤ n := by
  rw [ofFields, depth_obj_le_iff, List.forall_mem_map]

theorem depth_ofFields_le_of_lt {fields : List (String × Json)} {n : Nat} (positive : 0 < n)
    (h : ∀ f ∈ fields, f.2.depth < n) : (ofFields fields).depth ≤ n := by
  cases n with
  | zero => cases positive
  | succ n => exact depth_ofFields_le_iff.mpr fun f hf => Nat.le_of_lt_succ (h f hf)

theorem depth_ofFields_pos (fields : List (String × Json)) : 0 < (ofFields fields).depth :=
  Nat.succ_pos _

/-! ### Strict values -/

theorem strictElements_iff {depth : Nat} {elements : List Json} :
    strictElements depth elements = true ↔ ∀ j ∈ elements, j.strict depth = true := by
  induction elements with
  | nil => simp [strictElements]
  | cons j js ih => simp [strictElements, ih]

theorem strictMembers_iff {depth : Nat} {members : List (Option String × Json)} :
    strictMembers depth members = true ↔
      ∀ m ∈ members, m.1.isSome = true ∧ m.2.strict depth = true := by
  induction members with
  | nil => simp [strictMembers]
  | cons m members ih => simp [strictMembers, ih, and_assoc]

/-- A strict value nests no deeper than it may. -/
theorem depth_le_of_strict {j : Json} {n : Nat} (h : j.strict n = true) : j.depth ≤ n := by
  induction j using induction generalizing n with
  | null => exact Nat.zero_le n
  | bool => exact Nat.zero_le n
  | num => exact Nat.zero_le n
  | str => exact Nat.zero_le n
  | arr elements ih =>
    cases n with
    | zero => cases h
    | succ n => exact depth_arr_le_iff.mpr fun j hj => ih j hj (strictElements_iff.mp h j hj)
  | obj members ih =>
    cases n with
    | zero => cases h
    | succ n => exact depth_obj_le_iff.mpr fun m hm => ih m hm (strictMembers_iff.mp h m hm).2

/-- Whether a value is strict wherever there is room for it. -/
def Sound (j : Json) : Prop := ∀ n, j.depth ≤ n → j.strict n = true

theorem sound_bool (b : Bool) : (bool b).Sound := fun _ _ => rfl

theorem sound_ofText (s : String) : (ofText s).Sound := fun _ _ => rfl

theorem sound_arr {elements : List Json} (h : ∀ j ∈ elements, j.Sound) : (arr elements).Sound := by
  intro n room
  cases n with
  | zero => cases room
  | succ n =>
    exact strictElements_iff.mpr fun j hj => h j hj n (depth_arr_le_iff.mp room j hj)

theorem sound_ofFields {fields : List (String × Json)} (h : ∀ f ∈ fields, f.2.Sound) :
    (ofFields fields).Sound := by
  intro n room
  cases n with
  | zero => exact absurd room (Nat.not_le.mpr (depth_ofFields_pos fields))
  | succ n =>
    refine strictMembers_iff.mpr fun m hm => ?_
    obtain ⟨f, hf, rfl⟩ := List.mem_map.mp hm
    exact ⟨rfl, h f hf n (depth_ofFields_le_iff.mp room f hf)⟩

/-! ### Integers of 64 bits are in range -/

/-- Rounding at most doubles a number. -/
theorem Number.roundToDouble_le (n : Nat) : roundToDouble n ≤ 2 * n := by
  unfold roundToDouble
  split
  · omega
  · next large =>
    have positive : n ≠ 0 := by
      rintro rfl
      exact large (by decide)
    have unit : 2 ^ (n.log2 - 52) ≤ n :=
      Nat.le_trans (Nat.pow_le_pow_right (by decide) (Nat.sub_le _ _)) (Nat.log2_self_le positive)
    have below : n / 2 ^ (n.log2 - 52) * 2 ^ (n.log2 - 52) ≤ n := Nat.div_mul_le_self _ _
    simp only [Nat.pow_eq, Nat.add_mul]
    split <;> omega

theorem Number.inRange_of_natAbs_le {z : Int} (h : z.natAbs ≤ significandBound) :
    (integer z).inRange = true := by
  have kept : truncate (z.natAbs.log2 + 1) z.natAbs = (z.natAbs, 0) := by simp [truncate, h]
  have rounded : roundToDouble z.natAbs < overflowBound :=
    calc roundToDouble z.natAbs ≤ 2 * significandBound :=
          Nat.le_trans (roundToDouble_le _) (Nat.mul_le_mul_left 2 h)
      _ < overflowBound := by decide +kernel
  have one : roundToDouble (Nat.pow 10 0) = 1 := rfl
  have held : roundToDouble z.natAbs * roundToDouble (Nat.pow 10 0) < overflowBound := by
    rwa [one, Nat.mul_one]
  rw [inRange, fits, kept]
  exact Bool.or_eq_true_iff.mpr (.inr (Bool.and_eq_true_iff.mpr ⟨rfl, decide_eq_true held⟩))

theorem sound_ofInt64 (n : Int64) : (ofInt64 n).Sound := by
  intro _ _
  refine Number.inRange_of_natAbs_le ?_
  have low := n.le_toInt
  have high := n.toInt_lt
  have bound : Number.significandBound = 18446744073709551615 := rfl
  omega

end FlowDiagram.Json
