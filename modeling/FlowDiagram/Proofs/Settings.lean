import Mathlib.Data.List.DropRight
import FlowDiagram.Settings

/-!
# Addresses of icons

The address of the icon of a package, spelled out: the base that the settings name, and behind it the
package in its version. `IsIcon` tells the base without its slashes at the end by what they are, and
not by how they are dropped.
-/

namespace FlowDiagram

/-- An address is that of the icon of a package under a base. Slashes at the end of the base count
for nothing: the part of it that stands in the address ends in none. -/
def IsIcon (base org package version address : String) : Prop :=
  ∃ stem slashes : String, base = stem ++ slashes ∧ (∀ c ∈ slashes.toList, c = '/') ∧
    stem.toList.getLast? ≠ some '/' ∧
    address = stem ++ "/" ++ org ++ "_" ++ package ++ "_" ++ version ++ ".png"

namespace Settings

/-- What is left of a text when its slashes at the end are dropped ends in no slash. -/
theorem withoutTrailingSlashes_eq_iff {base stem : String} :
    withoutTrailingSlashes base = stem ↔
      ∃ slashes : String, base = stem ++ slashes ∧ (∀ c ∈ slashes.toList, c = '/') ∧
        stem.toList.getLast? ≠ some '/' := by
  have dropped : withoutTrailingSlashes base =
    String.ofList (base.toList.rdropWhile (· = '/')) := rfl
  rw [dropped]
  constructor
  · rintro rfl
    refine ⟨String.ofList (base.toList.rtakeWhile (· = '/')), ?_, ?_, ?_⟩
    · rw [← String.ofList_append, List.rdropWhile_append_rtakeWhile, String.ofList_toList]
    · intro c mem
      rw [String.toList_ofList] at mem
      simpa using List.mem_rtakeWhile_imp mem
    · rw [String.toList_ofList]
      intro last
      obtain ⟨nonempty, same⟩ := List.mem_getLast?_eq_getLast last
      exact List.rdropWhile_last_not _ _ nonempty (by simp [← same])
  · rintro ⟨slashes, rfl, all, last⟩
    have own : stem.toList.rdropWhile (· = '/') = stem.toList := by
      refine List.rdropWhile_eq_self_iff.mpr fun nonempty slash => last ?_
      rw [List.getLast?_eq_getLast_of_ne_nil nonempty, of_decide_eq_true slash]
    rw [String.toList_append, List.rdropWhile, List.reverse_append,
      List.dropWhile_append_of_pos (by simpa using all)]
    exact (congrArg String.ofList own).trans String.ofList_toList

/-- The address that settings give is that of the icon, and the only one. -/
theorem isIcon_iff {s : Settings} {org package version address : String} :
    IsIcon s.iconBase org package version address ↔ address = s.iconUrl org package version := by
  constructor
  · rintro ⟨stem, slashes, base, all, last, rfl⟩
    rw [iconUrl, withoutTrailingSlashes_eq_iff.mpr ⟨slashes, base, all, last⟩]
  · rintro rfl
    obtain ⟨slashes, base, all, last⟩ := withoutTrailingSlashes_eq_iff.mp (Eq.refl _)
    exact ⟨_, slashes, base, all, last, rfl⟩

end Settings

end FlowDiagram
