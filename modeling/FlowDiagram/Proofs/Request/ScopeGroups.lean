import Mathlib.Data.List.Nodup
import FlowDiagram.Proofs.Semantics.Spelling
import FlowDiagram.Visible

/-!
# Variables grouped by scope

The groups of a position are a stable partition of the variables in sight of it. `GroupedByScope`
says so of any groups: their titles are distinct and in the order of the scopes, no group is empty,
and the entries of all groups together are those of the variables, each under the title of its
scope, with none lost and none listed twice.
-/

namespace FlowDiagram.Visible

-- A variable that is declared twice is listed twice, and what is no variable is not listed.
example :
    let port : Variable := ⟨"port", .basic .int, .moduleLevel, none, none⟩
    let i : Variable := { port with name := "i", scope := .functionLocal }
    scopeGroups [.variable port, .moduleId ⟨"wso2", "orders", "0.1.0"⟩, .variable i,
        .variable port] =
      [⟨"Local Variables", [⟨"i", "int"⟩]⟩,
        ⟨"Module Variables", [⟨"port", "int"⟩, ⟨"port", "int"⟩]⟩] := by
  decide +kernel

end FlowDiagram.Visible
