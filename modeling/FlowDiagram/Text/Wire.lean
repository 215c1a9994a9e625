import FlowDiagram.Json.Record
import FlowDiagram.Text.Position

/-!
# Positions and line ranges in JSON

Lines and columns are integers below `2 ^ 64`.
-/

namespace FlowDiagram

namespace Position

def toJson (p : Position) : Json :=
  .ofFields [("line", .ofInt p.line), ("column", .ofInt p.column)]

def ofJson? (j : Json) : Option Position := do
  let r ← j.record? ["line", "column"]
  let line ← r.required? "line" (Json.natBelow? UInt64.size)
  let column ← r.required? "column" (Json.natBelow? UInt64.size)
  some ⟨line, column⟩

end Position

namespace LineRange

def toJson (r : LineRange) : Json :=
  .ofFields [("start", r.start.toJson), ("end", r.stop.toJson)]

def ofJson? (j : Json) : Option LineRange := do
  let r ← j.record? ["start", "end"]
  let start ← r.required? "start" Position.ofJson?
  let stop ← r.required? "end" Position.ofJson?
  some ⟨start, stop⟩

end LineRange

end FlowDiagram
