import FlowDiagram.Lineup

/-!
# One call to a lineup

Calls for references and for symbols take the same course: a call that asks for a name that is known
is answered from memory, and any other lists the participant that it finds, if it finds one. One
equation says so (`run_answer`); the theory of runs rests on it and on `Ends`, the three ways in
which a call can end.
-/

namespace FlowDiagram.Lineup

/-- The name that a call asks for, if it is for a reference. -/
def Call.key? : Call → Option String
  | .reference node _ => some node.referencedName
  | .symbol _ _ _ => none

/-- The identifier that a lineup remembers for the name that a call asks for. -/
def known? (l : Lineup) (call : Call) : Option String := call.key?.bind l.ids.find?

/-- The participant that a call finds if it has to look for one. -/
def candidate? (model : SemanticModel) (d : Document) : Call → Option Participant
  | .reference node sourceId =>
    (resolve? model node).bind fun (symbol, moduleName) =>
      participant? d symbol sourceId moduleName
  | .symbol symbol sourceId moduleName => participant? d symbol sourceId moduleName

/-- List the participant that a call has found: its identifier is remembered by its name, and then
by the name that the call asks for. -/
def enroll (l : Lineup) (call : Call) (p : Participant) : Lineup :=
  match call.key? with
  | none => l.add p
  | some key => (l.add p).remember key p.id

@[simp] theorem participants_enroll (l : Lineup) (call : Call) (p : Participant) :
    (l.enroll call p).participants = l.participants ++ [p] := by
  unfold enroll
  split <;> rfl

/-- What was known stays known; a participant that is listed becomes known by its name and by the
name that was asked for. -/
theorem find?_enroll (l : Lineup) (call : Call) (p : Participant) (name : String) :
    (l.enroll call p).ids.find? name =
      (l.ids.find? name).or
        (if name = p.name ∨ call.key? = some name then some p.id else none) := by
  unfold enroll
  cases call.key? with
  | none => simp [Memo.find?_record]
  | some key =>
    rw [ids_remember, ids_add, Memo.find?_record, Memo.find?_record, Option.or_assoc]
    by_cases named : name = p.name
    · simp [named]
    · by_cases asked : key = name
      · simp [named, asked]
      · have differs : name ≠ key := Ne.symm asked
        simp [named, asked, differs]

variable (model : SemanticModel) (d : Document) (l : Lineup) (call : Call)

theorem run_introduce (symbol : Symbol) (sourceId moduleName : String) :
    (introduce d symbol sourceId moduleName).run l =
      match participant? d symbol sourceId moduleName with
      | none => (none, l, [])
      | some p => (some p.id, l.add p, []) := by
  unfold introduce
  cases participant? d symbol sourceId moduleName <;> rfl

/-- What a call answers, the lineup that it leaves, and the notices: a known name is answered from
memory, and otherwise a participant is listed if there is one. -/
theorem run_answer :
    (answer model d call).run l =
      match l.known? call with
      | some id => (some id, l, call.key?.toList.map .knownParticipant)
      | none =>
        match candidate? model d call with
        | none => (none, l, [])
        | some p => (some p.id, l.enroll call p, []) := by
  cases call with
  | symbol symbol sourceId moduleName => exact run_introduce d l symbol sourceId moduleName
  | reference node sourceId =>
    simp only [answer, identify, Traced.run_bind, Traced.run_get, known?, Call.key?,
      Option.bind_some, candidate?, List.nil_append]
    cases l.ids.find? node.referencedName with
    | some id => rfl
    | none =>
      cases resolve? model node with
      | none => rfl
      | some found =>
        obtain ⟨symbol, moduleName⟩ := found
        simp only [Traced.run_bind, run_introduce, Option.bind_some]
        cases participant? d symbol sourceId moduleName <;> rfl

def reply : Option String := ((answer model d call).run l).1

def next : Lineup := ((answer model d call).run l).2.1

/-- The ways in which a call can end: the name that it asks for is known, and nothing changes; it
finds nobody, and nothing changes; it lists one participant and answers with its identifier. -/
inductive Ends : Option String → Lineup → Prop where
  | known {id : String} (h : l.known? call = some id) : Ends (some id) l
  | nobody (h : l.known? call = none) : Ends none l
  | listed {p : Participant} {l' : Lineup} (h : l.known? call = none)
    (appended : l'.participants = l.participants ++ [p]) : Ends (some p.id) l'

variable {model d l call}

theorem reply_of_known {id : String} (h : l.known? call = some id) :
    reply model d l call = some id := by
  rw [reply, run_answer, h]

theorem next_of_known {id : String} (h : l.known? call = some id) : next model d l call = l := by
  rw [next, run_answer, h]

theorem reply_of_unknown (h : l.known? call = none) :
    reply model d l call = (candidate? model d call).map Participant.id := by
  rw [reply, run_answer, h]
  cases candidate? model d call <;> rfl

theorem next_of_nobody (h : l.known? call = none) (nobody : candidate? model d call = none) :
    next model d l call = l := by
  rw [next, run_answer, h, nobody]

theorem next_of_candidate {p : Participant} (h : l.known? call = none)
    (found : candidate? model d call = some p) : next model d l call = l.enroll call p := by
  rw [next, run_answer, h, found]

/-- What is to be shown of the lineup that a call leaves: it is the same as before, or the
participant that was found is listed. -/
@[elab_as_elim]
theorem next_cases {motive : Lineup → Prop} (same : motive l)
    (listed : ∀ p, l.known? call = none → candidate? model d call = some p →
      motive (l.enroll call p)) : motive (next model d l call) := by
  cases known : l.known? call with
  | some id =>
    rw [next_of_known known]
    exact same
  | none =>
    cases found : candidate? model d call with
    | none =>
      rw [next_of_nobody known found]
      exact same
    | some p =>
      rw [next_of_candidate known found]
      exact listed p known found

/-- Every call ends in one of the three ways. -/
theorem ends_next (model : SemanticModel) (d : Document) (l : Lineup) (call : Call) :
    l.Ends call (reply model d l call) (next model d l call) := by
  cases known : l.known? call with
  | some id =>
    rw [reply_of_known known, next_of_known known]
    exact .known known
  | none =>
    rw [reply_of_unknown known]
    cases found : candidate? model d call with
    | none =>
      rw [next_of_nobody known found]
      exact .nobody known
    | some p =>
      rw [next_of_candidate known found]
      exact .listed known (participants_enroll l call p)

end FlowDiagram.Lineup
