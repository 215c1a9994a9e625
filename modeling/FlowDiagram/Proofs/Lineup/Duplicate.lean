import Mathlib.Data.List.Induction
import Mathlib.Data.List.Nodup
import FlowDiagram.Proofs.Lineup.Run

/-!
# Names that are listed twice

A lineup looks for the name that a reference goes by, and lists a participant under the name of the
symbol. Where the two differ it can miss a participant that is there: `Repeats` describes the calls
that do, and a run lists no name twice exactly if it has none (`nodup_names_after_iff`). Calls that
ask for the name of what they find never do (`Distinct.next`).
-/

namespace FlowDiagram.Lineup

def names (l : Lineup) : List String := l.participants.map Participant.name

/-- The call lists a participant with a name that is there: the name that the call asks for is not
known, and it finds a participant with such a name. -/
def Repeats (model : SemanticModel) (d : Document) (l : Lineup) (call : Call) : Prop :=
  l.known? call = none ∧ ∃ p, candidate? model d call = some p ∧ p.name ∈ l.names

/-- A call that asks for the name of what it finds, if it finds something. -/
def AsksForOwnName (model : SemanticModel) (d : Document) (call : Call) : Prop :=
  ∀ p, candidate? model d call = some p → call.key? = some p.name

/-- No name is there twice, and each leads to the one participant that has it. -/
structure Distinct (l : Lineup) : Prop where
  nodup : l.names.Nodup
  ids : ∀ p ∈ l.participants, l.ids.find? p.name = some p.id

variable {model : SemanticModel} {d : Document} {l : Lineup} {call : Call}

@[simp] theorem names_enroll (l : Lineup) (call : Call) (p : Participant) :
    (l.enroll call p).names = l.names ++ [p.name] := by
  simp [names]

theorem nodup_names_enroll_iff {p : Participant} :
    (l.enroll call p).names.Nodup ↔ p.name ∉ l.names ∧ l.names.Nodup := by
  rw [names_enroll, ← List.concat_eq_append, List.nodup_concat]

/-- A call keeps names apart exactly if it does not repeat one. -/
theorem nodup_names_next_iff :
    (next model d l call).names.Nodup ↔ l.names.Nodup ∧ ¬ Repeats model d l call := by
  cases known : l.known? call with
  | some id =>
    have never : ¬ Repeats model d l call := fun repeats => by
      rw [repeats.1] at known
      cases known
    rw [next_of_known known, and_iff_left never]
  | none =>
    cases found : candidate? model d call with
    | none =>
      have never : ¬ Repeats model d l call := by
        rintro ⟨-, p, other, -⟩
        rw [other] at found
        cases found
      rw [next_of_nobody known found, and_iff_left never]
    | some p =>
      have repeats : Repeats model d l call ↔ p.name ∈ l.names := by
        constructor
        · rintro ⟨-, q, other, mem⟩
          rw [other] at found
          cases found
          exact mem
        · intro mem
          exact ⟨known, p, found, mem⟩
      rw [next_of_candidate known found, nodup_names_enroll_iff, repeats, and_comm]

/-- A call that asks for the name of what it finds keeps a lineup distinct: if the name is there it
is known, so the call lists nothing. -/
theorem Distinct.next (h : l.Distinct) (own : AsksForOwnName model d call) :
    (next model d l call).Distinct := by
  refine next_cases h fun p unknown found => ?_
  have asked := own p found
  have new : l.ids.find? p.name = none := by
    rw [known?, asked, Option.bind_some] at unknown
    exact unknown
  have absent : p.name ∉ l.names := by
    intro mem
    obtain ⟨q, listed, same⟩ := List.mem_map.mp mem
    rw [← same, h.ids q listed] at new
    cases new
  refine ⟨nodup_names_enroll_iff.mpr ⟨absent, h.nodup⟩, ?_⟩
  · intro q mem
    rw [participants_enroll, List.mem_append, List.mem_singleton] at mem
    rw [find?_enroll]
    rcases mem with before | rfl
    · rw [h.ids q before, Option.some_or]
    · rw [new, Option.none_or, if_pos (.inl rfl)]

theorem distinct_empty : Distinct empty := ⟨List.nodup_nil, nofun⟩

theorem Distinct.after (h : l.Distinct) {calls : List Call}
    (own : ∀ call ∈ calls, AsksForOwnName model d call) : (after model d l calls).Distinct := by
  induction calls generalizing l with
  | nil => exact h
  | cons call calls ih =>
    exact ih (h.next (own call List.mem_cons_self)) fun other mem =>
      own other (List.mem_cons_of_mem call mem)

/-- In a distinct lineup, a call that asks for a name that is listed is answered with the identifier
of the participant that has it, and lists nothing. -/
theorem Distinct.reply_of_mem (h : l.Distinct) {p : Participant} (mem : p ∈ l.participants)
    (asked : call.key? = some p.name) :
    reply model d l call = some p.id ∧ Lineup.next model d l call = l := by
  have known : l.known? call = some p.id := by
    rw [known?, asked, Option.bind_some, h.ids p mem]
  exact ⟨reply_of_known known, next_of_known known⟩

/-- A run lists no name twice exactly if none of its calls repeats one. -/
theorem nodup_names_after_iff (calls : List Call) :
    (after model d empty calls).names.Nodup ↔
      ∀ before call later, calls = before ++ call :: later →
        ¬ Repeats model d (after model d empty before) call := by
  induction calls using List.reverseRecOn with
  | nil => exact ⟨fun _ before call later split => by simp at split, fun _ => List.nodup_nil⟩
  | append_singleton past last ih =>
    rw [after_concat, nodup_names_next_iff, ih, forall_split_concat_iff]

/-- Whether a run lists a name twice. It does not exactly if every call that finds a participant
with a name that is there asks for a name that is known. That is so in every run whose calls ask
for the names of what they find; there, such a call is answered with the identifier of the
participant that is there, and nothing is listed. -/
theorem nodup_names_iff (model : SemanticModel) (d : Document) (calls : List Call) :
    ((after model d empty calls).names.Nodup ↔
      ∀ before call later, calls = before ++ call :: later →
        ∀ p, candidate? model d call = some p → p.name ∈ (after model d empty before).names →
          ((after model d empty before).known? call).isSome = true) ∧
    ((∀ call ∈ calls, AsksForOwnName model d call) →
      (after model d empty calls).names.Nodup ∧
      ∀ before call later, calls = before ++ call :: later →
        ∀ p, candidate? model d call = some p →
          ∀ q ∈ (after model d empty before).participants, q.name = p.name →
            reply model d (after model d empty before) call = some q.id ∧
            next model d (after model d empty before) call = after model d empty before) := by
  constructor
  · rw [nodup_names_after_iff]
    constructor
    · intro never before call later split p found mem
      exact Option.isSome_iff_ne_none.mpr fun unknown =>
        never before call later split ⟨unknown, p, found, mem⟩
    · rintro known before call later split ⟨unknown, p, found, mem⟩
      have isKnown := known before call later split p found mem
      rw [unknown] at isKnown
      cases isKnown
  · intro own
    refine ⟨(distinct_empty.after own).nodup, ?_⟩
    rintro before call later rfl p found q mem same
    have distinct : (after model d empty before).Distinct :=
      distinct_empty.after fun other mem => own other (List.mem_append_left _ mem)
    have asked := own call (List.mem_append_right _ List.mem_cons_self) p found
    exact distinct.reply_of_mem mem (by rw [asked, same])

/-- A name can be listed twice. A quoted identifier is another name than the plain one and stands
for the same function, so a reference by it behind a plain one lists the function once more, and
the list holds one participant twice. -/
theorem names_of_quoted_reference :
    let plain : Tree.Site := ⟨.nameReference, 17, [.token .identifier "helper"]⟩
    let quoted : Tree.Site := ⟨.nameReference, 24, [.token .identifier "'helper"]⟩
    let definition : Tree.Element :=
      .node .functionDefinition
        [.token .functionKeyword "function", .token .whitespace " ", .token .identifier "helper"]
    let d : Document :=
      ⟨"main.bal",
        ⟨.sourceFile,
          [definition, .token .whitespace "; ", .node plain.kind plain.children,
            .token .whitespace " ", .node quoted.kind quoted.children]⟩⟩
    let helper : Symbol :=
      .function ⟨"helper", none, [], some ⟨"wso2", "orders", "0.1.0"⟩, some ⟨0, 15, by decide⟩⟩
    let model := ((Snapshot.empty.bind plain helper).bind quoted helper).model
    let l := after model d empty [.reference plain "main", .reference quoted "main"]
    plain ∈ d.root.nodes ∧ quoted ∈ d.root.nodes ∧
      ∃ p : Participant, p.name = "helper" ∧ l.participants = [p, p] ∧ ¬ l.names.Nodup := by
  intro plain quoted definition d helper model l
  refine ⟨?_, ?_, ?_⟩
  · exact .tail _ (.tail _ (.head _))
  · exact .tail _ (.tail _ (.tail _ (.head _)))
  · refine ⟨_, rfl, rfl, ?_⟩
    decide +kernel

end FlowDiagram.Lineup
