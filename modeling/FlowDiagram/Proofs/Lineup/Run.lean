import FlowDiagram.Proofs.Lineup.Call
import FlowDiagram.Proofs.Lineup.Reference

/-!
# Runs of a lineup

What holds of a lineup however it was used. A lineup only grows (`Extends`), and what it remembers
fits what it lists (`Coherent`): every identifier that is known is that of a participant, and every
participant is known by its name. One call keeps both, whatever it is for, and so does every run.
-/

namespace FlowDiagram.Lineup

/-- One lineup goes on from another: its participants follow those of the other, and it remembers
what the other remembers. -/
structure Extends (l l' : Lineup) : Prop where
  participants : l.participants <+: l'.participants
  ids : ∀ name id, l.ids.find? name = some id → l'.ids.find? name = some id

/-- What a lineup remembers fits what it lists. -/
structure Coherent (l : Lineup) : Prop where
  listed : ∀ name id, l.ids.find? name = some id → ∃ p ∈ l.participants, p.id = id
  named : ∀ p ∈ l.participants, (l.ids.find? p.name).isSome = true

theorem Extends.refl (l : Lineup) : l.Extends l := ⟨List.prefix_rfl, fun _ _ known => known⟩

theorem Extends.trans {l l' l'' : Lineup} (first : l.Extends l') (second : l'.Extends l'') :
    l.Extends l'' where
  participants := first.participants.trans second.participants
  ids name id known := second.ids name id (first.ids name id known)

theorem extends_enroll (l : Lineup) (call : Call) (p : Participant) :
    l.Extends (l.enroll call p) where
  participants := by
    rw [participants_enroll]
    exact List.prefix_append _ _
  ids name id known := by rw [find?_enroll, known, Option.some_or]

theorem coherent_empty : Coherent empty := ⟨nofun, nofun⟩

/-- Listing a participant keeps a lineup coherent: all that becomes known is the identifier of this
participant, and its name is among the names that do. -/
theorem Coherent.enroll {l : Lineup} (h : l.Coherent) (call : Call) (p : Participant) :
    (l.enroll call p).Coherent where
  listed name id known := by
    rw [participants_enroll]
    rw [find?_enroll, Option.or_eq_some_iff] at known
    rcases known with before | ⟨-, added⟩
    · obtain ⟨q, mem, same⟩ := h.listed name id before
      exact ⟨q, List.mem_append_left _ mem, same⟩
    · have same : p.id = id := Option.some.inj (Option.ite_none_right_eq_some.mp added).2
      exact ⟨p, List.mem_append_right _ List.mem_cons_self, same⟩
  named q mem := by
    rw [participants_enroll, List.mem_append, List.mem_singleton] at mem
    rw [find?_enroll, Option.isSome_or, Bool.or_eq_true]
    rcases mem with before | rfl
    · exact .inl (h.named q before)
    · rw [if_pos (.inl rfl)]
      exact .inr rfl

variable {model : SemanticModel} {d : Document}

theorem extends_next (l : Lineup) (call : Call) : l.Extends (next model d l call) :=
  next_cases (Extends.refl l) fun p _ _ => extends_enroll l call p

theorem Coherent.next {l : Lineup} (h : l.Coherent) (call : Call) :
    (next model d l call).Coherent :=
  next_cases h fun p _ _ => h.enroll call p

variable (model d)

def after (l : Lineup) (calls : List Call) : Lineup := calls.foldl (next model d) l

def replies (l : Lineup) : List Call → List (Option String)
  | [] => []
  | call :: calls => reply model d l call :: replies (next model d l call) calls

theorem after_append (l : Lineup) (past future : List Call) :
    after model d l (past ++ future) = after model d (after model d l past) future :=
  List.foldl_append

theorem after_concat (l : Lineup) (past : List Call) (call : Call) :
    after model d l (past ++ [call]) = next model d (after model d l past) call :=
  after_append model d l past [call]

theorem replies_concat (l : Lineup) (past : List Call) (call : Call) :
    replies model d l (past ++ [call]) =
      replies model d l past ++ [reply model d (after model d l past) call] := by
  induction past generalizing l with
  | nil => rfl
  | cons first past ih =>
    exact congrArg (reply model d l first :: ·) (ih (next model d l first))

theorem extends_after (l : Lineup) (calls : List Call) : l.Extends (after model d l calls) := by
  induction calls generalizing l with
  | nil => exact Extends.refl l
  | cons call calls ih => exact (extends_next l call).trans (ih (next model d l call))

theorem Coherent.after {l : Lineup} (h : l.Coherent) (calls : List Call) :
    (after model d l calls).Coherent := by
  induction calls generalizing l with
  | nil => exact h
  | cons call calls ih => exact ih (h.next call)

variable {model d}

/-- The identifier that a call answers with is one that the lineup lists, before the call or through
it. -/
theorem exists_of_reply {l : Lineup} (h : l.Coherent) {call : Call} {id : String}
    (answered : reply model d l call = some id) :
    ∃ p ∈ (next model d l call).participants, p.id = id := by
  have ends := ends_next model d l call
  rw [answered] at ends
  generalize next model d l call = l' at ends ⊢
  cases ends with
  | known known =>
    obtain ⟨key, -, remembered⟩ := Option.bind_eq_some_iff.mp known
    exact h.listed key id remembered
  | listed unknown appended =>
    refine ⟨_, ?_, rfl⟩
    rw [appended]
    exact List.mem_append_right _ List.mem_cons_self

/-- The identifier that a reference is answered with is remembered by the name that it goes by. -/
theorem find?_of_reply {l : Lineup} {node : Tree.Site} {sourceId id : String}
    (answered : reply model d l (.reference node sourceId) = some id) :
    (next model d l (.reference node sourceId)).ids.find? node.referencedName = some id := by
  cases known : l.known? (.reference node sourceId) with
  | some other =>
    rw [reply_of_known known] at answered
    rw [next_of_known known, ← answered]
    exact known
  | none =>
    rw [reply_of_unknown known, Option.map_eq_some_iff] at answered
    obtain ⟨p, found, rfl⟩ := answered
    have new : l.ids.find? node.referencedName = none := known
    rw [next_of_candidate known found, find?_enroll, new, Option.none_or, if_pos (.inr rfl)]

/-- A call in the middle of a run. A reference goes by its last identifier at any depth, or else by
its text without the white space at its ends. The call ends in one of three ways: the name that it
asks for is known, and it is answered with the identifier that is remembered, without any change;
it finds nobody, and changes nothing; it lists exactly one participant, and answers with the
identifier of that one. The list only grows at its end. At any later time, every identifier that
was answered or is remembered is that of a listed participant, every participant is known by its
name, what was remembered is remembered unchanged, and so is the answer to a reference by the name
that it goes by: every reference that goes by a known name is answered from memory, whatever it
resolves to. -/
theorem answer_exact (model : SemanticModel) (d : Document) (past : List Call) (call : Call)
    (future : List Call) :
    let l := after model d empty past
    let l' := next model d l call
    let later := after model d empty (past ++ call :: future)
    (∀ (node : Tree.Site) (name : String), node.GoesBy name ↔ node.referencedName = name) ∧
    l.Ends call (reply model d l call) l' ∧
    l.Extends l' ∧ l'.Extends later ∧ later.Coherent ∧
    (∀ id, reply model d l call = some id → ∃ p ∈ later.participants, p.id = id) ∧
    (∀ node sourceId id, call = .reference node sourceId → reply model d l call = some id →
      later.ids.find? node.referencedName = some id) ∧
    ∀ (other : SemanticModel) node sourceId id,
      later.ids.find? node.referencedName = some id →
      reply other d later (.reference node sourceId) = some id ∧
      next other d later (.reference node sourceId) = later := by
  intro l l' later
  have goesOn : later = after model d l' future := after_append model d empty past (call :: future)
  have coherent : l.Coherent := coherent_empty.after model d past
  have grows : l'.Extends later := by
    rw [goesOn]
    exact extends_after model d l' future
  refine ⟨fun node name => Tree.Site.goesBy_iff, ends_next model d l call, extends_next l call,
    grows, coherent_empty.after model d (past ++ call :: future), ?_, ?_, ?_⟩
  · intro id answered
    obtain ⟨p, mem, same⟩ := exists_of_reply coherent answered
    exact ⟨p, grows.participants.subset mem, same⟩
  · rintro node sourceId id isReference answered
    rw [isReference] at answered
    have remembered := find?_of_reply answered
    exact grows.ids _ id (by rwa [← isReference] at remembered)
  · intro other node sourceId id remembered
    have known : later.known? (.reference node sourceId) = some id := remembered
    exact ⟨reply_of_known known, next_of_known known⟩

end FlowDiagram.Lineup
