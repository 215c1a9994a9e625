import Mathlib.Data.List.Induction
import FlowDiagram.Tree.Event

/-!
# Sequences of events

What a sequence of events says of the tree that it replays, told from the events alone: the text,
the offsets of the marks, what stands at the top, and which events do not fit those before them
(`misuse?`). Either all events fit, or one is the first that does not.
-/

namespace FlowDiagram

/-- A property of all elements of a list with what stands before them: it holds of a longer list if it
holds of the front and of the last element. -/
theorem forall_split_concat_iff {α : Type} {P : List α → α → Prop} {xs : List α} {x : α} :
    (∀ before y after, xs ++ [x] = before ++ y :: after → P before y) ↔
      (∀ before y after, xs = before ++ y :: after → P before y) ∧ P xs x := by
  constructor
  · intro h
    exact ⟨fun before y after split => h before y (after ++ [x]) (by rw [split]; simp),
      h xs x [] rfl⟩
  · rintro ⟨front, last⟩ before y after split
    cases after using List.reverseRecOn with
    | nil =>
      obtain ⟨rfl, rfl⟩ : xs = before ∧ x = y := by simpa using split
      exact last
    | append_singleton after _ =>
      rw [← List.cons_append, ← List.append_assoc] at split
      exact front before y after (List.append_inj_left' split rfl)

end FlowDiagram

namespace FlowDiagram.Tree

namespace Event

def isStart : Event → Bool
  | .start _ => true
  | _ => false

def isFinish : Event → Bool
  | .finish => true
  | _ => false

def isMark : Event → Bool
  | .mark => true
  | _ => false

def beginsElement : Event → Bool
  | .start _ => true
  | .token _ _ => true
  | _ => false

/-- The characters that an event adds to the text. -/
def chars : Event → List Char
  | .token _ text => text.toList
  | _ => []

@[simp] theorem isStart_start (kind : Kind) : (start kind).isStart = true := rfl
@[simp] theorem isStart_token (kind : Kind) (text : String) :
    (token kind text).isStart = false := rfl
@[simp] theorem isStart_finish : finish.isStart = false := rfl
@[simp] theorem isStart_mark : mark.isStart = false := rfl

@[simp] theorem isFinish_start (kind : Kind) : (start kind).isFinish = false := rfl
@[simp] theorem isFinish_token (kind : Kind) (text : String) :
    (token kind text).isFinish = false := rfl
@[simp] theorem isFinish_finish : finish.isFinish = true := rfl
@[simp] theorem isFinish_mark : mark.isFinish = false := rfl

@[simp] theorem isMark_start (kind : Kind) : (start kind).isMark = false := rfl
@[simp] theorem isMark_token (kind : Kind) (text : String) :
    (token kind text).isMark = false := rfl
@[simp] theorem isMark_finish : finish.isMark = false := rfl
@[simp] theorem isMark_mark : mark.isMark = true := rfl

@[simp] theorem beginsElement_start (kind : Kind) : (start kind).beginsElement = true := rfl
@[simp] theorem beginsElement_token (kind : Kind) (text : String) :
    (token kind text).beginsElement = true := rfl
@[simp] theorem beginsElement_finish : finish.beginsElement = false := rfl
@[simp] theorem beginsElement_mark : mark.beginsElement = false := rfl

@[simp] theorem chars_start (kind : Kind) : (start kind).chars = [] := rfl
@[simp] theorem chars_token (kind : Kind) (text : String) :
    (token kind text).chars = text.toList := rfl
@[simp] theorem chars_finish : finish.chars = [] := rfl
@[simp] theorem chars_mark : mark.chars = [] := rfl

end Event

def starts (events : List Event) : Nat := events.countP Event.isStart

def finishes (events : List Event) : Nat := events.countP Event.isFinish

/-- The characters of all tokens of events. -/
def spelled (events : List Event) : List Char := events.flatMap Event.chars

def unmarked (events : List Event) : List Event := events.filter fun e => !e.isMark

/-- Events, each with those before it. -/
def moments (past : List Event) : List Event → List (List Event × Event)
  | [] => []
  | e :: es => (past, e) :: moments (past ++ [e]) es

/-- For each mark of a sequence, the number of bytes of the tokens before it. -/
def markOffsets (events : List Event) : List Nat :=
  (moments [] events).filterMap fun (past, e) =>
    if e.isMark then some (Text.width (spelled past)) else none

/-- The events that begin an element where no node is open. -/
def topLevel (events : List Event) : List Event :=
  (moments [] events).filterMap fun (past, e) =>
    if e.beginsElement && starts past == finishes past then some e else none

/-- What is wrong with an event behind others. -/
def misuse? (past : List Event) : Event → Option Misuse
  | .start kind => if kind.isToken then some (.startsToken kind) else none
  | .token kind _ => if kind.isToken then none else some (.tokenIsNode kind)
  | .finish => if starts past ≤ finishes past then some .nothingOpen else none
  | .mark => none

/-- Every event fits those before it. -/
def AllFit (events : List Event) : Prop :=
  ∀ before e after, events = before ++ e :: after → misuse? before e = none

/-- The first event that does not fit those before it stands at an index. -/
def FirstMisuse (events : List Event) (index : Nat) (misuse : Misuse) : Prop :=
  ∃ before e after, events = before ++ e :: after ∧ before.length = index ∧ AllFit before ∧
    misuse? before e = some misuse

/-- The events that replay a tree: starts open nodes, tokens are tokens, no node is closed that is
not open, all nodes are closed at the end, and there is one element at the top, a node. -/
structure WellFormed (events : List Event) : Prop where
  starts_nodes : ∀ kind, .start kind ∈ events → kind.isToken = false
  tokens_tokens : ∀ kind text, .token kind text ∈ events → kind.isToken = true
  never_under : ∀ past, past <+: events → finishes past ≤ starts past
  balanced : finishes events = starts events
  one_node : ∃ kind, topLevel events = [.start kind]

@[simp] theorem starts_nil : starts [] = 0 := rfl

@[simp] theorem finishes_nil : finishes [] = 0 := rfl

@[simp] theorem starts_cons (e : Event) (es : List Event) :
    starts (e :: es) = starts es + if e.isStart then 1 else 0 := List.countP_cons ..

@[simp] theorem finishes_cons (e : Event) (es : List Event) :
    finishes (e :: es) = finishes es + if e.isFinish then 1 else 0 := List.countP_cons ..

@[simp] theorem starts_append (as bs : List Event) : starts (as ++ bs) = starts as + starts bs :=
  List.countP_append

@[simp] theorem finishes_append (as bs : List Event) :
    finishes (as ++ bs) = finishes as + finishes bs := List.countP_append

@[simp] theorem spelled_nil : spelled [] = [] := rfl

@[simp] theorem spelled_cons (e : Event) (es : List Event) :
    spelled (e :: es) = e.chars ++ spelled es := List.flatMap_cons

@[simp] theorem spelled_append (as bs : List Event) :
    spelled (as ++ bs) = spelled as ++ spelled bs := List.flatMap_append

@[simp] theorem unmarked_nil : unmarked [] = [] := rfl

@[simp] theorem unmarked_cons (e : Event) (es : List Event) :
    unmarked (e :: es) = if e.isMark then unmarked es else e :: unmarked es := by
  cases h : e.isMark <;> simp [unmarked, h]

@[simp] theorem unmarked_append (as bs : List Event) :
    unmarked (as ++ bs) = unmarked as ++ unmarked bs := List.filter_append ..

theorem moments_append (past es rest : List Event) :
    moments past (es ++ rest) = moments past es ++ moments (past ++ es) rest := by
  induction es generalizing past with
  | nil => simp [moments]
  | cons e es ih => simp [moments, ih]

theorem moments_concat (past es : List Event) (e : Event) :
    moments past (es ++ [e]) = moments past es ++ [(past ++ es, e)] := moments_append past es [e]

theorem markOffsets_concat (es : List Event) (e : Event) :
    markOffsets (es ++ [e]) =
      markOffsets es ++ if e.isMark then [Text.width (spelled es)] else [] := by
  cases h : e.isMark <;> simp [markOffsets, moments_concat, h]

theorem topLevel_concat (es : List Event) (e : Event) :
    topLevel (es ++ [e]) =
      topLevel es ++ if e.beginsElement && starts es == finishes es then [e] else [] := by
  cases h : e.beginsElement && starts es == finishes es <;>
    simp_all [topLevel, moments_concat]

theorem spelled_unmarked (events : List Event) : spelled (unmarked events) = spelled events := by
  induction events using List.reverseRecOn with
  | nil => rfl
  | append_singleton es e ih => cases e <;> simp [ih]

theorem allFit_nil : AllFit [] := by
  intro before e after h
  simp at h

theorem AllFit.of_isPrefix {past events : List Event} (h : AllFit events)
    (front : past <+: events) : AllFit past := by
  obtain ⟨rest, rfl⟩ := front
  rintro before e after rfl
  exact h before e (after ++ rest) (by simp)

theorem allFit_concat {es : List Event} {e : Event} :
    AllFit (es ++ [e]) ↔ AllFit es ∧ misuse? es e = none := forall_split_concat_iff

/-- Either every event fits, or one is the first that does not. -/
theorem allFit_or_firstMisuse (events : List Event) :
    AllFit events ∨ ∃ index misuse, FirstMisuse events index misuse := by
  induction events using List.reverseRecOn with
  | nil => exact .inl allFit_nil
  | append_singleton es e ih =>
    rcases ih with fits | ⟨index, misuse, before, e', after, rfl, place, fits, wrong⟩
    · cases wrong : misuse? es e with
      | none => exact .inl (allFit_concat.mpr ⟨fits, wrong⟩)
      | some misuse => exact .inr ⟨_, misuse, es, e, [], rfl, rfl, fits, wrong⟩
    · exact .inr ⟨index, misuse, before, e', after ++ [e], by simp, place, fits, wrong⟩

theorem FirstMisuse.not_allFit {events : List Event} {index : Nat} {misuse : Misuse}
    (h : FirstMisuse events index misuse) : ¬ AllFit events := by
  obtain ⟨before, e, after, split, -, -, wrong⟩ := h
  intro fits
  rw [fits before e after split] at wrong
  cases wrong

/-- Events fit as long as kinds are right and no more nodes are closed than opened. -/
theorem allFit_iff {events : List Event} :
    AllFit events ↔ (∀ kind, .start kind ∈ events → kind.isToken = false) ∧
      (∀ kind text, .token kind text ∈ events → kind.isToken = true) ∧
      ∀ past, past <+: events → finishes past ≤ starts past := by
  constructor
  · intro h
    refine ⟨fun kind mem => ?_, fun kind text mem => ?_, fun past front => ?_⟩
    · obtain ⟨before, after, split⟩ := List.append_of_mem mem
      simpa [misuse?] using h _ _ _ split
    · obtain ⟨before, after, split⟩ := List.append_of_mem mem
      simpa [misuse?] using h _ _ _ split
    · have fits := h.of_isPrefix front
      clear front
      induction past using List.reverseRecOn with
      | nil => exact Nat.le_refl _
      | append_singleton past e ih =>
        obtain ⟨fits, last⟩ := allFit_concat.mp fits
        have before := ih fits
        rw [finishes_append, starts_append]
        cases e with
        | finish =>
          have open_node : ¬ starts past ≤ finishes past := by simpa [misuse?] using last
          simp
          omega
        | start kind => exact Nat.le_succ_of_le before
        | token kind text => exact before
        | mark => exact before
  · rintro ⟨starts_nodes, tokens_tokens, never_under⟩ before e after rfl
    cases e with
    | start kind => simp [misuse?, starts_nodes kind (by simp)]
    | token kind text => simp [misuse?, tokens_tokens kind text (by simp)]
    | mark => rfl
    | finish =>
      have under := never_under (before ++ [.finish]) ⟨after, by simp⟩
      rw [finishes_append, starts_append] at under
      have open_node : ¬ starts before ≤ finishes before := Nat.not_le_of_lt under
      simp [misuse?, open_node]

end FlowDiagram.Tree
