import Mathlib.Data.List.DropRight
import FlowDiagram.Client.Basic
import FlowDiagram.Proofs.Fingerprint

/-!
# What a draft delivers

One draft serves for many clients. `Describes` tells a client from the calls to the draft and not
from the draft: a name, a place and a scope are the last ones that were given, the kind is that of
an HTTP client once its type has been named, and flags add up. A client that is delivered is what
the calls since the delivery before describe, and no call before that matters (`delivered_exact`).
-/

namespace FlowDiagram.ClientDraft

/-- A call to a draft: to learn a fact, in a source text, or to deliver the client. -/
inductive Call where
  | learn (source : SourceText) (fact : Fact)
  | deliver

namespace Call

def isDeliver : Call → Bool
  | .learn _ _ => false
  | .deliver => true

def name? : Call → Option String
  | .learn _ (.variable v) => some v.name
  | _ => none

/-- The place that a call gives: a variable may have none. -/
def place? : Call → Option LineRange
  | .learn source (.variable v) => v.location.map source.lineRange
  | _ => none

def scope? : Call → Option ClientScope
  | .learn _ (.scope scope) => some scope
  | _ => none

def flag? : Call → Option UInt32
  | .learn _ (.flag flag) => some flag
  | _ => none

/-- Whether a call names the type of HTTP clients, in exactly this spelling. -/
def namesHttp : Call → Bool
  | .learn _ (.signature text) => text = "http:Client"
  | _ => false

end Call

/-- The client that a call delivers, if it does, and the draft that it leaves. -/
def answer (d : ClientDraft) : Call → Option Client × ClientDraft
  | .learn source fact => (none, d.learn source fact)
  | .deliver => (some d.deliver.1, d.deliver.2)

def after (d : ClientDraft) (calls : List Call) : ClientDraft :=
  calls.foldl (fun d call => (d.answer call).2) d

/-- The clients that calls deliver, one after the other. -/
def delivered (d : ClientDraft) : List Call → List Client
  | [] => []
  | call :: calls => (d.answer call).1.toList ++ (d.answer call).2.delivered calls

/-- The calls behind the last delivery. -/
def sinceDelivery (calls : List Call) : List Call := calls.rtakeWhile fun call => !call.isDeliver

/-- A client is as calls tell: each of its parts is told by some of them, and what no call tells is
as for a client of which nothing is known. -/
structure Describes (calls : List Call) (client : Client) : Prop where
  value : client.value = (calls.filterMap Call.name?).getLast?
  lineRange : client.lineRange = (calls.filterMap Call.place?).getLast?
  kind : client.kind = if calls.any Call.namesHttp then .http else .other
  label : client.label = if calls.any Call.namesHttp then "HTTP Client" else "Client"
  scope : client.scope = (calls.filterMap Call.scope?).getLast?.getD .global
  flags : ∀ bit, client.flags.toNat.testBit bit =
    (calls.filterMap Call.flag?).any fun flag => flag.toNat.testBit bit
  id : client.id =
    String.ofList (Nat.toDigits 10 (Fingerprint.hash (Fingerprint.rangeNumbers client.lineRange)))

/-! ### One fact -/

section Learn

variable (d : ClientDraft) (source : SourceText) (fact : Fact)

@[simp] theorem value_typed (text : String) : (d.typed text).value = d.value := by
  unfold typed
  split <;> rfl

@[simp] theorem lineRange_typed (text : String) : (d.typed text).lineRange = d.lineRange := by
  unfold typed
  split <;> rfl

@[simp] theorem scope_typed (text : String) : (d.typed text).scope = d.scope := by
  unfold typed
  split <;> rfl

@[simp] theorem flags_typed (text : String) : (d.typed text).flags = d.flags := by
  unfold typed
  split <;> rfl

theorem value_learn :
    (d.learn source fact).value = (Call.learn source fact).name?.or d.value := by
  cases fact with
  | signature text => exact d.value_typed text
  | _ => rfl

/-- A variable without a place leaves the place of the one before. -/
theorem lineRange_learn :
    (d.learn source fact).lineRange = (Call.learn source fact).place?.or d.lineRange := by
  cases fact with
  | «variable» v => cases h : v.location <;> simp [learn, declaredBy, Call.place?, h]
  | signature text => exact d.lineRange_typed text
  | _ => rfl

theorem scope_learn :
    (d.learn source fact).scope = (Call.learn source fact).scope?.getD d.scope := by
  cases fact with
  | signature text => exact d.scope_typed text
  | _ => rfl

/-- A flag adds its bits, and nothing takes one away. -/
theorem testBit_flags_learn (bit : Nat) :
    (d.learn source fact).flags.toNat.testBit bit =
      (d.flags.toNat.testBit bit ||
        (Call.learn source fact).flag?.any fun flag => flag.toNat.testBit bit) := by
  cases fact with
  | flag flag => simp [learn, flagged, Call.flag?, UInt32.toNat_or, Nat.testBit_or]
  | _ => simp [learn, declaredBy, declaredIn, Call.flag?]

theorem kind_learn :
    (d.learn source fact).kind = if (Call.learn source fact).namesHttp then .http else d.kind := by
  cases fact with
  | signature text =>
    by_cases h : text = "http:Client" <;>
      simp [learn, typed, ClientKind.httpSignature, Call.namesHttp, h]
  | _ => rfl

/-- The label changes with the kind. -/
theorem label_learn :
    (d.learn source fact).label =
      if (Call.learn source fact).namesHttp then "HTTP Client" else d.label := by
  cases fact with
  | signature text =>
    by_cases h : text = "http:Client" <;>
      simp [learn, typed, ClientKind.httpSignature, Call.namesHttp, ClientKind.label, h]
  | _ => rfl

end Learn

/-! ### The calls since a delivery -/

theorem getLast?_filterMap_concat {α : Type} (f : Call → Option α) (calls : List Call)
    (call : Call) :
    ((calls ++ [call]).filterMap f).getLast? = (f call).or (calls.filterMap f).getLast? := by
  rw [List.filterMap_append, List.getLast?_append]
  cases h : f call <;> simp [h]

theorem describes_empty : Describes [] empty.client where
  value := rfl
  lineRange := rfl
  kind := rfl
  label := rfl
  scope := rfl
  flags bit := Nat.zero_testBit bit
  id := Fingerprint.ofRange_eq none

/-- The draft that has learned a fact more is told by a call more. -/
theorem Describes.learn {d : ClientDraft} {calls : List Call} (h : Describes calls d.client)
    (source : SourceText) (fact : Fact) :
    Describes (calls ++ [.learn source fact]) (d.learn source fact).client where
  value := by
    rw [getLast?_filterMap_concat, ← h.value]
    exact d.value_learn source fact
  lineRange := by
    rw [getLast?_filterMap_concat, ← h.lineRange]
    exact d.lineRange_learn source fact
  kind := by
    have before : d.kind = if calls.any Call.namesHttp then .http else .other := h.kind
    refine (d.kind_learn source fact).trans ?_
    rw [before, List.any_append, List.any_cons, List.any_nil, Bool.or_false, Bool.or_comm]
    cases (Call.learn source fact).namesHttp <;> rfl
  label := by
    have before : d.label = if calls.any Call.namesHttp then "HTTP Client" else "Client" := h.label
    refine (d.label_learn source fact).trans ?_
    rw [before, List.any_append, List.any_cons, List.any_nil, Bool.or_false, Bool.or_comm]
    cases (Call.learn source fact).namesHttp <;> rfl
  scope := by
    have before : d.scope = (calls.filterMap Call.scope?).getLast?.getD .global := h.scope
    rw [getLast?_filterMap_concat, Option.getD_or, ← before]
    exact d.scope_learn source fact
  flags bit := by
    have before : d.flags.toNat.testBit bit =
      (calls.filterMap Call.flag?).any fun flag => flag.toNat.testBit bit := h.flags bit
    refine (d.testBit_flags_learn source fact bit).trans ?_
    rw [before, List.filterMap_append, List.any_append]
    cases given : (Call.learn source fact).flag? <;> simp [given]
  id := Fingerprint.ofRange_eq _

/-- What calls tell makes up all of a client. -/
theorem Describes.unique {calls : List Call} {c c' : Client} (h : Describes calls c)
    (h' : Describes calls c') : c = c' := by
  have lineRange : c.lineRange = c'.lineRange := h.lineRange.trans h'.lineRange.symm
  have flags : c.flags = c'.flags := by
    apply UInt32.toNat_inj.mp
    apply Nat.eq_of_testBit_eq
    intro bit
    rw [h.flags, h'.flags]
  have id : c.id = c'.id := by rw [h.id, h'.id, lineRange]
  have label : c.label = c'.label := h.label.trans h'.label.symm
  have kind : c.kind = c'.kind := h.kind.trans h'.kind.symm
  have scope : c.scope = c'.scope := h.scope.trans h'.scope.symm
  have value : c.value = c'.value := h.value.trans h'.value.symm
  cases c
  cases c'
  simp_all only

theorem after_concat (d : ClientDraft) (calls : List Call) (call : Call) :
    d.after (calls ++ [call]) = ((d.after calls).answer call).2 := List.foldl_concat ..

theorem sinceDelivery_concat (calls : List Call) (call : Call) :
    sinceDelivery (calls ++ [call]) =
      if call.isDeliver then [] else sinceDelivery calls ++ [call] := by
  rw [sinceDelivery, List.rtakeWhile_concat]
  cases call.isDeliver <;> rfl

/-- After every run a draft has become what the calls since the last delivery tell. -/
theorem describes_after (calls : List Call) :
    Describes (sinceDelivery calls) (empty.after calls).client := by
  induction calls using List.reverseRecOn with
  | nil => exact describes_empty
  | append_singleton past last ih =>
    rw [after_concat, sinceDelivery_concat]
    cases last with
    | learn source fact => exact ih.learn source fact
    | deliver => exact describes_empty

/-! ### Deliveries -/

theorem delivered_append (d : ClientDraft) (first second : List Call) :
    d.delivered (first ++ second) = d.delivered first ++ (d.after first).delivered second := by
  induction first generalizing d with
  | nil => rfl
  | cons call first ih =>
    rw [List.cons_append, delivered, ih, delivered, List.append_assoc]
    rfl

theorem length_delivered (d : ClientDraft) (calls : List Call) :
    (d.delivered calls).length = calls.countP Call.isDeliver := by
  induction calls generalizing d with
  | nil => rfl
  | cons call calls ih =>
    rw [delivered, List.length_append, ih, List.countP_cons]
    cases call with
    | learn source fact => exact Nat.zero_add _
    | deliver => exact Nat.add_comm _ _

/-- A delivery delivers the client that the draft has become by then. -/
theorem getElem?_delivered (d : ClientDraft) (past later : List Call) :
    (d.delivered (past ++ .deliver :: later))[past.countP Call.isDeliver]? =
      some (d.after past).client := by
  rw [delivered_append, ← d.length_delivered past, List.getElem?_append_right (Nat.le_refl _),
    Nat.sub_self]
  rfl

theorem id_of_mem_delivered {d : ClientDraft} {calls : List Call} {client : Client}
    (h : client ∈ d.delivered calls) : client.id = Fingerprint.ofRange client.lineRange := by
  induction calls generalizing d with
  | nil => cases h
  | cons call calls ih =>
    rcases List.mem_append.mp h with here | later
    · cases call with
      | learn source fact => cases here
      | deliver =>
        obtain rfl := List.mem_singleton.mp here
        rfl
    · exact ih later

/-- What a draft delivers. Each delivery delivers one client, and it is told, in all its parts, by
the calls since the delivery before, whatever came before that: the name is the last one given, the
line range that of the last variable that had a place, the scope the last one given, the kind and
the label are those of an HTTP client just if its type was named, and of the flags every bit is kept
that one of them had. The identifier is the hash of the line range in decimal digits, so clients with
one line range have one identifier, whatever the drafts went through. -/
theorem delivered_exact :
    (∀ calls, (empty.delivered calls).length = calls.countP Call.isDeliver) ∧
    (∀ past later client,
      (empty.delivered (past ++ .deliver :: later))[past.countP Call.isDeliver]? = some client ↔
        Describes (sinceDelivery past) client) ∧
    ∀ calls calls' client client',
      client ∈ empty.delivered calls → client' ∈ empty.delivered calls' →
        client.lineRange = client'.lineRange → client.id = client'.id := by
  refine ⟨empty.length_delivered, ?_, ?_⟩
  · intro past later client
    rw [getElem?_delivered, Option.some.injEq]
    have described := describes_after past
    constructor
    · rintro rfl
      exact described
    · intro told
      exact described.unique told
  · intro calls calls' client client' mem mem' same
    rw [id_of_mem_delivered mem, id_of_mem_delivered mem', same]

/-- A variable without a place leaves the place that is known, and with it the identifier. -/
theorem delivered_exact_of_two_variables :
    let source := SourceText.ofString "a b"
    let a : Variable := ⟨"a", .basic .any, .moduleLevel, none, some ⟨0, 1, by decide⟩⟩
    let b : Variable := { a with name := "b", location := none }
    let past : List Call :=
      [.learn source (.variable a), .learn source (.signature "http:Client"), .deliver,
        .learn source (.variable a), .learn source (.signature "Client"), .learn source (.flag 4),
        .learn source (.variable b), .learn source (.flag 5)]
    (empty.delivered (past ++ [.deliver]))[1]? = some
      { id := "10728880441624730179"
        label := "Client"
        kind := .other
        lineRange := some ⟨⟨0, 0⟩, ⟨0, 1⟩⟩
        scope := .global
        value := some "b"
        flags := 5 } := by
  intro source a b past
  obtain ⟨-, described, -⟩ := delivered_exact
  have place : source.lineRange ⟨0, 1, by decide⟩ = ⟨⟨0, 0⟩, ⟨0, 1⟩⟩ := by decide +kernel
  have flags (bit : Nat) : (5 : UInt32).toNat.testBit bit =
      ([4, 5] : List UInt32).any fun flag => flag.toNat.testBit bit := by
    rw [show (5 : UInt32) = 4 ||| 5 from rfl, UInt32.toNat_or, Nat.testBit_or]
    simp
  exact (described past [] _).mpr
    ⟨rfl, congrArg some place.symm, rfl, rfl, rfl, flags, by decide +kernel⟩

end FlowDiagram.ClientDraft
