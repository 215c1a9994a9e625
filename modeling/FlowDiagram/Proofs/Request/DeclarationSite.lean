import FlowDiagram.Proofs.Lineup.Call
import FlowDiagram.Proofs.Request.Clients
import FlowDiagram.Proofs.Text.Floor

/-!
# Where a client is declared

A variable that holds a client is told of twice: in the list of the clients that are visible, and as
a participant of a lineup. Both turn its span into lines. The lineup leaves out a span that is not
inside the document, while the list has each end of it that lies behind the text count as the end of
the text, so the two agree on exactly the spans that stop inside (`TellSites`).
-/

namespace FlowDiagram

/-- An offset behind the text has the position of its end. -/
theorem SourceText.position_min_size (t : SourceText) (offset : Nat) :
    t.position (min offset t.size) = t.position offset := by
  rw [← position_floor, floor_min_size, position_floor]

namespace Document

/-- A span is inside a document unless it goes on behind the end of the text. -/
theorem covers_root_iff (d : Document) {r : Span} :
    d.root.span.covers r = true ↔ r.stop ≤ d.source.size := by
  have start : d.root.start = 0 := rfl
  rw [Span.covers_iff, Tree.Site.span_start, Tree.Site.span_stop, size_source, start, Nat.zero_add]
  exact and_iff_right (Nat.zero_le _)

theorem place?_eq_some {d : Document} {r : Span} (h : r.stop ≤ d.source.size) :
    d.place? r = some (d.source.lineRange r) :=
  if_pos (d.covers_root_iff.mpr h)

theorem place?_eq_none {d : Document} {r : Span} (h : d.source.size < r.stop) :
    d.place? r = none :=
  if_neg fun covered => Nat.not_le.mpr h (d.covers_root_iff.mp covered)

end Document

/-- A variable that holds a client is an endpoint. -/
theorem HoldsClient.participant? {symbol : Symbol} {v : Variable} {home : ModuleId}
    (h : HoldsClient symbol v home) (d : Document) (sourceId moduleName : String) :
    Lineup.participant? d symbol sourceId moduleName =
      some ⟨Fingerprint.ofPlace moduleName v.name (v.location.bind d.place?), v.name, .endpoint,
        moduleName, v.location.bind d.place?, sourceId⟩ := by
  obtain ⟨rfl, reference, referenceHome, definition, type, qualified, -⟩ := h
  have held : v.clientClass? = some ⟨reference, definition⟩ :=
    Variable.clientClass?_eq_some_iff.mpr ⟨referenceHome, type, qualified⟩
  simp [Lineup.participant?, ParticipantKind.ofSymbol?, held, Symbol.location, Symbol.name]

namespace Visible

variable {σ : Type}

/-- What is told of the place of a variable: the lines of its client, and those of its
participant. -/
inductive Sites (d : Document) : Option Span → Option LineRange → Option LineRange → Prop where
  /-- The place is not known. -/
  | nowhere : Sites d none none none
  /-- The variable is declared in the text. -/
  | inside {r : Span} (h : r.stop ≤ d.source.size) :
    Sites d (some r) (some (d.source.lineRange r)) (some (d.source.lineRange r))
  /-- The variable is declared behind the text, in part at least. -/
  | behind {r : Span} (h : d.source.size < r.stop) :
    Sites d (some r)
      (some ⟨d.source.position (min r.start d.source.size), d.source.position d.source.size⟩) none

theorem sites_location (d : Document) (location : Option Span) :
    Sites d location (location.map d.source.lineRange) (location.bind d.place?) := by
  cases location with
  | none => exact .nowhere
  | some r =>
    rw [Option.map_some, Option.bind_some]
    by_cases inside : r.stop ≤ d.source.size
    · rw [Document.place?_eq_some inside]
      exact .inside inside
    · have behind : d.source.size < r.stop := Nat.lt_of_not_le inside
      -- nothing refuses the span here: each end on its own counts as the end of the text at most
      have range : d.source.lineRange r =
          ⟨d.source.position (min r.start d.source.size), d.source.position d.source.size⟩ := by
        rw [SourceText.position_min_size, ← Nat.min_eq_right (Nat.le_of_lt behind),
          SourceText.position_min_size]
        rfl
      rw [Document.place?_eq_none behind, range]
      exact .behind behind

/-- Both tell the same of a place unless it is behind the text. -/
theorem Sites.agree_iff {d : Document} {location : Option Span} {listed told : Option LineRange}
    (h : Sites d location listed told) :
    listed = told ↔ ∀ r, location = some r → r.stop ≤ d.source.size := by
  cases h with
  | nowhere => exact iff_of_true rfl fun r h => nomatch h
  | inside h =>
    refine iff_of_true rfl fun r same => ?_
    obtain rfl := Option.some.inj same
    exact h
  | behind h =>
    refine iff_of_false (fun same => nomatch same) fun within => ?_
    exact absurd (within _ rfl) (Nat.not_le.mpr h)

/-- The client and the participant that a visible variable holds are told to be declared at the same
lines just if the variable is not declared behind the text of the document, be it in part. Where it
is, the participant has no place, and the client has one that is cut off at the end of the text. -/
theorem sites_agree_iff (w : Workspace σ) (p : Position) (l : Lineup)
    (sourceId moduleName : String) :
    match w.document.offset? p with
    | none => clients w p = .error (.invalidPosition p)
    | some _ =>
      ∃ found : List (Option Client),
        found.length = (w.visibleSymbols p).length ∧
        clients w p = .ok found.reduceOption ∧
        ∀ (index : Nat) symbol v home, (w.visibleSymbols p)[index]? = some symbol →
          HoldsClient symbol v home →
            ∃ client participant l',
              found[index]? = some (some client) ∧
              IsClientOf w.document.source symbol client ∧
              (Lineup.introduce w.document symbol sourceId moduleName).run l =
                (some participant.id, l', []) ∧
              l'.participants = l.participants ++ [participant] ∧
              participant.name = v.name ∧ participant.kind = .endpoint ∧
              Sites w.document v.location client.lineRange participant.location ∧
              (client.lineRange = participant.location ↔
                ∀ r, v.location = some r → r.stop ≤ w.document.source.size) := by
  cases inside : w.document.offset? p with
  | none => simp [clients, Workspace.offset, inside]
  | some offset =>
    refine ⟨(w.visibleSymbols p).map (client? w.document.source), List.length_map _,
      clients_of_some inside, ?_⟩
    intro index symbol v home visible holds
    have isClient : client? w.document.source symbol =
        some (clientOf w.document.source ⟨v, home⟩) := client?_of_ok holds.ofSymbol_eq_ok
    have range : (clientOf w.document.source ⟨v, home⟩).lineRange =
        v.location.map w.document.source.lineRange := by
      rw [clientOf, learn_clientFacts, ClientDraft.client]
    have listed := Lineup.run_introduce w.document l symbol sourceId moduleName
    rw [holds.participant? w.document sourceId moduleName] at listed
    have sites := sites_location w.document v.location
    rw [← range] at sites
    refine ⟨_, _, _, ?_, client?_eq_some_iff.mp isClient, listed, Lineup.participants_add l _, rfl,
      rfl, sites, sites.agree_iff⟩
    rw [List.getElem?_map, visible, Option.map_some, isClient]

/-- The two can differ. Beside the text `port`, the client that another file declares from offset 10
to offset 20 is listed as if it were declared at the end of this text; as a participant it has no
place. -/
theorem sites_differ_behind_end :
    let d : Document := ⟨"main.bal", ⟨.sourceFile, [.token .identifier "port"]⟩⟩
    let http : ModuleId := ⟨"ballerina", "http", "2.10.0"⟩
    let client : TypeDesc :=
      .reference "Client" (some http) (.object ⟨"Client", [.client], some http⟩)
    let v : Variable :=
      ⟨"ep", client, .moduleLevel, some ⟨"wso2", "orders", "0.1.0"⟩, some ⟨10, 20, by decide⟩⟩
    let model := (Snapshot.empty.declare none (.variable v)).model
    let w : Workspace Backend := ⟨d, model, Backend.lookup, [], .standard⟩
    ∃ (listed : Client) (participant : Participant),
      clients w .origin = .ok [listed] ∧
      ((Lineup.introduce d (.variable v) "main" "orders").run .empty).2.1.participants =
        [participant] ∧
      listed.lineRange = some ⟨⟨0, 4⟩, ⟨0, 4⟩⟩ ∧ participant.location = none ∧
      listed.lineRange ≠ participant.location := by
  intro d http client v model w
  refine ⟨_, _, rfl, rfl, ?_, ?_, ?_⟩
  · decide +kernel
  · decide +kernel
  · decide +kernel

end Visible

end FlowDiagram
