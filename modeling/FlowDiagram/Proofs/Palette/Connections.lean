import Mathlib.Data.List.ReduceOption
import FlowDiagram.Proofs.Connector.Answers
import FlowDiagram.Proofs.Palette.LabelOrder
import FlowDiagram.Proofs.Palette.Offer
import FlowDiagram.Proofs.Settings

/-!
# Which symbols become connections

What becomes of a symbol depends on the symbol and on what the lookup answers when its turn comes,
and on nothing else: `outcomes` takes the answers for each symbol from the state that the symbols
before it have left. `Answers.Keeps` says outright which answers keep a symbol, and as what
category.
-/

namespace FlowDiagram

/-- Only a reference straight to a client class counts as one. -/
theorem Variable.clientClass?_eq_some_iff {v : Variable} {c : ReferredClass} :
    v.clientClass? = some c ↔
      ∃ home, v.type = .reference c.reference home (.object c.definition) ∧
        .client ∈ c.definition.qualifiers := by
  unfold clientClass?
  constructor
  · intro h
    split at h
    · next reference home definition type =>
      split at h
      · next isClient =>
        cases h
        exact ⟨home, type, by simpa [ClassDef.isClient] using isClient⟩
      · cases h
    · cases h
  · rintro ⟨home, type, isClient⟩
    have isClient : c.definition.isClient = true := by simpa [ClassDef.isClient] using isClient
    simp [type, isClient]

/-- The symbols that are connections: variables that hold a client of a known module. -/
theorem Connection.ofSymbol_eq_ok_iff {symbol : Symbol} {c : Connection} :
    ofSymbol symbol = .ok c ↔
      symbol = .variable c.holder ∧ ∃ reference home definition,
        c.holder.type = .reference reference home (.object definition) ∧
          .client ∈ definition.qualifiers ∧ definition.home = some c.home := by
  constructor
  · intro h
    unfold ofSymbol at h
    split at h
    · cases h
    · next v isVariable =>
      split at h
      · cases h
      · next r isClient =>
        split at h
        · cases h
        · next home known =>
          cases h
          obtain ⟨reference, type, qualified⟩ := Variable.clientClass?_eq_some_iff.mp isClient
          refine ⟨?_, _, _, _, type, qualified, known⟩
          cases symbol <;> simp_all [Symbol.asVariable?]
  · rintro ⟨rfl, reference, home, definition, type, qualified, known⟩
    have isClient : c.holder.clientClass? = some ⟨reference, definition⟩ :=
      Variable.clientClass?_eq_some_iff.mpr ⟨home, type, qualified⟩
    simp [ofSymbol, Symbol.asVariable?, isClient, known]

namespace Answers

/-- The answers keep a symbol as a category. -/
def Keeps (a : Answers) (settings : Settings) (symbol : Symbol) (category : Palette.Category) :
    Prop :=
  ∃ v reference referenceHome definition home connector actions icon,
    symbol = .variable v ∧
    v.type = .reference reference referenceHome (.object definition) ∧
    .client ∈ definition.qualifiers ∧
    definition.home = some home ∧
    a.function ⟨home.org, home.name, "init", .connector⟩ = .ok (some connector) ∧
    a.actions ⟨home.org, home.name, "init", .connector⟩ connector.id = .ok actions ∧
    actions ≠ [] ∧
    IsIcon settings.iconBase connector.org connector.package connector.version icon ∧
    category.metadata = ⟨v.name, none, none, []⟩ ∧
    category.items = actions.map fun action => .entry {
      metadata := {
        label := action.name
        description := some action.description
        icon := some icon
        keywords := [] }
      codedata := {
        node := .callAction
        org := some connector.org
        home := some connector.package
        object := some "Client"
        symbol := some action.name
        version := none
        id := some action.id }
      enabled := true }

/-- The category that a symbol becomes under answers, if it does. -/
def category? (a : Answers) (settings : Settings) (symbol : Symbol) : Option Palette.Category :=
  match Connection.ofSymbol symbol with
  | .error _ => none
  | .ok c =>
    match a.function (Palette.connectorQuery c) with
    | .ok (some connector) =>
      match a.actions (Palette.connectorQuery c) connector.id with
      | .ok (action :: actions) =>
        some ⟨.ofLabel c.holder.name, Palette.actionItems settings connector (action :: actions)⟩
      | _ => none
    | _ => none

theorem category?_eq_some_iff {a : Answers} {settings : Settings} {symbol : Symbol}
    {category : Palette.Category} :
    a.category? settings symbol = some category ↔ a.Keeps settings symbol category := by
  constructor
  · intro h
    unfold category? at h
    split at h
    · cases h
    · next c isConnection =>
      split at h
      · next connector known =>
        split at h
        · next action actions offered =>
          cases h
          obtain ⟨isVariable, reference, home, definition, type, qualified, hasHome⟩ :=
            Connection.ofSymbol_eq_ok_iff.mp isConnection
          exact ⟨c.holder, reference, home, definition, c.home, connector, _, _, isVariable, type,
            qualified, hasHome, known, offered, List.cons_ne_nil _ _, Settings.isIcon_iff.mpr rfl,
            rfl, rfl⟩
        · cases h
      · cases h
  · rintro ⟨v, reference, referenceHome, definition, home, connector, actions, icon, rfl, type,
      qualified, hasHome, known, offered, nonempty, isIcon, shown, items⟩
    have isConnection : Connection.ofSymbol (.variable v) = .ok ⟨v, home⟩ :=
      Connection.ofSymbol_eq_ok_iff.mpr
        ⟨rfl, reference, referenceHome, definition, type, qualified, hasHome⟩
    obtain ⟨action, actions, rfl⟩ := List.exists_cons_of_ne_nil nonempty
    obtain rfl := Settings.isIcon_iff.mp isIcon
    have known : a.function (Palette.connectorQuery ⟨v, home⟩) = .ok (some connector) := known
    have offered : a.actions (Palette.connectorQuery ⟨v, home⟩) connector.id =
      .ok (action :: actions) := offered
    cases category
    cases shown
    cases items
    simp [category?, isConnection, known, offered, Palette.Metadata.ofLabel,
      Palette.actionItems, Palette.actionEntry, Palette.clientObject]

/-- A symbol that answers keep is kept as the same category by answers that fail less. -/
theorem Keeps.mono {a b : Answers} (weaker : a.Weaker b) {settings : Settings} {symbol : Symbol}
    {category : Palette.Category} (h : a.Keeps settings symbol category) :
    b.Keeps settings symbol category := by
  obtain ⟨v, reference, referenceHome, definition, home, connector, actions, icon, isVariable,
    type, qualified, hasHome, known, offered, shown⟩ := h
  exact ⟨v, reference, referenceHome, definition, home, connector, actions, icon, isVariable,
    type, qualified, hasHome, weaker.function _ _ known, weaker.actions _ _ _ offered, shown⟩

end Answers

namespace Palette

variable {σ τ : Type}

theorem run_connectionCategory_fst (w : Workspace σ) (symbol : Symbol) (s : σ) :
    ((connectionCategory w symbol).run s).1 =
      (w.lookup.answersFrom s).category? w.settings symbol := by
  unfold connectionCategory Answers.category? connectionItems Lookup.answersFrom
  cases Connection.ofSymbol symbol with
  | error reason => rfl
  | ok c =>
    simp only [Traced.run_bind, Traced.run_mapNotes]
    cases ((w.lookup.function (connectorQuery c)).run s).1 with
    | error e => rfl
    | ok found =>
      cases found with
      | none => rfl
      | some connector =>
        simp only [Traced.run_bind]
        cases ((w.lookup.actions connector.id).run
            ((w.lookup.function (connectorQuery c)).run s).2.1).1 with
        | error e => rfl
        | ok actions =>
          cases actions <;> rfl

@[simp] theorem run_connectionCategories_nil (w : Workspace σ) (s : σ) :
    (connectionCategories w []).run s = ([], s, []) := rfl

/-- Symbols take their turns: each finds the state that those before it have left. -/
theorem run_connectionCategories_cons (w : Workspace σ) (symbol : Symbol) (symbols : List Symbol)
    (s : σ) :
    (connectionCategories w (symbol :: symbols)).run s =
      (((connectionCategory w symbol).run s).1.toList ++
          ((connectionCategories w symbols).run ((connectionCategory w symbol).run s).2.1).1,
        ((connectionCategories w symbols).run ((connectionCategory w symbol).run s).2.1).2.1,
        ((connectionCategory w symbol).run s).2.2 ++
          ((connectionCategories w symbols).run ((connectionCategory w symbol).run s).2.1).2.2) := by
  simp [connectionCategories]

/-- What the lookup answers when the turn of the symbol at an index comes. -/
def answersAt (w : Workspace σ) (symbols : List Symbol) (s : σ) (index : Nat) : Answers :=
  w.lookup.answersFrom ((connectionCategories w (symbols.take index)).run s).2.1

/-- What becomes of symbols, each under the answers of its turn. -/
def outcomes (w : Workspace σ) (symbols : List Symbol) (s : σ) : List (Option Category) :=
  symbols.mapIdx fun index symbol => (answersAt w symbols s index).category? w.settings symbol

theorem outcomes_cons (w : Workspace σ) (symbol : Symbol) (symbols : List Symbol) (s : σ) :
    outcomes w (symbol :: symbols) s =
      (w.lookup.answersFrom s).category? w.settings symbol ::
        outcomes w symbols ((connectionCategory w symbol).run s).2.1 := by
  simp only [outcomes, List.mapIdx_cons, answersAt, List.take_zero, List.take_succ_cons,
    run_connectionCategories_nil, run_connectionCategories_cons]

/-- The categories of symbols are their outcomes, without the symbols that became nothing. -/
theorem run_connectionCategories_fst (w : Workspace σ) (symbols : List Symbol) (s : σ) :
    ((connectionCategories w symbols).run s).1 = (outcomes w symbols s).reduceOption := by
  induction symbols generalizing s with
  | nil => rfl
  | cons symbol symbols ih =>
    rw [run_connectionCategories_cons, outcomes_cons, ← run_connectionCategory_fst, ih]
    cases ((connectionCategory w symbol).run s).1 <;> rfl

/-- Under answers that do not change, what becomes of a symbol is a function of the symbol. -/
theorem outcomes_of_steady {w : Workspace σ} {a : Answers}
    (steady : ∀ s, w.lookup.answersFrom s = a) (symbols : List Symbol) (s : σ) :
    outcomes w symbols s = symbols.map (a.category? w.settings) := by
  refine List.ext_getElem? fun index => ?_
  rw [outcomes, List.getElem?_mapIdx, List.getElem?_map]
  simp only [answersAt, steady]

/-- No symbol becomes a category just if the answers of no turn keep one. -/
theorem run_connectionCategories_fst_eq_nil_iff {w : Workspace σ} {symbols : List Symbol} {s : σ} :
    ((connectionCategories w symbols).run s).1 = [] ↔
      ∀ index symbol, symbols[index]? = some symbol → ∀ category,
        ¬ (answersAt w symbols s index).Keeps w.settings symbol category := by
  rw [run_connectionCategories_fst, List.eq_nil_iff_forall_not_mem]
  simp only [List.reduceOption_mem_iff]
  simp only [List.mem_iff_getElem?, outcomes, List.getElem?_mapIdx, Option.map_eq_some_iff,
    Answers.category?_eq_some_iff]
  constructor
  · intro none index symbol visible category kept
    exact none category ⟨index, symbol, visible, kept⟩
  · rintro none category ⟨index, symbol, visible, kept⟩
    exact none index symbol visible category kept

/-- Under answers that do not change, the order of the symbols decides nothing but the order among
connections that share a label. -/
theorem connectionCategories_perm {w : Workspace σ} {a : Answers}
    (steady : ∀ s, w.lookup.answersFrom s = a) {symbols symbols' : List Symbol}
    (perm : symbols.Perm symbols') (s : σ) :
    let sorted := sortedByLabel ((connectionCategories w symbols).run s).1
    let sorted' := sortedByLabel ((connectionCategories w symbols').run s).1
    sorted.Perm sorted' ∧ sorted.map Category.label = sorted'.map Category.label := by
  have same : ((connectionCategories w symbols).run s).1.Perm
      ((connectionCategories w symbols').run s).1 := by
    rw [run_connectionCategories_fst, run_connectionCategories_fst, outcomes_of_steady steady,
      outcomes_of_steady steady]
    exact (perm.map _).filterMap id
  exact ⟨sortedByLabel_perm_of_perm same, map_label_sortedByLabel same⟩

/-- A workspace in which other symbols are visible, the same at every position. -/
def showing (w : Workspace σ) (symbols : List Symbol) : Workspace σ :=
  { w with model := { w.model with visibleSymbols := fun _ _ => symbols } }

/-- What else is visible does not matter to symbols. -/
theorem connectionCategories_showing (w : Workspace σ) (visible symbols : List Symbol) :
    connectionCategories (showing w visible) symbols = connectionCategories w symbols := by
  induction symbols with
  | nil => rfl
  | cons symbol symbols ih =>
    rw [connectionCategories, connectionCategories, ih]
    rfl

/-- The palette of a workspace in which other symbols are visible. -/
theorem run_itemsAt_showing {w : Workspace σ} {p : Position} {offset : Nat}
    (inside : w.document.offset? p = some offset) (symbols : List Symbol) (s : σ) :
    let path := w.document.pathTo (.point offset)
    ((itemsAt (showing w symbols) p).run s).1 =
      .ok (connectionsGroup (sortedByLabel ((connectionCategories w symbols).run s).1)
        ++ flowGroups (canStop w.model path) (inLoop path) ++ w.library) := by
  have answer := @run_itemsAt_of_some σ (showing w symbols) p offset inside s
  rw [Workspace.visibleSymbols, showing, ← showing, connectionCategories_showing] at answer
  exact congrArg Prod.fst answer

/-- The connections of a palette are those symbols that the answers of their turn keep, no more
and no fewer, in the stable order of their labels. A symbol that is dropped takes no other with
it: each outcome depends on its own symbol and on the answers to its own queries. If the answers do
not change, it depends on nothing else, and then the order in which the symbols are visible decides
nothing but the order among connections that share a label. -/
theorem connections_exact (w : Workspace σ) (p : Position) (s : σ) :
    match w.document.offset? p with
    | none => ((itemsAt w p).run s).1 = .error (.invalidPosition p)
    | some _ =>
      let symbols := w.model.visibleSymbols w.document p
      ∃ (found : List (Option Category)) (sorted : List Category) (stops loops : Bool),
        found.length = symbols.length ∧
        (∀ index symbol, symbols[index]? = some symbol → ∀ category,
          found[index]? = some (some category) ↔
            (answersAt w symbols s index).Keeps w.settings symbol category) ∧
        StablySorted found.reduceOption sorted ∧
        ((itemsAt w p).run s).1 =
          .ok (connectionsGroup sorted ++ flowGroups stops loops ++ w.library) ∧
        ∀ a, (∀ s, w.lookup.answersFrom s = a) →
          found = symbols.map (a.category? w.settings) ∧
          ∀ symbols' : List Symbol, symbols'.Perm symbols → ∃ sorted' : List Category,
            ((itemsAt (showing w symbols') p).run s).1 =
              .ok (connectionsGroup sorted' ++ flowGroups stops loops ++ w.library) ∧
            sorted'.Perm sorted ∧ sorted'.map Category.label = sorted.map Category.label := by
  cases inside : w.document.offset? p with
  | none => simp [run_itemsAt_of_none inside]
  | some offset =>
    let path := w.document.pathTo (.point offset)
    let symbols := w.model.visibleSymbols w.document p
    refine ⟨outcomes w symbols s, sortedByLabel ((connectionCategories w symbols).run s).1,
      canStop w.model path, inLoop path, ?_, ?_, ?_,
      congrArg Prod.fst (run_itemsAt_of_some inside s), ?_⟩
    · simp [outcomes, symbols]
    · intro index symbol visible category
      rw [← Answers.category?_eq_some_iff]
      simp [outcomes, List.getElem?_mapIdx, symbols, visible]
    · rw [← run_connectionCategories_fst]
      exact stablySorted_sortedByLabel _
    · intro a steady
      refine ⟨outcomes_of_steady steady symbols s, ?_⟩
      intro symbols' perm
      exact ⟨_, run_itemsAt_showing inside symbols' s, connectionCategories_perm steady perm s⟩

/-- Two clients and a number: the clients are listed by their names, each with the action of their
connector, and the slashes behind the base of the icons are dropped. -/
theorem connections_exact_of_two_clients :
    let home : ModuleId := ⟨"ballerinax", "redis", "2.7.0"⟩
    let definition : ClassDef := ⟨"Client", [.client], some home⟩
    let holder (name : String) : Symbol :=
      .variable ⟨name, .reference "Client" (some home) (.object definition), .moduleLevel, none, none⟩
    let port : Symbol := .variable ⟨"port", .basic .int, .moduleLevel, none, none⟩
    let connector : Callable :=
      ⟨7, "init", "Connects to a server", .connector, "ballerinax", "redis", "2.7.0", none⟩
    let get : Callable :=
      ⟨8, "get", "Reads a value", .remoteFunction, "ballerinax", "redis", "2.7.0", some "string"⟩
    let lookup : Lookup Unit :=
      ⟨fun q => pure (.ok (if q.asksFor connector then some connector else none)),
        fun id => pure (.ok (if id = 7 then [get] else []))⟩
    let model : SemanticModel :=
      { visibleSymbols := fun _ _ => [holder "orders", port, holder "cache"]
        symbol? := fun _ => none }
    let settings : Settings := ⟨"https://bcentral-packageicons.azureedge.net/images//", none⟩
    let w : Workspace Unit :=
      ⟨⟨"main.bal", ⟨.sourceFile, [.token .identifier "x"]⟩⟩, model, lookup, [], settings⟩
    let offers (name : String) : Category :=
      ⟨⟨name, none, none, []⟩,
        [.entry
          ⟨⟨"get", some "Reads a value",
              some "https://bcentral-packageicons.azureedge.net/images/ballerinax_redis_2.7.0.png",
              []⟩,
            ⟨.callAction, some "ballerinax", some "redis", some "Client", some "get", none, some 8⟩,
            true⟩]⟩
    ∃ stops loops, ((itemsAt w ⟨0, 0⟩).run ()).1 =
      .ok (connectionsGroup [offers "cache", offers "orders"] ++ flowGroups stops loops) := by
  intro home definition holder port connector get lookup model settings w offers
  have inside : w.document.offset? ⟨0, 0⟩ = some 0 := by decide +kernel
  have exact := connections_exact w ⟨0, 0⟩ ()
  rw [inside] at exact
  obtain ⟨found, sorted, stops, loops, length, kept, stable, answer, -⟩ := exact
  have keeps (name : String) (index : Nat) :
      (answersAt w [holder "orders", port, holder "cache"] () index).Keeps settings
        (holder name) (offers name) := by
    refine ⟨_, "Client", some home, definition, home, connector, [get], _, rfl, rfl, by decide, rfl,
      rfl, rfl, List.cons_ne_nil _ _, ?_, rfl, rfl⟩
    exact ⟨"https://bcentral-packageicons.azureedge.net/images", "//", rfl, by simp, by simp, rfl⟩
  obtain ⟨first, second, third, rfl⟩ := List.length_eq_three.mp length
  obtain rfl := Option.some.inj ((kept 0 _ rfl _).mpr (keeps "orders" 0))
  obtain rfl := Option.some.inj ((kept 2 _ rfl _).mpr (keeps "cache" 2))
  have dropped : second = none := by
    cases second with
    | none => rfl
    | some category =>
      obtain ⟨v, reference, home, definition, -, -, -, -, isVariable, type, -⟩ :=
        (kept 1 port rfl category).mp rfl
      obtain rfl := Symbol.variable.inj isVariable
      cases type
  subst dropped
  have less : "cache" < "orders" := by decide +kernel
  have order : sorted = [offers "cache", offers "orders"] :=
    stable.eq_of_pairwise_lt (List.Perm.swap _ _ _) (List.pairwise_pair.mpr less)
  refine ⟨stops, loops, ?_⟩
  rw [answer, order]
  exact congrArg Except.ok (List.append_nil _)

section Preserved

variable {w : Workspace σ} {P : σ → Prop}

/-- What no query breaks, no symbol breaks. -/
theorem connectionCategory_preserves (kept : w.lookup.Preserves P) (symbol : Symbol) {s : σ}
    (h : P s) : P ((connectionCategory w symbol).run s).2.1 := by
  unfold connectionCategory connectionItems
  cases Connection.ofSymbol symbol with
  | error reason => exact h
  | ok c =>
    simp only [Traced.run_bind, Traced.run_mapNotes]
    have asked := kept.function (connectorQuery c) s h
    cases ((w.lookup.function (connectorQuery c)).run s).1 with
    | error e => exact asked
    | ok found =>
      cases found with
      | none => exact asked
      | some connector =>
        simp only [Traced.run_bind]
        have answered := kept.actions connector.id _ asked
        cases ((w.lookup.actions connector.id).run
            ((w.lookup.function (connectorQuery c)).run s).2.1).1 with
        | error e => exact answered
        | ok actions =>
          cases actions <;> exact answered

theorem connectionCategories_preserves (kept : w.lookup.Preserves P) (symbols : List Symbol)
    {s : σ} (h : P s) : P ((connectionCategories w symbols).run s).2.1 := by
  induction symbols generalizing s with
  | nil => exact h
  | cons symbol symbols ih =>
    rw [run_connectionCategories_cons]
    exact ih (connectionCategory_preserves kept symbol h)

/-- What no query breaks, no palette breaks. -/
theorem itemsAt_preserves (kept : w.lookup.Preserves P) (p : Position) {s : σ} (h : P s) :
    P ((itemsAt w p).run s).2.1 := by
  cases inside : w.document.offset? p with
  | none =>
    rw [run_itemsAt_of_none inside]
    exact h
  | some offset =>
    rw [run_itemsAt_of_some inside]
    exact connectionCategories_preserves kept (w.visibleSymbols p) h

end Preserved

/-- A lookup that fails less has at least as many connections, in the same order. The two lookups
may have states of their own; what is known of the states holds throughout. -/
theorem connectionCategories_sublist (w : Workspace σ) (w' : Workspace τ) {P : σ → Prop}
    {Q : τ → Prop} (kept : w.lookup.Preserves P) (kept' : w'.lookup.Preserves Q)
    (weaker : ∀ s t, P s → Q t → (w.lookup.answersFrom s).Weaker (w'.lookup.answersFrom t))
    (settings : w.settings = w'.settings) (symbols : List Symbol) {s : σ} {t : τ} (hs : P s)
    (ht : Q t) :
    ((connectionCategories w symbols).run s).1.Sublist
      ((connectionCategories w' symbols).run t).1 := by
  induction symbols generalizing s t with
  | nil => exact List.Sublist.refl _
  | cons symbol symbols ih =>
    rw [run_connectionCategories_cons, run_connectionCategories_cons]
    refine List.Sublist.append ?_ (ih (connectionCategory_preserves kept symbol hs)
      (connectionCategory_preserves kept' symbol ht))
    rw [run_connectionCategory_fst, run_connectionCategory_fst, settings]
    cases found : (w.lookup.answersFrom s).category? w'.settings symbol with
    | none => exact List.nil_sublist _
    | some category =>
      have keeps := (Answers.category?_eq_some_iff.mp found).mono (weaker s t hs ht)
      rw [Answers.category?_eq_some_iff.mpr keeps]

end Palette

end FlowDiagram
