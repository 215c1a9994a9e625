import FlowDiagram.Proofs.Connector.Cache
import FlowDiagram.Proofs.Palette.Connections

/-!
# Palettes through a cache

A cache in front of a backend whose index does not change holds nothing but answers of that index,
whatever failures came and went while it was filled: `Faithful` is kept by every use. So the cache
answers wherever the backend does, and the index wherever the cache does, and each with the same
answers; connections can only be missing from the palette of the one that fails more.
-/

namespace FlowDiagram

/-- A palette that is asked for, with everything that its workspace has but for the lookup. -/
structure Request where
  document : Document
  model : SemanticModel
  library : List Palette.Item
  settings : Settings
  position : Position

def Request.workspace {σ : Type} (r : Request) (l : Lookup σ) : Workspace σ :=
  ⟨r.document, r.model, l, r.library, r.settings⟩

def Request.respond {σ : Type} (r : Request) (l : Lookup σ) :
    Traced Notice σ (Except RequestError (List Palette.Item)) :=
  Palette.itemsAt (r.workspace l) r.position

/-- A use of a backend with a cache in front of it; none changes the index. -/
inductive Use where
  | request (throughCache : Bool) (r : Request)
  | ask (throughCache : Bool) (key : CacheHit)
  | outage (set : Outage)
  | clear

namespace Use

def next (c : Cached Backend) : Use → Cached Backend
  | .request throughCache r => ((r.respond (Exchange.asked throughCache)).run c).2.1
  | .ask throughCache key => ((Exchange.ask throughCache key).perform.run c).2.1
  | .outage set => ((Exchange.outage set).perform.run c).2.1
  | .clear => (Exchange.clear.perform.run c).2.1

def run (c : Cached Backend) (uses : List Use) : Cached Backend := uses.foldl next c

end Use

/-- A cached backend has an index, and its cache holds nothing but replies of that index. -/
structure Faithful (index : ConnectorIndex) (c : Cached Backend) : Prop where
  sameIndex : c.inner.index = index
  stored : ∀ key r, c.stored? key = some r → r = (Backend.ofIndex index).reply key

/-- A backend with an index and failures, whatever its count of queries. -/
structure Backend.IsAt (index : ConnectorIndex) (outage : Outage) (b : Backend) : Prop where
  sameIndex : b.index = index
  sameOutage : b.outage = outage

theorem Backend.reply_eq_of_isOk {b : Backend} {key : CacheHit} (h : (b.reply key).isOk = true) :
    b.reply key = (Backend.ofIndex b.index).reply key := by
  cases key with
  | function q =>
    simp only [Backend.reply, Backend.function] at h ⊢
    cases failing : b.outage.functions with
    | some reason => simp [failing, Reply.isOk] at h
    | none => rfl
  | actions id =>
    simp only [Backend.reply, Backend.actions] at h ⊢
    cases failing : b.outage.actions with
    | some reason => simp [failing, Reply.isOk] at h
    | none => rfl

/-- The cache replies from what it holds, and else as its backend. -/
theorem Cached.reply_eq (c : Cached Backend) (key : CacheHit) :
    Backend.lookup.cached.reply c key = (c.stored? key).getD (c.inner.reply key) := by
  have reply : Backend.lookup.cached.reply c key = ((Exchange.ask true key).perform.run c).1 := by
    cases key <;> rfl
  rw [reply, Exchange.perform_ask_cached]
  cases c.stored? key <;> rfl

namespace Faithful

variable {index : ConnectorIndex} {c : Cached Backend}

theorem ofInner {b : Backend} (h : b.index = index) : Faithful index (.ofInner b) where
  sameIndex := h
  stored key r held := by simp at held

/-- An exchange that does not change the index keeps a cache faithful: what it stores is an answer,
and the backend has its answers from the index. -/
theorem perform (h : Faithful index c) (e : Exchange)
    (kept : (e.alter c.inner).index = c.inner.index) :
    Faithful index (e.perform.run c).2.1 where
  sameIndex := by rw [Exchange.inner_perform, kept, h.sameIndex]
  stored key r held := by
    rw [Exchange.stored?_perform] at held
    split at held
    · cases held
    · obtain before | ⟨-, drawn⟩ := Option.or_eq_some_iff.mp held
      · exact h.stored key r before
      · unfold Exchange.answer? at drawn
        split at drawn
        · next isAnswer =>
          cases drawn
          rw [Backend.reply_eq_of_isOk isAnswer.2, h.sameIndex]
        · cases drawn

/-- No query breaks the faith of a cache, nor the failures of its backend. -/
theorem preserves (index : ConnectorIndex) (outage : Outage) (throughCache : Bool) :
    (Exchange.asked throughCache).Preserves fun c =>
      Faithful index c ∧ c.inner.IsAt index outage := by
  have step (key : CacheHit) (c : Cached Backend)
      (h : Faithful index c ∧ c.inner.IsAt index outage) :
      Faithful index ((Exchange.ask throughCache key).perform.run c).2.1 ∧
        ((Exchange.ask throughCache key).perform.run c).2.1.inner.IsAt index outage := by
    refine ⟨h.1.perform _ (by rw [Exchange.alter_ask]), ?_⟩
    rw [Exchange.inner_perform, Exchange.alter_ask]
    exact ⟨h.2.sameIndex, h.2.sameOutage⟩
  exact ⟨fun q c => step (.function q) c, fun id c => step (.actions id) c⟩

/-- Palettes, questions, failures and a cleared cache: every use keeps a cache faithful. -/
theorem next (h : Faithful index c) (use : Use) : Faithful index (Use.next c use) := by
  cases use with
  | request throughCache r =>
    exact (Palette.itemsAt_preserves (w := r.workspace (Exchange.asked throughCache))
      (preserves index c.inner.outage throughCache) r.position ⟨h, h.sameIndex, rfl⟩).1
  | ask throughCache key => exact h.perform _ (by rw [Exchange.alter_ask])
  | outage set => exact h.perform _ rfl
  | clear => exact h.perform .clear rfl

theorem run (h : Faithful index c) (uses : List Use) : Faithful index (Use.run c uses) := by
  induction uses generalizing c with
  | nil => exact h
  | cons use uses ih => exact ih (h.next use)

/-- Where the backend replies with an answer, the cache does with the same. -/
theorem cached_reply_eq (h : Faithful index c) {key : CacheHit}
    (isOk : (c.inner.reply key).isOk = true) :
    Backend.lookup.cached.reply c key = c.inner.reply key := by
  rw [Cached.reply_eq]
  cases held : c.stored? key with
  | none => rfl
  | some r =>
    rw [Backend.reply_eq_of_isOk isOk, h.sameIndex]
    exact h.stored key r held

/-- Where the cache replies with an answer, the index does with the same. -/
theorem index_reply_eq (h : Faithful index c) {key : CacheHit}
    (isOk : (Backend.lookup.cached.reply c key).isOk = true) :
    (Backend.ofIndex index).reply key = Backend.lookup.cached.reply c key := by
  rw [Cached.reply_eq] at isOk ⊢
  cases held : c.stored? key with
  | none =>
    rw [held] at isOk
    exact h.sameIndex ▸ (Backend.reply_eq_of_isOk isOk).symm
  | some r => exact (h.stored key r held).symm

end Faithful

theorem Backend.lookup_preserves (index : ConnectorIndex) (outage : Outage) :
    Backend.lookup.Preserves (Backend.IsAt index outage) where
  function _ _ h := ⟨h.sameIndex, h.sameOutage⟩
  actions _ _ h := ⟨h.sameIndex, h.sameOutage⟩

theorem Backend.lookup_reply (b : Backend) (key : CacheHit) :
    Backend.lookup.reply b key = b.reply key := by
  cases key <;> rfl

theorem Backend.IsAt.reply_eq {index : ConnectorIndex} {outage : Outage} {b b' : Backend}
    (h : b.IsAt index outage) (h' : b'.IsAt index outage) (key : CacheHit) :
    b.reply key = b'.reply key := by
  obtain ⟨rfl, rfl⟩ := h
  obtain ⟨sameIndex, sameOutage⟩ := h'
  cases key <;> simp [Backend.reply, Backend.function, Backend.actions, sameIndex, sameOutage]

namespace Request

open Palette

variable {σ τ : Type} {index : ConnectorIndex} {outage : Outage}

def connections (r : Request) (l : Lookup σ) (s : σ) : List Category :=
  sortedByLabel ((connectionCategories (r.workspace l)
    (r.model.visibleSymbols r.document r.position)).run s).1

theorem respond_of_none {r : Request} (h : r.document.offset? r.position = none) (l : Lookup σ)
    (s : σ) : ((r.respond l).run s).1 = .error (.invalidPosition r.position) :=
  congrArg Prod.fst (run_itemsAt_of_none (w := r.workspace l) h s)

/-- What a response lists besides its connections does not depend on the lookup. -/
theorem respond_of_some {r : Request} {offset : Nat}
    (h : r.document.offset? r.position = some offset) (l : Lookup σ) (s : σ) :
    let path := r.document.pathTo (.point offset)
    ((r.respond l).run s).1 =
      .ok (connectionsGroup (r.connections l s)
        ++ flowGroups (canStop r.model path) (inLoop path) ++ r.library) :=
  congrArg Prod.fst (run_itemsAt_of_some (w := r.workspace l) h s)

/-- A response through a lookup that fails less has at least as many connections, in order. -/
theorem connections_sublist (r : Request) {l : Lookup σ} {l' : Lookup τ} {P : σ → Prop}
    {Q : τ → Prop} (kept : l.Preserves P) (kept' : l'.Preserves Q)
    (agree : ∀ s t, P s → Q t → ∀ key, (l.reply s key).isOk = true →
      l'.reply t key = l.reply s key)
    {s : σ} {t : τ} (hs : P s) (ht : Q t) : (r.connections l s).Sublist (r.connections l' t) :=
  sortedByLabel_sublist (connectionCategories_sublist (r.workspace l) (r.workspace l')
    kept kept' (fun _ _ => Lookup.answersFrom_weaker kept kept' agree) rfl _ hs ht)

theorem connections_backend_sublist_cached (r : Request) {c : Cached Backend}
    (h : Faithful index c) :
    (r.connections Backend.lookup c.inner).Sublist (r.connections Backend.lookup.cached c) := by
  refine r.connections_sublist (Backend.lookup_preserves index c.inner.outage)
    (Faithful.preserves index c.inner.outage true) ?_ ⟨h.sameIndex, rfl⟩ ⟨h, h.sameIndex, rfl⟩
  rintro b c' atBackend ⟨faithful, atCache⟩ key isOk
  rw [Backend.lookup_reply, atBackend.reply_eq atCache] at isOk ⊢
  exact faithful.cached_reply_eq isOk

theorem connections_cached_sublist_index (r : Request) {c : Cached Backend}
    (h : Faithful index c) :
    (r.connections Backend.lookup.cached c).Sublist
      (r.connections Backend.lookup (.ofIndex index)) := by
  refine r.connections_sublist (Faithful.preserves index c.inner.outage true)
    (Backend.lookup_preserves index .none) ?_ ⟨h, h.sameIndex, rfl⟩ ⟨rfl, rfl⟩
  rintro c' b ⟨faithful, -⟩ atIndex key isOk
  have isIndex : (Backend.ofIndex index).IsAt index .none := ⟨rfl, rfl⟩
  rw [Backend.lookup_reply, atIndex.reply_eq isIndex]
  exact faithful.index_reply_eq isOk

/-- Backends with one index and the same failures give the same connections. -/
theorem connections_backend_eq (r : Request) {b b' : Backend} (h : b.IsAt index outage)
    (h' : b'.IsAt index outage) :
    r.connections Backend.lookup b = r.connections Backend.lookup b' := by
  have sublist {b b' : Backend} (h : b.IsAt index outage) (h' : b'.IsAt index outage) :
      (r.connections Backend.lookup b).Sublist (r.connections Backend.lookup b') := by
    refine r.connections_sublist (Backend.lookup_preserves index outage)
      (Backend.lookup_preserves index outage) ?_ h h'
    intro b b' h h' key _
    rw [Backend.lookup_reply, Backend.lookup_reply, h.reply_eq h']
  exact (sublist h h').antisymm (sublist h' h)

/-- A cache in front of a backend with a fixed index, after any uses, at any failures: the response
through the cache has every connection of the response without it and none that the index does not
have, in the same order and with the same contents, and all else is equal in the three responses.
While nothing fails, they are the same response. -/
theorem respond_transparent (index : ConnectorIndex) (outage : Outage) (calls : Nat)
    (uses : List Use) (r : Request) :
    let c := Use.run (.ofInner ⟨index, outage, calls⟩) uses
    let direct := ((r.respond Backend.lookup).run c.inner).1
    let cached := ((r.respond Backend.lookup.cached).run c).1
    let unfailing := ((r.respond Backend.lookup).run (.ofIndex index)).1
    (match r.document.offset? r.position with
      | none =>
        direct = .error (.invalidPosition r.position) ∧
          cached = .error (.invalidPosition r.position) ∧
          unfailing = .error (.invalidPosition r.position)
      | some _ =>
        ∃ (fewest fewer all : List Category) (stops loops : Bool),
          direct = .ok (connectionsGroup fewest ++ flowGroups stops loops ++ r.library) ∧
          cached = .ok (connectionsGroup fewer ++ flowGroups stops loops ++ r.library) ∧
          unfailing = .ok (connectionsGroup all ++ flowGroups stops loops ++ r.library) ∧
          fewest.Sublist fewer ∧ fewer.Sublist all) ∧
    (c.inner.outage = .none → direct = cached ∧ cached = unfailing) := by
  intro c direct cached unfailing
  have faithful : Faithful index c :=
    (Faithful.ofInner (b := ⟨index, outage, calls⟩) rfl).run uses
  have first := r.connections_backend_sublist_cached faithful
  have second := r.connections_cached_sublist_index faithful
  cases inside : r.document.offset? r.position with
  | none =>
    have fails := respond_of_none inside Backend.lookup c.inner
    have failsCached := respond_of_none inside Backend.lookup.cached c
    have failsIndex := respond_of_none inside Backend.lookup (.ofIndex index)
    exact ⟨⟨fails, failsCached, failsIndex⟩,
      fun _ => ⟨fails.trans failsCached.symm, failsCached.trans failsIndex.symm⟩⟩
  | some offset =>
    have lists := respond_of_some inside Backend.lookup c.inner
    have listsCached := respond_of_some inside Backend.lookup.cached c
    have listsIndex := respond_of_some inside Backend.lookup (.ofIndex index)
    refine ⟨⟨_, _, _, _, _, lists, listsCached, listsIndex, first, second⟩, fun working => ?_⟩
    have same : r.connections Backend.lookup c.inner =
        r.connections Backend.lookup (.ofIndex index) :=
      r.connections_backend_eq ⟨faithful.sameIndex, working⟩ ⟨rfl, rfl⟩
    have sameCached : r.connections Backend.lookup c.inner =
        r.connections Backend.lookup.cached c :=
      first.antisymm (same ▸ second)
    rw [sameCached] at lists
    rw [← same, sameCached] at listsIndex
    exact ⟨lists.trans listsCached.symm, listsCached.trans listsIndex.symm⟩

end Request

end FlowDiagram
