import FlowDiagram.Proofs.Connector.Answers

/-!
# One exchange with a cache

What a single exchange does to a cached backend. Questions for callables and for actions take the
same course, and so do not differ here: `Exchange.ask` puts either, `Cached.stored?` is what the
cache holds for either. The two equations that matter are `Exchange.stored?_perform` for the cache
and `Exchange.inner_perform` for the backend behind it.
-/

namespace FlowDiagram

def Backend.reply (b : Backend) : CacheHit → Reply
  | .function q => .function (b.function q)
  | .actions id => .actions (b.actions id)

@[simp] theorem Backend.run_lookup_function (b : Backend) (q : Query) :
    (Backend.lookup.function q).run b = (b.function q, b.counted, []) := rfl

@[simp] theorem Backend.run_lookup_actions (b : Backend) (id : Int64) :
    (Backend.lookup.actions id).run b = (b.actions id, b.counted, []) := rfl

namespace Cached

variable {σ : Type}

def stored? (c : Cached σ) : CacheHit → Option Reply
  | .function q => (c.functions.find? q).map fun answer => .function (.ok answer)
  | .actions id => (c.actions.find? id).map fun answer => .actions (.ok answer)

/-- A cache with one more reply to a question; a failure is not held. -/
def hold (c : Cached σ) : CacheHit → Reply → Cached σ
  | .function q, .function (.ok answer) => { c with functions := c.functions.record q answer }
  | .actions id, .actions (.ok answer) => { c with actions := c.actions.record id answer }
  | _, _ => c

/-- Two states agree on the cache that is not for a question: the cache of actions if it is for a
callable, and the other way round. -/
def SameOther (c : Cached σ) : CacheHit → Cached σ → Prop
  | .function _, c' => c'.actions = c.actions
  | .actions _, c' => c'.functions = c.functions

@[simp] theorem stored?_ofInner (inner : σ) (key : CacheHit) :
    (ofInner inner).stored? key = none := by
  cases key <;> rfl

@[simp] theorem stored?_inner (c : Cached σ) (inner : σ) (key : CacheHit) :
    ({ c with inner := inner } : Cached σ).stored? key = c.stored? key := by
  cases key <;> rfl

@[simp] theorem inner_hold (c : Cached σ) (key : CacheHit) (r : Reply) :
    (c.hold key r).inner = c.inner := by
  unfold hold
  split <;> rfl

theorem sameOther_hold (c : Cached σ) (key : CacheHit) (r : Reply) :
    c.SameOther key (c.hold key r) := by
  cases key with
  | function q =>
    unfold hold
    split <;> first | rfl | contradiction
  | actions id =>
    unfold hold
    split <;> first | rfl | contradiction

/-- Failures leave both caches as they are. -/
theorem hold_of_not_isOk (c : Cached σ) (key : CacheHit) {r : Reply} (h : r.isOk = false) :
    c.hold key r = c := by
  unfold hold
  split
  · cases h
  · cases h
  · rfl

/-- A reply is held for its own question only. -/
theorem stored?_hold_of_ne (c : Cached σ) {key other : CacheHit} (r : Reply) (h : other ≠ key) :
    (c.hold key r).stored? other = c.stored? other := by
  unfold hold
  split
  · next q answer =>
    cases other with
    | function q' =>
      have differs : q' ≠ q := fun same => h (same ▸ rfl)
      simp [stored?, Memo.find?_record_of_ne c.functions answer differs]
    | actions id => rfl
  · next id answer =>
    cases other with
    | function q => rfl
    | actions id' =>
      have differs : id' ≠ id := fun same => h (same ▸ rfl)
      simp [stored?, Memo.find?_record_of_ne c.actions answer differs]
  · rfl

/-- An answer is held if there was none. -/
theorem stored?_hold_self {c : Cached σ} {b : Backend} {key : CacheHit}
    (new : c.stored? key = none) (h : (b.reply key).isOk = true) :
    (c.hold key (b.reply key)).stored? key = some (b.reply key) := by
  cases key with
  | function q =>
    have new : c.functions.find? q = none := by simpa [stored?] using new
    cases answer : b.function q with
    | error e => simp [Backend.reply, answer, Reply.isOk] at h
    | ok a => simp [Backend.reply, answer, hold, stored?, Memo.find?_record_self, new]
  | actions id =>
    have new : c.actions.find? id = none := by simpa [stored?] using new
    cases answer : b.actions id with
    | error e => simp [Backend.reply, answer, Reply.isOk] at h
    | ok a => simp [Backend.reply, answer, hold, stored?, Memo.find?_record_self, new]

end Cached

namespace Exchange

/-- The exchange that puts a question, through the cache or past it. -/
def ask (throughCache : Bool) : CacheHit → Exchange
  | .function q => .function throughCache q
  | .actions id => .actions throughCache id

/-- The question that an exchange puts to the cache. -/
def cachedKey? : Exchange → Option CacheHit
  | .function true q => some (.function q)
  | .actions true id => some (.actions id)
  | _ => none

def isClear : Exchange → Bool
  | .clear => true
  | _ => false

/-- What an exchange makes of the index and the failures of the backend. -/
def alter : Exchange → Backend → Backend
  | .insert connector offered, b => { b with index := b.index.insert connector offered }
  | .outage set, b => { b with outage := set }
  | _, b => b

/-- The answer to a question that an exchange draws from a backend through the cache. -/
def answer? (key : CacheHit) (e : Exchange) (b : Backend) : Option Reply :=
  if e.cachedKey? = some key ∧ (b.reply key).isOk = true then some (b.reply key) else none

/-- Every exchange puts a question, or else changes the backend or the cache. -/
@[elab_as_elim]
theorem cases_ask {motive : Exchange → Prop}
    (cached : ∀ key, motive (ask true key)) (direct : ∀ key, motive (ask false key))
    (insert : ∀ connector offered, motive (.insert connector offered))
    (outage : ∀ set, motive (.outage set)) (clear : motive .clear) (e : Exchange) : motive e := by
  cases e with
  | function throughCache q =>
    cases throughCache with
    | true => exact cached (.function q)
    | false => exact direct (.function q)
  | actions throughCache id =>
    cases throughCache with
    | true => exact cached (.actions id)
    | false => exact direct (.actions id)
  | insert connector offered => exact insert connector offered
  | outage set => exact outage set
  | clear => exact clear

@[simp] theorem cachedKey?_ask_true (key : CacheHit) : (ask true key).cachedKey? = some key := by
  cases key <;> rfl

@[simp] theorem cachedKey?_ask_false (key : CacheHit) : (ask false key).cachedKey? = none := by
  cases key <;> rfl

@[simp] theorem isClear_ask (throughCache : Bool) (key : CacheHit) :
    (ask throughCache key).isClear = false := by
  cases key <;> rfl

@[simp] theorem alter_ask (throughCache : Bool) (key : CacheHit) (b : Backend) :
    (ask throughCache key).alter b = b := by
  cases key <;> rfl

/-- A question through the cache: what is held is the reply, and the backend is not asked;
otherwise it is asked once, and its reply is held if it is an answer. -/
theorem perform_ask_cached (key : CacheHit) (c : Cached Backend) :
    (ask true key).perform.run c =
      match c.stored? key with
      | some r => (r, c, [key])
      | none =>
        (c.inner.reply key,
          ({ c with inner := c.inner.counted } : Cached Backend).hold key (c.inner.reply key),
          []) := by
  cases key with
  | function q =>
    simp only [ask, perform, asked, if_true, Lookup.cached, Lookup.cachedFunction,
      Traced.run_bind, Traced.run_get, Cached.stored?]
    cases held : c.functions.find? q with
    | some answer => rfl
    | none =>
      simp only [Traced.run_bind, Cached.through, Traced.run_focus, Backend.run_lookup_function,
        Option.map_none, Backend.reply]
      cases answer : c.inner.function q with
      | error e => rfl
      | ok a => rfl
  | actions id =>
    simp only [ask, perform, asked, if_true, Lookup.cached, Lookup.cachedActions,
      Traced.run_bind, Traced.run_get, Cached.stored?]
    cases held : c.actions.find? id with
    | some answer => rfl
    | none =>
      simp only [Traced.run_bind, Cached.through, Traced.run_focus, Backend.run_lookup_actions,
        Option.map_none, Backend.reply]
      cases answer : c.inner.actions id with
      | error e => rfl
      | ok a => rfl

/-- A question past the cache asks the backend once and leaves the cache alone. -/
theorem perform_ask_uncached (key : CacheHit) (c : Cached Backend) :
    (ask false key).perform.run c =
      (c.inner.reply key, { c with inner := c.inner.counted }, []) := by
  cases key <;> rfl

theorem perform_insert (connector : Callable) (offered : List Callable) (c : Cached Backend) :
    (Exchange.insert connector offered).perform.run c =
      (.done, { c with inner := (Exchange.insert connector offered).alter c.inner }, []) := rfl

theorem perform_outage (set : Outage) (c : Cached Backend) :
    (Exchange.outage set).perform.run c =
      (.done, { c with inner := (Exchange.outage set).alter c.inner }, []) := rfl

theorem perform_clear (c : Cached Backend) :
    Exchange.clear.perform.run c = (.done, .ofInner c.inner, []) := rfl

theorem answer?_of_cachedKey?_eq_none {e : Exchange} (h : e.cachedKey? = none)
    (key : CacheHit) (b : Backend) : e.answer? key b = none := by
  simp [answer?, h]

/-- Holding the backend's reply to a new question adds the answer that the question drew. -/
theorem stored?_hold {c : Cached Backend} {asked : CacheHit} (new : c.stored? asked = none)
    (key : CacheHit) (b : Backend) :
    (c.hold asked (b.reply asked)).stored? key =
      (c.stored? key).or ((ask true asked).answer? key b) := by
  by_cases same : asked = key
  · subst same
    cases ok : (b.reply asked).isOk with
    | true => simp [answer?, Cached.stored?_hold_self new ok, new, ok]
    | false => simp [answer?, Cached.hold_of_not_isOk c asked ok, ok]
  · have differs : key ≠ asked := fun h => same h.symm
    simp [answer?, Cached.stored?_hold_of_ne c (b.reply asked) differs, same]

/-- The cache after an exchange holds what it held before, and else the answer that the exchange
drew from the backend. -/
theorem stored?_perform (e : Exchange) (c : Cached Backend) (key : CacheHit) :
    (e.perform.run c).2.1.stored? key =
      if e.isClear then none else (c.stored? key).or (e.answer? key c.inner) := by
  cases e using cases_ask with
  | cached asked =>
    rw [perform_ask_cached, isClear_ask]
    cases held : c.stored? asked with
    | some r =>
      by_cases same : asked = key
      · subst same
        simp [held]
      · simp [answer?, same]
    | none =>
      have new : ({ c with inner := c.inner.counted } : Cached Backend).stored? asked = none := by
        rw [Cached.stored?_inner, held]
      exact (stored?_hold new key c.inner).trans (by simp)
  | direct asked =>
    rw [perform_ask_uncached, isClear_ask, answer?_of_cachedKey?_eq_none (cachedKey?_ask_false _),
      Option.or_none]
    rfl
  | insert connector offered =>
    rw [perform_insert, answer?_of_cachedKey?_eq_none rfl, Option.or_none]
    rfl
  | outage set =>
    rw [perform_outage, answer?_of_cachedKey?_eq_none rfl, Option.or_none]
    rfl
  | clear => exact Cached.stored?_ofInner c.inner key

/-- An exchange changes the backend as `alter` says, and counts queries besides. -/
theorem inner_perform (e : Exchange) (c : Cached Backend) :
    (e.perform.run c).2.1.inner =
      { e.alter c.inner with calls := (e.perform.run c).2.1.inner.calls } := by
  cases e using cases_ask with
  | cached asked =>
    rw [perform_ask_cached, alter_ask]
    cases c.stored? asked with
    | some r => rfl
    | none => simp [Backend.counted]
  | direct asked =>
    rw [perform_ask_uncached, alter_ask]
    rfl
  | insert connector offered => rfl
  | outage set => rfl
  | clear => rfl

/-- A question that the cache does not know is put to the backend once; only what the cache holds for
this question changes, and that only if the reply is an answer. -/
theorem perform_ask_of_new {c : Cached Backend} {key : CacheHit} (new : c.stored? key = none)
    {reply : Reply} (replies : c.inner.reply key = reply) :
    ∃ c', (ask true key).perform.run c = (reply, c', []) ∧
      c'.inner = c.inner.counted ∧
      (∀ other, c'.stored? other =
        if other = key ∧ reply.isOk = true then some reply else c.stored? other) ∧
      c.SameOther key c' ∧
      (reply.isOk = true ∨ c' = { c with inner := c.inner.counted }) := by
  subst replies
  have counted : ({ c with inner := c.inner.counted } : Cached Backend).stored? key = none := by
    rw [Cached.stored?_inner, new]
  refine ⟨_, by rw [perform_ask_cached, new], Cached.inner_hold _ key _, ?_, ?_, ?_⟩
  · intro other
    rw [stored?_hold counted other c.inner, Cached.stored?_inner, answer?, cachedKey?_ask_true]
    by_cases same : other = key
    · subst same
      simp [new]
    · simp [same, Ne.symm same]
  · have kept := Cached.sameOther_hold { c with inner := c.inner.counted } key (c.inner.reply key)
    cases key with
    | function q => exact kept
    | actions id => exact kept
  · cases ok : (c.inner.reply key).isOk with
    | true => exact .inl rfl
    | false => exact .inr (Cached.hold_of_not_isOk _ key ok)

end Exchange

end FlowDiagram
