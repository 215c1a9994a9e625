import Mathlib.Data.List.DropRight
import FlowDiagram.Proofs.Connector.Cache

/-!
# A cache and its history

What a cached backend answers, told from the history of its exchanges and not from its state. The
history knows the index and the failures of the backend at every moment, since no query changes
them; `firstReply?` finds in it the first question through the cache since the cache was last
dropped that the backend answered. The cache holds exactly these answers: one step keeps it so
(`stored?_perform`), and hence every run does (`stored?_after`).
-/

namespace FlowDiagram.Exchange

def after (c : Cached Backend) (es : List Exchange) : Cached Backend :=
  es.foldl (fun c e => (e.perform.run c).2.1) c

/-- The backend that a history leaves, the count of its queries apart. -/
def backendAfter (b : Backend) (past : List Exchange) : Backend :=
  past.foldl (fun b e => e.alter b) b

/-- The exchanges of a history, each with the backend that it met. -/
def moments (b : Backend) : List Exchange → List (Exchange × Backend)
  | [] => []
  | e :: es => (e, b) :: moments (e.alter b) es

/-- The first answer that the backend gave to a question put through the cache, since the cache was
last dropped. -/
def firstReply? (b : Backend) (key : CacheHit) (past : List Exchange) : Option Reply :=
  ((moments b past).rtakeWhile fun moment => !moment.1.isClear).findSome? fun moment =>
    moment.1.answer? key moment.2

theorem after_concat (c : Cached Backend) (es : List Exchange) (e : Exchange) :
    after c (es ++ [e]) = (e.perform.run (after c es)).2.1 := List.foldl_concat ..

theorem backendAfter_concat (b : Backend) (past : List Exchange) (e : Exchange) :
    backendAfter b (past ++ [e]) = e.alter (backendAfter b past) := List.foldl_concat ..

theorem moments_concat (b : Backend) (past : List Exchange) (e : Exchange) :
    moments b (past ++ [e]) = moments b past ++ [(e, backendAfter b past)] := by
  induction past generalizing b with
  | nil => rfl
  | cons first past ih => exact congrArg ((first, b) :: ·) (ih (first.alter b))

theorem firstReply?_concat (b : Backend) (key : CacheHit) (past : List Exchange) (e : Exchange) :
    firstReply? b key (past ++ [e]) =
      if e.isClear then none
      else (firstReply? b key past).or (e.answer? key (backendAfter b past)) := by
  rw [firstReply?, moments_concat, List.rtakeWhile_concat]
  cases e.isClear with
  | true => rfl
  | false => simp [firstReply?, List.findSome?_append]

theorem reply_calls (b : Backend) (n : Nat) (key : CacheHit) :
    ({ b with calls := n } : Backend).reply key = b.reply key := by
  cases key <;> rfl

theorem answer?_calls (key : CacheHit) (e : Exchange) (b : Backend) (n : Nat) :
    e.answer? key { b with calls := n } = e.answer? key b := by
  simp only [answer?, reply_calls]

theorem alter_calls (e : Exchange) (b : Backend) (n : Nat) :
    e.alter { b with calls := n } = { e.alter b with calls := n } := by
  cases e <;> rfl

/-- The backend behind the cache is the one that the history tells of. -/
theorem inner_after (b : Backend) (past : List Exchange) :
    (after (.ofInner b) past).inner =
      { backendAfter b past with calls := (after (.ofInner b) past).inner.calls } := by
  induction past using List.reverseRecOn with
  | nil => rfl
  | append_singleton past e ih =>
    rw [after_concat, backendAfter_concat, inner_perform, ih, alter_calls]

/-- After every history, the cache holds the first answers since it was last dropped, and nothing
else. -/
theorem stored?_after (b : Backend) (past : List Exchange) (key : CacheHit) :
    (after (.ofInner b) past).stored? key = firstReply? b key past := by
  induction past using List.reverseRecOn with
  | nil => exact Cached.stored?_ofInner b key
  | append_singleton past e ih =>
    rw [firstReply?_concat, after_concat, stored?_perform, ih, inner_after, answer?_calls]

-- The failed question leaves nothing behind; the later answer stays, although it is outdated.
example (connector : Callable) :
    let key := CacheHit.function ⟨"org", "http", "init", .connector⟩
    firstReply? (.ofIndex .empty) key
        [.outage ⟨some "down", none⟩, ask true key, .outage .none, ask true key,
          .insert connector []] =
      some (.function (.ok none)) := by
  rfl

/-- Whether an exchange asks the backend through the cache and gets an answer. -/
def fetches (key : CacheHit) (c : Cached Backend) (e : Exchange) : Bool :=
  e.cachedKey? = some key ∧ (e.perform.run c).1.isOk ∧
    c.inner.calls < (e.perform.run c).2.1.inner.calls

/-- The exchanges that ask the backend through the cache and get an answer, in a run. -/
def countFetches (key : CacheHit) (c : Cached Backend) : List Exchange → Nat
  | [] => 0
  | e :: es =>
    (fetches key c e).toNat + countFetches key (e.perform.run c).2.1 es

/-- The backend is asked about what the cache lacks, and the cache has it from then on. -/
theorem stored?_of_fetches {key : CacheHit} {c : Cached Backend} {e : Exchange}
    (h : fetches key c e = true) :
    c.stored? key = none ∧ ((e.perform.run c).2.1.stored? key).isSome = true := by
  simp only [fetches, Bool.decide_and, Bool.and_eq_true, decide_eq_true_eq] at h
  obtain ⟨isKey, isOk, counted⟩ := h
  cases e using cases_ask with
  | cached asked =>
    obtain rfl : asked = key := by simpa using isKey
    cases held : c.stored? asked with
    | some r =>
      rw [perform_ask_cached, held] at counted
      exact absurd counted (Nat.lt_irrefl _)
    | none =>
      have reply : (c.inner.reply asked).isOk = true := by
        simpa [perform_ask_cached, held] using isOk
      rw [stored?_perform, isClear_ask, held]
      simp [answer?, reply]
  | direct asked => simp at isKey
  | insert connector offered => cases isKey
  | outage set => cases isKey
  | clear => cases isKey

theorem isSome_stored?_perform {key : CacheHit} {c : Cached Backend} {e : Exchange}
    (kept : e.isClear = false) (held : (c.stored? key).isSome = true) :
    ((e.perform.run c).2.1.stored? key).isSome = true := by
  rw [stored?_perform, kept]
  simp [held]

/-- As long as the cache is not dropped, the backend answers a question through it at most once, and
not at all if the cache holds the answer. -/
theorem countFetches_le (key : CacheHit) (c : Cached Backend) (es : List Exchange)
    (kept : ∀ e ∈ es, e.isClear = false) :
    countFetches key c es ≤ if (c.stored? key).isSome then 0 else 1 := by
  induction es generalizing c with
  | nil => exact Nat.zero_le _
  | cons e es ih =>
    obtain ⟨keptHead, keptTail⟩ := List.forall_mem_cons.mp kept
    have rest := ih (e.perform.run c).2.1 keptTail
    rw [countFetches]
    cases fetched : fetches key c e with
    | true =>
      obtain ⟨lacking, held⟩ := stored?_of_fetches fetched
      rw [if_pos held] at rest
      rw [Nat.le_zero.mp rest, lacking]
      exact Nat.le_refl 1
    | false =>
      cases held : (c.stored? key).isSome with
      | true =>
        rw [if_pos (isSome_stored?_perform keptHead held)] at rest
        simpa using rest
      | false =>
        refine (Nat.zero_add _).trans_le (rest.trans ?_)
        split <;> simp

/-- A cache answers from the history of its exchanges. A question that the backend answered since
the cache was last dropped has that answer for good, and the backend is not asked. Any other
question asks the backend once, as it is now: its reply comes back and is held if it is an answer,
and the other questions and the other cache stay as they are; a failure leaves both caches alone.
Questions past the cache do not touch it, and from one drop to the next the backend answers each
question through the cache at most once. -/
theorem perform_exact (b : Backend) (past future : List Exchange) (key : CacheHit) :
    let c := after (.ofInner b) past
    let reply := (backendAfter b past).reply key
    (match firstReply? b key past with
      | some r => (ask true key).perform.run c = (r, c, [key])
      | none =>
        ∃ c', (ask true key).perform.run c = (reply, c', []) ∧
          c'.inner = c.inner.counted ∧
          (∀ other, c'.stored? other =
            if other = key ∧ reply.isOk = true then some reply else c.stored? other) ∧
          c.SameOther key c' ∧
          (reply.isOk = true ∨ c' = { c with inner := c.inner.counted })) ∧
    (∀ other, c.stored? other = firstReply? b other past) ∧
    (ask false key).perform.run c = (reply, { c with inner := c.inner.counted }, []) ∧
    Exchange.clear.perform.run c = (.done, .ofInner c.inner, []) ∧
    countFetches key c (future.takeWhile fun e => !e.isClear) ≤ 1 := by
  intro c reply
  have replyNow : c.inner.reply key = reply := by
    rw [inner_after, reply_calls]
  refine ⟨?_, stored?_after b past, ?_, perform_clear c, ?_⟩
  · cases first : firstReply? b key past with
    | some r =>
      rw [perform_ask_cached, stored?_after, first]
    | none =>
      exact perform_ask_of_new ((stored?_after b past key).trans first) replyNow
  · rw [perform_ask_uncached, replyNow]
  · have kept : ∀ e ∈ future.takeWhile fun e => !e.isClear, e.isClear = false := fun e mem => by
      simpa using List.mem_takeWhile_imp mem
    refine (countFetches_le key c _ kept).trans ?_
    split <;> simp

end FlowDiagram.Exchange
