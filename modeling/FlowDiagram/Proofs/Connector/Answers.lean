import FlowDiagram.Connector.Exchange

/-!
# What a lookup answers

A lookup may change its state with every query, and so what it answers may change.
`Lookup.answersFrom` is what it answers from one state on; `Lookup.Preserves` is a property of the
state that no query breaks. Of two lookups, one may fail where the other answers, and yet not
contradict it; that is `Answers.Weaker`.
-/

namespace FlowDiagram

/-- Whether a reply is an answer and not a failure. -/
def Reply.isOk : Reply → Bool
  | .function (.ok _) => true
  | .actions (.ok _) => true
  | _ => false

/-- The answers to a query for a callable, and to a query for actions that follows it. -/
structure Answers where
  function : Query → Answer (Option Callable)
  actions : Query → Int64 → Answer (List Callable)

/-- Where the first answers are no failures, the second are the same. -/
structure Answers.Weaker (a b : Answers) : Prop where
  function : ∀ q found, a.function q = .ok found → b.function q = .ok found
  actions : ∀ q id offered, a.actions q id = .ok offered → b.actions q id = .ok offered

namespace Lookup

variable {σ τ : Type}

/-- What a lookup replies to a question. -/
def reply (l : Lookup σ) (s : σ) : CacheHit → Reply
  | .function q => .function ((l.function q).run s).1
  | .actions id => .actions ((l.actions id).run s).1

/-- What a lookup answers from a state on. -/
def answersFrom (l : Lookup σ) (s : σ) : Answers where
  function q := ((l.function q).run s).1
  actions q id := ((l.actions id).run ((l.function q).run s).2.1).1

/-- No query breaks a property of the state. -/
structure Preserves (l : Lookup σ) (P : σ → Prop) : Prop where
  function : ∀ q s, P s → P ((l.function q).run s).2.1
  actions : ∀ id s, P s → P ((l.actions id).run s).2.1

/-- A lookup whose replies are no failures only where another lookup replies the same gives the
weaker answers, as long as what is known of the two states holds. -/
theorem answersFrom_weaker {l : Lookup σ} {l' : Lookup τ} {P : σ → Prop} {Q : τ → Prop}
    (kept : l.Preserves P) (kept' : l'.Preserves Q)
    (agree : ∀ s t, P s → Q t → ∀ key, (l.reply s key).isOk = true → l'.reply t key = l.reply s key)
    {s : σ} {t : τ} (hs : P s) (ht : Q t) : (l.answersFrom s).Weaker (l'.answersFrom t) where
  function q found h := by
    have replied : l.reply s (.function q) = .function (.ok found) := congrArg Reply.function h
    have same := agree s t hs ht (.function q) (replied ▸ rfl)
    exact Reply.function.inj (same.trans replied)
  actions q id offered h := by
    have replied : l.reply ((l.function q).run s).2.1 (.actions id) = .actions (.ok offered) :=
      congrArg Reply.actions h
    have same := agree _ _ (kept.function q s hs) (kept'.function q t ht) (.actions id)
      (replied ▸ rfl)
    exact Reply.actions.inj (same.trans replied)

end Lookup

end FlowDiagram
