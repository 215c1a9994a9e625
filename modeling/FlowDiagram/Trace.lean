/-!
# Computations that leave a trace

`Traced ε σ α` is a computation of an `α` over a state `σ` that leaves notes of type `ε`. The
notes of a sequence are those of its parts, one after the other.
-/

namespace FlowDiagram

/-- From a state to a result, the next state and the notes left on the way. -/
def Traced (ε σ α : Type) : Type := σ → α × σ × List ε

namespace Traced

variable {ε ε' σ τ α β : Type}

def run (x : Traced ε σ α) (s : σ) : α × σ × List ε := x s

instance : Monad (Traced ε σ) where
  pure a := fun s => (a, s, [])
  bind x f := fun s =>
    let (a, s, notes) := x s
    let (b, s, more) := f a s
    (b, s, notes ++ more)

def note (e : ε) : Traced ε σ Unit := fun s => ((), s, [e])

def get : Traced ε σ σ := fun s => (s, s, [])

def modify (f : σ → σ) : Traced ε σ Unit := fun s => ((), f s, [])

/-- Read every note as a note of another type. -/
def mapNotes (f : ε → ε') (x : Traced ε σ α) : Traced ε' σ α := fun s =>
  let (a, s, notes) := x s
  (a, s, notes.map f)

/-- Run a computation on a part of a larger state. -/
def focus (part : τ → σ) (replace : σ → τ → τ) (x : Traced ε σ α) : Traced ε τ α := fun t =>
  let (a, s, notes) := x (part t)
  (a, replace s t, notes)

@[simp] theorem run_pure (a : α) (s : σ) : (pure a : Traced ε σ α).run s = (a, s, []) := rfl

@[simp] theorem run_bind (x : Traced ε σ α) (f : α → Traced ε σ β) (s : σ) :
    (x >>= f).run s =
      (((f (x.run s).1).run (x.run s).2.1).1, ((f (x.run s).1).run (x.run s).2.1).2.1,
        (x.run s).2.2 ++ ((f (x.run s).1).run (x.run s).2.1).2.2) := rfl

@[simp] theorem run_note (e : ε) (s : σ) : (note e).run s = ((), s, [e]) := rfl

@[simp] theorem run_get (s : σ) : (get : Traced ε σ σ).run s = (s, s, []) := rfl

@[simp] theorem run_modify (f : σ → σ) (s : σ) :
    (modify f : Traced ε σ Unit).run s = ((), f s, []) := rfl

@[simp] theorem run_mapNotes (f : ε → ε') (x : Traced ε σ α) (s : σ) :
    (x.mapNotes f).run s = ((x.run s).1, (x.run s).2.1, (x.run s).2.2.map f) := rfl

@[simp] theorem run_focus (part : τ → σ) (replace : σ → τ → τ) (x : Traced ε σ α) (t : τ) :
    (x.focus part replace).run t =
      ((x.run (part t)).1, replace (x.run (part t)).2.1 t, (x.run (part t)).2.2) := rfl

theorem ext {x y : Traced ε σ α} (h : ∀ s, x.run s = y.run s) : x = y := funext h

instance : LawfulMonad (Traced ε σ) :=
  LawfulMonad.mk' (Traced ε σ)
    (fun x => ext fun s => by
      change ((x s).1, (x s).2.1, (x s).2.2 ++ []) = x s
      simp)
    (fun _ _ => ext fun _ => by simp)
    (fun _ _ _ => ext fun _ => by simp)

@[simp] theorem run_map (f : α → β) (x : Traced ε σ α) (s : σ) :
    (f <$> x).run s = (f (x.run s).1, (x.run s).2) := by
  rw [map_eq_pure_bind, run_bind, run_pure, List.append_nil]

end Traced

end FlowDiagram
