import Redirector.Store

/-!
# Effects carried over to a larger state

An engine and a store each have a state of their own; an apply acts on both. Their calls are carried
over to the pair of the two states, and so are whole programs: carrying over each call of a program
is the same as carrying over what the program does (`Program.run_lift`). What is proved of a program
on a store by itself therefore holds of it as a part of something larger.
-/

namespace Redirector

/-- A way of carrying over effects that respects their order. -/
structure Carrier (m n : Type → Type) [Monad m] [Monad n] where
  /-- What a computation becomes. -/
  map : {α : Type} → m α → n α
  map_pure : ∀ {α : Type} (a : α), map (pure a) = pure a
  map_bind : ∀ {α β : Type} (x : m α) (k : α → m β), map (x >>= k) = map x >>= fun a ↦ map (k a)

section

variable {σ τ α β : Type}

theorem bind_apply (x : StateM σ α) (k : α → StateM σ β) (s : σ) :
    (x >>= k) s = k (x s).1 (x s).2 := rfl

theorem bind_apply_apply (x : StateT σ (StateM τ) α) (k : α → StateT σ (StateM τ) β) (s : σ)
    (t : τ) : (x >>= k) s t = k (x s t).1.1 (x s t).1.2 (x s t).2 := rfl

/-- Computations on the first part of a state. -/
def onFirst : Carrier (StateM σ) (StateM (σ × τ)) where
  map x := fun s ↦ ((x s.1).1, ((x s.1).2, s.2))
  map_pure _ := rfl
  map_bind _ _ := rfl

/-- Computations on the second part of a state. -/
def onSecond : Carrier (StateM τ) (StateM (σ × τ)) where
  map x := fun s ↦ ((x s.2).1, (s.1, (x s.2).2))
  map_pure _ := rfl
  map_bind _ _ := rfl

theorem onSecond_map_apply (x : StateM τ α) (s : σ × τ) :
    onSecond.map x s = ((x s.2).1, (s.1, (x s.2).2)) := rfl

end

variable {m n : Type → Type} [Monad m] [Monad n] (c : Carrier m n)

/-- After a call, it is enough that the rest is carried over for either answer. -/
theorem Carrier.map_bind_answer {ε α β : Type} (x : m (Except ε α)) {k : Except ε α → m β}
    {l : Except ε α → n β} (ok : ∀ a, l (.ok a) = c.map (k (.ok a)))
    (error : ∀ e, l (.error e) = c.map (k (.error e))) :
    c.map x >>= l = c.map (x >>= k) := by
  rw [c.map_bind]
  congr 1
  funext answer
  cases answer with
  | ok a => exact ok a
  | error e => exact error e

/-- **A program on a backend that was carried over.** -/
theorem Store.Program.run_lift (b : Store.Backend m) {α : Type} (p : Store.Program α) :
    p.run (b.lift c.map) = c.map (p.run b) := by
  induction p with
  | done a => exact (c.map_pure _).symm
  | fail e => exact (c.map_pure _).symm
  | get key next ih =>
    rw [run, run]
    exact c.map_bind_answer _ ih fun _ ↦ (c.map_pure _).symm
  | set key value next ih =>
    rw [run, run]
    exact c.map_bind_answer _ (fun _ ↦ ih) fun _ ↦ (c.map_pure _).symm
  | remove key next ih =>
    rw [run, run]
    exact c.map_bind_answer _ (fun _ ↦ ih) fun _ ↦ (c.map_pure _).symm
  | keys next ih =>
    rw [run, run]
    exact c.map_bind_answer _ ih fun _ ↦ (c.map_pure _).symm

end Redirector
