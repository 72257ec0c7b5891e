import Mathlib.Data.List.Basic
import Redirector.Proofs.Store.Refusal

/-!
# Programs during which the entries are replaced

Each call has the store for itself, but most programs make several. If others replace the entries
between two of them, the program goes on with what it has found out about the old ones, and writes
into the new ones.

This does no harm in two cases. If all calls so far have only asked, and would have been told the
same of the new entries, then the program might as well have begun with these. If no call that is
left writes anything, it might as well have come to its end before. Other than that the entries are
replaced in the middle of something (`Undivided` excludes it), and what comes of it need not be what
comes of either order.
-/

namespace Redirector.Store

namespace Call

/-- Whether the call is there to change the entries. -/
def isWrite : Call → Bool
  | get _ => false
  | set .. => true
  | remove _ => true
  | keys => false

/-- The call only asks, and is told the same of other entries. -/
def AsksSame (es es' : Entries) : Call → Prop
  | get key => Sorted.get? key es = Sorted.get? key es'
  | set .. => False
  | remove _ => False
  | keys => Sorted.keys es = Sorted.keys es'

end Call

namespace Program

variable {α : Type}

/-! ## The calls that are made -/

/-- The calls that a program makes in memory, each with the entries that it is made on. -/
def calls : Program α → Entries → List (Call × Entries)
  | done _, _ => []
  | fail _, _ => []
  | get key next, es => (.get key, es) :: (next (Sorted.get? key es)).calls es
  | set key value next, es => (.set key value, es) :: next.calls (Sorted.insert key value es)
  | remove key next, es => (.remove key, es) :: next.calls (Sorted.erase key es)
  | keys next, es => (.keys, es) :: (next (Sorted.keys es)).calls es

theorem calls_advance (p : Program α) (es : Entries) :
    (p.advance memory es).1.calls (p.advance memory es).2 = (p.calls es).tail := by
  cases p with
  | done | fail | get | set | remove | keys => rfl

theorem steps_succ {σ : Type} (b : Backend (StateM σ)) (n : ℕ) (p : Program α) (s : σ) :
    p.steps b (n + 1) s = (p.advance b s).1.steps b n (p.advance b s).2 := rfl

theorem calls_steps (n : ℕ) (p : Program α) (es : Entries) :
    (p.steps memory n es).1.calls (p.steps memory n es).2 = (p.calls es).drop n := by
  induction n generalizing p es with
  | zero => rfl
  | succ n ih => rw [steps_succ, ih, calls_advance, List.drop_tail]

theorem run_steps {σ : Type} (b : Backend (StateM σ)) (n : ℕ) (p : Program α) (s : σ) :
    (p.steps b n s).1.run b (p.steps b n s).2 = p.run b s := by
  induction n generalizing p s with
  | zero => rfl
  | succ n ih => rw [steps_succ, ih, run_advance]

/-- A program that only asks leaves the entries as they are. -/
theorem run_entries_of_calls {p : Program α} {es : Entries}
    (h : ∀ c ∈ p.calls es, c.1.isWrite = false) : (p.run memory es).2 = es := by
  induction p generalizing es with
  | done | fail => rfl
  | get key next ih =>
    rw [run_memory_get]
    exact ih _ (List.forall_mem_of_forall_mem_cons h)
  | set | remove => cases h _ List.mem_cons_self
  | keys next ih =>
    rw [run_memory_keys]
    exact ih _ (List.forall_mem_of_forall_mem_cons h)

/-- A program that has only asked, and would have been told the same of other entries, has the same
left to do there. -/
theorem steps_of_asksSame {n : ℕ} {p : Program α} {es es' : Entries}
    (h : ∀ c ∈ (p.calls es).take n, c.1.AsksSame es es') :
    ∃ rest, p.steps memory n es = (rest, es) ∧ p.steps memory n es' = (rest, es') := by
  induction n generalizing p with
  | zero => exact ⟨p, rfl, rfl⟩
  | succ n ih =>
    cases p with
    | done | fail => exact ih (by simp [calls])
    | get key next =>
      obtain ⟨hkey, hrest⟩ := List.forall_mem_cons.mp h
      have hkey : Sorted.get? key es = Sorted.get? key es' := hkey
      obtain ⟨rest, hes, hes'⟩ := ih hrest
      refine ⟨rest, hes, ?_⟩
      rw [hkey] at hes'
      exact hes'
    | set | remove => exact (List.forall_mem_cons.mp h).1.elim
    | keys next =>
      obtain ⟨hkeys, hrest⟩ := List.forall_mem_cons.mp h
      have hkeys : Sorted.keys es = Sorted.keys es' := hkeys
      obtain ⟨rest, hes, hes'⟩ := ih hrest
      refine ⟨rest, hes, ?_⟩
      rw [hkeys] at hes'
      exact hes'

/-! ## Replacing the entries -/

/-- Others replace the entries, or have failed to. -/
def replaceBy (new : Option Entries) : StateM Entries Unit := fun es ↦ ((), new.getD es)

/-- The calls of a program, after some of which the entries are replaced. -/
def callsAmid (new : Option Entries) (n : ℕ) (p : Program α) (es : Entries) :
    List (Call × Entries) :=
  (p.calls es).take n ++ (p.steps memory n es).1.calls (new.getD (p.steps memory n es).2)

/-- The entries are not replaced in the middle of something: what the program has asked before it
would be told again, or it writes nothing afterwards. -/
def Undivided (new : Option Entries) (n : ℕ) (p : Program α) (es : Entries) : Prop :=
  ∀ es' ∈ new, (∀ c ∈ (p.calls es).take n, c.1.AsksSame es es') ∨
    ∀ c ∈ (p.steps memory n es).1.calls es', c.1.isWrite = false

section

variable {new : Option Entries} {n : ℕ} {p : Program α} {es : Entries}

theorem runAmid_replaceBy (new : Option Entries) (n : ℕ) (p : Program α) (es : Entries) :
    p.runAmid memory (replaceBy new) n es =
      (p.steps memory n es).1.run memory (new.getD (p.steps memory n es).2) := rfl

theorem callsAmid_none (n : ℕ) (p : Program α) (es : Entries) :
    p.callsAmid none n es = p.calls es := by
  rw [callsAmid, Option.getD_none, calls_steps, List.take_append_drop]

/-- **What is done in one piece** is done before the entries are replaced, or after that. -/
theorem Undivided.run_entries (h : p.Undivided new n es) :
    (p.runAmid memory (replaceBy new) n es).2 = new.getD (p.run memory es).2 ∨
      (p.runAmid memory (replaceBy new) n es).2 = (p.run memory (new.getD es)).2 := by
  rw [runAmid_replaceBy]
  cases new with
  | none =>
    rw [Option.getD_none, Option.getD_none, run_steps]
    exact Or.inl rfl
  | some es' =>
    rcases h es' rfl with hsame | hasks
    · obtain ⟨rest, hes, hes'⟩ := steps_of_asksSame hsame
      have hrun := run_steps memory n p es'
      rw [hes'] at hrun
      rw [hes, Option.getD_some, Option.getD_some, hrun]
      exact Or.inr rfl
    · exact Or.inl (run_entries_of_calls hasks)

/-- Whatever is written is written by the program on the one or on the other entries. -/
theorem Undivided.mem_calls (h : p.Undivided new n es) {c : Call × Entries}
    (hc : c ∈ p.callsAmid new n es) (hwrite : c.1.isWrite = true) :
    c ∈ p.calls es ∨ ∃ es' ∈ new, c ∈ p.calls es' := by
  cases new with
  | none =>
    rw [callsAmid_none] at hc
    exact Or.inl hc
  | some es' =>
    rcases List.mem_append.mp hc with hbefore | hafter
    · exact Or.inl (List.mem_of_mem_take hbefore)
    · rcases h es' rfl with hsame | hasks
      · obtain ⟨rest, hes, hes'⟩ := steps_of_asksSame hsame
        have hcalls := calls_steps n p es'
        rw [hes'] at hcalls
        rw [hes, Option.getD_some, hcalls] at hafter
        exact Or.inr ⟨es', rfl, List.mem_of_mem_drop hafter⟩
      · rw [hasks c hafter] at hwrite
        cases hwrite

end

/-! ## What holds on the way -/

namespace Writes

variable {W : String → Option Json → Prop} {p : Program α}

theorem advance (h : p.Writes W) (es : Entries) : (p.advance memory es).1.Writes W := by
  cases p with
  | done | fail => trivial
  | get key next => exact h _
  | set key value next => exact h.2
  | remove key next => exact h.2
  | keys next => exact h _

theorem steps (h : p.Writes W) (n : ℕ) (es : Entries) : (p.steps memory n es).1.Writes W := by
  induction n generalizing p es with
  | zero => exact h
  | succ n ih => exact ih (h.advance es) _

/-- **What every write keeps** holds of the entries at each call. -/
theorem along_calls (h : p.Writes W) {P : Entries → Prop} {es : Entries} (hes : P es)
    (set : ∀ key value es, W key (some value) → P es → P (Sorted.insert key value es))
    (remove : ∀ key es, W key none → P es → P (Sorted.erase key es)) :
    ∀ c ∈ p.calls es, P c.2 ∧ ∀ key, c.1 = .remove key → W key none := by
  induction p generalizing es with
  | done | fail => exact List.forall_mem_nil _
  | get key next ih => exact List.forall_mem_cons.mpr ⟨⟨hes, nofun⟩, ih _ (h _) hes⟩
  | set key value next ih =>
    exact List.forall_mem_cons.mpr ⟨⟨hes, nofun⟩, ih h.2 (set key value es h.1 hes)⟩
  | remove key next ih =>
    refine List.forall_mem_cons.mpr ⟨⟨hes, ?_⟩, ih h.2 (remove key es h.1 hes)⟩
    rintro k ⟨⟩
    exact h.1
  | keys next ih => exact List.forall_mem_cons.mpr ⟨⟨hes, nofun⟩, ih _ (h _) hes⟩

end Writes

end Program

end Redirector.Store
