import Redirector.Proofs.State
import Redirector.Store

/-!
# Programs call by call

Carrying out a program is making its calls one after the other (`Program.run_advance`), and between
two calls of one program others may use the store. What a program may rely on is then a matter of
the entries that its own calls make on the way: `Along` says that something holds of all of them,
and is proved along `bind`, piece by piece.

Most operations only look values up. For these (`ReadsOnly`) the entries never change, and the
result depends on nothing but the values under the keys that they look at. What the others write can
be told from the program (`Writes`); a key that it does not write under keeps its value.
-/

namespace Redirector.Store

theorem get?_insert (k j : String) (v : Json) (es : Entries) :
    Sorted.get? j (Sorted.insert k v es) = if k = j then some v else Sorted.get? j es :=
  Sorted.get?_insert String.lt_irrefl k j v es

namespace Program

variable {α β σ : Type}

theorem run_bind_apply (b : Backend (StateM σ)) (p : Program α) (f : α → Program β) (s : σ) :
    (p >>= f).run b s =
      match p.run b s with
      | (.ok a, s') => (f a).run b s'
      | (.error e, s') => (.error e, s') := by
  induction p generalizing s with
  | done a => rfl
  | fail e => rfl
  | get key next ih =>
    change (Program.get key fun v ↦ next v >>= f).run b s = _
    rw [run, run, bind_apply, bind_apply]
    rcases b.get key s with ⟨e | v, s'⟩
    · rfl
    · exact ih v s'
  | set key value next ih =>
    change (Program.set key value (next >>= f)).run b s = _
    rw [run, run, bind_apply, bind_apply]
    rcases b.set key value s with ⟨e | _, s'⟩
    · rfl
    · exact ih s'
  | remove key next ih =>
    change (Program.remove key (next >>= f)).run b s = _
    rw [run, run, bind_apply, bind_apply]
    rcases b.remove key s with ⟨e | _, s'⟩
    · rfl
    · exact ih s'
  | keys next ih =>
    change (Program.keys fun ks ↦ next ks >>= f).run b s = _
    rw [run, run, bind_apply, bind_apply]
    rcases b.keys s with ⟨e | ks, s'⟩
    · rfl
    · exact ih ks s'

theorem bind_assoc {γ : Type} (p : Program α) (f : α → Program β) (g : β → Program γ) :
    p >>= f >>= g = p >>= fun a ↦ f a >>= g := by
  induction p with
  | done | fail => rfl
  | get key next ih => exact congrArg (get key) (funext ih)
  | set key value next ih => exact congrArg (set key value) ih
  | remove key next ih => exact congrArg (remove key) ih
  | keys next ih => exact congrArg keys (funext ih)

/-! ## In memory -/

@[simp] theorem run_memory_get (key : String) (next : Option Json → Program α) (es : Entries) :
    (get key next).run memory es = (next (Sorted.get? key es)).run memory es := by
  rw [run]
  rfl

@[simp] theorem run_memory_set (key : String) (value : Json) (next : Program α) (es : Entries) :
    (set key value next).run memory es = next.run memory (Sorted.insert key value es) := by
  rw [run]
  rfl

@[simp] theorem run_memory_remove (key : String) (next : Program α) (es : Entries) :
    (remove key next).run memory es = next.run memory (Sorted.erase key es) := by
  rw [run]
  rfl

@[simp] theorem run_memory_keys (next : List String → Program α) (es : Entries) :
    (keys next).run memory es = (next (Sorted.keys es)).run memory es := by
  rw [run]
  rfl

/-! ## One call at a time -/

/-- The result of a program that makes no more calls. -/
def result? : Program α → Option (Except Fault α)
  | done a => some (.ok a)
  | fail e => some (.error e)
  | get .. => none
  | set .. => none
  | remove .. => none
  | keys .. => none

theorem run_of_result? {p : Program α} {x : Except Fault α} (h : p.result? = some x)
    (b : Backend (StateM σ)) (s : σ) : p.run b s = (x, s) := by
  cases p with
  | done a => cases h; rfl
  | fail e => cases h; rfl
  | get | set | remove | keys => cases h

private theorem bind_resume {m : Type → Type} [Monad m] [LawfulMonad m] (b : Backend m)
    {call : m (Except Fault α)} (next : α → Program β) {k : Except Fault α → m (Except Fault β)}
    (ok : ∀ a, k (.ok a) = (next a).run b) (error : ∀ e, k (.error e) = pure (.error e)) :
    call >>= k = (do return resume next (← call)) >>= fun rest ↦ rest.run b := by
  simp only [LawfulMonad.bind_assoc, pure_bind]
  refine bind_congr fun answer ↦ ?_
  cases answer with
  | ok a => exact ok a
  | error e => exact error e

/-- **Carrying out a program is making its calls one after the other.** -/
theorem run_eq_advance_bind {m : Type → Type} [Monad m] [LawfulMonad m] (b : Backend m)
    (p : Program α) : p.run b = p.advance b >>= fun rest ↦ rest.run b := by
  cases p with
  | done a => exact (pure_bind (done a) _).symm
  | fail e => exact (pure_bind (fail e) _).symm
  | get key next | keys next =>
    rw [run, advance]
    exact bind_resume b next (fun _ ↦ rfl) fun _ ↦ rfl
  | set key value next | remove key next =>
    rw [run, advance]
    exact bind_resume b (fun _ ↦ next) (fun _ ↦ rfl) fun _ ↦ rfl

theorem run_advance (b : Backend (StateM σ)) (p : Program α) (s : σ) :
    (p.advance b s).1.run b (p.advance b s).2 = p.run b s :=
  (congrFun (run_eq_advance_bind b p) s).symm

theorem advance_induction {motive : Program α → Prop} (b : Backend (StateM σ))
    (ended : ∀ p x, p.result? = some x → motive p)
    (call : ∀ p, p.result? = none → (∀ s, motive (p.advance b s).1) → motive p)
    (p : Program α) : motive p := by
  induction p with
  | done a => exact ended _ _ rfl
  | fail e => exact ended _ _ rfl
  | get key next ih =>
    refine call _ rfl fun s ↦ ?_
    rw [advance, bind_apply]
    rcases b.get key s with ⟨e | v, s'⟩
    · exact ended _ _ rfl
    · exact ih v
  | set key value next ih =>
    refine call _ rfl fun s ↦ ?_
    rw [advance, bind_apply]
    rcases b.set key value s with ⟨e | _, s'⟩
    · exact ended _ _ rfl
    · exact ih
  | remove key next ih =>
    refine call _ rfl fun s ↦ ?_
    rw [advance, bind_apply]
    rcases b.remove key s with ⟨e | _, s'⟩
    · exact ended _ _ rfl
    · exact ih
  | keys next ih =>
    refine call _ rfl fun s ↦ ?_
    rw [advance, bind_apply]
    rcases b.keys s with ⟨e | ks, s'⟩
    · exact ended _ _ rfl
    · exact ih ks

/-! ## What holds on the way -/

/-- Something holds of all entries that a program finds or leaves on its way, if no one else uses
the store. -/
def Along (P : Entries → Prop) : Program α → Entries → Prop
  | done _, es => P es
  | fail _, es => P es
  | get key next, es => P es ∧ (next (Sorted.get? key es)).Along P es
  | set key value next, es => P es ∧ next.Along P (Sorted.insert key value es)
  | remove key next, es => P es ∧ next.Along P (Sorted.erase key es)
  | keys next, es => P es ∧ (next (Sorted.keys es)).Along P es

namespace Along

variable {P : Entries → Prop} {p : Program α} {es : Entries}

theorem here (h : p.Along P es) : P es := by
  cases p with
  | done | fail => exact h
  | get | set | remove | keys => exact h.1

theorem bind {f : α → Program β} (hp : p.Along P es)
    (hf : ∀ a es', p.run memory es = (.ok a, es') → (f a).Along P es') : (p >>= f).Along P es := by
  induction p generalizing es with
  | done a => exact hf a es rfl
  | fail e => exact hp
  | get key next ih =>
    rw [run_memory_get] at hf
    exact ⟨hp.1, ih _ hp.2 hf⟩
  | set key value next ih =>
    rw [run_memory_set] at hf
    exact ⟨hp.1, ih hp.2 hf⟩
  | remove key next ih =>
    rw [run_memory_remove] at hf
    exact ⟨hp.1, ih hp.2 hf⟩
  | keys next ih =>
    rw [run_memory_keys] at hf
    exact ⟨hp.1, ih _ hp.2 hf⟩

theorem advance (h : p.Along P es) :
    (p.advance memory es).1.Along P (p.advance memory es).2 := by
  cases p with
  | done | fail => exact h
  | get | set | remove | keys => exact h.2

end Along

/-- A call on schedule is the call in memory, or it fails and changes nothing. -/
theorem advance_scheduled (p : Program α) (s : Scheduled) :
    (∃ f, (p.advance scheduled s).1 = fail f ∧ (p.advance scheduled s).2.entries = s.entries) ∨
      ((p.advance scheduled s).1 = (p.advance memory s.entries).1 ∧
        (p.advance scheduled s).2.entries = (p.advance memory s.entries).2) := by
  cases p with
  | done | fail => exact Or.inr ⟨rfl, rfl⟩
  | get key next =>
    simp only [advance, bind_apply, scheduled, Scheduled.answer]
    rcases s.schedule.get.head? with _ | _ | f
    · exact Or.inr ⟨rfl, rfl⟩
    · exact Or.inr ⟨rfl, rfl⟩
    · exact Or.inl ⟨f, rfl, rfl⟩
  | set key value next =>
    simp only [advance, bind_apply, scheduled, Scheduled.answer]
    rcases s.schedule.set.head? with _ | _ | f
    · exact Or.inr ⟨rfl, rfl⟩
    · exact Or.inr ⟨rfl, rfl⟩
    · exact Or.inl ⟨f, rfl, rfl⟩
  | remove key next =>
    simp only [advance, bind_apply, scheduled, Scheduled.answer]
    rcases s.schedule.remove.head? with _ | _ | f
    · exact Or.inr ⟨rfl, rfl⟩
    · exact Or.inr ⟨rfl, rfl⟩
    · exact Or.inl ⟨f, rfl, rfl⟩
  | keys next =>
    simp only [advance, bind_apply, scheduled, Scheduled.answer]
    rcases s.schedule.keys.head? with _ | _ | f
    · exact Or.inr ⟨rfl, rfl⟩
    · exact Or.inr ⟨rfl, rfl⟩
    · exact Or.inl ⟨f, rfl, rfl⟩

/-! ## Programs that only look -/

/-- The program makes no other calls than to look up keys of some kind. -/
def ReadsOnly (K : String → Prop) : Program α → Prop
  | done _ => True
  | fail _ => True
  | get key next => K key ∧ ∀ v, (next v).ReadsOnly K
  | set .. => False
  | remove .. => False
  | keys _ => False

namespace ReadsOnly

variable {K : String → Prop} {p : Program α}

theorem bind {f : α → Program β} (hp : p.ReadsOnly K) (hf : ∀ a, (f a).ReadsOnly K) :
    (p >>= f).ReadsOnly K := by
  induction p with
  | done a => exact hf a
  | fail e => trivial
  | get key next ih => exact ⟨hp.1, fun v ↦ ih v (hp.2 v)⟩
  | set | remove | keys => exact hp.elim

theorem run_entries (h : p.ReadsOnly K) (es : Entries) : (p.run memory es).2 = es := by
  induction p with
  | done | fail => rfl
  | get key next ih =>
    rw [run_memory_get]
    exact ih _ (h.2 _)
  | set | remove | keys => exact h.elim

theorem run_bind (h : p.ReadsOnly K) (f : α → Program β) (es : Entries) :
    (p >>= f).run memory es =
      match (p.run memory es).1 with
      | .ok a => (f a).run memory es
      | .error e => (.error e, es) := by
  have hes := h.run_entries es
  rw [run_bind_apply]
  rcases hp : p.run memory es with ⟨e | a, es'⟩
  · rw [hp] at hes
    rw [← hes]
  · rw [hp] at hes
    rw [← hes]

/-- Entries that agree on the keys that are looked up give the same result. -/
theorem run_congr (h : p.ReadsOnly K) {es es' : Entries}
    (hes : ∀ k, K k → Sorted.get? k es = Sorted.get? k es') :
    (p.run memory es).1 = (p.run memory es').1 := by
  induction p with
  | done | fail => rfl
  | get key next ih =>
    rw [run_memory_get, run_memory_get, hes key h.1]
    exact ih _ (h.2 _)
  | set | remove | keys => exact h.elim

theorem along (h : p.ReadsOnly K) {P : Entries → Prop} {es : Entries} (hes : P es) :
    p.Along P es := by
  induction p with
  | done | fail => exact hes
  | get key next ih => exact ⟨hes, ih _ (h.2 _)⟩
  | set | remove | keys => exact h.elim

end ReadsOnly

/-! ## What programs write -/

/-- Everything that the program writes is of some kind: the values that it puts under keys, and the
keys that it takes out. -/
def Writes (W : String → Option Json → Prop) : Program α → Prop
  | done _ => True
  | fail _ => True
  | get _ next => ∀ v, (next v).Writes W
  | set key value next => W key (some value) ∧ next.Writes W
  | remove key next => W key none ∧ next.Writes W
  | keys next => ∀ ks, (next ks).Writes W

namespace Writes

variable {W : String → Option Json → Prop} {p : Program α}

/-- **A key that is not written under keeps its value.** -/
theorem get?_run (h : p.Writes W) {key : String} (hkey : ∀ value, ¬ W key value) (es : Entries) :
    Sorted.get? key (p.run memory es).2 = Sorted.get? key es := by
  induction p generalizing es with
  | done | fail => rfl
  | get k next ih =>
    rw [run_memory_get]
    exact ih _ (h _) es
  | set k value next ih =>
    have hne : k ≠ key := fun heq ↦ hkey _ (heq ▸ h.1)
    rw [run_memory_set, ih h.2, get?_insert, if_neg hne]
  | remove k next ih =>
    have hne : key ≠ k := fun heq ↦ hkey _ (heq ▸ h.1)
    rw [run_memory_remove, ih h.2, Sorted.get?_erase, if_neg hne]
  | keys next ih =>
    rw [run_memory_keys]
    exact ih _ (h _) es

end Writes

end Program

/-! ## Listing keys in any order

A store may list its keys in any order, and in another one for other entries. What holds for the
order in memory therefore says little about a program that asks for all keys, and such a program is
to be looked at under every order (`KeyOrder`). All other programs cannot tell (`Keyless`).
-/

/-- An order in which a store may list its keys, which can be another one for other entries. -/
structure KeyOrder where
  list : Entries → List String
  perm : ∀ es, (list es).Perm (Sorted.keys es)

namespace KeyOrder

/-- The backend in memory with keys listed in some order. -/
def backend (o : KeyOrder) : Backend (StateM Entries) :=
  { memory with keys := fun es ↦ (.ok (o.list es), es) }

/-- The order in which the backend in memory lists keys. -/
def ascending : KeyOrder := ⟨Sorted.keys, fun _ ↦ List.Perm.refl _⟩

theorem backend_ascending : ascending.backend = memory := rfl

def descending : KeyOrder := ⟨fun es ↦ (Sorted.keys es).reverse, fun _ ↦ List.reverse_perm _⟩

end KeyOrder

namespace Program

variable {α β : Type}

/-- The program does not ask for all keys. -/
def Keyless : Program α → Prop
  | done _ => True
  | fail _ => True
  | get _ next => ∀ v, (next v).Keyless
  | set _ _ next => next.Keyless
  | remove _ next => next.Keyless
  | keys _ => False

/-- Such a program cannot tell in which order keys are listed. -/
theorem Keyless.run_backend {p : Program α} (h : p.Keyless) (o : KeyOrder) (es : Entries) :
    p.run o.backend es = p.run memory es := by
  induction p generalizing es with
  | done | fail => rfl
  | get key next ih =>
    rw [run_memory_get, run]
    exact ih _ (h _) es
  | set key value next ih =>
    rw [run_memory_set, run]
    exact ih h _
  | remove key next ih =>
    rw [run_memory_remove, run]
    exact ih h _
  | keys next ih => exact h.elim

theorem run_backend_keys (o : KeyOrder) (next : List String → Program α) (es : Entries) :
    (keys next).run o.backend es = (next (o.list es)).run o.backend es := by
  rw [run]
  rfl

end Program

end Redirector.Store
