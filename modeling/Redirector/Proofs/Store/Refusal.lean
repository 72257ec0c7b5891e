import Redirector.Proofs.Store.Program

/-!
# Programs whose calls may be refused

A store may refuse any call, and that ends the program where it is: what it has done so far stays
done. So besides the entries that a program leaves behind when it comes to its end, one has to know
the entries at every place where it can be broken off. `Ends D B` says both: `D` holds of the result
and the entries at the end, and `B` of the entries at every other place, together with the call that
is refused there.

## Why one statement is enough

A statement of this kind is about the program in memory, where nothing is refused, and is proved
along `bind` with no schedule in sight. It then holds of every schedule (`Ends.scheduled`), as a
call that is refused changes nothing, and of the store in memory (`Ends.memory`), which refuses
nothing.
One such statement for each operation therefore answers what it does as well as what is left of it
if it fails.
-/

namespace Redirector.Store

/-! ## The calls of a program -/

inductive Call where
  | get (key : String)
  | set (key : String) (value : Json)
  | remove (key : String)
  | keys

/-- The key that a call is about, if it is about one. -/
def Call.key? : Call → Option String
  | get key => some key
  | set key _ => some key
  | remove key => some key
  | keys => none

/-- Every call that the program makes is of some kind, whatever the calls before it are answered. -/
def Program.Makes {α : Type} (C : Call → Prop) : Program α → Prop
  | done _ => True
  | fail _ => True
  | get key next => C (.get key) ∧ ∀ v, (next v).Makes C
  | set key value next => C (.set key value) ∧ next.Makes C
  | remove key next => C (.remove key) ∧ next.Makes C
  | keys next => C .keys ∧ ∀ ks, (next ks).Makes C

namespace Program.Makes

variable {α β : Type} {C : Call → Prop} {p : Program α}

theorem bind {f : α → Program β} (hp : p.Makes C) (hf : ∀ a, (f a).Makes C) :
    (p >>= f).Makes C := by
  induction p with
  | done a => exact hf a
  | fail e => trivial
  | get key next ih => exact ⟨hp.1, fun v ↦ ih v (hp.2 v)⟩
  | set key value next ih => exact ⟨hp.1, ih hp.2⟩
  | remove key next ih => exact ⟨hp.1, ih hp.2⟩
  | keys next ih => exact ⟨hp.1, fun ks ↦ ih ks (hp.2 ks)⟩

theorem ite {c : Prop} [Decidable c] {q : Program α} (hp : p.Makes C) (hq : q.Makes C) :
    (if c then p else q).Makes C := by
  split
  · exact hp
  · exact hq

theorem of_readsOnly {K : String → Prop} (h : p.ReadsOnly K) (hget : ∀ key, C (.get key)) :
    p.Makes C := by
  induction p with
  | done | fail => trivial
  | get key next ih => exact ⟨hget key, fun v ↦ ih v (h.2 v)⟩
  | set | remove | keys => exact h.elim

/-- What a program writes can be told from its calls. -/
theorem writes {W : String → Option Json → Prop} (h : p.Makes C)
    (hset : ∀ key value, C (.set key value) → W key (some value))
    (hremove : ∀ key, C (.remove key) → W key none) : p.Writes W := by
  induction p with
  | done | fail => trivial
  | get key next ih => exact fun v ↦ ih v (h.2 v)
  | set key value next ih => exact ⟨hset key value h.1, ih h.2⟩
  | remove key next ih => exact ⟨hremove key h.1, ih h.2⟩
  | keys next ih => exact fun ks ↦ ih ks (h.2 ks)

theorem keyless (h : p.Makes C) (hkeys : ¬ C .keys) : p.Keyless := by
  induction p with
  | done | fail => trivial
  | get key next ih => exact fun v ↦ ih v (h.2 v)
  | set key value next ih => exact ih h.2
  | remove key next ih => exact ih h.2
  | keys next ih => exact hkeys h.1

end Program.Makes

/-! ## Calls that are refused -/

/-- A call on schedule is refused and changes nothing, or is the call in memory. -/
theorem Scheduled.answer_cases {α : Type} (outcomes : Schedule → List (Option Fault))
    (later : List (Option Fault) → Schedule → Schedule) (call : StateM Entries (Except Fault α))
    (s : Scheduled) :
    (∃ f s', answer outcomes later call s = (.error f, s') ∧ s'.entries = s.entries) ∨
      ∃ s', answer outcomes later call s = ((call s.entries).1, s') ∧
        s'.entries = (call s.entries).2 := by
  unfold answer
  rcases (outcomes s.schedule).head? with _ | _ | f
  · exact Or.inr ⟨_, rfl, rfl⟩
  · exact Or.inr ⟨_, rfl, rfl⟩
  · exact Or.inl ⟨f, _, rfl, rfl⟩

namespace Program

variable {α β σ : Type}

/-- The call that is refused when a program is carried out, if one is. -/
def refused? (b : Backend (StateM σ)) : Program α → σ → Option Call
  | done _, _ => none
  | fail _, _ => none
  | get key next, s =>
    match b.get key s with
    | (.ok v, s') => (next v).refused? b s'
    | (.error _, _) => some (.get key)
  | set key value next, s =>
    match b.set key value s with
    | (.ok _, s') => next.refused? b s'
    | (.error _, _) => some (.set key value)
  | remove key next, s =>
    match b.remove key s with
    | (.ok _, s') => next.refused? b s'
    | (.error _, _) => some (.remove key)
  | keys next, s =>
    match b.keys s with
    | (.ok ks, s') => (next ks).refused? b s'
    | (.error _, _) => some .keys

/-- What holds of a program in memory when it comes to its end, and wherever else it may end: by a
fault of its own, or because a call is refused. -/
def Ends (D : α → Entries → Prop) (B : Option Call → Entries → Prop) : Program α → Entries → Prop
  | done a, es => D a es
  | fail _, es => B none es
  | get key next, es => B (some (.get key)) es ∧ (next (Sorted.get? key es)).Ends D B es
  | set key value next, es =>
    B (some (.set key value)) es ∧ next.Ends D B (Sorted.insert key value es)
  | remove key next, es => B (some (.remove key)) es ∧ next.Ends D B (Sorted.erase key es)
  | keys next, es => B (some .keys) es ∧ (next (Sorted.keys es)).Ends D B es

namespace Ends

variable {D D' : α → Entries → Prop} {B B' : Option Call → Entries → Prop} {p : Program α}
  {es : Entries}

theorem mono (h : p.Ends D B es) (hD : ∀ a es', D a es' → D' a es')
    (hB : ∀ c es', B c es' → B' c es') : p.Ends D' B' es := by
  induction p generalizing es with
  | done a => exact hD _ _ h
  | fail e => exact hB _ _ h
  | get key next ih => exact ⟨hB _ _ h.1, ih _ h.2⟩
  | set key value next ih => exact ⟨hB _ _ h.1, ih h.2⟩
  | remove key next ih => exact ⟨hB _ _ h.1, ih h.2⟩
  | keys next ih => exact ⟨hB _ _ h.1, ih _ h.2⟩

/-- What holds at the end of the first program is what the second one starts from. -/
theorem bind {D : β → Entries → Prop} {f : α → Program β}
    (h : p.Ends (fun a es' ↦ (f a).Ends D B es') B es) : (p >>= f).Ends D B es := by
  induction p generalizing es with
  | done a => exact h
  | fail e => exact h
  | get key next ih => exact ⟨h.1, ih _ h.2⟩
  | set key value next ih => exact ⟨h.1, ih h.2⟩
  | remove key next ih => exact ⟨h.1, ih h.2⟩
  | keys next ih => exact ⟨h.1, ih _ h.2⟩

/-- In memory nothing is refused. -/
theorem memory (h : p.Ends D B es) :
    match p.run Store.memory es with
    | (.ok a, es') => D a es'
    | (.error _, es') => B none es' := by
  induction p generalizing es with
  | done a => exact h
  | fail e => exact h
  | get key next ih =>
    rw [run_memory_get]
    exact ih _ h.2
  | set key value next ih =>
    rw [run_memory_set]
    exact ih h.2
  | remove key next ih =>
    rw [run_memory_remove]
    exact ih h.2
  | keys next ih =>
    rw [run_memory_keys]
    exact ih _ h.2

theorem memory_ok {a : α} {es' : Entries} (h : p.Ends D B es)
    (hrun : p.run Store.memory es = (.ok a, es')) : D a es' := by
  have hends := h.memory
  rw [hrun] at hends
  exact hends

theorem memory_error {f : Fault} {es' : Entries} (h : p.Ends D B es)
    (hrun : p.run Store.memory es = (.error f, es')) : B none es' := by
  have hends := h.memory
  rw [hrun] at hends
  exact hends

/-- **What holds whatever is refused.** -/
theorem scheduled {s : Scheduled} (h : p.Ends D B s.entries) :
    match p.run Store.scheduled s with
    | (.ok a, s') => D a s'.entries
    | (.error _, s') => B (p.refused? Store.scheduled s) s'.entries := by
  -- A call that is refused leaves the entries alone; any other one is answered as in memory.
  induction p generalizing s with
  | done a => exact h
  | fail e => exact h
  | get key next ih =>
    rw [run, bind_apply, refused?]
    rcases Scheduled.answer_cases (·.get) (fun l s ↦ { s with get := l }) (Store.memory.get key) s
      with ⟨f, s', hcall, hs'⟩ | ⟨s', hcall, hs'⟩
    · simp only [Store.scheduled, hcall]
      rw [← hs'] at h
      exact h.1
    · simp only [Store.scheduled, hcall]
      exact ih _ (hs' ▸ h.2)
  | set key value next ih =>
    rw [run, bind_apply, refused?]
    rcases Scheduled.answer_cases (·.set) (fun l s ↦ { s with set := l })
      (Store.memory.set key value) s with ⟨f, s', hcall, hs'⟩ | ⟨s', hcall, hs'⟩
    · simp only [Store.scheduled, hcall]
      rw [← hs'] at h
      exact h.1
    · simp only [Store.scheduled, hcall]
      exact ih (hs' ▸ h.2)
  | remove key next ih =>
    rw [run, bind_apply, refused?]
    rcases Scheduled.answer_cases (·.remove) (fun l s ↦ { s with remove := l })
      (Store.memory.remove key) s with ⟨f, s', hcall, hs'⟩ | ⟨s', hcall, hs'⟩
    · simp only [Store.scheduled, hcall]
      rw [← hs'] at h
      exact h.1
    · simp only [Store.scheduled, hcall]
      exact ih (hs' ▸ h.2)
  | keys next ih =>
    rw [run, bind_apply, refused?]
    rcases Scheduled.answer_cases (·.keys) (fun l s ↦ { s with keys := l }) Store.memory.keys s
      with ⟨f, s', hcall, hs'⟩ | ⟨s', hcall, hs'⟩
    · simp only [Store.scheduled, hcall]
      rw [← hs'] at h
      exact h.1
    · simp only [Store.scheduled, hcall]
      exact ih _ (hs' ▸ h.2)

theorem scheduled_ok {a : α} {s s' : Scheduled} (h : p.Ends D B s.entries)
    (hrun : p.run Store.scheduled s = (.ok a, s')) : D a s'.entries := by
  have hends := h.scheduled
  rw [hrun] at hends
  exact hends

theorem scheduled_error {f : Fault} {s s' : Scheduled} (h : p.Ends D B s.entries)
    (hrun : p.run Store.scheduled s = (.error f, s')) :
    B (p.refused? Store.scheduled s) s'.entries := by
  have hends := h.scheduled
  rw [hrun] at hends
  exact hends

end Ends

/-- A program that only looks values up ends with the entries that it found. -/
theorem ReadsOnly.ends {K : String → Prop} {p : Program α} (h : p.ReadsOnly K)
    {D : α → Entries → Prop} {B : Option Call → Entries → Prop} {es : Entries}
    (hget : ∀ key, K key → B (some (.get key)) es) (hfault : B none es)
    (hD : ∀ a, (p.run memory es).1 = .ok a → D a es) : p.Ends D B es := by
  induction p with
  | done a => exact hD a rfl
  | fail e => exact hfault
  | get key next ih =>
    rw [run_memory_get] at hD
    exact ⟨hget key h.1, ih _ (h.2 _) hD⟩
  | set | remove | keys => exact h.elim

end Program

end Redirector.Store
