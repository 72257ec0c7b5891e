import Redirector.Proofs.Profile.History
import Redirector.Proofs.Profile.Mirror

/-!
# The switches

Each of the two switches is stored under a key of its own. There are two ways to give it a value:
setting it, which puts the value in whatever is stored, and the settings, which count only as long
as nothing is stored. No other operation writes under the key of a switch. So what is stored for a
switch after any history is a matter of the operations on that switch alone
(`Switch.get?_after`): the value that it was set to last, or, if it was never set, the one that the
settings had the first time. What the other switch is set to does not come into it.

Between two operations the store may be opened anew, as when the daemon is started again and brings
settings that may have changed. Whoever opens it finds in the file what the last one held, and so
the history goes on as if there had been one store all along (`switches_after`).
-/

namespace Redirector.Profiles

open Files (Path Tree)
open Store (Program Entries KeyOrder)

/-! ## The settings -/

/-- The entries with the value that the settings have for a switch, if nothing is stored for it. -/
def seeded (key : String) (on : Bool) (es : Entries) : Entries :=
  if (Sorted.get? key es).isNone then Sorted.insert key (.boolean on) es else es

theorem get?_seeded (key : String) (on : Bool) (es : Entries) (j : String) :
    Sorted.get? j (seeded key on es)
      = (Sorted.get? j es).or (if key = j then some (.boolean on) else none) := by
  rw [seeded]
  by_cases hkey : key = j
  · subst hkey
    cases hstored : Sorted.get? key es with
    | none => rw [Option.isNone_none, if_pos rfl, if_pos rfl, Store.get?_insert, if_pos rfl,
        Option.none_or]
    | some value => rw [Option.isNone_some, if_neg Bool.false_ne_true, hstored, Option.some_or]
  · rw [if_neg hkey, Option.or_none]
    split_ifs
    · rw [Store.get?_insert, if_neg hkey]
    · rfl

theorem initSwitch_run (key : String) (on : Bool) (es : Entries) :
    (initSwitch key on).run Store.memory es = (.ok (), seeded key on es) := by
  change (Program.get key _).run Store.memory es = _
  rw [Program.run_memory_get, seeded]
  cases Sorted.get? key es with
  | none => rfl
  | some value => rfl

theorem initSwitches_run (enabled headers : Bool) (es : Entries) :
    (initSwitches enabled headers).run Store.memory es
      = (.ok (), seeded headersKey headers (seeded enabledKey enabled es)) := by
  rw [initSwitches, Program.run_bind_apply, initSwitch_run]
  exact initSwitch_run headersKey headers _

namespace Switch

/-! ## One operation -/

variable (s : Switch)

theorem key_ne {key : String} (h : key ∈ [listKey, editingKey]) : s.key ≠ key := by
  cases s with
  | rules | headers =>
    revert key
    decide

/-- Who writes under the key of a switch has a value for it. -/
theorem exists_of_write {o : Operation} {value : Option Json} (h : o.Write s.key value) :
    ∃ on, s.set? o = some on ∨ s.seed? o = some on := by
  generalize hkey : s.key = key at h
  cases h with
  | list ps => exact absurd hkey (s.key_ne (by simp))
  | aim id => exact absurd hkey (s.key_ne (by simp))
  | unaim => exact absurd hkey (s.key_ne (by simp))
  | @switch _ s' on hvalue =>
    obtain rfl := key_injective hkey
    exact ⟨on, hvalue⟩
  | document text id => exact absurd hkey.symm (documentKey_ne_fixed s.key_mem_fixedKeys id)
  | orphan id => exact absurd hkey.symm (documentKey_ne_fixed s.key_mem_fixedKeys id)

/-- An operation that has no value for a switch leaves it alone. -/
theorem get?_idle {o : Operation} (hset : s.set? o = none) (hseed : s.seed? o = none)
    (es : Entries) :
    Sorted.get? s.key (o.program.run Store.memory es).2 = Sorted.get? s.key es := by
  have hwrites : ∀ value, ¬ o.Write s.key value := by
    intro value hwrite
    obtain ⟨on, hvalue⟩ := s.exists_of_write hwrite
    rw [hset, hseed] at hvalue
    rcases hvalue with h | h
    · cases h
    · cases h
  exact o.writes.get?_run hwrites es

/-- The settings have a value for both switches, and each switch gets its own. -/
theorem get?_seeds (enabled headers : Bool) (es : Entries) :
    Sorted.get? s.key ((initSwitches enabled headers).run Store.memory es).2
      = (Sorted.get? s.key es).or
          ((s.seed? (.initSwitches enabled headers)).map Json.boolean) := by
  rw [initSwitches_run, get?_seeded, get?_seeded]
  cases s with
  | rules =>
    have hown : enabledKey = Switch.rules.key := rfl
    have hother : headersKey ≠ Switch.rules.key := by decide
    rw [if_pos hown, if_neg hother, Option.or_none]
    rfl
  | headers =>
    have hown : headersKey = Switch.headers.key := rfl
    have hother : enabledKey ≠ Switch.headers.key := by decide
    rw [if_neg hother, Option.or_none, if_pos hown]
    rfl

/-- **One operation**: what is stored for a switch is what it was set to, or else what was stored
before, or else what the settings have for it. -/
theorem get?_step (o : Operation) (es : Entries) :
    Sorted.get? s.key (o.program.run Store.memory es).2
      = ((s.set? o).map Json.boolean).or
          ((Sorted.get? s.key es).or ((s.seed? o).map Json.boolean)) := by
  have hidle (hset : s.set? o = none) (hseed : s.seed? o = none) :
      Sorted.get? s.key (o.program.run Store.memory es).2
        = ((s.set? o).map Json.boolean).or
            ((Sorted.get? s.key es).or ((s.seed? o).map Json.boolean)) := by
    rw [s.get?_idle hset hseed, hset, hseed, Option.map_none, Option.none_or, Option.or_none]
  have hput (on : Bool) :
      Sorted.get? s.key (Sorted.insert s.key (.boolean on) es) = some (.boolean on) := by
    rw [Store.get?_insert, if_pos rfl]
  cases o with
  | setEnabled on =>
    cases s with
    | rules => exact hput on
    | headers => exact hidle rfl rfl
  | setHeadersEnabled on =>
    cases s with
    | rules => exact hidle rfl rfl
    | headers => exact hput on
  | initSwitches enabled headers =>
    cases s with
    | rules | headers => exact get?_seeds _ enabled headers es
  | _ => cases s with
    | rules | headers => exact hidle rfl rfl

/-! ## Histories -/

/-- The value that the operations on a switch have left for it: the last one that it was set to, or
else the first one that the settings had. -/
def chosen? (os : List Operation) : Option Bool :=
  (os.filterMap s.set?).getLast?.or (os.filterMap s.seed?).head?

theorem chosen?_append (os : List Operation) (o : Operation) :
    s.chosen? (os ++ [o]) = (s.set? o).or ((s.chosen? os).or (s.seed? o)) := by
  have hlast : ([o].filterMap s.set?).getLast? = s.set? o := by
    rw [List.filterMap_cons, List.filterMap_nil]
    cases s.set? o with
    | none => rfl
    | some on => rfl
  have hfirst : ([o].filterMap s.seed?).head? = s.seed? o := by
    rw [List.filterMap_cons, List.filterMap_nil]
    cases s.seed? o with
    | none => rfl
    | some on => rfl
  rw [chosen?, chosen?, List.filterMap_append, List.filterMap_append, List.getLast?_append,
    List.head?_append, hlast, hfirst, Option.or_assoc, Option.or_assoc]

/-- **What is stored for a switch after any history** is what was chosen for it, if anything was. -/
theorem get?_after (os : List Operation) :
    Sorted.get? s.key (after [] os) = (s.chosen? os).map Json.boolean := by
  induction os using List.reverseRecOn with
  | nil => rfl
  | append_singleton os o ih =>
    rw [after_append, s.get?_step, ih, s.chosen?_append, Option.map_or, Option.map_or]

theorem program_eq : s.program = switch s.key := by
  cases s with
  | rules | headers => rfl

/-- A switch reads as what was chosen for it, and is on if nothing was. -/
theorem run_after (os : List Operation) :
    (s.program.run Store.memory (after [] os)).1 = .ok ((s.chosen? os).getD true) := by
  rw [s.program_eq, switch_run, s.get?_after]
  cases s.chosen? os with
  | none => rfl
  | some on => rfl

/-- Reading a switch in a file takes no more than the entries that are held. -/
theorem run_file (path : Path) (es : Entries) (t : Tree) :
    (s.program.run (Store.file Tree.system path) es t).1.1
      = (s.program.run Store.memory es).1 := by
  rw [s.program_eq, switch_run]
  change ((Program.get s.key _).run (Store.file Tree.system path) es t).1.1 = _
  rw [Store.run_file_get]
  rfl

end Switch

/-! ## Restarts -/

def operations (events : List Event) : List Operation :=
  events.filterMap fun
    | .operation o => some o
    | .reload | .reopen => none

theorem observeInMemory_entries (order : KeyOrder) (events : List Event) (es : Entries) :
    (observe (observeInMemory order) events es).2 = after es (operations events) := by
  induction events generalizing es with
  | nil => rfl
  | cons e events ih =>
    rw [observe_cons]
    cases e with
    | operation o =>
      refine (ih _).trans ?_
      exact congrArg (after · (operations events)) (congrArg Prod.snd (o.run_backend order es))
    | reload | reopen => exact ih es

/-- **Stored switches win over settings.** After any history a switch reads as the value that it was
set to last; if it was never set, as the value that the settings had the first time; and else it is
on. The operations on the other switch do not matter. In a file the same holds of a history in which
the file is read again and the store is opened anew, as long as there was no file in the beginning
and none fails to be written. -/
theorem switches_after :
    (∀ (os : List Operation) (s : Switch),
      (s.program.run Store.memory (after [] os)).1 = .ok ((s.chosen? os).getD true)) ∧
    ∀ (path : Path) (events : List Event) (t : Tree) (seen : List Observation) (es : Entries)
      (t' : Tree), (t.get path).isOk = false →
      observe (observeInFile path) events [] t = ((seen, es), t') →
      (∀ o ∈ seen, ¬ Store.IsBlocked o.answer) → ∀ s : Switch,
      (s.program.run (Store.file Tree.system path) es t').1.1
        = .ok ((s.chosen? (operations events)).getD true) := by
  constructor
  · intro os s
    exact s.run_after os
  · intro path events t seen es t' habsent hrun hwritten s
    have hmirrors := Store.mirrors_of_absent habsent
    rcases observe_cases .ascending hmirrors events with ⟨⟨o, ho, hblocked⟩, -⟩ | hmirrored
    · rw [hrun] at ho
      exact absurd hblocked (hwritten o ho)
    · have hsame := hmirrored.same
      rw [hrun] at hsame
      have hes : es = after [] (operations events) := by
        rw [← observeInMemory_entries, ← hsame]
      rw [s.run_file, hes, s.run_after]

/-- The settings are brought twice, with another value for the first switch the second time; the
second switch is set in between, and read back from the file. -/
theorem switches_after_restart :
    let path : Path := ["state", "profiles.json"]
    let events : List Event := [.operation (.initSwitches false true),
      .operation (.setHeadersEnabled false), .reopen, .operation (.initSwitches true true)]
    ∃ seen es t, observe (observeInFile path) events [] .empty = ((seen, es), t) ∧
      (isEnabled.run (Store.file Tree.system path) es t).1.1 = .ok false ∧
      (headersEnabled.run (Store.file Tree.system path) es t).1.1 = .ok false := by
  intro path events
  have hfree : Tree.empty.Free path := Tree.free_empty (by decide) (by decide)
  have habsent : (Tree.empty.get path).isOk = false := rfl
  -- In the file nothing is in the way, so what is seen can be computed in memory.
  have hmirrored := (observe_cases .ascending (Store.mirrors_of_absent habsent) events).resolve_left
    fun h ↦ h.2 hfree
  have hwritten : ∀ o ∈ (observe (observeInMemory .ascending) events []).1,
      ¬ Store.IsBlocked o.answer := by
    decide +kernel
  rcases hrun : observe (observeInFile path) events [] .empty with ⟨⟨seen, es⟩, t⟩
  rw [← congrArg Prod.fst hmirrored.same, hrun] at hwritten
  have hswitch := switches_after.2 path events .empty seen es t habsent hrun hwritten
  exact ⟨seen, es, t, rfl, hswitch .rules, hswitch .headers⟩

end Redirector.Profiles
