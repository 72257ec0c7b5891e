import Redirector.Proofs.Apply.Pipeline
import Redirector.Regex.Automaton
import Redirector.Store

/-!
# All or nothing

On an engine in memory a call either installs exactly what it asks for or leaves the table as it
was, and what is remembered afterwards are the installed rules (`Pipeline.Replaces`). This holds of
every call of every run that starts from valid rules, as the invariant of the run (`Pipeline.Sound`)
is all that a call needs.

On an engine with calls that fail on schedule a success says less. If the installed rules cannot be
listed they count as none, so they are not removed, and a success then leaves them in place. The
exact condition for a success to mean what it says is `holds_requested_iff`.
-/

namespace Redirector.Apply

namespace Pipeline

variable {check : Regex.Check} {σ : Type}

/-! ## The engine in memory -/

/-- **All or nothing.** What is left behind by a call that ended in some way: on success just the
rules asked for, in the order of their identifiers, and after they were refused the rules as they
were before, which were put back if there were any. Which of the two it is depends on the rules
asked for alone, and what is remembered are the installed rules. -/
def Replaces (check : Regex.Check) (p : Pipeline RuleTable σ) (c : Call σ) :
    Except Fault Report × Pipeline RuleTable σ → Prop
  | (.ok _, p') => ∃ q, (c.request p.store).1 = .ok q ∧ Rule.Installable check q.rules ∧
      p'.engine.Holds q.rules ∧ p'.record.lastGood.Perm p'.engine.rules
  | (.error (.replace (.install _ restored)), p') =>
      (∃ q, (c.request p.store).1 = .ok q ∧ ¬ Rule.Installable check q.rules) ∧
      p'.engine = p.engine ∧ (restored = true ↔ p.engine.rules ≠ []) ∧
      p'.record.lastGood.Perm p'.engine.rules
  -- In memory, rules that are listed can be removed.
  | (.error (.replace (.remove _)), _) => False
  | (.error (.store f), p') => (c.request p.store).1 = .error f ∧
      p'.engine = p.engine ∧ p'.record = p.record

/-- **The invariant of a run.** -/
structure Sound (check : Regex.Check) (p : Pipeline RuleTable σ) : Prop where
  wellFormed : p.engine.WellFormed
  /-- What is installed can be put back. -/
  valid : ∀ x ∈ p.engine.rules, x.fault? check = none
  /-- While the table is empty, nothing is there to be put back by mistake. -/
  remembered : p.engine.rules = [] → p.record.lastGood = []

theorem sound_initial {rs : List Rule} (h : Rule.Installable check rs) (s : σ) :
    (initial (RuleTable.ofRules rs) s).Sound check where
  wellFormed := RuleTable.wellFormed_ofRules rs
  valid x hx := h.valid x ((RuleTable.rules_ofRules_perm h.distinct).mem_iff.mp hx)
  remembered _ := rfl

/-- **One step**: a call is all or nothing, and the next one finds the invariant again. -/
theorem Sound.call {p : Pipeline RuleTable σ} (h : p.Sound check) (c : Call σ) :
    p.Replaces check c (p.call (Engine.memory check) c) ∧
      (p.call (Engine.memory check) c).2.Sound check := by
  cases hq : (c.request p.store).1 with
  | error f =>
    rw [call_of_not_requested hq]
    exact ⟨⟨hq, rfl, rfl⟩, ⟨h.wellFormed, h.valid, h.remembered⟩⟩
  | ok q =>
    rw [call_of_requested hq]
    by_cases hi : Rule.Installable check q.rules
    · rw [replace_memory_of_installable h.wellFormed hi]
      have hperm := RuleTable.rules_ofRules_perm hi.distinct
      refine ⟨⟨q, hq, hi, (RuleTable.wellFormed_ofRules _).holds hperm, hperm.symm⟩, ?_⟩
      refine ⟨RuleTable.wellFormed_ofRules _, ?_, ?_⟩
      · intro x hx
        exact hi.valid x (hperm.mem_iff.mp hx)
      · intro hnil
        exact List.nil_perm.mp (hnil ▸ hperm)
    · obtain ⟨e, hrefused⟩ := replace_memory_of_not_installable h.wellFormed h.valid
        (r := { p.record with metrics := p.record.metrics.countSkips q.skips }) h.remembered hi
      rw [hrefused]
      refine ⟨⟨⟨q, hq, hi⟩, rfl, ?_, List.Perm.refl _⟩, ⟨h.wellFormed, h.valid, id⟩⟩
      rw [Bool.not_eq_true', List.isEmpty_eq_false_iff]

theorem Sound.after {p : Pipeline RuleTable σ} (h : p.Sound check) (cs : List (Call σ)) :
    (p.after (Engine.memory check) cs).Sound check := by
  induction cs generalizing p with
  | nil => exact h
  | cons c cs ih => exact ih (h.call c).2

/-- **Every call of every run is all or nothing**: the calls before it may be any, and the store may
have changed or failed in any way between them. -/
theorem replaces_after {rs : List Rule} (h : Rule.Installable check rs) (s : σ)
    (before : List (Call σ)) (c : Call σ) :
    ((initial (.ofRules rs) s).after (Engine.memory check) before).Replaces check c
      (((initial (.ofRules rs) s).after (Engine.memory check) before).call
        (Engine.memory check) c) :=
  (((sound_initial h s).after before).call c).1

/-- A refused rule brings nothing back that was cleared before. -/
theorem replaces_after_clearing :
    Rule.Installable Regex.check [pageRule 1000] ∧
      (let cleared :=
        (initial (.ofRules [pageRule 1000]) ()).after (Engine.memory Regex.check) [.install []]
      cleared.Replaces Regex.check (.install [pageRule 0])
        (cleared.call (Engine.memory Regex.check) (.install [pageRule 0])) ∧
      (cleared.call (Engine.memory Regex.check) (.install [pageRule 0])).1
        = .error (.replace (.install (.rejected .zeroId) false))) :=
  have h : Rule.Installable Regex.check [pageRule 1000] := ⟨by decide, by decide⟩
  ⟨h, replaces_after h () [.install []] (.install [pageRule 0]), rfl⟩

/-! ## An engine with calls that fail on schedule -/

/-- **What is installed after a success**, whatever was installed, remembered or scheduled: what was
asked for if the engine listed its rules, and otherwise the old rules as well. A success thus means
what it says exactly if the rules were listed or there were none. -/
theorem holds_requested_iff {p p' : Pipeline Engine.Scheduled σ} {c : Call σ} {report : Report}
    {installed : List Rule} (ht : p.engine.table = .ofRules installed)
    (h : p.call (Engine.scheduled check) c = (.ok report, p')) :
    ∃ q, (c.request p.store).1 = .ok q ∧
      p'.engine.table.Holds
        (if p.engine.lists then q.rules else p.engine.table.rules ++ q.rules) ∧
      (p'.engine.table.Holds q.rules ↔ p.engine.lists = true ∨ installed = []) := by
  obtain ⟨q, hq, hreplace⟩ := call_eq_ok h
  have hwf : p.engine.table.WellFormed := ht ▸ RuleTable.wellFormed_ofRules installed
  have hholds := replace_scheduled_eq_ok hwf hreplace
  refine ⟨q, hq, hholds, ?_⟩
  cases hlists : p.engine.lists with
  | true =>
    rw [hlists, if_pos rfl] at hholds
    exact iff_of_true hholds (Or.inl rfl)
  | false =>
    rw [hlists, if_neg Bool.false_ne_true] at hholds
    rw [← RuleTable.rules_ofRules_eq_nil_iff, ← ht]
    constructor
    · intro hrequested
      have hlength := (hholds.perm.symm.trans hrequested.perm).length_eq
      rw [List.length_append, Nat.add_eq_right, List.length_eq_zero_iff] at hlength
      exact Or.inr hlength
    · rintro (hcon | hempty)
      · cases hcon
      · rw [hempty, List.nil_append] at hholds
        exact hholds

/-- An engine whose only rule is not listed at the next call. -/
def unlisted : Pipeline Engine.Scheduled Unit :=
  ⟨.initial, ⟨.ofRules [pageRule 1000], [some (.files .missing)], []⟩, ()⟩

theorem holds_requested_iff_unlisted :
    unlisted.engine.table = .ofRules [pageRule 1000] ∧
      unlisted.call (Engine.scheduled Regex.check) (.install [pageRule 1001])
        = (.ok ⟨0, 0, 1⟩,
            (unlisted.call (Engine.scheduled Regex.check) (.install [pageRule 1001])).2) ∧
      ∃ q, ((Call.install [pageRule 1001]).request unlisted.store).1 = .ok q ∧
        (unlisted.call (Engine.scheduled Regex.check)
            (.install [pageRule 1001])).2.engine.table.Holds
          (if unlisted.engine.lists then q.rules else unlisted.engine.table.rules ++ q.rules) ∧
        ((unlisted.call (Engine.scheduled Regex.check)
            (.install [pageRule 1001])).2.engine.table.Holds q.rules ↔
          unlisted.engine.lists = true ∨ [pageRule 1000] = []) :=
  ⟨rfl, rfl, holds_requested_iff rfl rfl⟩

/-- **Switching rules off can leave them in place**: with a listing that fails, an install of no
rules is a success, and the old rule is still there. -/
theorem stale_after_success :
    (unlisted.call (Engine.scheduled Regex.check) (.install [])).1 = .ok ⟨0, 0, 0⟩ ∧
      ¬ (unlisted.call (Engine.scheduled Regex.check) (.install [])).2.engine.table.Holds [] := by
  refine ⟨rfl, fun hholds ↦ ?_⟩
  exact List.cons_ne_nil _ _ hholds.perm.eq_nil

end Pipeline

/-! ## Applies that fail before anything is installed

An apply of the store reads what is wanted, lists what is installed, removes it and adds the new
rules, in this order. Until something is removed there is nothing to put back, so an apply that ends
there has to leave everything as it was: the engine, what is remembered, and the gauge. Only the
outcome is counted, and an apply that could not read the store has none.

This is about any store and any engine that is a table with calls that may fail
(`Engine.Fallible`). No part of the store is asked for once the engine is, so that a failure of the
store always comes first; and of the calls to the engine the removal is the first that can end an
apply, because a listing that fails counts as an empty one.
-/

section

variable {check : Regex.Check} {ε σ : Type} {engine : Engine (StateM ε)} {table : ε → RuleTable}

theorem table_installed (h : engine.Fallible check table) (e : ε) :
    table (installed engine e).2 = table e := by
  have hrules := (h.rules e).1
  rw [installed, bind_apply]
  rcases hcall : engine.rules e with ⟨f | rules, e'⟩
  · rw [hcall] at hrules
    exact hrules
  · rw [hcall] at hrules
    exact hrules

theorem table_updateUnless_of_error (h : engine.Fallible check table) {isIdle : Bool}
    {u : RuleUpdate} {e e' : ε} {f : Engine.Fault}
    (hcall : updateUnless engine isIdle u e = (.error f, e')) :
    table e' = table e := by
  unfold updateUnless at hcall
  split_ifs at hcall
  · cases hcall
  · rcases h.update u e with ⟨hok, -⟩ | ⟨-, htable⟩
    · rw [hcall] at hok
      cases hok
    · rw [hcall] at htable
      exact htable

/-- Adding the new rules can fail, but not as a removal. -/
theorem install_ne_remove {previous rules : List Rule} {r r' : Record} {e e' : ε}
    {f : Engine.Fault} :
    install engine previous rules r e ≠ ((.error (.remove f), r'), e') := by
  rw [install_eq, bind_apply]
  rcases updateUnless engine rules.isEmpty (.adding rules) e with ⟨g | ⟨⟩, e₁⟩
  · intro heq
    cases heq
  · intro heq
    cases heq

/-- **A removal that fails** is counted, and nothing else has happened. -/
theorem replace_eq_remove_error (h : engine.Fallible check table) {rules : List Rule}
    {r r' : Record} {e e' : ε} {f : Engine.Fault}
    (hrun : replace engine rules r e = ((.error (.remove f), r'), e')) :
    r' = count .removeFailed r ∧ table e' = table e := by
  rw [replace_eq, bind_apply, bind_apply] at hrun
  rcases hremove : updateUnless engine (installed engine e).1.isEmpty
    (.removing ((installed engine e).1.map Rule.id)) (installed engine e).2 with ⟨g | ⟨⟩, e₁⟩
  · rw [hremove] at hrun
    cases hrun
    exact ⟨rfl, (table_updateUnless_of_error h hremove).trans (table_installed h e)⟩
  · rw [hremove] at hrun
    exact absurd hrun install_ne_remove

end

/-! ### Applies of a store -/

/-- How an apply that fails is counted, if it is. -/
def Fault.outcome? : Fault → Option Outcome
  | .store _ => none
  | .replace (.remove _) => some .removeFailed
  | .replace (.install ..) => some .installFailed

/-- The entries that are skipped once it is known what the store asks for. -/
def skippedOf : Except Store.Fault (Option Wanted) → List SkipReason
  | .error _ => []
  | .ok w => (Request.ofWanted w).skips

section

variable {check : Regex.Check} {ε σ : Type} {engine : Engine (StateM ε)} {table : ε → RuleTable}

private theorem conclude_eq_store_error {x : Except Store.Fault (Option Wanted)} {r r' : Record}
    {e e' : ε} {g : Store.Fault} (hrun : conclude engine x r e = ((.error (.store g), r'), e')) :
    x = .error g ∧ r' = r ∧ e' = e := by
  cases x with
  | error g' =>
    cases hrun
    exact ⟨rfl, rfl, rfl⟩
  | ok w =>
    rw [conclude, serve, installRules, bind_apply] at hrun
    rcases hreplace : replace engine (Request.ofWanted w).rules
      { r with metrics := r.metrics.countSkips (Request.ofWanted w).skips } e
      with ⟨⟨g' | report, r₁⟩, e₁⟩
    · rw [hreplace] at hrun
      cases hrun
    · rw [hreplace] at hrun
      cases hrun

private theorem conclude_eq_remove_error (h : engine.Fallible check table)
    {x : Except Store.Fault (Option Wanted)} {r r' : Record} {e e' : ε} {g : Engine.Fault}
    (hrun : conclude engine x r e = ((.error (.replace (.remove g)), r'), e')) :
    r' = count .removeFailed { r with metrics := r.metrics.countSkips (skippedOf x) } ∧
      table e' = table e := by
  cases x with
  | error g' => cases hrun
  | ok w =>
    rw [conclude, serve, installRules, bind_apply] at hrun
    rcases hreplace : replace engine (Request.ofWanted w).rules
      { r with metrics := r.metrics.countSkips (Request.ofWanted w).skips } e
      with ⟨⟨g' | report, r₁⟩, e₁⟩
    · rw [hreplace] at hrun
      cases hrun
      exact replace_eq_remove_error h hreplace
    · rw [hreplace] at hrun
      cases hrun

/-- **An apply that fails before anything is installed changes nothing**: neither the installed
rules nor what is remembered of them, nor the gauge. If the store could not be read it is not
counted either. Otherwise it is counted as a removal that failed, and the entries that were skipped
before that are counted as in any apply. -/
theorem unchanged_of_early_error (h : engine.Fallible check table)
    {backend : Store.Backend (StateM σ)} {r r' : Record} {e e' : ε} {s s' : σ} {f : Fault}
    (hearly : (∃ g, f = .store g) ∨ ∃ g, f = .replace (.remove g))
    (hrun : store (engine.lift onFirst.map) (backend.lift onSecond.map) r (e, s)
      = ((.error f, r'), (e', s'))) :
    table e' = table e ∧ r'.lastGood = r.lastGood ∧
      r'.metrics.installed = r.metrics.installed ∧
      (∀ o, r'.metrics.applies o
        = r.metrics.applies o + if f.outcome? = some o then 1 else 0) ∧
      ∀ reason, r'.metrics.skips reason
        = r.metrics.skips reason + (skippedOf (wanted.run backend s).1).count reason := by
  rw [store_apply] at hrun
  obtain ⟨hout, hstate⟩ := Prod.mk.inj hrun
  have hconclude : conclude engine (wanted.run backend s).1 r e = ((.error f, r'), e') :=
    Prod.ext hout (Prod.mk.inj hstate).1
  rcases hearly with ⟨g, rfl⟩ | ⟨g, rfl⟩
  · obtain ⟨hread, rfl, rfl⟩ := conclude_eq_store_error hconclude
    rw [hread]
    exact ⟨rfl, rfl, rfl, fun _ ↦ rfl, fun _ ↦ rfl⟩
  · obtain ⟨rfl, htable⟩ := conclude_eq_remove_error h hconclude
    have hskips := Metrics.countSkips_skips r.metrics (skippedOf (wanted.run backend s).1)
    rw [Metrics.countSkips_eq, count]
    refine ⟨htable, rfl, rfl, fun o ↦ ?_, hskips⟩
    rw [Metrics.countApply_applies, Fault.outcome?]
    by_cases ho : o = .removeFailed
    · rw [if_pos ho, if_pos (congrArg some ho.symm)]
    · rw [if_neg ho, if_neg fun heq ↦ ho (Option.some.inj heq).symm, Nat.add_zero]

end

/-- The installed rule cannot be removed when rules are switched off, and if the switch cannot be
read nothing is tried. -/
theorem unchanged_of_early_error_stuck :
    let stuck : Engine.Scheduled := ⟨.ofRules [pageRule 1000], [], [some (.files .missing)]⟩
    let off : Store.Entries := [(Profiles.enabledKey, .boolean false)]
    let apply (s : Store.Scheduled) := store ((Engine.scheduled Regex.check).lift onFirst.map)
      (Store.scheduled.lift onSecond.map) .initial (stuck, s)
    let removal := apply ⟨off, .clear⟩
    let unread := apply ⟨off, { Store.Schedule.clear with get := [some .poisoned] }⟩
    removal.1.1 = .error (.replace (.remove (.files .missing))) ∧
      removal.2.1.table = stuck.table ∧ removal.1.2.metrics.applies .removeFailed = 1 ∧
      unread.1.1 = .error (.store .poisoned) ∧
      unread.2.1.table = stuck.table ∧ unread.1.2.metrics.applies .removeFailed = 0 := by
  intro stuck off apply removal unread
  have hremoval : removal.1.1 = .error (.replace (.remove (.files .missing))) := by
    decide +kernel
  have hunread : unread.1.1 = .error (.store .poisoned) := by decide +kernel
  obtain ⟨htable, -, -, happlies, -⟩ := unchanged_of_early_error Engine.Scheduled.fallible
    (Or.inr ⟨_, rfl⟩) (Prod.ext (Prod.ext hremoval rfl) rfl)
  obtain ⟨htable', -, -, happlies', -⟩ := unchanged_of_early_error Engine.Scheduled.fallible
    (Or.inl ⟨_, rfl⟩) (Prod.ext (Prod.ext hunread rfl) rfl)
  exact ⟨hremoval, htable, happlies _, hunread, htable', happlies' _⟩

end Redirector.Apply
