import Mathlib.Tactic.SplitIfs
import Redirector.Apply
import Redirector.Proofs.Engine.Table
import Redirector.Proofs.State

/-!
# What replacing the installed rules does

Replacing makes up to three kinds of call: it lists what is installed, removes it, and adds the new
rules, or else the old ones again. Each update is skipped if its list is empty (`updateUnless`), and
every way through is one lemma here, so that nothing else has to look inside `replace`.

For the engine in memory the outcome is a matter of the new rules alone: they are installed if an
empty table takes them all, and otherwise the table ends as it was (`replace_memory_of_installable`,
`replace_memory_of_not_installable`). For an engine with calls that fail on schedule only the way to
success is described (`replace_scheduled_eq_ok`): which table the new rules are added to depends on
whether the installed ones could be listed.
-/

namespace Redirector.Apply

variable {check : Regex.Check}

section

variable {m n : Type → Type} [Monad m] [Monad n] (engine : Engine m)

/-- An update that is left out if there is nothing to do. -/
def updateUnless (isIdle : Bool) (u : RuleUpdate) : m (Except Engine.Fault Unit) :=
  if isIdle then pure (.ok ()) else engine.update u

theorem install_eq (previous rules : List Rule) (r : Record) :
    install engine previous rules r = (do
      match ← updateUnless engine rules.isEmpty (.adding rules) with
      | .ok () =>
        let report := Report.of previous.length rules
        return (.ok report, ⟨rules, (r.metrics.countApply .ok).setInstalled report.installed⟩)
      | .error f =>
        let (restored, r) ← restore engine previous r
        return (.error (.install f restored), count .installFailed r)) := by
  unfold install updateUnless
  split_ifs
  · rfl
  · rfl

theorem replace_eq (rules : List Rule) (r : Record) :
    replace engine rules r = (do
      let previous ← installed engine
      match ← updateUnless engine previous.isEmpty (.removing (previous.map Rule.id)) with
      | .ok () => install engine previous rules r
      | .error f => return (.error (.remove f), count .removeFailed r)) := by
  unfold replace updateUnless
  refine bind_congr fun previous ↦ ?_
  split_ifs
  · rfl
  · rfl

/-! ## Carrying over -/

variable (c : Carrier m n)

theorem updateUnless_lift (isIdle : Bool) (u : RuleUpdate) :
    updateUnless (engine.lift c.map) isIdle u = c.map (updateUnless engine isIdle u) := by
  unfold updateUnless
  split_ifs
  · exact (c.map_pure _).symm
  · rfl

theorem installed_lift : installed (engine.lift c.map) = c.map (installed engine) :=
  c.map_bind_answer _ (fun _ ↦ (c.map_pure _).symm) fun _ ↦ (c.map_pure _).symm

theorem restore_lift (previous : List Rule) (r : Record) :
    restore (engine.lift c.map) previous r = c.map (restore engine previous r) := by
  unfold restore
  dsimp only
  generalize (if previous.isEmpty = true then r.lastGood else previous) = fallback
  split_ifs
  · exact (c.map_pure _).symm
  · exact c.map_bind_answer _ (fun _ ↦ (c.map_pure _).symm) fun _ ↦ (c.map_pure _).symm

theorem install_lift (previous rules : List Rule) (r : Record) :
    install (engine.lift c.map) previous rules r = c.map (install engine previous rules r) := by
  rw [install_eq, install_eq, updateUnless_lift]
  refine c.map_bind_answer _ (fun _ ↦ (c.map_pure _).symm) fun e ↦ ?_
  rw [restore_lift, c.map_bind]
  exact bind_congr fun _ ↦ (c.map_pure _).symm

/-- **Replacing on an engine that was carried over.** -/
theorem replace_lift (rules : List Rule) (r : Record) :
    replace (engine.lift c.map) rules r = c.map (replace engine rules r) := by
  rw [replace_eq, replace_eq, installed_lift, c.map_bind]
  refine bind_congr fun previous ↦ ?_
  rw [updateUnless_lift]
  exact c.map_bind_answer _ (fun _ ↦ install_lift engine c previous rules r)
    fun _ ↦ (c.map_pure _).symm

end

/-! ## The engine in memory -/

section

variable {t : RuleTable} {rules : List Rule} {r : Record}

theorem installed_memory (t : RuleTable) : installed (Engine.memory check) t = (t.rules, t) := rfl

theorem updateUnless_memory_removing (h : t.WellFormed) :
    updateUnless (Engine.memory check) t.rules.isEmpty (.removing (t.rules.map Rule.id)) t
      = (.ok (), .empty) := by
  unfold updateUnless
  split_ifs with hempty
  · rw [List.isEmpty_iff, RuleTable.rules_eq_nil_iff] at hempty
    rw [hempty]
    rfl
  · exact Engine.memory_update_of_ok (RuleTable.update_removing_ids h)

theorem updateUnless_memory_adding_ok {u : RuleTable} (h : t.addAll check rules = .ok u) :
    updateUnless (Engine.memory check) rules.isEmpty (.adding rules) t = (.ok (), u) := by
  unfold updateUnless
  split_ifs with hempty
  · rw [List.isEmpty_iff] at hempty
    subst hempty
    cases h
    rfl
  · exact Engine.memory_update_of_ok h

theorem updateUnless_memory_adding_error {e : Rejection} (h : t.addAll check rules = .error e) :
    updateUnless (Engine.memory check) rules.isEmpty (.adding rules) t =
      (.error (.rejected e), t) := by
  unfold updateUnless
  split_ifs with hempty
  · rw [List.isEmpty_iff] at hempty
    subst hempty
    cases h
  · exact Engine.memory_update_of_error h

/-- Once the old rules are gone, only the new ones matter. -/
private theorem replace_memory_eq_install (h : t.WellFormed) :
    replace (Engine.memory check) rules r t =
      install (Engine.memory check) t.rules rules r .empty := by
  rw [replace_eq, bind_apply, installed_memory, bind_apply, updateUnless_memory_removing h]

/-- **The new rules are installed**, whatever was there before. -/
theorem replace_memory_of_installable (h : t.WellFormed) (hi : Rule.Installable check rules) :
    replace (Engine.memory check) rules r t
      = ((.ok (.of t.rules.length rules),
          ⟨rules,
            (r.metrics.countApply .ok).setInstalled (Report.of t.rules.length rules).installed⟩),
        .ofRules rules) := by
  have hadd := RuleTable.empty_addAll_eq_ok_iff.mpr ⟨hi, rfl⟩
  rw [replace_memory_eq_install h, install_eq, bind_apply, updateUnless_memory_adding_ok hadd]
  rfl

/-- **New rules that an empty table rejects** are rejected for the same reason, and the old ones, or
the remembered ones, are to be put back. -/
theorem replace_memory_eq_restore (h : t.WellFormed) {e : Rejection}
    (he : RuleTable.empty.addAll check rules = .error e) :
    replace (Engine.memory check) rules r t =
      let out := restore (Engine.memory check) t.rules r .empty
      ((.error (.install (.rejected e) out.1.1), count .installFailed out.1.2), out.2) := by
  rw [replace_memory_eq_install h, install_eq, bind_apply, updateUnless_memory_adding_error he]
  rfl

theorem replace_memory_of_rejected (h : t.WellFormed) {e : Rejection}
    (he : RuleTable.empty.addAll check rules = .error e) :
    ∃ restored, (replace (Engine.memory check) rules r t).1.1
      = .error (.install (.rejected e) restored) := by
  rw [replace_memory_eq_restore h he]
  exact ⟨_, rfl⟩

/-- Rules that were taken out of a table are put back into it. -/
private theorem restore_memory (h : t.WellFormed) (hv : ∀ x ∈ t.rules, x.fault? check = none)
    (hl : t.rules = [] → r.lastGood = []) :
    restore (Engine.memory check) t.rules r .empty
      = ((!t.rules.isEmpty, ⟨t.rules, r.metrics.setInstalled t.rules.length⟩), t) := by
  unfold restore
  by_cases hempty : t.rules = []
  · obtain rfl := RuleTable.rules_eq_nil_iff.mp hempty
    have hlast : r.lastGood = [] := hl rfl
    simp only [RuleTable.rules_empty, List.isEmpty_nil, if_true, hlast, List.length_nil]
    rw [← hlast]
    rfl
  · have hadd : RuleTable.empty.update check (.adding t.rules) = .ok t :=
      RuleTable.empty_addAll_eq_ok_iff.mpr ⟨⟨hv, h.distinct⟩, h.eq_ofRules.symm⟩
    have hne : t.rules.isEmpty = false := by rw [List.isEmpty_eq_false_iff]; exact hempty
    simp only [hne, Bool.false_eq_true, if_false, bind_apply, Engine.memory_update_of_ok hadd]
    rfl

/-- **Nothing changes if the new rules are refused**: valid rules come back, and an empty table
stays empty if no rules were remembered. -/
theorem replace_memory_of_not_installable (h : t.WellFormed)
    (hv : ∀ x ∈ t.rules, x.fault? check = none) (hl : t.rules = [] → r.lastGood = [])
    (hn : ¬ Rule.Installable check rules) :
    ∃ e, replace (Engine.memory check) rules r t
      = ((.error (.install e (!t.rules.isEmpty)),
          ⟨t.rules, (r.metrics.setInstalled t.rules.length).countApply .installFailed⟩), t) := by
  obtain ⟨e, hadd⟩ : ∃ e, RuleTable.empty.addAll check rules = .error e := by
    cases hcase : RuleTable.empty.addAll check rules with
    | error e => exact ⟨e, rfl⟩
    | ok u => exact absurd (RuleTable.empty_addAll_eq_ok_iff.mp hcase).1 hn
  refine ⟨.rejected e, ?_⟩
  rw [replace_memory_eq_restore h hadd, restore_memory h hv hl]
  rfl

private theorem wellFormed_restore_memory (h : t.WellFormed) (previous : List Rule) :
    (restore (Engine.memory check) previous r t).2.WellFormed := by
  unfold restore
  generalize (if previous.isEmpty = true then r.lastGood else previous) = fallback
  split_ifs
  · exact h
  · rw [bind_apply]
    cases hu : t.update check (.adding fallback) with
    | ok u =>
      rw [Engine.memory_update_of_ok hu]
      exact h.addAll hu
    | error e =>
      rw [Engine.memory_update_of_error hu]
      exact h

theorem wellFormed_replace_memory (h : t.WellFormed) :
    (replace (Engine.memory check) rules r t).2.WellFormed := by
  rw [replace_memory_eq_install h, install_eq, bind_apply]
  cases hadd : RuleTable.empty.addAll check rules with
  | ok u =>
    rw [updateUnless_memory_adding_ok hadd]
    exact RuleTable.wellFormed_empty.addAll hadd
  | error e =>
    rw [updateUnless_memory_adding_error hadd]
    exact wellFormed_restore_memory RuleTable.wellFormed_empty _

end

/-! ## Success -/

section

variable {ε : Type} {rules : List Rule} {r r' : Record} {report : Report}

theorem replace_eq_ok {engine : Engine (StateM ε)} {e e' : ε}
    (h : replace engine rules r e = ((.ok report, r'), e')) :
    ∃ e₂, updateUnless engine (installed engine e).1.isEmpty
          (.removing ((installed engine e).1.map Rule.id)) (installed engine e).2 = (.ok (), e₂) ∧
      updateUnless engine rules.isEmpty (.adding rules) e₂ = (.ok (), e') ∧
      r'.lastGood = rules := by
  rw [replace_eq, bind_apply, bind_apply] at h
  rcases hremove : updateUnless engine (installed engine e).1.isEmpty
    (.removing ((installed engine e).1.map Rule.id)) (installed engine e).2 with ⟨f | ⟨⟩, e₂⟩
  · rw [hremove] at h
    cases h
  · rw [hremove] at h
    dsimp only at h
    rw [install_eq, bind_apply] at h
    refine ⟨e₂, rfl, ?_⟩
    rcases hadd : updateUnless engine rules.isEmpty (.adding rules) e₂ with ⟨f | ⟨⟩, e₃⟩
    · rw [hadd] at h
      cases h
    · rw [hadd] at h
      cases h
      exact ⟨rfl, rfl⟩

/-- A success in memory is an install into an empty table. -/
theorem replace_memory_eq_ok {t t' : RuleTable} (hwf : t.WellFormed)
    (h : replace (Engine.memory check) rules r t = ((.ok report, r'), t')) :
    Rule.Installable check rules ∧ t' = .ofRules rules := by
  obtain ⟨t₂, hremove, hadd, -⟩ := replace_eq_ok h
  rw [installed_memory, updateUnless_memory_removing hwf] at hremove
  obtain rfl : RuleTable.empty = t₂ := (Prod.mk.inj hremove).2
  rw [← RuleTable.empty_addAll_eq_ok_iff]
  cases hcase : RuleTable.empty.addAll check rules with
  | ok u =>
    rw [updateUnless_memory_adding_ok hcase] at hadd
    rw [(Prod.mk.inj hadd).2]
  | error e =>
    rw [updateUnless_memory_adding_error hcase] at hadd
    cases hadd

/-! ## An engine with calls that fail on schedule -/

theorem updateUnless_scheduled {isIdle : Bool} {u : RuleUpdate} {s s' : Engine.Scheduled}
    (hidle : isIdle = true → s.table.update check u = .ok s.table)
    (h : updateUnless (Engine.scheduled check) isIdle u s = (.ok (), s')) :
    s.table.update check u = .ok s'.table := by
  unfold updateUnless at h
  split_ifs at h with hskip
  · obtain ⟨-, rfl⟩ := Prod.mk.inj h
    exact hidle hskip
  · exact Engine.Scheduled.update_eq_ok h

theorem updateUnless_scheduled_adding {s s' : Engine.Scheduled}
    (h : updateUnless (Engine.scheduled check) rules.isEmpty (.adding rules) s = (.ok (), s')) :
    s.table.addAll check rules = .ok s'.table := by
  refine updateUnless_scheduled ?_ h
  intro hempty
  rw [List.isEmpty_iff.mp hempty]
  rfl

/-- **What is installed after a success** on an engine that calls may fail on: the new rules, next
to the old ones if those could not be listed. -/
theorem replace_scheduled_eq_ok {s s' : Engine.Scheduled} (hwf : s.table.WellFormed)
    (h : replace (Engine.scheduled check) rules r s = ((.ok report, r'), s')) :
    s'.table.Holds (if s.lists then rules else s.table.rules ++ rules) := by
  obtain ⟨s₂, hremove, hadd, -⟩ := replace_eq_ok h
  replace hadd := updateUnless_scheduled_adding hadd
  cases hlists : s.lists with
  | true =>
    have hinstalled : installed (Engine.scheduled check) s
        = (s.table.rules, { s with listings := s.listings.tail }) := by
      rw [installed, bind_apply, Engine.Scheduled.rules_of_lists hlists]
      rfl
    rw [hinstalled] at hremove
    have hs₂ : s.table.update check (.removing (s.table.rules.map Rule.id)) = .ok s₂.table := by
      refine updateUnless_scheduled (s := { s with listings := s.listings.tail }) ?_ hremove
      intro hidle
      rw [RuleTable.update_removing_ids hwf,
        RuleTable.rules_eq_nil_iff.mp (List.isEmpty_iff.mp hidle)]
    rw [RuleTable.update_removing_ids hwf] at hs₂
    rw [← Except.ok.inj hs₂] at hadd
    exact (RuleTable.wellFormed_empty.addAll hadd).holds
      (RuleTable.rules_addAll_perm RuleTable.wellFormed_empty hadd)
  | false =>
    obtain ⟨f, hf⟩ := Engine.Scheduled.rules_of_not_lists hlists
    have hinstalled : installed (Engine.scheduled check) s
        = ([], { s with listings := s.listings.tail }) := by
      rw [installed, bind_apply, hf]
      rfl
    rw [hinstalled] at hremove
    obtain ⟨-, rfl⟩ := Prod.mk.inj hremove
    exact (hwf.addAll hadd).holds (RuleTable.rules_addAll_perm hwf hadd)

end

end Redirector.Apply

namespace Redirector.Apply

/-! ## Calls of a pipeline, one after the other

A pipeline is an engine, what is remembered from one apply to the next, and the store; there are
three ways to call it. Each of them first settles which rules are asked for (`Call.request`) and
then replaces the installed rules by these (`serve`), so one lemma about replacing covers all three
(`Call.run_apply`).

A call that reads the store brings its own backend: between two calls the store may have changed in
any way, and any of its calls may fail.

### Why nothing is lost

A refused apply puts back what the engine listed, or, if that was nothing, what is remembered. The
second case is harmless because of the invariant `Pipeline.Sound`: while the table is empty no rules
are remembered. A success keeps it, as the rules that are remembered are then those installed, and
so does a refusal, which remembers what it put back.
-/

/-- What is asked for: rules to install, and the entries that were skipped on the way. -/
structure Request where
  rules : List Rule
  skips : List SkipReason

/-- No rules, if rules are switched off. -/
def Request.ofWanted : Option Wanted → Request
  | none => ⟨[], []⟩
  | some w => ⟨w.rules, w.skips⟩

/-- A call of a pipeline. -/
inductive Call (σ : Type) where
  /-- Applies some configurations, with header rules. -/
  | configurations (fs : List Forwarding)
  /-- Applies what a store asks for. -/
  | store (backend : Store.Backend (StateM σ))
  | install (rules : List Rule)

namespace Call

variable {ε σ : Type}

def run (engine : Engine (StateM ε)) :
    Call σ → StateT Record (StateM (ε × σ)) (Except Fault Report)
  | configurations fs => Apply.configurations (engine.lift onFirst.map) fs
  | store backend => Apply.store (engine.lift onFirst.map) (backend.lift onSecond.map)
  | install rules => installRules (engine.lift onFirst.map) rules

/-- What a call asks for; a store that cannot be read asks for nothing. -/
def request : Call σ → StateM σ (Except Store.Fault Request)
  | configurations fs => pure (.ok (.ofWanted (some ⟨fs, true⟩)))
  | store backend => do return (← wanted.run backend).map .ofWanted
  | install rules => pure (.ok ⟨rules, []⟩)

end Call

/-- Replaces the installed rules by those asked for. -/
def serve {m : Type → Type} [Monad m] (engine : Engine m) (q : Request) :
    StateT Record m (Except Fault Report) := fun r ↦
  installRules engine q.rules { r with metrics := r.metrics.countSkips q.skips }

/-- What an apply does with what it read of the store. -/
def conclude {m : Type → Type} [Monad m] (engine : Engine m) :
    Except Store.Fault (Option Wanted) → StateT Record m (Except Fault Report)
  | .error f => fun r ↦ return (.error (.store f), r)
  | .ok w => serve engine (.ofWanted w)

section

variable {ε σ : Type} (engine : Engine (StateM ε)) (r : Record)

theorem serve_lift_apply (q : Request) (e : ε) (s : σ) :
    serve (engine.lift onFirst.map) q r (e, s) =
      let out := replace engine q.rules { r with metrics := r.metrics.countSkips q.skips } e
      ((out.1.1.mapError .replace, out.1.2), (out.2, s)) := by
  rw [serve, installRules, replace_lift]
  rfl

/-- An apply of the store first reads all that it needs, then replaces the installed rules. -/
theorem store_eq {m : Type → Type} [Monad m] (engine : Engine m) (backend : Store.Backend m)
    (r : Record) :
    store engine backend r = wanted.run backend >>= fun x ↦ conclude engine x r := by
  unfold store
  refine bind_congr fun x ↦ ?_
  rcases x with f | _ | w
  · rfl
  · rfl
  · rfl

/-- **What a call does**, to each of the three parts of a pipeline. -/
theorem Call.run_apply (c : Call σ) (e : ε) (s : σ) :
    c.run engine r (e, s) =
      match (c.request s).1 with
      | .error f => ((.error (.store f), r), (e, (c.request s).2))
      | .ok q => serve (engine.lift onFirst.map) q r (e, (c.request s).2) := by
  cases c with
  | configurations fs => rfl
  | install rules => rfl
  | store backend =>
    rw [run, store_eq, Store.Program.run_lift, bind_apply, onSecond_map_apply, request, bind_apply]
    rcases wanted.run backend s with ⟨f | w, s'⟩
    · rfl
    · rfl

/-- **What an apply of the store does**: it reads, and then only the engine is touched. -/
theorem store_apply (backend : Store.Backend (StateM σ)) (e : ε) (s : σ) :
    store (engine.lift onFirst.map) (backend.lift onSecond.map) r (e, s)
      = ((conclude engine (wanted.run backend s).1 r e).1,
          ((conclude engine (wanted.run backend s).1 r e).2, (wanted.run backend s).2)) := by
  rw [store_eq, Store.Program.run_lift, bind_apply, onSecond_map_apply]
  rcases wanted.run backend s with ⟨f | w, s'⟩
  · rfl
  · exact serve_lift_apply engine r _ e s'

end

private theorem ok_of_mapError {φ φ' α : Type} {f : φ → φ'} {x : Except φ α} {a : α}
    (h : x.mapError f = .ok a) : x = .ok a := by
  cases x with
  | error e => cases h
  | ok b => cases h; rfl

/-- When an apply in memory is a success, and what it leaves behind. -/
theorem conclude_memory_eq_ok_iff {check : Regex.Check} {t t' : RuleTable} (hwf : t.WellFormed)
    (x : Except Store.Fault (Option Wanted)) (r : Record) :
    (∃ report r', conclude (Engine.memory check) x r t = ((.ok report, r'), t')) ↔
      ∃ w, x = .ok w ∧ Rule.Installable check (Request.ofWanted w).rules ∧
        t' = .ofRules (Request.ofWanted w).rules := by
  constructor
  · rintro ⟨report, r', h⟩
    cases x with
    | error f => cases h
    | ok w =>
      obtain ⟨hout, rfl⟩ := Prod.mk.inj h
      obtain ⟨hmap, -⟩ := Prod.mk.inj hout
      exact ⟨w, rfl, replace_memory_eq_ok hwf (Prod.ext (Prod.ext (ok_of_mapError hmap) rfl) rfl)⟩
  · rintro ⟨w, rfl, hinstallable, rfl⟩
    have hreplace := replace_memory_of_installable (r := { r with
      metrics := r.metrics.countSkips (Request.ofWanted w).skips }) hwf hinstallable
    rw [conclude, serve, installRules, bind_apply, hreplace]
    exact ⟨_, _, rfl⟩

theorem wellFormed_conclude_memory (check : Regex.Check) {t : RuleTable} (hwf : t.WellFormed)
    (x : Except Store.Fault (Option Wanted)) (r : Record) :
    (conclude (Engine.memory check) x r t).2.WellFormed := by
  cases x with
  | error f => exact hwf
  | ok w => exact wellFormed_replace_memory hwf

/-! ### Runs -/

/-- A header rule, so that there is something to install in the runs that stand as examples. -/
def pageRule (id : UInt32) : Rule where
  id := id
  priority := Rule.defaultPriority
  action := .modifyHeaders Rule.permissiveHeaders
  condition := ⟨none, some "||a.example", ResourceType.scripted⟩

/-- The state that calls change. -/
structure Pipeline (ε σ : Type) where
  record : Record
  engine : ε
  store : σ

namespace Pipeline

variable {ε σ : Type}

/-- The outcome of a call, and what is left behind. -/
def call (engine : Engine (StateM ε)) (p : Pipeline ε σ) (c : Call σ) :
    Except Fault Report × Pipeline ε σ :=
  let ((outcome, record), (e, s)) := c.run engine p.record (p.engine, p.store)
  (outcome, ⟨record, e, s⟩)

def after (engine : Engine (StateM ε)) (p : Pipeline ε σ) (cs : List (Call σ)) : Pipeline ε σ :=
  cs.foldl (fun p c ↦ (p.call engine c).2) p

def initial (e : ε) (s : σ) : Pipeline ε σ := ⟨.initial, e, s⟩

variable {engine : Engine (StateM ε)} {p : Pipeline ε σ} {c : Call σ}

theorem call_of_not_requested {f : Store.Fault} (h : (c.request p.store).1 = .error f) :
    p.call engine c = (.error (.store f), { p with store := (c.request p.store).2 }) := by
  rw [call, Call.run_apply, h]

theorem call_of_requested {q : Request} (h : (c.request p.store).1 = .ok q) :
    p.call engine c =
      let out := replace engine q.rules
        { p.record with metrics := p.record.metrics.countSkips q.skips } p.engine
      (out.1.1.mapError .replace, ⟨out.1.2, out.2, (c.request p.store).2⟩) := by
  rw [call, Call.run_apply, h]
  dsimp only
  rw [serve_lift_apply]

/-- The store is left as it was read, however the call ends. -/
theorem call_store : (p.call engine c).2.store = (c.request p.store).2 := by
  cases hq : (c.request p.store).1 with
  | error f => rw [call_of_not_requested hq]
  | ok q => rw [call_of_requested hq]

theorem call_eq_ok {report : Report} {p' : Pipeline ε σ}
    (h : p.call engine c = (.ok report, p')) :
    ∃ q, (c.request p.store).1 = .ok q ∧
      replace engine q.rules { p.record with metrics := p.record.metrics.countSkips q.skips }
        p.engine = ((.ok report, p'.record), p'.engine) := by
  cases hq : (c.request p.store).1 with
  | error f =>
    rw [call_of_not_requested hq] at h
    cases h
  | ok q =>
    rw [call_of_requested hq] at h
    obtain ⟨hmap, rfl⟩ := Prod.mk.inj h
    exact ⟨q, rfl, Prod.ext (Prod.ext (ok_of_mapError hmap) rfl) rfl⟩

end Pipeline

end Redirector.Apply
