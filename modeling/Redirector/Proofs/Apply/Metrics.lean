import Redirector.Proofs.Apply.Pipeline
import Redirector.Regex.Automaton

/-!
# What the metrics say about an apply

Whoever watches the service sees the counters and the gauge, not the engine. On an engine in memory
they can be relied on: a call that gets as far as replacing the installed rules is counted once,
under how it ended, and then the gauge is the number of rules that the engine holds.

## Where the gauge is set

It is set in four places: after a success, if there is nothing to put back, after old rules were put
back, and if they were refused. Each place sets a number of its own, and none of them asks the
engine. For the first and the third that number is the length of a list that an empty table took
(`RuleTable.size_addAll`); at the other two the table is empty. Rules that cannot be put back are
not left out of this: nothing is assumed about what was installed before or is remembered.
-/

namespace Redirector.Apply

theorem Report.installed_of (removed : Nat) (rules : List Rule) :
    (Report.of removed rules).installed = rules.length := by
  have hkind : ∀ x ∈ rules, decide (x.kind = .header) = true ↔ (¬ x.kind = .redirect : Bool) := by
    intro x _
    cases x.kind with
    | redirect => decide
    | header => decide
  calc (of removed rules).installed
      = rules.countP (·.kind = .redirect) + rules.countP (·.kind = .header) := rfl
    _ = rules.countP (·.kind = .redirect) + rules.countP (¬ ·.kind = .redirect) := by
      rw [List.countP_congr hkind]
    _ = rules.length := by
      rw [List.length_eq_countP_add_countP (fun x : Rule ↦ decide (x.kind = .redirect))]
      simp

section

variable {check : Regex.Check} {t : RuleTable} {r : Record}

/-- **After putting rules back** the gauge is right, whichever rules these were, and also if they
were refused. Nothing is counted. -/
theorem metrics_restore_memory (previous : List Rule) :
    let out := restore (Engine.memory check) previous r .empty
    out.1.2.metrics = r.metrics.setInstalled out.2.size := by
  unfold restore
  dsimp only
  generalize (if previous.isEmpty = true then r.lastGood else previous) = fallback
  split_ifs with hempty
  · rfl
  · rw [bind_apply]
    cases hadd : RuleTable.empty.update check (.adding fallback) with
    | ok u =>
      rw [Engine.memory_update_of_ok hadd]
      have hsize := RuleTable.size_addAll RuleTable.wellFormed_empty hadd
      rw [RuleTable.size_empty, Nat.zero_add] at hsize
      exact congrArg r.metrics.setInstalled hsize.symm
    | error e =>
      rw [Engine.memory_update_of_error hadd]
      rfl

/-- What the metrics say after replacing, and under which outcome it is counted. -/
theorem metrics_replace_memory (h : t.WellFormed) (rules : List Rule) :
    ∃ o, (replace (Engine.memory check) rules r t).1.2.metrics
        = (r.metrics.countApply o).setInstalled (replace (Engine.memory check) rules r t).2.size ∧
      ((o = .ok ∧ ∃ report, (replace (Engine.memory check) rules r t).1.1 = .ok report ∧
          report.removed = t.size ∧
          report.installed = (replace (Engine.memory check) rules r t).2.size) ∨
        (o = .installFailed ∧ ∃ f restored,
          (replace (Engine.memory check) rules r t).1.1 = .error (.install f restored))) := by
  cases hadd : RuleTable.empty.addAll check rules with
  | ok u =>
    obtain ⟨hinstallable, rfl⟩ := RuleTable.empty_addAll_eq_ok_iff.mp hadd
    have hsize : (Report.of t.rules.length rules).installed = (RuleTable.ofRules rules).size := by
      have hlength := RuleTable.size_addAll RuleTable.wellFormed_empty hadd
      rw [RuleTable.size_empty, Nat.zero_add] at hlength
      rw [Report.installed_of, hlength]
    rw [replace_memory_of_installable h hinstallable]
    refine ⟨.ok, ?_, Or.inl ⟨rfl, _, rfl, RuleTable.length_rules t, hsize⟩⟩
    exact congrArg (r.metrics.countApply .ok).setInstalled hsize
  | error e =>
    rw [replace_memory_eq_restore h hadd]
    refine ⟨.installFailed, ?_, Or.inr ⟨rfl, _, _, rfl⟩⟩
    -- Counting does not touch the gauge, nor setting the gauge the counters.
    exact congrArg (Metrics.countApply · .installFailed) (metrics_restore_memory t.rules)

end

namespace Pipeline

variable {check : Regex.Check} {σ : Type} {p : Pipeline RuleTable σ}

/-- The gauge is reported, as the number of rules that the engine holds. -/
def Gauged (p : Pipeline RuleTable σ) : Prop :=
  ∀ n, ⟨"forward_rules_installed_rules", none, n⟩ ∈ p.record.metrics.samples ↔ n = p.engine.size

theorem gauged_iff : p.Gauged ↔ p.record.metrics.installed = some p.engine.size := by
  simp only [Gauged, Metrics.mem_samples_installed]
  constructor
  · exact fun h ↦ (h _).mpr rfl
  · intro h n
    rw [h, Option.some.injEq, eq_comm]

/-! ## Calls -/

/-- **What the metrics say after a call** that replaces the installed rules. -/
theorem metrics_call (check : Regex.Check) (h : p.engine.WellFormed) {c : Call σ} {q : Request}
    (hq : (c.request p.store).1 = .ok q) :
    ∃ o, (∀ o', (p.call (Engine.memory check) c).2.record.metrics.applies o'
          = p.record.metrics.applies o' + if o' = o then 1 else 0) ∧
      (p.call (Engine.memory check) c).2.Gauged ∧
      ((o = .ok ∧ ∃ report, (p.call (Engine.memory check) c).1 = .ok report ∧
          report.removed = p.engine.size ∧
          report.installed = (p.call (Engine.memory check) c).2.engine.size) ∨
        (o = .installFailed ∧ ∃ f restored,
          (p.call (Engine.memory check) c).1 = .error (.replace (.install f restored)))) := by
  obtain ⟨o, hmetrics, hout⟩ := metrics_replace_memory
    (r := { p.record with metrics := p.record.metrics.countSkips q.skips }) h q.rules
  rw [call_of_requested hq]
  refine ⟨o, fun o' ↦ ?_, gauged_iff.mpr (congrArg Metrics.installed hmetrics), ?_⟩
  · -- Skipped entries are counted before, and in counters of their own.
    rw [Metrics.countSkips_eq] at hmetrics
    dsimp only
    rw [Metrics.countSkips_eq, hmetrics]
    change (p.record.metrics.countApply o).applies o' = _
    rw [Metrics.countApply_applies]
    split_ifs
    · rfl
    · rfl
  · rcases hout with ⟨ho, report, hok, hreport⟩ | ⟨ho, f, restored, herror⟩
    · exact Or.inl ⟨ho, report, congrArg (Except.mapError Fault.replace) hok, hreport⟩
    · exact Or.inr ⟨ho, f, restored, congrArg (Except.mapError Fault.replace) herror⟩

/-! ## Runs -/

theorem wellFormed_call (h : p.engine.WellFormed) (c : Call σ) :
    (p.call (Engine.memory check) c).2.engine.WellFormed := by
  cases hq : (c.request p.store).1 with
  | error f =>
    rw [call_of_not_requested hq]
    exact h
  | ok q =>
    rw [call_of_requested hq]
    exact wellFormed_replace_memory h

/-- **One step**: a call that replaces nothing leaves the gauge and the engine alone, and any other
one sets the gauge. -/
theorem Gauged.call (h : p.engine.WellFormed) (hg : p.Gauged) (c : Call σ) :
    (p.call (Engine.memory check) c).2.Gauged := by
  cases hq : (c.request p.store).1 with
  | error f =>
    rw [call_of_not_requested hq, gauged_iff]
    exact gauged_iff.mp hg
  | ok q =>
    obtain ⟨o, -, hgauged, -⟩ := metrics_call check h hq
    exact hgauged

/-- Once the gauge is right it stays so. -/
theorem Gauged.after (h : p.engine.WellFormed) (hg : p.Gauged) (cs : List (Call σ)) :
    (p.after (Engine.memory check) cs).Gauged := by
  induction cs generalizing p with
  | nil => exact hg
  | cons c cs ih => exact ih (wellFormed_call h c) (hg.call h c)

/-- **The metrics tell the truth.** A call that gets as far as replacing the installed rules raises
one of the counters of applies by one and no other, and that one is reported: the counter of
successes exactly if the call is a success, and that of failed installs exactly if the new rules
could not be installed. From then on the gauge is the number of rules in the engine, after this call
and after all that follow. A report says how many rules there were before and how many there are
now. All of this holds whatever is installed before, valid or not, whatever is remembered and
whatever is asked for. -/
theorem metrics_true (check : Regex.Check) (record : Record) (installed : List Rule) (s : σ)
    (c : Call σ) {q : Request} (hq : (c.request s).1 = .ok q) :
    let p : Pipeline RuleTable σ := ⟨record, .ofRules installed, s⟩
    let out := (p.call (Engine.memory check) c).1
    let p' := (p.call (Engine.memory check) c).2
    (∃ o, (∀ o', p'.record.metrics.applies o'
          = p.record.metrics.applies o' + if o' = o then 1 else 0) ∧
        ⟨"forward_rules_apply_total", some ("outcome", o.label), p.record.metrics.applies o + 1⟩
          ∈ p'.record.metrics.samples ∧
        (o = .ok ∨ o = .installFailed) ∧
        (o = .ok ↔ ∃ report, out = .ok report) ∧
        (o = .installFailed ↔ ∃ f restored, out = .error (.replace (.install f restored)))) ∧
      (∀ later, (p'.after (Engine.memory check) later).Gauged) ∧
      ∀ report, out = .ok report → report.removed = p.engine.size ∧
        report.redirectRules + report.headerRules = p'.engine.size := by
  intro p out p'
  have hwf : p.engine.WellFormed := RuleTable.wellFormed_ofRules installed
  obtain ⟨o, hcount, hgauged, hout⟩ := metrics_call check hwf hq
  have hlater : ∀ later, (p'.after (Engine.memory check) later).Gauged :=
    hgauged.after (wellFormed_call hwf c)
  have hreported : ⟨"forward_rules_apply_total", some ("outcome", o.label),
      p.record.metrics.applies o + 1⟩ ∈ p'.record.metrics.samples := by
    refine Metrics.mem_samples_applies.mpr ⟨?_, Nat.succ_pos _⟩
    rw [hcount, if_pos rfl]
  rcases hout with ⟨rfl, report, hok, hremoved, hinstalled⟩ | ⟨rfl, f, restored, herror⟩
  · change out = .ok report at hok
    refine ⟨⟨.ok, hcount, hreported, Or.inl rfl, iff_of_true rfl ⟨report, hok⟩, ?_⟩, hlater, ?_⟩
    · refine iff_of_false (by decide) ?_
      rintro ⟨f, restored, herror⟩
      rw [hok] at herror
      cases herror
    · intro report' hok'
      obtain rfl : report = report' := Except.ok.inj (hok.symm.trans hok')
      exact ⟨hremoved, hinstalled⟩
  · change out = .error (.replace (.install f restored)) at herror
    have hnot : ¬ ∃ report, out = .ok report := by
      rintro ⟨report, hok⟩
      rw [herror] at hok
      cases hok
    refine ⟨⟨.installFailed, hcount, hreported, Or.inr rfl, iff_of_false (by decide) hnot, ?_⟩,
      hlater, fun report hok ↦ absurd ⟨report, hok⟩ hnot⟩
    exact iff_of_true rfl ⟨f, restored, herror⟩

/-- Two rules share an identifier, the rule that was installed before is not valid, and so neither
can be installed: the engine ends up empty, and the gauge says so. -/
theorem metrics_true_both_refused :
    let invalid : Rule := { pageRule 7 with action := .modifyHeaders [] }
    let p : Pipeline RuleTable Unit := ⟨.initial, .ofRules [invalid], ()⟩
    let p' := (p.call (Engine.memory Regex.check) (.install [pageRule 1000, pageRule 1000])).2
    ((Call.install [pageRule 1000, pageRule 1000]).request ()).1
        = .ok ⟨[pageRule 1000, pageRule 1000], []⟩ ∧
      (p.call (Engine.memory Regex.check) (.install [pageRule 1000, pageRule 1000])).1
        = .error (.replace (.install (.rejected (.duplicateId 1000)) false)) ∧
      p'.record.metrics.applies .installFailed = 1 ∧
      p'.record.metrics.installed = some 0 ∧
      (p'.call (Engine.memory Regex.check) (.install [pageRule 1000])).2.record.metrics.installed
        = some 1 := by
  intro invalid p p'
  have hrequest : ((Call.install [pageRule 1000, pageRule 1000]).request ()).1
      = .ok ⟨[pageRule 1000, pageRule 1000], []⟩ := rfl
  obtain ⟨⟨o, hcount, -, -, -, hfailed⟩, hgauged, -⟩ := metrics_true Regex.check .initial
    [invalid] () (.install [pageRule 1000, pageRule 1000]) hrequest
  have hout : (p.call (Engine.memory Regex.check) (.install [pageRule 1000, pageRule 1000])).1
      = .error (.replace (.install (.rejected (.duplicateId 1000)) false)) := by decide
  refine ⟨hrequest, hout, ?_, gauged_iff.mp (hgauged []),
    gauged_iff.mp (hgauged [.install [pageRule 1000]])⟩
  rw [hcount, hfailed.mpr ⟨_, _, hout⟩]
  rfl

end Pipeline

end Redirector.Apply
