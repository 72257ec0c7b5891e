import Redirector.Proofs.Apply.Meaning
import Redirector.Proofs.Apply.Metrics
import Redirector.Proofs.Engine.Update
import Redirector.Regex.Automaton

/-!
# Applying the store once more

To apply the store again, with nothing changed, comes to nothing new: the second apply ends like the
first one and leaves the same rules behind, whether these are the rules that the store asks for or
others that were put back when it was refused (`Pipeline.store_again`).

The first apply may well change something, and what it leaves behind is where every later one ends.
What is read has this property (`wanted_run_again`), and so have rules that can be installed
(`RuleTable.Valid`). Rules that cannot be are another matter, because they are refused only after
the old ones have been removed, and what is put back then may be what was there, what is remembered,
or nothing. Each of these is found, and put back, by the next apply as well; that is the invariant
`Settled`.
-/

namespace Redirector.Apply

variable {check : Regex.Check}

/-! ## Rules that are refused -/

/-- **Where a refused apply ends**: with rules that can be put back once more, or with none, if no
rules are remembered that could be installed. The flag is what is said about it. -/
inductive Settled (check : Regex.Check) : RuleTable → List Rule → Bool → Prop
  | restored {t : RuleTable} {lastGood : List Rule} (h : t.Valid check) (hne : t.rules ≠ []) :
    Settled check t lastGood true
  | bare {lastGood : List Rule} (h : lastGood = [] ∨ ¬ Rule.Installable check lastGood) :
    Settled check .empty lastGood false

section

variable {t : RuleTable} {rules : List Rule} {r : Record} {e : Rejection}

/-- With nothing to put back but what is remembered, and not that either, the table stays empty. -/
private theorem restore_nothing (h : r.lastGood = [] ∨ ¬ Rule.Installable check r.lastGood) :
    restore (Engine.memory check) [] r .empty
      = ((false, { r with metrics := r.metrics.setInstalled 0 }), .empty) := by
  unfold restore
  rcases h with hnil | hrefused
  · simp only [List.isEmpty_nil, if_true, hnil]
    rfl
  · have hne : r.lastGood.isEmpty = false := by
      rw [List.isEmpty_eq_false_iff]
      rintro hnil
      exact hrefused (hnil ▸ ⟨List.forall_mem_nil _, List.nodup_nil⟩)
    cases hadd : RuleTable.empty.update check (.adding r.lastGood) with
    | ok u => exact absurd (RuleTable.empty_addAll_eq_ok_iff.mp hadd).1 hrefused
    | error e =>
      simp only [List.isEmpty_nil, if_true, hne, Bool.false_eq_true, if_false, bind_apply,
        Engine.memory_update_of_error hadd]
      rfl

private theorem restore_remembered (hne : r.lastGood ≠ []) (h : Rule.Installable check r.lastGood) :
    restore (Engine.memory check) [] r .empty
      = ((true, ⟨r.lastGood, r.metrics.setInstalled r.lastGood.length⟩), .ofRules r.lastGood) := by
  have hempty : r.lastGood.isEmpty = false := List.isEmpty_eq_false_iff.mpr hne
  have hadd : RuleTable.empty.update check (.adding r.lastGood) = .ok (.ofRules r.lastGood) :=
    RuleTable.empty_addAll_eq_ok_iff.mpr ⟨h, rfl⟩
  unfold restore
  simp only [List.isEmpty_nil, if_true, hempty, Bool.false_eq_true, if_false, bind_apply,
    Engine.memory_update_of_ok hadd]
  rfl

/-- **A refused replacement stays where one has ended.** -/
theorem Settled.replace {restored : Bool} (h : Settled check t r.lastGood restored)
    (he : RuleTable.empty.addAll check rules = .error e) :
    ∃ r', Apply.replace (Engine.memory check) rules r t
        = ((.error (.install (.rejected e) restored), r'), t) ∧
      Settled check t r'.lastGood restored := by
  cases h with
  | restored h hne =>
    have hrefused : ¬ Rule.Installable check rules := by
      intro hi
      rw [RuleTable.empty_addAll_eq_ok_iff.mpr ⟨hi, rfl⟩] at he
      cases he
    obtain ⟨f, hreplace⟩ := replace_memory_of_not_installable (r := r) h.toWellFormed h.valid
      (fun hnil ↦ absurd hnil hne) hrefused
    obtain ⟨restored, hf⟩ := replace_memory_of_rejected (r := r) h.toWellFormed he
    rw [hreplace] at hf
    cases hf
    have htrue : (!t.rules.isEmpty) = true := by
      rw [Bool.not_eq_true', List.isEmpty_eq_false_iff]
      exact hne
    rw [htrue] at hreplace
    exact ⟨_, hreplace, .restored h hne⟩
  | bare h =>
    refine ⟨count .installFailed { r with metrics := r.metrics.setInstalled 0 }, ?_, .bare h⟩
    rw [replace_memory_eq_restore RuleTable.wellFormed_empty he, RuleTable.rules_empty,
      restore_nothing h]

/-- **A refused replacement ends there**, wherever it has begun. -/
theorem exists_settled (h : t.Valid check) (he : RuleTable.empty.addAll check rules = .error e) :
    ∃ restored r' t', replace (Engine.memory check) rules r t
        = ((.error (.install (.rejected e) restored), r'), t') ∧
      Settled check t' r'.lastGood restored := by
  by_cases hne : t.rules ≠ []
  · have hsettled : Settled check t r.lastGood true := .restored h hne
    obtain ⟨r', hreplace, hagain⟩ := hsettled.replace he
    exact ⟨true, r', t, hreplace, hagain⟩
  · obtain rfl := RuleTable.rules_eq_nil_iff.mp (not_not.mp hne)
    by_cases hlast : r.lastGood = [] ∨ ¬ Rule.Installable check r.lastGood
    · obtain ⟨r', hreplace, hsettled⟩ := (Settled.bare hlast).replace he
      exact ⟨false, r', .empty, hreplace, hsettled⟩
    · -- What is remembered is put in place of nothing, and can be put back from then on.
      obtain ⟨hsome, hi⟩ := not_or.mp hlast
      rw [not_not] at hi
      have hvalid : ∀ x ∈ (RuleTable.ofRules r.lastGood).rules, x.fault? check = none :=
        fun x hx ↦ hi.valid x ((RuleTable.rules_ofRules_perm hi.distinct).mem_iff.mp hx)
      have hrules : (RuleTable.ofRules r.lastGood).rules ≠ [] := by
        rwa [ne_eq, RuleTable.rules_ofRules_eq_nil_iff]
      refine ⟨true, count .installFailed ⟨r.lastGood, r.metrics.setInstalled r.lastGood.length⟩,
        .ofRules r.lastGood, ?_, .restored ⟨RuleTable.wellFormed_ofRules _, hvalid⟩ hrules⟩
      rw [replace_memory_eq_restore RuleTable.wellFormed_empty he, RuleTable.rules_empty,
        restore_remembered hsome hi]

end

/-! ## Once more -/

/-- **How a call ends that is made once more**: as a success that removes what the first one has
installed, and installs as much of either kind, or refused for the very reason, and with the same
said about what was put back. -/
inductive Repeats : Except Fault Report → Except Fault Report → Prop
  | ok (first : Report) : Repeats (.ok first)
    (.ok { first with removed := first.redirectRules + first.headerRules })
  | refused (e : Rejection) (restored : Bool) :
    Repeats (.error (.replace (.install (.rejected e) restored)))
      (.error (.replace (.install (.rejected e) restored)))

/-- **Replacing once more**, by the same rules, whatever has been counted in between. -/
theorem replace_memory_again {t t' : RuleTable} (h : t.Valid check) {rules : List Rule}
    {r r' : Record} {x : Except ReplaceFault Report}
    (hfirst : replace (Engine.memory check) rules r t = ((x, r'), t')) (m : Metrics) :
    ∃ y r₂, replace (Engine.memory check) rules { r' with metrics := m } t' = ((y, r₂), t') ∧
      Repeats (x.mapError .replace) (y.mapError .replace) := by
  cases hadd : RuleTable.empty.addAll check rules with
  | ok u =>
    obtain ⟨hi, -⟩ := RuleTable.empty_addAll_eq_ok_iff.mp hadd
    rw [replace_memory_of_installable h.toWellFormed hi] at hfirst
    cases hfirst
    have hlength : (RuleTable.ofRules rules).rules.length = rules.length :=
      (RuleTable.rules_ofRules_perm hi.distinct).length_eq
    have hremoved := hlength.trans (Report.installed_of t.rules.length rules).symm
    refine ⟨_, _, replace_memory_of_installable (RuleTable.wellFormed_ofRules rules) hi, ?_⟩
    rw [hremoved]
    exact .ok (.of t.rules.length rules)
  | error e =>
    obtain ⟨restored, r₁, t₁, hrun, hsettled⟩ := exists_settled (r := r) h hadd
    rw [hrun] at hfirst
    cases hfirst
    obtain ⟨r₂, hsecond, -⟩ := hsettled.replace (r := { r' with metrics := m }) hadd
    exact ⟨_, r₂, hsecond, .refused e restored⟩

namespace Pipeline

variable {σ : Type} {p : Pipeline RuleTable σ} {c : Call σ}

/-- **Calling once more** ends alike and changes nothing, if what is asked for is still the same. -/
theorem call_again (h : p.engine.Valid check)
    (hagain : c.request (c.request p.store).2 = c.request p.store) {q : Request}
    (hq : (c.request p.store).1 = .ok q) :
    Repeats (p.call (Engine.memory check) c).1
        ((p.call (Engine.memory check) c).2.call (Engine.memory check) c).1 ∧
      ((p.call (Engine.memory check) c).2.call (Engine.memory check) c).2.engine
        = (p.call (Engine.memory check) c).2.engine := by
  have hfirst : p.call (Engine.memory check) c = _ := call_of_requested hq
  rcases hrun : replace (Engine.memory check) q.rules
    { p.record with metrics := p.record.metrics.countSkips q.skips } p.engine with ⟨⟨x, r'⟩, t'⟩
  rw [hrun] at hfirst
  have hq₂ : (c.request (c.request p.store).2).1 = .ok q := by rw [hagain, hq]
  obtain ⟨y, r₂, hsecond, hrepeats⟩ :=
    replace_memory_again h hrun (r'.metrics.countSkips q.skips)
  rw [hfirst, call_of_requested hq₂, hsecond]
  exact ⟨hrepeats, rfl⟩

private theorem request_store (es : Store.Entries) :
    (Call.store Store.memory).request es
      = ((asked es).map .ofWanted, (wanted.run Store.memory es).2) := rfl

/-- What a call that reads the store asks for is read again as it was. -/
theorem request_store_again (es : Store.Entries) :
    (Call.store Store.memory).request ((Call.store Store.memory).request es).2
      = (Call.store Store.memory).request es := by
  rw [request_store es, request_store, asked, wanted_run_again]
  rfl

/-- A list that is missing is all that may be written. -/
private theorem request_store_entries (es : Store.Entries) :
    ((Call.store Store.memory).request es).2 = es ∨ Profiles.Unlisted es ∧
      ((Call.store Store.memory).request es).2 = Profiles.started es := by
  rw [request_store]
  rcases wanted_run_entries es with hes | ⟨hes, -⟩
  · exact Or.inl hes
  · dsimp only
    rw [hes]
    exact Profiles.withList_eq_or_unlisted es

/-- **Applying the store once more**, with nothing changed in between. The second apply is a success
like the first one, which removes just what that has installed and installs as much, or it is
refused like the first one, for the same reason. Either way the rules that are installed then are
those that the first one has left. Only if the store has something in it that cannot be decoded, it
may be that neither apply gets that far, for the same fault. The store is left alone, but for the
list there is to start with, which the first apply may write if no profile is listed. -/
theorem store_again {p : Pipeline RuleTable Store.Entries} (h : p.engine.Valid check) :
    let first := p.call (Engine.memory check) (.store Store.memory)
    let second := first.2.call (Engine.memory check) (.store Store.memory)
    (Repeats first.1 second.1 ∨ ∃ f, ¬ Profiles.Decodable p.store ∧
        first.1 = .error (.store f) ∧ second.1 = .error (.store f)) ∧
      second.2.engine = first.2.engine ∧
      (first.2.store = p.store ∨ Profiles.Unlisted p.store ∧
        first.2.store = Profiles.started p.store) ∧
      second.2.store = first.2.store := by
  intro first second
  have hagain := request_store_again p.store
  have hfirst : first.2.store = ((Call.store Store.memory).request p.store).2 := call_store
  have hsecond : second.2.store = first.2.store := by
    rw [call_store, hfirst, hagain]
  have hwritten := request_store_entries p.store
  rw [← hfirst] at hwritten
  cases hq : ((Call.store Store.memory).request p.store).1 with
  | error f =>
    have hfault : first = _ := call_of_not_requested hq
    have hfault₂ : second = _ := call_of_not_requested (by rw [hfirst, hagain, hq])
    have hundecodable : ¬ Profiles.Decodable p.store := by
      intro hdecodable
      obtain ⟨w, hw⟩ := exists_asked hdecodable
      rw [request_store, hw] at hq
      cases hq
    refine ⟨Or.inr ⟨f, hundecodable, ?_, ?_⟩, ?_, hwritten, hsecond⟩
    · rw [hfault]
    · rw [hfault₂]
    · rw [hfault₂]
  | ok q =>
    obtain ⟨hrepeats, hengine⟩ := call_again h hagain hq
    exact ⟨Or.inl hrepeats, hengine, hwritten, hsecond⟩

/-- Two rules take the place of another one, and are then replaced by themselves. -/
theorem store_again_twoDocuments :
    let p := initial (.ofRules [pageRule 1000]) twoDocuments
    let first := p.call (Engine.memory Regex.check) (.store Store.memory)
    let second := first.2.call (Engine.memory Regex.check) (.store Store.memory)
    p.engine.Valid Regex.check ∧ first.1 = .ok ⟨1, 1, 1⟩ ∧ second.1 = .ok ⟨2, 1, 1⟩ ∧
      second.2.engine = first.2.engine ∧ second.2.store = first.2.store := by
  intro p first second
  have h : p.engine.Valid Regex.check := ⟨RuleTable.wellFormed_ofRules _, by decide⟩
  have hok : first.1 = .ok ⟨1, 1, 1⟩ := by decide +kernel
  obtain ⟨hrepeats | ⟨f, -, hfault, -⟩, hengine, -, hstore⟩ := store_again h
  · change Repeats first.1 second.1 at hrepeats
    rw [hok] at hrepeats
    generalize second.1 = x at hrepeats ⊢
    cases hrepeats
    exact ⟨h, hok, rfl, hengine, hstore⟩
  · rw [hok] at hfault
    cases hfault

-- A domain that no rule can name: both applies put back what was there.
example :
    let es : Store.Entries :=
      [(Profiles.documentKey Profile.defaultId,
        Profile.documentToJson "\x7b\"cors\": [\"ä.example\"]\x7d")]
    let engine := Engine.memory Regex.check
    let first := (initial (.ofRules [pageRule 7]) es).call engine (.store Store.memory)
    let second := first.2.call engine (.store Store.memory)
    first.1 = .error (.replace (.install (.rejected (.invalidUrlFilter 1000)) true)) ∧
      second.1 = first.1 ∧ second.2.engine = .ofRules [pageRule 7] := by
  decide +kernel

end Pipeline

end Redirector.Apply
