import Redirector.Proofs.Apply.Pipeline
import Redirector.Proofs.Rule.Identifiers
import Redirector.Regex.Automaton

/-!
# Which compiled rules the engine accepts

The compiler and the table were written apart from each other, and the table checks much that the
compiler never gets wrong: no compiled rule is without an identifier, without resource types or
without the filter that its kind needs, and no two of them share an identifier. What remains are the
two filters, whose text comes from a configuration: a redirect's regular expression may not be one,
and a domain may have other characters than the engine allows (`Rule.fault?_forRedirect`,
`Rule.fault?_forDomain`).

Which regular expressions are accepted is for the engine's check to say (`Regex.Check`). It is a
parameter: the verdict on a compiled set is told by its answers, whatever they are, and what it says
against an expression is the reason that the rejection gives.

Applying in memory empties the table first, so the verdict on an empty table is the verdict of an
apply, whatever was installed before (`Apply.installWanted_endsAs`).
-/

namespace Redirector

variable {check : Regex.Check}

namespace Rule

/-- All of the characters are in the range that the engine allows in a filter of addresses. -/
def IsAscii (s : String) : Prop := ∀ c ∈ s.toList, c.toNat < 128

instance (s : String) : Decidable (IsAscii s) :=
  decidable_of_iff (s.toList.all (·.toNat < 128)) (by simp [IsAscii])

theorem fault?_forRedirect {r : Redirect} {n : Nat} (hid : UInt32.ofNat n ≠ 0) :
    (forRedirect r n).fault? check =
      (check (Pattern.toFilter r.pattern)).map (.invalidRegexFilter (UInt32.ofNat n)) := by
  have htypes : (forRedirect r n).condition.resourceTypes.isEmpty = false := rfl
  rw [fault?, forRedirect_id, if_neg hid, if_neg (ne_true_of_eq_false htypes)]
  rfl

theorem fault?_forDomain {domain : String} {n : Nat} (hid : UInt32.ofNat n ≠ 0) :
    (forDomain domain n).fault? check =
      if IsAscii domain then none else some (.invalidUrlFilter (UInt32.ofNat n)) := by
  have hfilter : ("||" ++ domain ≠ "" ∧ ("||" ++ domain).toList.all (·.toNat < 128)) ↔
      IsAscii domain := by
    simp [IsAscii, String.toList_append]
  have htypes : (forDomain domain n).condition.resourceTypes.isEmpty = false := rfl
  rw [fault?, forDomain_id, if_neg hid, if_neg (ne_true_of_eq_false htypes)]
  change (if "||" ++ domain ≠ "" ∧ ("||" ++ domain).toList.all (·.toNat < 128) then none
    else some (Rejection.invalidUrlFilter (UInt32.ofNat n))) = _
  simp only [hfilter]

section

variable {α : Type} {build : α → Nat → Rule} {first : Nat} {as : List α}

theorem mem_numbered {r : Rule} :
    r ∈ numbered build first as ↔ ∃ i a, as[i]? = some a ∧ r = build a (first + i) := by
  rw [numbered, List.mem_map]
  constructor
  · rintro ⟨⟨a, n⟩, hmem, rfl⟩
    obtain ⟨hle, hget⟩ := List.mk_mem_zipIdx_iff_le_and_getElem?_sub.mp hmem
    exact ⟨n - first, a, hget, by rw [Nat.add_sub_cancel' hle]⟩
  · rintro ⟨i, a, hget, rfl⟩
    exact ⟨(a, first + i), List.mk_add_mem_zipIdx_iff_getElem?.mpr hget, rfl⟩

/-- What holds of a rule for its entry holds of all of them for all entries. -/
theorem forall_mem_numbered {p : Rule → Prop} {q : α → Prop}
    (h : ∀ a n, build a n ∈ numbered build first as → (p (build a n) ↔ q a)) :
    (∀ r ∈ numbered build first as, p r) ↔ ∀ a ∈ as, q a := by
  constructor
  · intro hall a ha
    obtain ⟨i, hget⟩ := List.mem_iff_getElem?.mp ha
    have hmem : build a (first + i) ∈ numbered build first as := mem_numbered.mpr ⟨i, a, hget, rfl⟩
    exact (h a (first + i) hmem).mp (hall _ hmem)
  · intro hall r hmem
    obtain ⟨i, a, hget, rfl⟩ := mem_numbered.mp hmem
    exact (h a (first + i) hmem).mpr (hall a (List.mem_of_getElem? hget))

end

end Rule

namespace Forwarding

open Rule

/-- The redirects that compile: the different ones with both of their parts, as far as their
identifiers go. -/
def compiledRedirects (fs : List Forwarding) : List Redirect :=
  ((fs.flatMap redirects).eraseDups.filter isComplete).take 999

/-- The domains that compile: the different ones without the empty one. -/
def compiledDomains (fs : List Forwarding) : List String :=
  (fs.flatMap domains).eraseDups.filter (· ≠ "")

theorem compileAll_eq_append (fs : List Forwarding) (withHeaders : Bool) :
    compileAll fs withHeaders = numbered forRedirect 1 (compiledRedirects fs) ++
      if withHeaders then numbered forDomain 1000 (compiledDomains fs) else [] :=
  compileAll_eq fs withHeaders

theorem forall_mem_compiledDomains {fs : List Forwarding} {p : String → Prop} :
    (∀ d ∈ compiledDomains fs, p d) ↔ ∀ d ∈ fs.flatMap domains, d ≠ "" → p d := by
  simp only [compiledDomains, List.mem_filter, List.mem_eraseDups, decide_eq_true_eq, and_imp]

/-! ## Faults of compiled rules -/

section

variable {fs : List Forwarding} {withHeaders : Bool}

/-- **What can be wrong with a compiled rule** is a filter that a configuration has the text of. -/
theorem fault?_eq_some_of_mem (h : domainCount fs ≤ UInt32.size - 1001) {r : Rule} {e : Rejection}
    (hr : r ∈ compileAll fs withHeaders) (he : r.fault? check = some e) :
    (∃ i a reason, (compiledRedirects fs)[i]? = some a ∧
        check (Pattern.toFilter a.pattern) = some reason ∧
        e = .invalidRegexFilter (UInt32.ofNat (1 + i)) reason) ∨
      (withHeaders = true ∧ ∃ i d, (compiledDomains fs)[i]? = some d ∧
        ¬ IsAscii d ∧ e = .invalidUrlFilter (UInt32.ofNat (1000 + i))) := by
  have hid := id_ne_zero_of_mem_compileAll h hr
  rw [compileAll_eq_append, List.mem_append] at hr
  rcases hr with hr | hr
  · obtain ⟨i, a, hget, rfl⟩ := mem_numbered.mp hr
    rw [fault?_forRedirect hid] at he
    obtain ⟨reason, hreason, rfl⟩ := Option.map_eq_some_iff.mp he
    exact .inl ⟨i, a, reason, hget, hreason, rfl⟩
  · split_ifs at hr with hheaders
    · obtain ⟨i, d, hget, rfl⟩ := mem_numbered.mp hr
      rw [fault?_forDomain hid] at he
      split_ifs at he with hascii
      exact .inr ⟨hheaders, i, d, hget, hascii, (Option.some.inj he).symm⟩
    · exact absurd hr List.not_mem_nil

/-- Compiled rules are valid exactly if their filters are. -/
theorem forall_fault?_eq_none_iff (h : domainCount fs ≤ UInt32.size - 1001) :
    (∀ r ∈ compileAll fs withHeaders, r.fault? check = none) ↔
      (∀ a ∈ compiledRedirects fs, check (Pattern.toFilter a.pattern) = none) ∧
        (withHeaders = true → ∀ d ∈ fs.flatMap domains, d ≠ "" → IsAscii d) := by
  have hid : ∀ r ∈ compileAll fs withHeaders, r.id ≠ 0 :=
    fun _ hr ↦ id_ne_zero_of_mem_compileAll h hr
  rw [compileAll_eq_append, List.forall_mem_append] at hid ⊢
  refine and_congr ?_ ?_
  · refine forall_mem_numbered fun a n hmem ↦ ?_
    rw [fault?_forRedirect (hid.1 _ hmem), Option.map_eq_none_iff]
  · split_ifs at hid ⊢ with hheaders
    · rw [forall_prop_of_true hheaders, ← forall_mem_compiledDomains]
      refine forall_mem_numbered fun d n hmem ↦ ?_
      rw [fault?_forDomain (hid.2 _ hmem)]
      split_ifs with hascii
      · exact iff_of_true rfl hascii
      · exact iff_of_false not_false hascii
    · exact iff_of_true (List.forall_mem_nil _) fun hcon ↦ absurd hcon hheaders

/-! ## The verdict on an empty table -/

/-- An empty table takes compiled rules as they are, or rejects them for the first one at fault. -/
theorem update_empty_compileAll (h : domainCount fs ≤ UInt32.size - 1001) :
    RuleTable.empty.update check (.adding (compileAll fs withHeaders)) =
      match (compileAll fs withHeaders).findSome? (fault? check) with
      | some e => .error e
      | none => .ok (.ofRules (compileAll fs withHeaders)) :=
  RuleTable.addAll_of_distinct RuleTable.wellFormed_empty
    (ascending_compileAll_of_domainCount h).distinct

end

end Forwarding

namespace Apply

open Forwarding Rule

/-- How replacing goes by the verdict of an empty table on the new rules. -/
def EndsAs (verdict : Except Rejection RuleTable)
    (out : (Except Fault Report × Record) × RuleTable) : Prop :=
  match verdict with
  | .ok t => (∃ report, out.1.1 = .ok report) ∧ out.2 = t
  | .error e => ∃ restored, out.1.1 = .error (.replace (.install (.rejected e) restored))

/-- **The verdict of an apply is that of an empty table**, whatever was installed before. -/
theorem installWanted_endsAs (w : Wanted) (installed : List Rule) (r : Record) :
    EndsAs (RuleTable.empty.update check (.adding w.rules))
      (installWanted (Engine.memory check) w r (.ofRules installed)) := by
  have hwf := RuleTable.wellFormed_ofRules installed
  change EndsAs (RuleTable.empty.addAll check w.rules) _
  cases hverdict : RuleTable.empty.addAll check w.rules with
  | ok t =>
    obtain ⟨hinstallable, rfl⟩ := RuleTable.empty_addAll_eq_ok_iff.mp hverdict
    have hreplace := replace_memory_of_installable (r := { r with
      metrics := r.metrics.countSkips w.skips }) hwf hinstallable
    rw [installWanted, installRules, bind_apply, hreplace]
    exact ⟨⟨_, rfl⟩, rfl⟩
  | error e =>
    obtain ⟨restored, hreplace⟩ := replace_memory_of_rejected (r := { r with
      metrics := r.metrics.countSkips w.skips }) hwf hverdict
    refine ⟨restored, ?_⟩
    rw [installWanted, installRules, bind_apply]
    exact congrArg (Except.mapError Fault.replace) hreplace

/-- **Which compiled rules are accepted**, by whatever check the engine has for filters. An empty
table takes them exactly if nothing is said against the filter of any compiled redirect and, if
header rules are wanted, each domain is in the allowed range of characters; then it holds the
compiled rules in their order. There is no other reason for a rejection than such a filter. The
verdict of an apply is the same, whatever was installed before. -/
theorem verdict_compileAll (check : Regex.Check) (fs : List Forwarding) (withHeaders : Bool)
    (h : domainCount fs ≤ UInt32.size - 1001) :
    let verdict := RuleTable.empty.update check (.adding (compileAll fs withHeaders))
    ((∃ t, verdict = .ok t) ↔
        (∀ a ∈ compiledRedirects fs, check (Pattern.toFilter a.pattern) = none) ∧
          (withHeaders = true → ∀ d ∈ fs.flatMap domains, d ≠ "" → IsAscii d)) ∧
      (∀ t, verdict = .ok t → t.rules = compileAll fs withHeaders) ∧
      (∀ e, verdict = .error e →
        (∃ i a reason, (compiledRedirects fs)[i]? = some a ∧
            check (Pattern.toFilter a.pattern) = some reason ∧
            e = .invalidRegexFilter (UInt32.ofNat (1 + i)) reason) ∨
          (withHeaders = true ∧ ∃ i d, (compiledDomains fs)[i]? = some d ∧
            ¬ IsAscii d ∧ e = .invalidUrlFilter (UInt32.ofNat (1000 + i)))) ∧
      ∀ installed record,
        EndsAs (RuleTable.empty.update check (.adding (compileAll fs true)))
          (configurations (Engine.memory check) fs record (.ofRules installed)) := by
  intro verdict
  have hverdict : verdict = _ := update_empty_compileAll h
  rw [hverdict, ← forall_fault?_eq_none_iff h]
  cases hfault : (compileAll fs withHeaders).findSome? (fault? check) with
  | some e =>
    obtain ⟨r, hr, he⟩ := List.exists_of_findSome?_eq_some hfault
    refine ⟨iff_of_false ?_ ?_, ?_, ?_, installWanted_endsAs ⟨fs, true⟩⟩
    · rintro ⟨t, ht⟩
      cases ht
    · intro hvalid
      rw [hvalid r hr] at he
      cases he
    · intro t ht
      cases ht
    · intro e' he'
      cases he'
      exact fault?_eq_some_of_mem h hr he
  | none =>
    refine ⟨iff_of_true ⟨_, rfl⟩ (List.findSome?_eq_none_iff.mp hfault), ?_, ?_,
      installWanted_endsAs ⟨fs, true⟩⟩
    · intro t ht
      cases ht
      exact RuleTable.rules_ofRules_of_ascending (ascending_compileAll_of_domainCount h)
    · intro e he
      cases he

/-- A domain outside of the allowed characters matters only if header rules are wanted. -/
theorem verdict_compileAll_foreignDomain :
    let fs : List Forwarding :=
      [⟨[⟨"a.example/(.*)", "https://b.example/$1"⟩], ["c.example", "é.example"]⟩]
    domainCount fs ≤ UInt32.size - 1001 ∧
      (∃ t, RuleTable.empty.update Regex.check (.adding (compileAll fs false)) = .ok t ∧
        t.rules = compileAll fs false) ∧
      (¬ ∃ t, RuleTable.empty.update Regex.check (.adding (compileAll fs true)) = .ok t) ∧
      ∀ installed record, ∃ restored,
        (configurations (Engine.memory Regex.check) fs record (.ofRules installed)).1.1
          = .error (.replace (.install (.rejected (.invalidUrlFilter 1001)) restored)) := by
  intro fs
  have hbound : domainCount fs ≤ UInt32.size - 1001 := by
    have hcount : domainCount fs = 2 := by decide
    rw [hcount]
    decide
  have haccepts : ∀ a ∈ compiledRedirects fs, Regex.check (Pattern.toFilter a.pattern) = none := by
    decide +kernel
  have hforeign : ¬ ∀ d ∈ fs.flatMap domains, d ≠ "" → IsAscii d := by decide
  obtain ⟨t, ht⟩ :=
    (verdict_compileAll Regex.check fs false hbound).1.mpr ⟨haccepts, fun h ↦ by cases h⟩
  refine ⟨hbound, ⟨t, ht, (verdict_compileAll Regex.check fs false hbound).2.1 t ht⟩, ?_, ?_⟩
  · intro hok
    exact hforeign (((verdict_compileAll Regex.check fs true hbound).1.mp hok).2 rfl)
  · intro installed record
    have hrejected : RuleTable.empty.update Regex.check (.adding (compileAll fs true))
        = .error (.invalidUrlFilter 1001) := by decide +kernel
    have hends := (verdict_compileAll Regex.check fs true hbound).2.2.2 installed record
    rw [hrejected] at hends
    exact hends

end Apply

end Redirector
