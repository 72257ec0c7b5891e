import Mathlib.Algebra.Ring.Nat
import Redirector.Proofs.Rule.Identifiers

/-!
# An account of every entry

Entries are compiled in one pass, with the next free identifier as its state, and what is skipped
leaves no trace in the rules. Here each entry is accounted for by itself. What it compiles to can be
told from the entry and the number of complete entries before it (`getElem?_compileFrom`), and once
the pass is over it is either among the rules or in exactly one of the counters
(`accountsFor_keepCompiled`).

## Complete entries that are skipped

The state of the pass is not always the number of complete entries so far: once the identifiers have
run out, a complete entry is skipped as well and uses up none. That the two cannot be told apart
from the results is because from then on the identifier makes no difference any more. This is the
only thing that the pass has to know about what it compiles (`RunsOut`).
-/

namespace Redirector

namespace Rule

section

variable {α : Type} {compile : α → Nat → Except SkipReason Rule} {complete : α → Bool}

/-! ## Entries by their places -/

/-- What compiles is complete; and if something complete does not compile, the identifiers have run
out, so that a higher one makes no difference to anything. -/
structure RunsOut (compile : α → Nat → Except SkipReason Rule) (complete : α → Bool) : Prop where
  complete_of_ok : ∀ {a n r}, compile a n = .ok r → complete a = true
  of_error : ∀ {a n reason}, compile a n = .error reason → complete a = true →
    ∀ b k, n ≤ k → compile b k = compile b n

/-- **What becomes of one entry** depends on how many complete ones stand before it. -/
theorem getElem?_compileFrom (h : RunsOut compile complete) (next : Nat) (as : List α) (i : Nat) :
    (compileFrom compile next as)[i]?
      = as[i]?.map fun a ↦ compile a (next + (as.take i).countP complete) := by
  induction as generalizing next i with
  | nil => rfl
  | cons a as ih =>
    rw [compileFrom]
    cases i with
    | zero =>
      rw [List.take_zero, List.countP_nil, Nat.add_zero, List.getElem?_cons_zero, Option.map_some]
      cases compile a next with
      | ok r => rfl
      | error reason => rfl
    | succ i =>
      rw [List.take_succ_cons, List.countP_cons, List.getElem?_cons_succ]
      cases hcompile : compile a next with
      | ok r =>
        rw [if_pos (h.complete_of_ok hcompile), List.getElem?_cons_succ, ih, Nat.add_right_comm,
          Nat.add_assoc]
      | error reason =>
        rw [List.getElem?_cons_succ, ih]
        split_ifs with hcomplete
        · refine congrArg (Option.map · _) (funext fun b ↦ ?_)
          have hsame := h.of_error hcompile hcomplete b
          rw [hsame _ (Nat.le_add_right _ _), hsame _ (Nat.le_add_right _ _)]
        · rfl

theorem length_compileFrom (next : Nat) (as : List α) :
    (compileFrom compile next as).length = as.length := by
  induction as generalizing next with
  | nil => rfl
  | cons a as ih =>
    rw [compileFrom]
    cases compile a next with
    | ok r => rw [List.length_cons, List.length_cons, ih]
    | error reason => rw [List.length_cons, List.length_cons, ih]

end

/-! ## Entries of the two kinds -/

theorem ofRedirect_eq (r : Redirect) (n : Nat) :
    ofRedirect r n =
      if r.pattern = "" then .error .emptyPattern
      else if r.target = "" then .error .emptyTarget
      else if n ≤ 999 then .ok (forRedirect r n)
      else .error .idRangeExhausted := by
  have hlast : lastRedirectId = 999 := rfl
  rw [ofRedirect, hlast]
  refine ite_congr rfl (fun _ ↦ rfl) fun _ ↦ ite_congr rfl (fun _ ↦ rfl) fun _ ↦ ?_
  by_cases hn : n ≤ 999
  · rw [if_neg (Nat.not_lt.mpr hn), if_pos hn]
    rfl
  · rw [if_pos (Nat.not_le.mp hn), if_neg hn]

theorem runsOut_ofRedirect : RunsOut ofRedirect isComplete where
  complete_of_ok {r n x} h := by
    rw [ofRedirect_eq] at h
    split_ifs at h with hpattern htarget
    exact decide_eq_true ⟨hpattern, htarget⟩
  of_error {r n reason} h hcomplete b k hk := by
    obtain ⟨hpattern, htarget⟩ := of_decide_eq_true hcomplete
    rw [ofRedirect_eq, if_neg hpattern, if_neg htarget] at h
    split_ifs at h with hn
    rw [ofRedirect_eq, ofRedirect_eq, if_neg hn, if_neg fun hle ↦ hn (hk.trans hle)]

theorem ofDomain_eq (domain : String) (n : Nat) :
    ofDomain domain n
      = if domain = "" then .error .emptyDomain else .ok (forDomain domain n) := rfl

theorem runsOut_ofDomain : RunsOut ofDomain (· ≠ "") where
  complete_of_ok {domain n x} h := by
    rw [ofDomain_eq] at h
    split_ifs at h with hempty
    exact decide_eq_true hempty
  of_error {domain n reason} h hcomplete := by
    rw [ofDomain_eq, if_neg (of_decide_eq_true hcomplete)] at h
    cases h

/-! ## Rules and counters -/

/-- Goes through the results: a rule is kept, and a skipped entry is counted under its reason. -/
def keepCompiled : List (Except SkipReason Rule) → StateM Metrics (List Rule)
  | [] => return []
  | .ok r :: rest => return r :: (← keepCompiled rest)
  | .error reason :: rest => do
    modify (·.countSkip reason)
    keepCompiled rest

theorem keepCompiled_apply (es : List (Except SkipReason Rule)) (m : Metrics) :
    keepCompiled es m = (compiled es, m.countSkips (skipped es)) := by
  induction es generalizing m with
  | nil => rfl
  | cons e es ih =>
    cases e with
    | ok r =>
      change (r :: (keepCompiled es m).1, (keepCompiled es m).2) = _
      rw [ih]
      rfl
    | error reason =>
      change keepCompiled es (m.countSkip reason) = _
      rw [ih]
      rfl

/-- Each entry is among the rules or in one of the counters. -/
structure AccountsFor (es : List (Except SkipReason Rule)) (m : Metrics)
    (rules : List Rule) (m' : Metrics) : Prop where
  /-- The rules are the successes, in order. -/
  kept : rules.map Except.ok = es.filter Except.isOk
  /-- Each counter has grown by the number of entries that were skipped for its reason. -/
  counters : ∀ reason, m'.skips reason = m.skips reason + es.count (.error reason)
  /-- Nothing else has been counted. -/
  others : m' = { m with skips := m'.skips }
  total : rules.length + (SkipReason.all.map fun reason ↦ m'.skips reason - m.skips reason).sum
    = es.length

theorem map_ok_compiled (es : List (Except SkipReason Rule)) :
    (compiled es).map Except.ok = es.filter Except.isOk := by
  induction es with
  | nil => rfl
  | cons e es ih =>
    cases e with
    | ok r => rw [compiled_ok_cons, List.map_cons, ih, List.filter_cons_of_pos rfl]
    | error reason => rw [compiled_error_cons, ih, List.filter_cons_of_neg Bool.false_ne_true]

theorem count_skipped (es : List (Except SkipReason Rule)) (reason : SkipReason) :
    (skipped es).count reason = es.count (.error reason) := by
  induction es with
  | nil => rfl
  | cons e es ih =>
    cases e with
    | ok r =>
      rw [List.count_cons_of_ne (by simp), ← ih]
      rfl
    | error other =>
      change (other :: skipped es).count reason = _
      rw [List.count_cons, List.count_cons, ih]
      simp

theorem length_compiled_add_length_skipped (es : List (Except SkipReason Rule)) :
    (compiled es).length + (skipped es).length = es.length := by
  induction es with
  | nil => rfl
  | cons e es ih =>
    cases e with
    | ok r =>
      change (compiled es).length + 1 + (skipped es).length = es.length + 1
      omega
    | error reason =>
      change (compiled es).length + ((skipped es).length + 1) = es.length + 1
      omega

/-- There are no other reasons than those in the list of all. -/
theorem sum_count_all (reasons : List SkipReason) :
    (SkipReason.all.map reasons.count).sum = reasons.length := by
  induction reasons with
  | nil => rfl
  | cons reason reasons ih =>
    simp only [SkipReason.all, List.map_cons, List.map_nil, List.sum_cons, List.sum_nil] at ih ⊢
    rw [List.length_cons, ← ih]
    cases reason with
    | emptyPattern | emptyTarget | emptyDomain | idRangeExhausted =>
      simp
      omega

/-- **Nothing is lost** between the results and the rules. -/
theorem accountsFor_keepCompiled (es : List (Except SkipReason Rule)) (m : Metrics) :
    AccountsFor es m (keepCompiled es m).1 (keepCompiled es m).2 := by
  rw [keepCompiled_apply]
  refine ⟨map_ok_compiled es, fun reason ↦ ?_, m.countSkips_eq _, ?_⟩
  · rw [Metrics.countSkips_skips, count_skipped]
  · simp only [Metrics.countSkips_skips, Nat.add_sub_cancel_left]
    rw [sum_count_all, length_compiled_add_length_skipped]

end Rule

namespace Forwarding

open Rule

variable (f : Forwarding)

theorem getElem?_redirectEntries (i : Nat) :
    f.redirectEntries[i]? = f.redirects[i]?.map fun r ↦
      ofRedirect r (1 + (f.redirects.take i).countP isComplete) :=
  getElem?_compileFrom runsOut_ofRedirect firstRedirectId f.redirects i

theorem getElem?_domainEntries (i : Nat) :
    f.domainEntries[i]? = f.domains[i]?.map fun d ↦
      ofDomain d (1000 + (f.domains.take i).countP (· ≠ "")) :=
  getElem?_compileFrom runsOut_ofDomain firstHeaderId f.domains i

/-! ## Identifiers as numbers -/

variable {f} {i : Nat} {x : Rule}

theorem toNat_id_of_redirectEntries (h : f.redirectEntries[i]? = some (.ok x)) :
    x.id.toNat = 1 + (f.redirects.take i).countP isComplete := by
  rw [getElem?_redirectEntries] at h
  obtain ⟨r, -, hx⟩ := Option.map_eq_some_iff.mp h
  rw [ofRedirect_eq] at hx
  split_ifs at hx with hpattern htarget hn
  cases hx
  exact UInt32.toNat_ofNat_of_lt' (Nat.lt_of_le_of_lt hn (by decide))

theorem toNat_id_of_domainEntries (hcount : f.domains.countP (· ≠ "") ≤ UInt32.size - 1001)
    (h : f.domainEntries[i]? = some (.ok x)) :
    x.id.toNat = 1000 + (f.domains.take i).countP (· ≠ "") := by
  rw [getElem?_domainEntries] at h
  obtain ⟨d, -, hx⟩ := Option.map_eq_some_iff.mp h
  rw [ofDomain_eq] at hx
  split_ifs at hx
  cases hx
  have hbefore : (f.domains.take i).countP (· ≠ "") ≤ f.domains.countP (· ≠ "") :=
    (List.take_sublist i f.domains).countP_le
  have hbound : 1000 + (f.domains.take i).countP (· ≠ "") < UInt32.size := by
    rw [UInt32.size] at hcount ⊢
    omega
  exact UInt32.toNat_ofNat_of_lt' hbound

/-- **Every entry is accounted for.** There is one result for each redirect, in order. It is skipped
for an empty pattern, or else for an empty target; or else it is the redirect rule whose identifier
is the number of complete redirects up to this one, or skipped if that is beyond the range. There is
one result for each domain, in order, which is skipped if it is empty and else is the header rule
whose identifier is told in the same way. As long as the domains can be counted, a machine word is
enough to count either, and the identifiers are these numbers. The rules of either kind are the
successes in order, and each counter of skipped entries grows by the number of entries with its
reason, so that rules and counted entries together are as many as entries. -/
theorem entries_accounted (f : Forwarding) (m : Metrics)
    (h : f.domains.countP (· ≠ "") ≤ UInt32.size - 1001) :
    (f.redirectEntries.length = f.redirects.length ∧
      ∀ i, f.redirectEntries[i]? = f.redirects[i]?.map fun r ↦
        let n := 1 + (f.redirects.take i).countP isComplete
        if r.pattern = "" then .error .emptyPattern
        else if r.target = "" then .error .emptyTarget
        else if n ≤ 999 then .ok (forRedirect r n)
        else .error .idRangeExhausted) ∧
    (f.domainEntries.length = f.domains.length ∧
      ∀ i, f.domainEntries[i]? = f.domains[i]?.map fun d ↦
        let n := 1000 + (f.domains.take i).countP (· ≠ "")
        if d = "" then .error .emptyDomain else .ok (forDomain d n)) ∧
    (compileInWords ofRedirect (UInt32.ofNat firstRedirectId) f.redirects
        = some f.redirectEntries ∧
      ∀ i x, f.redirectEntries[i]? = some (.ok x) →
        x.id.toNat = 1 + (f.redirects.take i).countP isComplete) ∧
    (compileInWords ofDomain (UInt32.ofNat firstHeaderId) f.domains = some f.domainEntries ∧
      ∀ i x, f.domainEntries[i]? = some (.ok x) →
        x.id.toNat = 1000 + (f.domains.take i).countP (· ≠ "")) ∧
    ((keepCompiled f.redirectEntries m).1 = f.redirectRules ∧
      AccountsFor f.redirectEntries m f.redirectRules (keepCompiled f.redirectEntries m).2) ∧
    (keepCompiled f.domainEntries m).1 = f.headerRules ∧
      AccountsFor f.domainEntries m f.headerRules (keepCompiled f.domainEntries m).2 := by
  have hrules (es : List (Except SkipReason Rule)) : (keepCompiled es m).1 = compiled es := by
    rw [keepCompiled_apply]
  have hredirects := accountsFor_keepCompiled f.redirectEntries m
  have hdomains := accountsFor_keepCompiled f.domainEntries m
  rw [hrules] at hredirects hdomains
  refine ⟨⟨length_compileFrom _ _, fun i ↦ ?_⟩, ⟨length_compileFrom _ _, fun i ↦ ?_⟩,
    ⟨compileInWords_redirects f, fun i x ↦ toNat_id_of_redirectEntries⟩,
    ⟨?_, fun i x ↦ toNat_id_of_domainEntries h⟩,
    ⟨hrules _, hredirects⟩, hrules _, hdomains⟩
  · rw [getElem?_redirectEntries]
    exact congrArg (Option.map · _) (funext fun r ↦ ofRedirect_eq r _)
  · rw [getElem?_domainEntries]
    exact congrArg (Option.map · _) (funext fun d ↦ ofDomain_eq d _)
  · rw [compileInWords_domains_iff, ← List.countP_eq_length_filter]
    exact h

/-- One more redirect than there are identifiers, after one without a pattern; and a domain that
occurs twice, after an empty one. -/
theorem entries_accounted_full :
    let r : Redirect := ⟨"a", "b"⟩
    let f : Forwarding := ⟨⟨"", "b"⟩ :: List.replicate 1000 r, ["", "x.example", "x.example"]⟩
    f.domains.countP (· ≠ "") ≤ UInt32.size - 1001 ∧
      f.redirectEntries[0]? = some (.error .emptyPattern) ∧
      f.redirectEntries[999]? = some (.ok (forRedirect r 999)) ∧
      f.redirectEntries[1000]? = some (.error .idRangeExhausted) ∧
      f.domainEntries[2]? = some (.ok (forDomain "x.example" 1001)) ∧
      (keepCompiled f.domainEntries .zero).1.length = 2 ∧
      (keepCompiled f.domainEntries .zero).2.skips .emptyDomain = 1 := by
  intro r f
  have hcount : f.domains.countP (· ≠ "") ≤ UInt32.size - 1001 := by decide
  obtain ⟨⟨-, hredirects⟩, ⟨-, hdomains⟩, -, -, -, hrules, haccount⟩ :=
    entries_accounted f .zero hcount
  have hcomplete (n : Nat) (hn : n ≤ 1000) :
      (f.redirects.take (n + 1)).countP isComplete = n := by
    rw [List.take_succ_cons, List.take_replicate, List.countP_cons, List.countP_replicate,
      if_pos (by decide), if_neg (by decide)]
    omega
  refine ⟨hcount, ?_, ?_, ?_, ?_, ?_, ?_⟩
  · rw [hredirects]
    rfl
  · rw [hredirects, hcomplete 998 (by decide), List.getElem?_cons_succ,
      List.getElem?_replicate_of_lt (by decide)]
    rfl
  · rw [hredirects, hcomplete 999 (by decide), List.getElem?_cons_succ,
      List.getElem?_replicate_of_lt (by decide)]
    rfl
  · rw [hdomains]
    rfl
  · rw [hrules]
    rfl
  · rw [haccount.counters]
    decide

end Forwarding

end Redirector
