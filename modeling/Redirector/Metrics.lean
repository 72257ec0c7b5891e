/-!
# Metrics

Counters for the outcomes of applies and for the entries that compile to no rule, and a gauge for
the number of installed rules. A counter that has never been raised, or a gauge that has never been
set, is not reported.
-/

namespace Redirector

/-- How an apply ended. -/
inductive Outcome where
  | ok
  | removeFailed
  | installFailed
  deriving DecidableEq, Repr

def Outcome.label : Outcome → String
  | ok => "ok"
  | removeFailed => "remove_failed"
  | installFailed => "install_failed"

def Outcome.all : List Outcome := [ok, removeFailed, installFailed]

/-- Why an entry compiles to no rule. -/
inductive SkipReason where
  | emptyPattern
  | emptyTarget
  | emptyDomain
  /-- The identifiers of redirects are used up. -/
  | idRangeExhausted
  deriving DecidableEq, Repr

def SkipReason.label : SkipReason → String
  | emptyPattern => "empty_pattern"
  | emptyTarget => "empty_target"
  | emptyDomain => "empty_domain"
  | idRangeExhausted => "id_range_exhausted"

def SkipReason.all : List SkipReason := [emptyPattern, emptyTarget, emptyDomain, idRangeExhausted]

/-- The counters and the gauge. -/
structure Metrics where
  applies : Outcome → Nat
  skips : SkipReason → Nat
  installed : Option Nat

namespace Metrics

/-- Before anything has happened. -/
def zero : Metrics := ⟨fun _ ↦ 0, fun _ ↦ 0, none⟩

def countApply (m : Metrics) (o : Outcome) : Metrics :=
  { m with applies := fun p ↦ if p = o then m.applies p + 1 else m.applies p }

def countSkip (m : Metrics) (r : SkipReason) : Metrics :=
  { m with skips := fun q ↦ if q = r then m.skips q + 1 else m.skips q }

def countSkips (m : Metrics) (rs : List SkipReason) : Metrics := rs.foldl countSkip m

def setInstalled (m : Metrics) (n : Nat) : Metrics := { m with installed := some n }

/-- A counter or gauge with its label, if it has one. -/
structure Sample where
  name : String
  label : Option (String × String)
  value : Nat

def samples (m : Metrics) : List Sample :=
  (Outcome.all.map fun o ↦ ⟨"forward_rules_apply_total", some ("outcome", o.label), m.applies o⟩)
    |>.append (SkipReason.all.map fun r ↦
      ⟨"forward_rules_skipped_total", some ("reason", r.label), m.skips r⟩)
    |>.filter (fun s ↦ 0 < s.value)
    |>.append (m.installed.toList.map fun n ↦ ⟨"forward_rules_installed_rules", none, n⟩)

/-- A sample as it is read over the network. -/
def Sample.line (s : Sample) : String :=
  let label := match s.label with
    | some (key, value) => "\x7b" ++ key ++ "=\"" ++ value ++ "\"\x7d"
    | none => ""
  s.name ++ label ++ " " ++ toString s.value ++ "\n"

/-- What is reported, as it is read over the network. -/
def exposition (m : Metrics) : String := String.join (m.samples.map Sample.line)

@[simp] theorem countApply_applies (m : Metrics) (o p : Outcome) :
    (m.countApply o).applies p = if p = o then m.applies p + 1 else m.applies p := rfl

@[simp] theorem countSkip_skips (m : Metrics) (r q : SkipReason) :
    (m.countSkip r).skips q = if q = r then m.skips q + 1 else m.skips q := rfl

theorem mem_samples_applies {m : Metrics} {o : Outcome} {n : Nat} :
    (⟨"forward_rules_apply_total", some ("outcome", o.label), n⟩ : Sample) ∈ m.samples ↔
      m.applies o = n ∧ 0 < n := by
  have hlabel (o' : Outcome) : o'.label = o.label ↔ o' = o := by
    cases o <;> cases o' <;> decide
  have hall (o' : Outcome) : o' ∈ Outcome.all := by
    cases o' <;> decide
  simp [samples, hlabel, hall]

theorem mem_samples_installed {m : Metrics} {n : Nat} :
    (⟨"forward_rules_installed_rules", none, n⟩ : Sample) ∈ m.samples ↔ m.installed = some n := by
  simp [samples, eq_comm]

theorem countSkips_eq (m : Metrics) (rs : List SkipReason) :
    m.countSkips rs = { m with skips := (m.countSkips rs).skips } := by
  induction rs generalizing m with
  | nil => rfl
  | cons r rs ih =>
    rw [countSkips, List.foldl_cons, ← countSkips, ih]
    rfl

theorem countSkips_skips (m : Metrics) (rs : List SkipReason) (q : SkipReason) :
    (m.countSkips rs).skips q = m.skips q + rs.count q := by
  induction rs generalizing m with
  | nil => simp [countSkips]
  | cons r rs ih =>
    simp only [countSkips, List.foldl_cons] at ih ⊢
    rw [ih, countSkip_skips, List.count_cons]
    by_cases h : q = r
    · subst h; simp; omega
    · simp [h, Ne.symm h]

end Metrics

end Redirector
