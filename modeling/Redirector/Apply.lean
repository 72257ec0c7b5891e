import Redirector.Engine
import Redirector.Metrics
import Redirector.Profile.Store
import Redirector.Rule.Basic

/-!
# Applying the profile store

An apply reads what the store asks for, compiles it and replaces what is installed; the worker
applies the store when it is asked to.
-/

namespace Redirector.Apply

/-! ## Replacing the installed rules

An apply replaces everything that is installed: first the rules that the engine lists are removed,
then the new ones are added, each in one update. If the new rules are refused, what was installed
before is added again, or, if the engine listed nothing, the rules that were last known to be
installed.

The two updates are not one, so between them the engine has no rules; a call that is not needed
because its list is empty is not made.
-/

/-- What an apply did. -/
structure Report where
  /-- How many rules were removed. -/
  removed : Nat
  redirectRules : Nat
  headerRules : Nat
  deriving DecidableEq, Repr

namespace Report

/-- The report of an apply that removed some number of rules and installed others. -/
def of (removed : Nat) (rules : List Rule) : Report where
  removed := removed
  redirectRules := rules.countP (·.kind = .redirect)
  headerRules := rules.countP (·.kind = .header)

/-- How many rules were installed. -/
def installed (r : Report) : Nat := r.redirectRules + r.headerRules

end Report

/-- What is remembered from one apply to the next. -/
structure Record where
  /-- The rules that were last installed without a fault. -/
  lastGood : List Rule
  metrics : Metrics

def Record.initial : Record := ⟨[], .zero⟩

/-- Why the installed rules could not be replaced. -/
inductive ReplaceFault where
  /-- The old rules could not be removed. -/
  | remove (f : Engine.Fault)
  /-- The new rules could not be added; whether others were installed in their place. -/
  | install (f : Engine.Fault) (restored : Bool)
  deriving DecidableEq, Repr

section

variable {m : Type → Type} [Monad m] (engine : Engine m)

/-- The installed rules; an engine that cannot list them counts as empty. -/
def installed : m (List Rule) := do
  match ← engine.rules with
  | .ok rules => return rules
  | .error _ => return []

/-- Installs old rules again, and says whether it went well. -/
def restore (previous : List Rule) : StateT Record m Bool := fun r ↦ do
  let fallback := if previous.isEmpty then r.lastGood else previous
  let failed : Bool × Record := (false, { r with metrics := r.metrics.setInstalled 0 })
  if fallback.isEmpty then return failed
  else
    match ← engine.update (.adding fallback) with
    | .ok () => return (true, ⟨fallback, r.metrics.setInstalled fallback.length⟩)
    | .error _ => return failed

/-- Counts an apply that ended in some way. -/
def count (o : Outcome) (r : Record) : Record := { r with metrics := r.metrics.countApply o }

/-- Adds the new rules, or the previous ones again. -/
def install (previous rules : List Rule) :
    StateT Record m (Except ReplaceFault Report) := fun r ↦ do
  let outcome ← if rules.isEmpty then pure (.ok ()) else engine.update (.adding rules)
  match outcome with
  | .ok () =>
    let report := Report.of previous.length rules
    return (.ok report, ⟨rules, (r.metrics.countApply .ok).setInstalled report.installed⟩)
  | .error f =>
    let (restored, r) ← restore engine previous r
    return (.error (.install f restored), count .installFailed r)

/-- Replaces the installed rules. -/
def replace (rules : List Rule) : StateT Record m (Except ReplaceFault Report) := fun r ↦ do
  let previous ← installed engine
  -- Nothing to remove: the engine is not asked.
  let outcome ← if previous.isEmpty then pure (.ok ())
    else engine.update (.removing (previous.map Rule.id))
  match outcome with
  | .ok () => install engine previous rules r
  | .error f => return (.error (.remove f), count .removeFailed r)

end

/-! ## Applying the profile store

What the store asks for (`wanted`) is read in one go: nothing if rules are switched off, else the
configurations of the active profiles, in the order of the list and without those whose document
cannot be read, and whether header rules are wanted. It is compiled and replaces what is installed.
-/

open Store (Program)

/-- What is to be compiled. -/
structure Wanted where
  configurations : List Forwarding
  withHeaders : Bool

namespace Wanted

def rules (w : Wanted) : List Rule := Forwarding.compileAll w.configurations w.withHeaders

def skips (w : Wanted) : List SkipReason := Forwarding.skippedBy w.configurations w.withHeaders

end Wanted

/-- The configurations of some documents, without those that cannot be read. -/
def readable (documents : List (Profile × String)) : List Forwarding :=
  documents.filterMap fun (_, text) ↦ (Document.parse text).toOption

/-- What the store asks for; nothing if rules are switched off. -/
def wanted : Program (Option Wanted) := do
  if ← Profiles.isEnabled then
    let documents ← Profiles.activeDocuments
    return some ⟨readable documents, ← Profiles.headersEnabled⟩
  else return none

inductive Fault where
  | replace (f : ReplaceFault)
  | store (f : Store.Fault)
  deriving DecidableEq, Repr

def Fault.message : Fault → String
  | replace (.remove f) => "Failed to remove installed rules: " ++ f.message
  | replace (.install f restored) =>
    s!"Failed to install rules (last known good restored: {restored}): " ++ f.message
  | store f => "Failed to read profiles: " ++ f.message

section

variable {m : Type → Type} [Monad m] (engine : Engine m)

def installRules (rules : List Rule) : StateT Record m (Except Fault Report) := fun r ↦ do
  let (outcome, r) ← replace engine rules r
  return (outcome.mapError .replace, r)

/-- Compiles what is wanted and replaces the installed rules. -/
def installWanted (w : Wanted) : StateT Record m (Except Fault Report) := fun r ↦
  installRules engine w.rules { r with metrics := r.metrics.countSkips w.skips }

/-- Applies some configurations, with header rules. -/
def configurations (fs : List Forwarding) : StateT Record m (Except Fault Report) :=
  installWanted engine ⟨fs, true⟩

/-- Applies what the store asks for. -/
def store (backend : Store.Backend m) : StateT Record m (Except Fault Report) := fun r ↦ do
  match ← wanted.run backend with
  | .error f => return (.error (.store f), r)
  -- Rules that are switched off are taken out, not left as they are.
  | .ok none => installRules engine [] r
  | .ok (some w) => installWanted engine w r

end

/-! ## The apply worker

Whoever changes the store asks for an apply afterwards. The worker takes the oldest request, throws
away all others that are queued by then, and applies the store once: the store is read after the
queue was emptied, so that one apply serves every request that was thrown away.
-/

/-- Why an apply is asked for. -/
inductive Trigger where
  | startup
  | storeChanged
  | admin
  deriving DecidableEq, Repr

def Trigger.name : Trigger → String
  | startup => "startup"
  | storeChanged => "store_changed"
  | admin => "admin"

/-- The requests that the worker has not seen, the oldest first. -/
abbrev Queue := List Trigger

/-- Takes the oldest request and throws away the others; nothing if there are none. -/
def Queue.drain : Queue → Option Trigger × Queue
  | [] => (none, [])
  | t :: _ => (some t, [])

/-- Serves what is queued, and says how many applies that took. -/
def work {m : Type → Type} [Monad m] (engine : Engine m) (backend : Store.Backend m) (q : Queue) :
    StateT Record m Nat := fun r ↦ do
  match q.drain with
  | (none, _) => return (0, r)
  | (some _, _) =>
    let (_, r) ← store engine backend r
    return (1, r)

end Redirector.Apply
