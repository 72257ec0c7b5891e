import Redirector.Files.Basic
import Redirector.Json.Basic
import Redirector.Json.Fault
import Redirector.Regex.Basic
import Redirector.Rule.Basic
import Redirector.Rule.Wire
import Redirector.Sorted

/-!
# The engine

Requests are matched by an engine, which holds the installed rules. It is reached through three
calls, and an update happens as a whole or not at all. The rules are in a table, which is kept in
memory or in a file.
-/

namespace Redirector

/-! ## The table of installed rules

The installed rules are kept under their identifiers. An update takes rules out, then puts rules in:
if one of the new rules is at fault, the table stays as it was, and the update is rejected for the
first such rule.

A rule is at fault by itself (`Rule.fault?`), or because its identifier is already in the table when
its turn comes. Whether the filter of a redirect is a regular expression is for a check to say
(`Regex.Check`).
-/

inductive Rejection where
  | duplicateId (id : UInt32)
  | zeroId
  | noResourceTypes (id : UInt32)
  | noRegexFilter (id : UInt32)
  /-- The filter is no regular expression, for the reason that the check gives. -/
  | invalidRegexFilter (id : UInt32) (reason : String)
  | noHeaders (id : UInt32)
  | invalidUrlFilter (id : UInt32)
  /-- For a reason of the engine's own. -/
  | other (reason : String)
  deriving DecidableEq, Repr

def Rejection.message : Rejection → String
  | duplicateId id => s!"Rule with id {id} does not have a unique ID"
  | zeroId => "Rule id must be positive"
  | noResourceTypes id => s!"Rule with id {id} has an empty resource type list"
  | noRegexFilter id => s!"Rule with id {id} redirects by substitution without a regexFilter"
  | invalidRegexFilter id reason =>
    s!"Rule with id {id} specified an invalid regexFilter: {reason}"
  | noHeaders id => s!"Rule with id {id} modifies no headers"
  | invalidUrlFilter id => s!"Rule with id {id} has an invalid urlFilter"
  | other reason => reason

namespace Rule

variable (check : Regex.Check)

/-- What is wrong with the action of a rule, or with the filter that its kind needs. -/
def actionFault? (r : Rule) : Option Rejection :=
  match r.action with
  | .redirect _ =>
    match r.condition.regexFilter with
    | none => some (.noRegexFilter r.id)
    | some filter => (check filter).map (.invalidRegexFilter r.id)
  | .modifyHeaders changes =>
    if changes.isEmpty then some (.noHeaders r.id)
    else
      match r.condition.urlFilter with
      | some filter =>
        if filter ≠ "" ∧ filter.toList.all (·.toNat < 128) then none
        else some (.invalidUrlFilter r.id)
      | none => some (.invalidUrlFilter r.id)

/-- What is wrong with a rule by itself. -/
def fault? (r : Rule) : Option Rejection :=
  if r.id = 0 then some .zeroId
  else if r.condition.resourceTypes.isEmpty then some (.noResourceTypes r.id)
  else r.actionFault? check

end Rule

/-- The installed rules under their identifiers, which ascend. -/
structure RuleTable where
  entries : List (UInt32 × Rule)
  deriving DecidableEq, Repr

namespace RuleTable

def empty : RuleTable := ⟨[]⟩

def get? (t : RuleTable) (id : UInt32) : Option Rule := Sorted.get? id t.entries

/-- Whether there is a rule under an identifier. -/
def contains (t : RuleTable) (id : UInt32) : Bool := Sorted.contains id t.entries

def insert (t : RuleTable) (r : Rule) : RuleTable := ⟨Sorted.insert r.id r t.entries⟩

def erase (t : RuleTable) (id : UInt32) : RuleTable := ⟨Sorted.erase id t.entries⟩

def ids (t : RuleTable) : List UInt32 := Sorted.keys t.entries

/-- The rules, in the order of their identifiers. -/
def rules (t : RuleTable) : List Rule := t.entries.map Prod.snd

def size (t : RuleTable) : Nat := t.entries.length

/-- The table of some rules, which need not be valid; a later rule replaces an earlier one. -/
def ofRules (rs : List Rule) : RuleTable := rs.foldl insert empty

/-- The table without the rules under some identifiers. -/
def eraseAll (t : RuleTable) (ids : List UInt32) : RuleTable := ids.foldl erase t

variable (check : Regex.Check)

/-- The table with one more rule, unless that is at fault. -/
def add (t : RuleTable) (r : Rule) : Except Rejection RuleTable :=
  if t.contains r.id then .error (.duplicateId r.id)
  else
    match r.fault? check with
    | some e => .error e
    | none => .ok (t.insert r)

/-- The table with more rules, unless one of them is at fault. -/
def addAll (t : RuleTable) (rs : List Rule) : Except Rejection RuleTable := rs.foldlM (add check) t

/-- The table after an update, or the reason why it is rejected. -/
def update (t : RuleTable) (u : RuleUpdate) : Except Rejection RuleTable :=
  (t.eraseAll u.remove).addAll check u.add

end RuleTable

/-! ## Calls

The engine lists what is installed, by identifier or in full, and takes an update. An engine in
memory is a table; one with a schedule lets some calls fail, and a call that fails changes nothing.
Both check filters in the same way, whichever that is.
-/

namespace Engine

/-- Why a call fails. -/
inductive Fault where
  | rejected (r : Rejection)
  | files (f : Files.Fault)
  /-- What is installed is stored in another form than it should be. -/
  | format (f : Json.Fault)
  deriving DecidableEq, Repr

def Fault.message : Fault → String
  | rejected r => "Rule update rejected: " ++ r.message
  | files f => "Engine IO error: " ++ f.message
  | format f => "Engine state format error: " ++ f.message

end Engine

/-- What answers the calls. -/
structure Engine (m : Type → Type) where
  ids : m (Except Engine.Fault (List UInt32))
  rules : m (Except Engine.Fault (List Rule))
  update : RuleUpdate → m (Except Engine.Fault Unit)

namespace Engine

/-- An engine with its effects carried over. -/
def lift {m n : Type → Type} (f : {α : Type} → m α → n α) (e : Engine m) : Engine n where
  ids := f e.ids
  rules := f e.rules
  update u := f (e.update u)

def memory (check : Regex.Check) : Engine (StateM RuleTable) where
  ids := fun t ↦ (.ok t.ids, t)
  rules := fun t ↦ (.ok t.rules, t)
  update u := fun t ↦
    match t.update check u with
    | .ok t' => (.ok (), t')
    | .error r => (.error (.rejected r), t)

/-- A table with the outcomes of the next calls: listings and updates fail apart from each other.
Calls after the scheduled ones succeed. -/
structure Scheduled where
  table : RuleTable
  listings : List (Option Fault)
  updates : List (Option Fault)

namespace Scheduled

/-- A table whose calls all succeed. -/
def clear (t : RuleTable) : Scheduled := ⟨t, [], []⟩

/-- Answers a call with a scheduled outcome. -/
def answer {α : Type} (outcome : Option (Option Fault))
    (call : StateM RuleTable (Except Fault α)) : StateM Scheduled (Except Fault α) := fun s ↦
  match outcome with
  | some (some f) => (.error f, s)
  | _ =>
    let (a, t) := call s.table
    (a, { s with table := t })

def listing {α : Type} (call : StateM RuleTable (Except Fault α)) :
    StateM Scheduled (Except Fault α) := fun s ↦
  answer s.listings.head? call { s with listings := s.listings.tail }

end Scheduled

/-- The engine in memory with calls that fail on schedule. -/
def scheduled (check : Regex.Check) : Engine (StateM Scheduled) where
  ids := Scheduled.listing (memory check).ids
  rules := Scheduled.listing (memory check).rules
  update u := fun s ↦
    Scheduled.answer s.updates.head? ((memory check).update u) { s with updates := s.updates.tail }

end Engine

end Redirector

namespace Redirector.Engine

/-! ## Rules in a file

An engine that keeps the installed rules in a file, as a JSON list in the order of their
identifiers. It reads the file for every call, so what others write there counts as installed; the
file is replaced as a whole after an update that is not rejected.
-/

/-- The content of the file for a table. -/
def encode (t : RuleTable) : ByteArray := (Rule.listToJson t.rules).pretty.toUTF8

/-- The table that the content of a file stands for. -/
def decode (content : ByteArray) : Except Fault RuleTable :=
  match (Json.Decoder.list Rule.decoder).ofBytes content with
  | .ok rs => .ok (RuleTable.ofRules rs)
  | .error f => .error (.format f)

section

variable (check : Regex.Check) {m : Type → Type} [Monad m] (files : Files.System m)
  (path : Files.Path)

/-- Reads the table; without a file it is empty. -/
def load : m (Except Fault RuleTable) := do
  match ← files.read path with
  | .ok content => return decode content
  | .error .missing => return .ok .empty
  | .error f => return .error (.files f)

/-- Writes the table. -/
def save (t : RuleTable) : m (Except Fault Unit) := do
  return (← files.replace path (encode t)).mapError .files

/-- The engine with the rules in a file. -/
def file : Engine m where
  ids := do return (← load files path).map RuleTable.ids
  rules := do return (← load files path).map RuleTable.rules
  update u := do
    match ← load files path with
    | .error f => return .error f
    | .ok t =>
      match t.update check u with
      | .error r => return .error (.rejected r)
      | .ok t' => save files path t'

end

end Redirector.Engine
