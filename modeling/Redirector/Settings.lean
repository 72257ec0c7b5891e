import Redirector.Files.Basic
import Redirector.Log.Filter
import Redirector.Text.Basic
import Redirector.Text.Class
import Redirector.Toml.Parser

/-!
# Settings

What the program is told when it starts: where the profiles and the installed rules are kept, which
switches are on at first, who may use the administration interface and what is reported. Every
setting has a default, and a settings file says what differs from it.
-/

namespace Redirector.Settings

/-! ## Socket addresses

An address to listen on is a host with a port: four decimal numbers with dots between them, or up to
eight groups of hexadecimal digits between brackets. One run of groups that are zero may be left out
there, the last two groups may be written as four decimal numbers, and a number behind a percent
sign may tell the interface.
-/

inductive Host where
  | v4 (parts : List Nat)
  | v6 (groups : List Nat) (scope : Nat)
  deriving DecidableEq, Repr

structure Address where
  host : Host
  port : Nat
  deriving DecidableEq, Repr

namespace Address

/-- The value of a digit in a base up to sixteen. -/
def digit? (base : Nat) (c : Char) : Option Nat :=
  let n :=
    if c.isDigit then c.toNat - 48
    else if 'a' ≤ c && c ≤ 'f' then c.toNat - 87
    else if 'A' ≤ c && c ≤ 'F' then c.toNat - 55
    else base
  if n < base then some n else none

/-- The number that digits in a base stand for; there must be some, all digits. -/
def number? (base : Nat) (cs : List Char) : Option Nat :=
  if cs.isEmpty then none else cs.foldlM (fun n c ↦ (digit? base c).map (base * n + ·)) 0

/-- A decimal number below a limit; leading zeros do not matter. -/
def decimal? (limit : Nat) (cs : List Char) : Option Nat :=
  (number? 10 cs).bind fun n ↦ if n < limit then some n else none

/-- One of four decimal numbers: up to three digits, without a leading zero. -/
def octet? (cs : List Char) : Option Nat :=
  if 3 < cs.length ∨ (cs.head? = some '0' ∧ 1 < cs.length) then none else decimal? 256 cs

/-- Four decimal numbers with dots between them. -/
def octets? (cs : List Char) : Option (List Nat) := do
  let parts ← (Text.split '.' cs).mapM octet?
  if parts.length = 4 then some parts else none

/-- A group: up to four hexadecimal digits. -/
def group? (cs : List Char) : Option Nat := if 4 < cs.length then none else number? 16 cs

/-- Groups with colons between them, perhaps none. Only where it is allowed, four decimal numbers
may stand for the last two. -/
def groups? (allowsOctets : Bool) (cs : List Char) : Option (List Nat) :=
  if cs.isEmpty then some []
  else
    let parts := Text.split ':' cs
    match parts.getLast?.bind octets?, allowsOctets with
    | some [a, b, c, d], true => do
      return (← parts.dropLast.mapM group?) ++ [256 * a + b, 256 * c + d]
    | _, _ => parts.mapM group?

/-- What stands before and after the first double colon. -/
def splitGap : List Char → Option (List Char × List Char)
  | ':' :: ':' :: rest => some ([], rest)
  | c :: rest => (splitGap rest).map fun (a, b) ↦ (c :: a, b)
  | [] => none

/-- The eight groups of a host between brackets. -/
def v6Groups? (cs : List Char) : Option (List Nat) :=
  match splitGap cs with
  | none => do
    let gs ← groups? true cs
    if gs.length = 8 then some gs else none
  | some (front, back) => do
    let before ← groups? false front
    let after ← groups? true back
    if before.length + after.length < 8 then
      some (before ++ List.replicate (8 - before.length - after.length) 0 ++ after)
    else none

/-- What stands before the last occurrence of a character, and after it. -/
def splitLast (separator : Char) (cs : List Char) : Option (List Char × List Char) :=
  match cs.reverse.span (· ≠ separator) with
  | (back, _ :: front) => some (front.reverse, back.reverse)
  | (_, []) => none

/-- A host between brackets, with the interface if it is told. -/
def v6? (cs : List Char) : Option Host :=
  match cs.span (· ≠ '%') with
  | (cs, []) => (v6Groups? cs).map (.v6 · 0)
  | (cs, _ :: scope) => do return .v6 (← v6Groups? cs) (← decimal? UInt32.size scope)

/-- The host that is written as a text. -/
def host? : List Char → Option Host
  | '[' :: rest =>
    match rest.getLast? with
    | some ']' => v6? rest.dropLast
    | _ => none
  | cs => (octets? cs).map .v4

/-- The address that is written as a text. -/
def parse? (s : String) : Option Address := do
  let (h, p) ← splitLast ':' s.toList
  return ⟨← host? h, ← decimal? UInt16.size p⟩

/-- Whether an address of four numbers is one that every machine has: that of the machine itself, or
the one that stands for all of its addresses. -/
def isLocalV4 (a b c d : Nat) : Bool := a = 127 || (a = 0 && b = 0 && c = 0 && d = 0)

/-- Whether the host is one that every machine has. -/
def isLocal (a : Address) : Bool :=
  match a.host with
  | .v4 [a, b, c, d] => isLocalV4 a b c d
  | .v6 [0, 0, 0, 0, 0, 0, 0, n] _ => n ≤ 1
  | .v6 [0, 0, 0, 0, 0, 65535, m, n] _ => isLocalV4 (m / 256) (m % 256) (n / 256) (n % 256)
  | _ => false

end Address

end Redirector.Settings

namespace Redirector

/-! ## Sections

Settings are checked as a whole before anything is started (`violations`). All that is wrong with
them is reported, in the order of the sections; addresses that are not used are not checked.
-/

namespace Settings

/-- Where the profiles are kept. -/
structure StorageSection where
  path : String := "forward-rules/profiles.json"
  deriving DecidableEq, Repr

/-- Where the installed rules are kept. -/
structure EngineSection where
  rulesPath : String := "forward-rules/installed-rules.json"
  deriving DecidableEq, Repr

/-- Which switches are on when there are none yet, and whether rules follow changes of the profiles
that others make. -/
structure ApplySection where
  enabled : Bool := true
  headersEnabled : Bool := true
  watchesStore : Bool := true
  deriving DecidableEq, Repr

/-- Where the administration interface listens, and the key that it asks for. -/
structure AdminSection where
  enabled : Bool := true
  key : String := "CHANGE_ME_IN_PRODUCTION"
  address : String := "127.0.0.1:8181"
  deriving DecidableEq, Repr

/-- Which messages are written and how, and where the metrics can be read. -/
structure ObservabilitySection where
  logFilter : String := "info"
  writesJson : Bool := false
  metricsEnabled : Bool := false
  metricsAddress : String := "127.0.0.1:9091"
  deriving DecidableEq, Repr

end Settings

structure Settings where
  storage : Settings.StorageSection := {}
  engine : Settings.EngineSection := {}
  apply : Settings.ApplySection := {}
  admin : Settings.AdminSection := {}
  observability : Settings.ObservabilitySection := {}
  deriving DecidableEq, Repr

namespace Settings

/-! ### Checks -/

/-- What can be wrong with settings. -/
inductive Violation where
  | empty (field : String)
  | badAddress (field value : String)
  /-- Profiles and rules would be kept in one file. -/
  | sharedPath
  | badFilter (value : String)
  deriving DecidableEq, Repr

def Violation.message : Violation → String
  | empty field => field ++ " must not be empty"
  | badAddress field value => field ++ " is not a valid socket address: " ++ value
  | sharedPath => "storage.path and engine.rules_path must differ"
  | badFilter value => "observability.log_level is not a valid filter: " ++ value

/-- The violation, if it is one. -/
def violationIf (isViolated : Bool) (v : Violation) : List Violation :=
  if isViolated then [v] else []

/-- Whether a text is blank throughout. -/
def isBlankText (s : String) : Bool := (Text.trim s.toList).isEmpty

/-- All that is wrong with the settings. -/
def violations (check : Regex.Check) (s : Settings) : List Violation :=
  violationIf (isBlankText s.storage.path) (.empty "storage.path") ++
  violationIf (isBlankText s.engine.rulesPath) (.empty "engine.rules_path") ++
  violationIf (s.storage.path = s.engine.rulesPath) .sharedPath ++
  (if s.admin.enabled then
    violationIf s.admin.key.isEmpty (.empty "admin.api_key") ++
    violationIf (Address.parse? s.admin.address).isNone
      (.badAddress "admin.bind_address" s.admin.address)
  else []) ++
  (if s.observability.metricsEnabled then
    violationIf (Address.parse? s.observability.metricsAddress).isNone
      (.badAddress "observability.metrics_address" s.observability.metricsAddress)
  else []) ++
  violationIf (Log.Filter.parse? check s.observability.logFilter).isNone
    (.badFilter s.observability.logFilter)

end Settings

end Redirector

namespace Redirector.Settings

/-! ## Settings in a file

A settings file has a table for each section. What it leaves out takes the default, and what is no
setting is skipped. A section may also be a list of its values in order.
-/

inductive Fault where
  | files (f : Files.Fault)
  /-- The text is no TOML, or a setting has a value of the wrong kind. -/
  | format
  | invalid (vs : List Violation)
  deriving DecidableEq, Repr

def Fault.message : Fault → String
  | files f => "IO error: " ++ f.message
  | format => "Parse error: not the TOML of settings"
  | invalid vs => "Validation failed: " ++ ", ".intercalate (vs.map Violation.message)

open Toml (Item Members)

/-- The members of a section whose values in a list have some names. A date counts as a table
without any settings. -/
def sectionMembers? (names : List String) : Item → Option Members
  | .table _ ms => some ms
  | .array items => some (names.zip items)
  | .tables last earlier =>
    some (names.zip ((last :: earlier).reverse.map (.table .header)))
  | .date => some []
  | .string _ | .boolean _ | .number => none

/-- Reads a section with the names of its settings. -/
def readSection {α : Type} (name : String) (names : List String) (default : α)
    (read : Members → Option α) (ms : Members) : Option α :=
  match ms.get? name with
  | none => some default
  | some item => (sectionMembers? names item).bind read

def readText (name default : String) (ms : Members) : Option String :=
  match ms.get? name with
  | none => some default
  | some (.string s) => some s
  | some _ => none

/-- Reads a setting that is on or off. -/
def readSwitch (name : String) (default : Bool) (ms : Members) : Option Bool :=
  match ms.get? name with
  | none => some default
  | some (.boolean b) => some b
  | some _ => none

/-- The settings in a document, if each has a value of the right kind. -/
def ofMembers? (ms : Members) : Option Settings := do
  let d : Settings := {}
  let storage ← readSection "storage" ["path"] d.storage (fun ms ↦ do
    return ⟨← readText "path" d.storage.path ms⟩) ms
  let engine ← readSection "engine" ["rules_path"] d.engine (fun ms ↦ do
    return ⟨← readText "rules_path" d.engine.rulesPath ms⟩) ms
  let apply ← readSection "apply" ["enabled", "cors_enabled", "watch_store"] d.apply (fun ms ↦ do
    return ⟨← readSwitch "enabled" d.apply.enabled ms,
      ← readSwitch "cors_enabled" d.apply.headersEnabled ms,
      ← readSwitch "watch_store" d.apply.watchesStore ms⟩) ms
  let admin ← readSection "admin" ["enabled", "api_key", "bind_address"] d.admin (fun ms ↦ do
    return ⟨← readSwitch "enabled" d.admin.enabled ms,
      ← readText "api_key" d.admin.key ms,
      ← readText "bind_address" d.admin.address ms⟩) ms
  let observability ← readSection "observability"
    ["log_level", "json_logs", "metrics_enabled", "metrics_address"] d.observability (fun ms ↦ do
      return ⟨← readText "log_level" d.observability.logFilter ms,
        ← readSwitch "json_logs" d.observability.writesJson ms,
        ← readSwitch "metrics_enabled" d.observability.metricsEnabled ms,
        ← readText "metrics_address" d.observability.metricsAddress ms⟩) ms
  return ⟨storage, engine, apply, admin, observability⟩

/-- The settings that a text stands for, if nothing is wrong with them. -/
def parse (check : Regex.Check) (text : String) : Except Fault Settings :=
  match (Toml.parse? text).bind ofMembers? with
  | none => .error .format
  | some s =>
    match s.violations check with
    | [] => .ok s
    | vs => .error (.invalid vs)

def load {m : Type → Type} [Monad m] (check : Regex.Check) (files : Files.System m)
    (path : Files.Path) :
    m (Except Fault Settings) := do
  match ← files.read path with
  | .error f => return .error (.files f)
  | .ok content =>
    match String.fromUTF8? content with
    | none => return .error (.files .notText)
    | some text => return parse check text

end Redirector.Settings
