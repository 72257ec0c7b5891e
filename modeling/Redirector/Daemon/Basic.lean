import Redirector.Admin.Api
import Redirector.Apply
import Redirector.Engine
import Redirector.Json.Basic
import Redirector.Settings
import Redirector.Store

/-!
# The daemon

The daemon keeps the installed rules in step with the profile store. It starts in a fixed order, and
what fails on the way ends it: the settings, the store, the switches, the interfaces. From then on
it reacts to what happens: a change of the store file, a request to the administration interface, an
apply that was asked for. What it does it reports.

The machine it runs on is given by a `Host`, so that the same steps run on a directory tree held in
memory and on a real machine.
-/

namespace Redirector.Watcher

/-! ## Watching the store file

Others may change the store file while the service runs. The directory of the file is watched rather
than the file, because the file is replaced by renaming; so the events are those of every file
there, and only those that create or modify a file of the same name matter. The entries are then
read again, and an apply is asked for if that went well; if it did not, the entries stay as they
were.
-/

/-- What happened to some files. -/
inductive Change where
  | created
  | modified
  | removed
  | other
  deriving DecidableEq, Repr

/-- Something that happened in the watched directory. -/
structure Event where
  change : Change
  paths : List Files.Path

/-- Whether two paths are equal or at least lead to files of the same name. -/
def sameFile (p q : Files.Path) : Bool :=
  p = q || (p.fileName?.isSome && p.fileName? = q.fileName?)

/-- Whether the file at a path has new content after an event. -/
def Event.concerns (e : Event) (path : Files.Path) : Bool :=
  (e.change = .created || e.change = .modified) && e.paths.any (sameFile · path)

/-- Whether what happens to a file is noticed by who watches the directory of another one. -/
def sees (watched p : Files.Path) : Bool := p.parent = watched.parent

/-- What comes of an event: nothing if it does not matter, and otherwise a trigger to send or the
fault of reading the file again. -/
abbrev Reaction := Option (Except Store.Fault Apply.Trigger)

/-- The triggers that are sent. -/
def Reaction.sent : Reaction → List Apply.Trigger
  | some (.ok trigger) => [trigger]
  | some (.error _) => []
  | none => []

/-- Reacts to an event: if it matters, the entries are read again, and there is a trigger to send if
that went well. -/
def react {m : Type → Type} [Monad m] (files : Files.System m) (path : Files.Path) (e : Event) :
    StateT Store.Entries m Reaction := do
  if e.concerns path then
    return some ((← Store.reload files path).map fun () ↦ .storeChanged)
  else return none

end Redirector.Watcher

namespace Redirector.Log

/-! ## Log messages

A message comes from a part of the program and has a level, a text and fields with more about it.
The log filter in force says which messages are written: the one that the environment gives, if it
can be read, and the one in the settings otherwise. Each message is written on a line of its own.
-/

structure Message where
  level : Level
  /-- The part of the program that it comes from. -/
  target : String
  text : String
  fields : List (String × String)
  deriving Repr

def Level.label : Level → String
  | off => "OFF"
  | error => "ERROR"
  | warn => "WARN"
  | info => "INFO"
  | debug => "DEBUG"
  | trace => "TRACE"

namespace Message

/-- The names of the fields; the text is one of them. -/
def fieldNames (m : Message) : List String := "message" :: m.fields.map Prod.fst

/-- The message as a line of text. -/
def plain (time : String) (m : Message) : String :=
  let fields := m.fields.map fun (name, value) ↦ " " ++ name ++ "=" ++ value
  time ++ " " ++ m.level.label ++ " " ++ m.target ++ ": " ++ m.text ++ String.join fields

def toJson (time : String) (m : Message) : Json :=
  .object [
    ("timestamp", .string time),
    ("level", .string m.level.label),
    ("fields", .object (("message", .string m.text) ::
      m.fields.map fun (name, value) ↦ (name, .string value))),
    ("target", .string m.target)]

end Message

/-- How messages are written. -/
structure Writer where
  filter : Filter
  asJson : Bool

namespace Writer

/-- The writer for some settings, with the filter that the environment gives, if any. -/
def of (check : Regex.Check) (override : Option String) (s : Settings.ObservabilitySection) :
    Writer where
  filter := ((override.bind (Filter.parse? check)).orElse fun () ↦
    Filter.parse? check s.logFilter).getD []
  asJson := s.writesJson

/-- The line for a message, if it is written. -/
def line? (w : Writer) (time : String) (m : Message) : Option String :=
  if w.filter.isEnabled m.target m.fieldNames m.level then
    some (if w.asJson then (m.toJson time).compact else m.plain time)
  else none

end Writer

end Redirector.Log

namespace Redirector.Daemon.Report

/-! ## What the daemon reports

The messages of the daemon, by the part of the program that they come from. What is said about an
apply follows from the entries of the store before it, from whether the engine could list its rules,
and from how the apply ended.
-/

open Log (Level Message)

/-- A message from a part of the program; the empty name is that of the program itself. -/
def message (level : Level) (part text : String) (fields : List (String × String)) : Message :=
  ⟨level, if part = "" then "forward_rules" else "forward_rules::" ++ part, text, fields⟩

/-! ### Starting -/

def starting (version : String) : Message :=
  message .info "" ("forward-rules v" ++ version ++ " starting") []

def configured (s : Settings) : Message :=
  message .info "" "Configuration loaded" [
    ("storage", s.storage.path), ("rules", s.engine.rulesPath),
    ("admin_enabled", toString s.admin.enabled)]

/-- The metrics can be read at an address, or cannot for some reason. -/
def metricsOpened (address : String) : Except String Unit → Message
  | .ok () => message .info "observability::metrics" "Metrics endpoint started" [
      ("address", address)]
  | .error reason => message .error "observability::metrics" "Failed to install metrics exporter" [
      ("error", reason)]

def storeOpened (path : String) (keys : Nat) : Message :=
  message .info "store::file" "Opened profile storage" [("path", path), ("keys", toString keys)]

def watching (path : String) : Message :=
  message .info "store::watcher" "Storage watcher started" [("path", path)]

def listening (address : String) : Message :=
  message .info "" "Admin API listening" [("address", address)]

/-! ### Changes of the store file -/

def changed (path : String) : Message :=
  message .debug "store::watcher" "Storage file change detected, reloading..." [("path", path)]

def reloadFailed (f : Store.Fault) : Message :=
  message .error "store::watcher"
    ("Failed to reload storage: " ++ f.message ++ ". Keeping current profiles.") []

/-- What there is to say about an event in the directory of the store file. -/
def noticed (path : String) : Watcher.Reaction → List Message
  | none => []
  | some (.ok _) => [changed path]
  | some (.error f) => [changed path, reloadFailed f]

/-! ### Applies -/

def applying (trigger : Apply.Trigger) (coalesced : Nat) : Message :=
  message .debug "apply::worker" "Applying profiles" [
    ("trigger", trigger.name), ("coalesced", toString coalesced)]

/-- What is out of order with a profile list: identifiers that occur again, no default profile. -/
def irregularities (ps : List Profile) : List Message :=
  let again := (ps.zipIdx.filter fun (p, i) ↦ Profile.listed p.id (ps.take i)).map Prod.fst
  (again.map fun p ↦
    message .warn "store::profiles" "Dropping duplicate profile id" [("id", p.id)]) ++
  if ps.isEmpty || ps.any Profile.isDefault then []
  else [message .warn "store::profiles" "Default profile missing, restoring it" []]

/-- The documents that cannot be read. -/
def unreadable (documents : List (Profile × String)) : List Message :=
  documents.filterMap fun (p, text) ↦
    match Document.parse text with
    | .ok _ => none
    | .error f => some (message .warn "apply::pipeline" "Skipping profile with invalid document" [
        ("id", p.id), ("name", p.name), ("error", Document.faultMessage f)])

def skipped : SkipReason → Message
  | .idRangeExhausted =>
    message .warn "rules::compiler" "Redirect id range exhausted, entry dropped" [("index", "")]
  | reason =>
    message .debug "rules::compiler" "Skipping rule entry" [
      ("index", ""), ("reason", reason.label)]

/-- What the store asks for, and what is out of order with that: nothing is said if it cannot be
read, since the apply then fails. -/
def wanted (es : Store.Entries) : List Message :=
  let read {α : Type} (p : Store.Program α) : Except Store.Fault α := (p.run Store.memory es).1
  match read Apply.wanted with
  | .error _ => []
  | .ok none => [message .info "apply::pipeline" "Forwarding disabled, clearing installed rules" []]
  | .ok (some w) =>
    let stored := match Sorted.get? Profiles.listKey es with
      | some j => (Profile.listDecoder.ofValue j).toOption.getD []
      | none => []
    irregularities stored ++ unreadable ((read Profiles.activeDocuments).toOption.getD []) ++
      w.skips.map skipped

def listingFailed (f : Engine.Fault) : Message :=
  message .warn "apply::pipeline" "Failed to query installed rules, assuming none" [
    ("error", f.message)]

def outcome : Except Apply.Fault Apply.Report → List Message
  | .ok r => [message .info "apply::pipeline" "Updated dynamic rules" [
      ("removed", toString r.removed), ("redirect_rules", toString r.redirectRules),
      ("header_rules", toString r.headerRules)]]
  | .error f =>
    let failed := message .error "apply::worker" "Apply failed" [("error", f.message)]
    match f with
    | .replace (.remove f) => [
        message .error "apply::pipeline" "Failed to remove installed rules" [("error", f.message)],
        failed]
    | .replace (.install f restored) =>
      [message .error "apply::pipeline" "Failed to install rules" [("error", f.message)]] ++
      (if restored then
        [message .warn "apply::pipeline" "Restored previously installed rules" []]
      else []) ++ [failed]
    | .store _ => [failed]

/-! ### Stopping -/

def signalReceived : Message := message .info "lifecycle::signals" "Shutdown signal received" []

/-- What stops, one after the other. -/
def stopping (runs : Nat) (s : Settings) : List Message :=
  [message .info "apply::worker" "Apply worker shutting down" []] ++
  (if s.admin.enabled then [message .info "" "Admin API stopped" []] else []) ++ [
    message .info "" "Apply worker stopped" [("runs", toString runs)],
    message .info "" "Shutdown complete" []]

end Redirector.Daemon.Report

namespace Redirector

/-! ## The machine and the daemon -/

namespace Daemon

/-- What the daemon listens for. -/
inductive Endpoint where
  | metrics
  | admin
  deriving DecidableEq, Repr

/-- The machine that the daemon runs on. -/
structure Host (m : Type → Type) where
  /-- The library for regular expressions. -/
  check : Regex.Check
  files : Files.System m
  /-- Begins to listen at an address, or says why that cannot be done. -/
  listen : Endpoint → Settings.Address → m (Except String Unit)
  log : Log.Message → m Unit

/-- Why the daemon does not start. -/
inductive Fault where
  | settings (f : Settings.Fault)
  | store (f : Store.Fault)
  | listen (reason : String)
  deriving DecidableEq, Repr

def Fault.message : Fault → String
  | settings f => f.message
  | store f => f.message
  | listen reason => reason

/-- The status with which the program ends if the daemon does not start. -/
def Fault.exitStatus : UInt8 := 1

/-- A daemon that runs: its store and what it remembers and is asked for. -/
structure Running where
  entries : Store.Entries
  session : Admin.Session
  /-- How many applies there have been. -/
  runs : Nat

section

variable {m : Type → Type} [Monad m]

/-- The settings in a file, or the defaults. -/
def settingsOf (check : Regex.Check) (files : Files.System m) :
    Option String → m (Except Fault Settings)
  | none => return .ok {}
  | some path => do
    return (← Settings.load check files (Files.Path.ofString path)).mapError .settings

variable (h : Host m) (s : Settings)

def storePath (s : Settings) : Files.Path := Files.Path.ofString s.storage.path

/-- The path of the file with the installed rules. -/
def rulesPath (s : Settings) : Files.Path := Files.Path.ofString s.engine.rulesPath

/-- The backend of the profile store. -/
def backend : Store.Backend (StateT Store.Entries m) := Store.file h.files (storePath s)

def engine : Engine (StateT Store.Entries m) :=
  (Engine.file h.check h.files (rulesPath s)).lift StateT.lift

def service : Admin.Service (StateT Store.Entries m) := ⟨backend h s, engine h s, s.admin.key⟩

/-! ## Starting -/

/-- Opens the endpoint for metrics, if there is to be one. The daemon starts without it if that
fails. -/
def openMetrics : m Unit := do
  let address := s.observability.metricsAddress
  match Settings.Address.parse? address with
  | some a =>
    if s.observability.metricsEnabled then
      h.log (Report.metricsOpened address (← h.listen .metrics a))
  | none => return

/-- Opens the administration interface, if there is to be one. -/
def openAdmin : m (Except Fault Unit) := do
  if s.admin.enabled then
    let opened ← match Settings.Address.parse? s.admin.address with
      | some a => h.listen .admin a
      | none => pure (.error "invalid socket address")
    match opened with
    | .ok () =>
      h.log (Report.listening s.admin.address)
      return .ok ()
    | .error reason => return .error (.listen reason)
  else return .ok ()

/-- Opens the store and sets the switches that it does not have yet. -/
def openStore : m (Except Fault Store.Entries) := do
  match ← Store.load h.files (storePath s) with
  | .error f => return .error (.store f)
  | .ok es =>
    h.log (Report.storeOpened s.storage.path es.length)
    let switches := Profiles.initSwitches s.apply.enabled s.apply.headersEnabled
    match ← (switches.run (backend h s)).run es with
    | (.error f, _) => return .error (.store f)
    | (.ok (), es) => return .ok es

/-- Starts the daemon. The first apply is asked for and has not run yet. -/
def start : m (Except Fault Running) := do
  h.log (Report.starting Admin.version)
  h.log (Report.configured s)
  openMetrics h s
  match ← openStore h s with
  | .error f => return .error f
  | .ok es =>
    if s.apply.watchesStore then h.log (Report.watching s.storage.path)
    match ← openAdmin h s with
    | .error f => return .error f
    | .ok () => return .ok ⟨es, ⟨.initial, [.startup]⟩, 0⟩

/-! ## Running -/

/-- Reports what there is to say about an apply before it has run. -/
def announce (trigger : Apply.Trigger) (r : Running) : m Unit := do
  h.log (Report.applying trigger (r.session.queue.length - 1))
  (Report.wanted r.entries).forM h.log
  match ← (Engine.file h.check h.files (rulesPath s)).rules with
  | .ok _ => return
  | .error f => h.log (Report.listingFailed f)

/-- Serves what is asked for with one apply, if anything is. -/
def serve (r : Running) : m Running := do
  match r.session.queue.drain with
  | (none, _) => return r
  | (some trigger, queue) =>
    announce h s trigger r
    let ((outcome, record), es) ←
      Apply.store (engine h s) (backend h s) r.session.record r.entries
    (Report.outcome outcome).forM h.log
    return ⟨es, ⟨record, queue⟩, r.runs + 1⟩

/-- Reacts to an event in the directory of the store file, if that is watched. -/
def notice (e : Watcher.Event) (r : Running) : m Running := do
  if s.apply.watchesStore then
    let (reaction, es) ← (Watcher.react h.files (storePath s) e).run r.entries
    (Report.noticed s.storage.path reaction).forM h.log
    let queue := r.session.queue ++ reaction.sent
    return { r with entries := es, session := { r.session with queue } }
  else return r

def respond (clock : Nat) (q : Admin.Request) (r : Running) : m (Admin.Reply × Running) := do
  let ((reply, session), es) ← (service h s).respond clock q r.session r.entries
  return (reply, { r with entries := es, session })

/-- Reports that the daemon stops after a signal. -/
def stop (r : Running) : m Unit := do
  h.log Report.signalReceived
  (Report.stopping r.runs s).forM h.log

end

end Daemon

end Redirector
