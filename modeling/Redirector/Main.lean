import Redirector.CommandLine
import Redirector.Daemon.Basic
import Redirector.Regex.Automaton
import Std.Async.Signal
import Std.Http.Server
import Std.Sync.Mutex

/-!
# The program

The daemon on a real machine: files, clock, log, sockets and signals. All of it is handed to the
daemon as a `Host`; what happens from outside is handed to it as events. One lock guards the running
daemon, so that requests, changes of the store file and applies take turns.
-/

namespace Redirector.Machine

open Std.Async Std.Http

/-! ## Files -/

/-- The fault that an error of the operating system stands for. -/
def faultOf : IO.Error → Files.Fault
  | .noFileOrDirectory .. => .missing
  | .alreadyExists .. => .taken
  | .inappropriateType _ code _ =>
    if code = 20 then .notDirectory
    else if code = 21 then .isDirectory
    else .other "Inappropriate type"
  | e => .other (toString e)

/-- Carries out an operation on files. -/
def attempt {α : Type} (x : IO α) : IO (Except Files.Fault α) := do
  try
    return .ok (← x)
  catch e => return .error (faultOf e)

def files : Files.System IO where
  isThere p := do
    match ← attempt (IO.FS.Handle.mk p.toString .read) with
    | .ok _ => return true
    | .error f => return f ≠ .missing && f ≠ .notDirectory
  read p := attempt (IO.FS.readBinFile p.toString)
  createDirectory p := attempt (IO.FS.createDirAll p.toString)
  write p content := attempt (IO.FS.writeBinFile p.toString content)
  rename source target := attempt (IO.FS.rename source.toString target.toString)

/-! ## Clock and log -/

/-- The milliseconds since 1970. -/
def clock : IO Nat := do
  return (← Std.Time.Timestamp.now).toMillisecondsSinceUnixEpoch.val.toNat

def log (w : Log.Writer) (m : Log.Message) : IO Unit := do
  let now := Std.Time.DateTime.ofTimestampWithZone (← Std.Time.Timestamp.now) .UTC
  match w.line? now.toISO8601String m with
  | some line =>
    IO.println line
    (← IO.getStdout).flush
  | none => return

/-! ## The running daemon -/

/-- What the parts of the program share. -/
structure Shared where
  settings : Settings
  writer : Log.Writer
  /-- The daemon, once it has started. -/
  running : Std.Mutex (Option Daemon.Running)
  servers : IO.Ref (List Server)

namespace Shared

variable (c : Shared)

/-- The machine without anything to listen with. -/
def silentHost : Daemon.Host IO :=
  ⟨Regex.check, files, fun _ _ ↦ return .error "Unsupported", log c.writer⟩

/-- Serves what is asked for until nothing is. -/
partial def serveAll (r : Daemon.Running) : IO Daemon.Running := do
  if r.session.queue.isEmpty then return r
  else serveAll (← Daemon.serve c.silentHost c.settings r)

/-- Lets the daemon do something and serves what is asked for then. -/
def turn {α : Type} (step : Daemon.Running → IO (α × Daemon.Running)) : IO (Option α) :=
  c.running.atomically do
    match ← get with
    | none => return none
    | some r =>
      let (a, r) ← step r
      set (some (← c.serveAll r))
      return some a

/-! ## Listening -/

/-- The address as the system takes it. -/
def socketAddress (a : Settings.Address) : Std.Net.SocketAddress :=
  let port := UInt16.ofNat a.port
  let part (ns : List Nat) (i : Nat) : Nat := ns[i]?.getD 0
  match a.host with
  | .v4 ns =>
    let b (i : Nat) := UInt8.ofNat (part ns i)
    .v4 ⟨.ofParts (b 0) (b 1) (b 2) (b 3), port⟩
  | .v6 ns _ =>
    let g (i : Nat) := UInt16.ofNat (part ns i)
    .v6 ⟨.ofParts (g 0) (g 1) (g 2) (g 3) (g 4) (g 5) (g 6) (g 7), port⟩

/-- A response with a status, headers and content. -/
def response (status : Nat) (headers : List (String × String)) (content : String) :
    Async (Response Body.Any) := do
  let code := (Status.ofCode none (UInt16.ofNat status)).getD .internalServerError
  let builder := headers.foldl (fun b (k, v) ↦ (b.header? k v).getD b) (Response.withStatus code)
  return { ← builder.fromBytes content.toUTF8 with body := .ofBody (← Body.Full.ofString content) }

/-- Answers a request to the administration interface. -/
def answer (request : Request Body.Stream) : ContextAsync (Response Body.Any) := do
  let body : ByteArray ← request.body.readAll
  let head := request.line
  let q : Admin.Request :=
    ⟨toString head.method, toString head.uri,
      head.headers.toList.map fun (k, v) ↦ (toString k, toString v), body⟩
  let now ← clock
  match ← c.turn (Daemon.respond c.silentHost c.settings now q) with
  | none => response 503 [] ""
  | some reply =>
    let type := reply.content.mediaType?.toList.map fun t ↦ ("content-type", t)
    let allow := reply.allow.toList.map fun a ↦ ("allow", a)
    response reply.status (type ++ allow) reply.body

/-- Answers a request for the metrics. -/
def answerMetrics (_ : Request Body.Stream) : ContextAsync (Response Body.Any) := do
  let metrics ← c.turn fun r ↦ return (r.session.record.metrics, r)
  response 200 [("content-type", "text/plain; version=0.0.4")]
    ((metrics.map Metrics.exposition).getD "")

def listen (e : Daemon.Endpoint) (a : Settings.Address) : IO (Except String Unit) := do
  let handler := Server.Handler.ofFn (match e with
    | .admin => c.answer
    | .metrics => c.answerMetrics)
  try
    let server ← (Server.serve (socketAddress a) handler).block
    c.servers.modify (server :: ·)
    return .ok ()
  catch e => return .error (toString e)

def host : Daemon.Host IO := { c.silentHost with listen := c.listen }

/-! ## Watching -/

/-- How the content of a file has changed, if it has. -/
def change? : (before after : Option ByteArray) → Option Watcher.Change
  | none, some _ => some .created
  | some _, none => some .removed
  | none, none => none
  | some before, some after => if before.data = after.data then none else some .modified

/-- Looks at the store file again and again until the task is cancelled. -/
partial def watch (path : Files.Path) (before : Option ByteArray) : IO Unit := do
  IO.sleep 250
  if ← IO.checkCanceled then return
  let after := (← files.read path).toOption
  match change? before after with
  | none => pure ()
  | some change =>
    let event : Watcher.Event := ⟨change, [path]⟩
    let _ ← c.turn fun r ↦ do return ((), ← Daemon.notice c.silentHost c.settings event r)
  watch path after

/-! ## From start to end -/

/-- Waits for a signal to stop. -/
def awaitSignal : Async Unit := do
  let interrupt ← Signal.Waiter.mk .sigint false
  let terminate ← Signal.Waiter.mk .sigterm false
  Selectable.one #[
    .case interrupt.selector fun () ↦ return,
    .case terminate.selector fun () ↦ return]

/-- Runs the daemon from its start to a signal. -/
def run : IO (Except Daemon.Fault Unit) := do
  let path := Daemon.storePath c.settings
  match ← Daemon.start c.host c.settings with
  | .error f => return .error f
  | .ok r =>
    let before := (← files.read path).toOption
    c.running.atomically (set (some r))
    let watcher ← IO.asTask (c.watch path before) .dedicated
    let _ ← c.turn fun r ↦ return ((), r)
    awaitSignal.block
    IO.cancel watcher
    for server in ← c.servers.get do
      server.shutdownAndWait.block
    let _ ← c.turn fun r ↦ do
      Daemon.stop c.silentHost c.settings r
      return ((), r)
    return .ok ()

end Shared

/-- Runs the daemon with the settings in a file, or the defaults. -/
def runWith (settings : Option String) : IO (Except Daemon.Fault Unit) := do
  match ← Daemon.settingsOf Regex.check files settings with
  | .error f => return .error f
  | .ok s =>
    let writer := Log.Writer.of Regex.check (← IO.getEnv "RUST_LOG") s.observability
    let shared : Shared := ⟨s, writer, ← Std.Mutex.new none, ← IO.mkRef []⟩
    shared.run

end Redirector.Machine

open Redirector in
def main (arguments : List String) : IO UInt32 := do
  match CommandLine.parse arguments with
  | .error f =>
    IO.eprintln (f.message ++ "\n\n" ++ CommandLine.usage)
    return CommandLine.Fault.exitStatus.toUInt32
  | .ok .help =>
    IO.print CommandLine.helpText
    return 0
  | .ok (.run settings) =>
    match ← Machine.runWith settings with
    | .ok () => return 0
    | .error f =>
      IO.eprintln ("Error: " ++ f.message)
      return Daemon.Fault.exitStatus.toUInt32
