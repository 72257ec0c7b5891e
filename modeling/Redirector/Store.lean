import Redirector.Files.Basic
import Redirector.Json.Basic
import Redirector.Json.Fault
import Redirector.Json.Value
import Redirector.Sorted

/-!
# The key-value store

The store keeps JSON values under keys, in memory or in a file. An operation on it is a program:
the calls that it makes, each with what follows from the answer.
-/

namespace Redirector.Store

/-! ## What can be wrong with the profile store

An operation on the store is refused because of its argument, or fails because the entries cannot be
reached, written or made sense of.
-/

/-- Why an operation on the store fails. -/
inductive Fault where
  /-- The name of a profile is blank. -/
  | emptyName
  | files (f : Files.Fault)
  /-- A stored value has another form than it should have. -/
  | format (f : Json.Fault)
  /-- An earlier operation was broken off while it held the entries. -/
  | poisoned
  deriving DecidableEq, Repr

def Fault.message : Fault → String
  | emptyName => "Profile name must not be empty"
  | files f => "Storage IO error: " ++ f.message
  | format f => "Storage format error: " ++ f.message
  | poisoned => "Storage lock poisoned"

/-! ## Operations

The program of an operation does not say where the entries are kept; a backend answers the calls,
and `Program.run` carries a program out on it.

Keeping the calls as data means that one statement about programs covers every operation: how the
answers of two backends compare, what happens if a call fails, or if the entries change between two
calls.
-/

/-- An operation on a key-value store. A call that fails ends it. -/
inductive Program (α : Type) where
  | done (a : α)
  | fail (f : Fault)
  /-- Asks for the value under a key. -/
  | get (key : String) (next : Option Json → Program α)
  | set (key : String) (value : Json) (next : Program α)
  | remove (key : String) (next : Program α)
  /-- Asks for all keys, in any order. -/
  | keys (next : List String → Program α)

namespace Program

variable {α β : Type}

def bind : Program α → (α → Program β) → Program β
  | done a, f => f a
  | fail e, _ => fail e
  | get key next, f => get key fun v ↦ (next v).bind f
  | set key value next, f => set key value (next.bind f)
  | remove key next, f => remove key (next.bind f)
  | keys next, f => keys fun ks ↦ (next ks).bind f

instance : Monad Program where
  pure := done
  bind := bind

def valueOf (key : String) : Program (Option Json) := get key done

def put (key : String) (value : Json) : Program Unit := set key value (done ())

def erase (key : String) : Program Unit := remove key (done ())

def allKeys : Program (List String) := keys done

/-- The value that a stored value stands for. -/
def decode (d : Json.Decoder α) (j : Json) : Program α :=
  match d.ofValue j with
  | .ok a => done a
  | .error f => fail (.format f)

end Program

/-- What answers the calls of a program. -/
structure Backend (m : Type → Type) where
  get : String → m (Except Fault (Option Json))
  set : String → Json → m (Except Fault Unit)
  remove : String → m (Except Fault Unit)
  keys : m (Except Fault (List String))

/-- A backend with its effects carried over. -/
def Backend.lift {m n : Type → Type} (f : {α : Type} → m α → n α) (b : Backend m) :
    Backend n where
  get key := f (b.get key)
  set key value := f (b.set key value)
  remove key := f (b.remove key)
  keys := f b.keys

/-- Carries out a program. -/
def Program.run {m : Type → Type} [Monad m] (b : Backend m) {α : Type} :
    Program α → m (Except Fault α)
  | done a => pure (.ok a)
  | fail e => pure (.error e)
  | get key next => do
    match ← b.get key with
    | .ok v => (next v).run b
    | .error e => pure (.error e)
  | set key value next => do
    match ← b.set key value with
    | .ok () => next.run b
    | .error e => pure (.error e)
  | remove key next => do
    match ← b.remove key with
    | .ok () => next.run b
    | .error e => pure (.error e)
  | keys next => do
    match ← b.keys with
    | .ok ks => (next ks).run b
    | .error e => pure (.error e)

/-! ### Call by call

Others may use the store between two calls of a program.
-/

namespace Program

variable {m : Type → Type} [Monad m] {α β : Type}

/-- What follows from the answer to a call. -/
def resume (next : α → Program β) : Except Fault α → Program β
  | .ok a => next a
  | .error e => fail e

/-- Makes the next call; nothing if there is none. -/
def advance (b : Backend m) : Program α → m (Program α)
  | done a => return done a
  | fail e => return fail e
  | get key next => do return resume next (← b.get key)
  | set key value next => do return resume (fun _ ↦ next) (← b.set key value)
  | remove key next => do return resume (fun _ ↦ next) (← b.remove key)
  | keys next => do return resume next (← b.keys)

/-- Makes some calls, or all if there are not as many. -/
def steps (b : Backend m) : Nat → Program α → m (Program α)
  | 0, p => return p
  | n + 1, p => do steps b n (← p.advance b)

/-- Carries out a program, and lets something else happen after some of its calls. -/
def runAmid (b : Backend m) (other : m Unit) (n : Nat) (p : Program α) : m (Except Fault α) := do
  let rest ← p.steps b n
  other
  rest.run b

end Program

/-! ## Entries in memory

The entries of a key-value store are kept in key order. A backend in memory answers every call; one
with a schedule lets some calls fail, and a call that fails changes nothing.
-/

/-- The entries of a store, in key order. -/
abbrev Entries := List (String × Json)

def memory : Backend (StateM Entries) where
  get key := fun es ↦ (.ok (Sorted.get? key es), es)
  set key value := fun es ↦ (.ok (), Sorted.insert key value es)
  remove key := fun es ↦ (.ok (), Sorted.erase key es)
  keys := fun es ↦ (.ok (Sorted.keys es), es)

/-- Which of the next calls of each kind fail, and how. Calls after the scheduled ones succeed. -/
structure Schedule where
  get : List (Option Fault)
  set : List (Option Fault)
  remove : List (Option Fault)
  keys : List (Option Fault)

/-- The schedule on which nothing fails. -/
def Schedule.clear : Schedule := ⟨[], [], [], []⟩

/-- Entries with a schedule. -/
structure Scheduled where
  entries : Entries
  schedule : Schedule

/-- Answers a call whose outcomes are scheduled. -/
def Scheduled.answer {α : Type} (outcomes : Schedule → List (Option Fault))
    (later : List (Option Fault) → Schedule → Schedule) (call : StateM Entries (Except Fault α)) :
    StateM Scheduled (Except Fault α) := fun s ↦
  let rest : Schedule := later (outcomes s.schedule).tail s.schedule
  match (outcomes s.schedule).head? with
  | some (some f) => (.error f, { s with schedule := rest })
  | _ =>
    let (a, es) := call s.entries
    (a, ⟨es, rest⟩)

/-- The backend in memory with calls that fail on schedule. -/
def scheduled : Backend (StateM Scheduled) where
  get key := Scheduled.answer (·.get) (fun l s ↦ { s with get := l }) (memory.get key)
  set key value := Scheduled.answer (·.set) (fun l s ↦ { s with set := l }) (memory.set key value)
  remove key := Scheduled.answer (·.remove) (fun l s ↦ { s with remove := l }) (memory.remove key)
  keys := Scheduled.answer (·.keys) (fun l s ↦ { s with keys := l }) memory.keys

/-! ## Entries in a file

All entries are held in memory and written out as one JSON object on every change. The file is
replaced as a whole, so it always holds the entries as they were after some change. If it cannot be
written, the entries in memory are changed all the same.
-/

/-- The content of the file for some entries. -/
def Entries.encode (es : Entries) : ByteArray := (Json.object es).pretty.toUTF8

/-- The entries that the content of a file stands for. -/
def Entries.decode (content : ByteArray) : Except Fault Entries :=
  (Json.Decoder.members.ofStream content).mapError .format

section

variable {m : Type → Type} [Monad m] (files : Files.System m) (path : Files.Path)

/-- Reads the entries from the file; without a file there are none. -/
def load : m (Except Fault Entries) := do
  if ← files.isThere path then
    match ← files.read path with
    | .ok content => return Entries.decode content
    | .error f => return .error (.files f)
  else return .ok []

/-- Writes the entries to the file. -/
def persist (es : Entries) : m (Except Fault Unit) := do
  return (← files.replace path es.encode).mapError .files

/-- Reads the file again. If that fails, the entries stay as they were. -/
def reload : StateT Entries m (Except Fault Unit) := fun es ↦ do
  match ← load files path with
  | .ok es' => return (.ok (), es')
  | .error f => return (.error f, es)

/-- The backend with the entries in a file. -/
def file : Backend (StateT Entries m) where
  get key := fun es ↦ pure (.ok (Sorted.get? key es), es)
  set key value := fun es ↦ do
    let es := Sorted.insert key value es
    return (← persist files path es, es)
  remove key := fun es ↦ do
    if Sorted.contains key es then
      let es := Sorted.erase key es
      return (← persist files path es, es)
    else return (.ok (), es)
  keys := fun es ↦ pure (.ok (Sorted.keys es), es)

end

end Redirector.Store
