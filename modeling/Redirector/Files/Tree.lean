import Redirector.Files.Basic
import Redirector.Sorted

/-!
# Directory trees

A file system held in memory: what is at each path, in path order. The directory that relative paths
start from, those around it, and the root that absolute ones start from, are always there.

A path leads somewhere only if everything on the way is a directory; the first thing on the way that
is none decides which fault there is (`Tree.wayTo`).
-/

namespace Redirector.Files

/-- What can be at a path. -/
inductive Node where
  | file (content : ByteArray)
  | directory

structure Tree where
  nodes : List (Path × Node)

namespace Tree

def empty : Tree := ⟨[]⟩

/-- What is at a path, without a look at the way there. -/
def node? (t : Tree) (p : Path) : Option Node :=
  if p.fileName? = none then some .directory else Sorted.get? p t.nodes

def put (t : Tree) (p : Path) (n : Node) : Tree := ⟨Sorted.insert p n t.nodes⟩

/-- The tree with whatever is at a path taken out. -/
def erase (t : Tree) (p : Path) : Tree := ⟨Sorted.erase p t.nodes⟩

/-- Whether everything on the way is a directory. -/
def wayTo (t : Tree) (p : Path) : Except Fault Unit :=
  p.ancestors.forM fun q ↦
    match t.node? q with
    | none => .error .missing
    | some (.file _) => .error .notDirectory
    | some .directory => .ok ()

def get (t : Tree) (p : Path) : Except Fault Node := do
  t.wayTo p
  match t.node? p with
  | none => .error .missing
  | some n => .ok n

def read (t : Tree) (p : Path) : Except Fault ByteArray := do
  match ← t.get p with
  | .file content => .ok content
  | .directory => .error .isDirectory

/-- The tree with a file written. -/
def write (t : Tree) (p : Path) (content : ByteArray) : Except Fault Tree := do
  t.wayTo p
  match t.node? p with
  | some .directory => .error .isDirectory
  | _ => .ok (t.put p (.file content))

/-- The tree with a directory made, and those around it. -/
def createDirectory (t : Tree) (p : Path) : Except Fault Tree :=
  (p.ancestors ++ [p]).foldlM (fun t q ↦
    match t.node? q with
    | none => .ok (t.put q .directory)
    | some .directory => .ok t
    | some (.file _) => .error (if q = p then .taken else .notDirectory)) t

/-- The tree with a file moved; one that is at the target is replaced. -/
def rename (t : Tree) (source target : Path) : Except Fault Tree := do
  let n ← t.get source
  t.wayTo target
  match t.node? target with
  | some .directory => .error .isDirectory
  | _ => .ok ((t.erase source).put target n)

/-- The tree with a file taken out. -/
def remove (t : Tree) (p : Path) : Except Fault Tree := do
  match ← t.get p with
  | .file _ => .ok (t.erase p)
  | .directory => .error .isDirectory

/-- The paths of the files. -/
def filePaths (t : Tree) : List Path :=
  t.nodes.filterMap fun
    | (p, .file _) => some p
    | (_, .directory) => none

/-- Makes a change, if it goes well. -/
def attempt (change : Tree → Except Fault Tree) : StateM Tree (Except Fault Unit) := fun t ↦
  match change t with
  | .ok t' => (.ok (), t')
  | .error e => (.error e, t)

/-- A directory tree as a file system. -/
def system : System (StateM Tree) where
  isThere p := fun t ↦ ((t.get p).isOk, t)
  read p := fun t ↦ (t.read p, t)
  createDirectory p := attempt (createDirectory · p)
  write p content := attempt (write · p content)
  rename source target := attempt (rename · source target)

end Tree

end Redirector.Files
