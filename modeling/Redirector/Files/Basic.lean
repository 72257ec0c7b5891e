import Redirector.Text.Basic

/-!
# Files

What can be wrong with a file, what the path of a file is, and what the stores need of a file
system.
-/

namespace Redirector.Files

/-! ## What can be wrong with a file

The ways in which an operation on files fails, each with the text and the number that the operating
system gives it.
-/

/-- Why an operation on files fails. -/
inductive Fault where
  | missing
  | taken
  | notDirectory
  | isDirectory
  /-- The content is not encoded text. -/
  | notText
  /-- Anything else, in words. -/
  | other (reason : String)
  deriving DecidableEq, Repr

def Fault.message : Fault → String
  | missing => "No such file or directory (os error 2)"
  | taken => "File exists (os error 17)"
  | notDirectory => "Not a directory (os error 20)"
  | isDirectory => "Is a directory (os error 21)"
  | notText => "stream did not contain valid UTF-8"
  | other reason => reason

/-! ## Paths

A path is the list of the names on the way to a file. A file that is about to be replaced is first
written in full under its temporary path, which differs from its path only in the last name.
-/

/-- The names on the way to a file. Those of an absolute path start with `/`. -/
abbrev Path := List String

namespace Path

/-- The directory around a directory. There is none around the root, and the one around where
relative paths start from has no other name. -/
def up (p : Path) : Path :=
  match p.getLast? with
  | none | some ".." => p ++ [".."]
  | some "/" => p
  | some _ => p.dropLast

/-- One more name on the way; one that leads nowhere is taken out, and so is one that leads back up
if the way goes on. -/
def step (p : Path) (name : String) : Path :=
  if name = "" ∨ name = "." then p
  else if p.getLast? = some ".." then up p.dropLast ++ [name]
  else p ++ [name]

/-- The path that is written as a text, told from the text alone: `a/../b` is the path `b`. A file
system goes the way name by name. It finds no such way if `a` is missing, and if `a` is a link it
goes on from the directory that the link leads to; paths stand for files only where neither is the
case. -/
def ofString (s : String) : Path :=
  let start : Path := if s.startsWith "/" then ["/"] else []
  ((Text.split '/' s.toList).map String.ofList).foldl step start

def parent (p : Path) : Path := p.dropLast

/-- The directories on the way, the outermost one first. -/
def ancestors (p : Path) : List Path := (List.range' 1 (p.length - 1)).map p.take

def toString (p : Path) : String := "/".intercalate p

/-- A name without its extension: what stands before the last dot, unless that is nothing. -/
def stem (name : String) : String :=
  match (name.toList.reverse.dropWhile (· ≠ '.')).drop 1 with
  | [] => name
  | before => String.ofList before.reverse

/-- The name of the file. A path that ends on the way has none: it leads to a directory, wherever
that is. -/
def fileName? (p : Path) : Option String :=
  match p.getLast? with
  | none | some ".." | some "/" => none
  | some name => some name

/-- The path under which a file is written before it replaces the one at its path. -/
def temporary (p : Path) : Path :=
  match p.fileName? with
  | none => p
  | some name => p.parent ++ [stem name ++ ".tmp"]

end Path

/-! ## File systems

What the stores need of a file system, whatever it is: one that is held in memory or the one of the
machine. A file is replaced in three steps, so that a reader finds either the old content or the new
one, never a part of it.
-/

/-- The operations of a file system. -/
structure System (m : Type → Type) where
  /-- Whether there is anything at a path. -/
  isThere : Path → m Bool
  read : Path → m (Except Fault ByteArray)
  /-- Makes a directory and those around it. -/
  createDirectory : Path → m (Except Fault Unit)
  write : Path → ByteArray → m (Except Fault Unit)
  rename : (source target : Path) → m (Except Fault Unit)

namespace System

variable {m : Type → Type} [Monad m]

/-- Replaces a file: its directory is made if there is none, the content is written under the
temporary path, and that file is renamed. -/
def replace (files : System m) (p : Path) (content : ByteArray) : m (Except Fault Unit) :=
  ExceptT.run do
    unless p.parent = [] do
      ExceptT.mk (files.createDirectory p.parent)
    ExceptT.mk (files.write p.temporary content)
    ExceptT.mk (files.rename p.temporary p)

/-- The operations with their effects carried over. -/
def lift {n : Type → Type} (f : {α : Type} → m α → n α) (files : System m) : System n where
  isThere p := f (files.isThere p)
  read p := f (files.read p)
  createDirectory p := f (files.createDirectory p)
  write p content := f (files.write p content)
  rename source target := f (files.rename source target)

end System

end Redirector.Files
