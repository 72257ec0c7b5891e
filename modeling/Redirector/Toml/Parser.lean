import Redirector.Toml.Scan

/-!
# Reading TOML

A text is a list of statements, one on a line: a key with its value, or a header. A value is a
scalar, a list, or a table between braces, whose members follow the rules for dotted keys at once.
Lists and tables nest less than eighty deep, and a key has less than eighty parts.
-/

namespace Redirector.Toml

open Scan

/-! ## Keys -/

/-- How deep values may nest, and how many parts a key may have. -/
def nestingLimit : Nat := 80

def isKeyChar (c : Char) : Bool := c.isAlphanum || c = '-' || c = '_'

/-- Takes one part of a key. -/
def keyPart : Scan String := do
  match ← peek with
  | some '"' | some '\'' => return String.ofList (← line)
  | _ =>
    match ← span isKeyChar with
    | [] => failure
    | cs => return String.ofList cs

/-- Takes a key: parts with dots between them. -/
def key : Scan (List String) := fun s ↦ do
  let part : Scan String := do
    blanks
    let p ← keyPart
    blanks
    return p
  let (parts, rest) ← separated part (char '.') s.length s
  if parts.length < nestingLimit then some (parts, rest) else none

/-! ## Tables -/

/-- Changes the table that a path leads to. A table that is missing on the way is made, with the
given origin; a strict path does not lead through a table that a header names. -/
def within (origin : Origin) (isStrict : Bool) :
    (path : List String) → (change : Origin → Members → Option Members) → Origin → Members →
      Option Members
  | [], change, o, ms => change o ms
  | k :: path, change, _, ms =>
    match ms.get? k with
    | none => do
      let inner ← within origin isStrict path change origin []
      return ms ++ [(k, .table origin inner)]
    | some (.table o inner) =>
      if o = .inline ∨ (isStrict ∧ o = .header) then none
      else do
        let inner ← within origin isStrict path change o inner
        return ms.replace k (.table o inner)
    | some (.tables last earlier) => do
      let last ← within origin isStrict path change .header last
      return ms.replace k (.tables last earlier)
    | some _ => none

/-- Adds a member to a table of some origin, under a key that had dots or not. Only a key with dots
adds to a table that such a key has made. -/
def addMember (hasDots : Bool) (k : String) (v : Item) (o : Origin) (ms : Members) :
    Option Members :=
  if hasDots ≠ (o = .dotted : Bool) then none
  else if (ms.get? k).isSome then none
  else some (ms ++ [(k, v)])

/-- Adds a value under a key with any number of parts. -/
def assign (path : List String) (v : Item) (o : Origin) (ms : Members) : Option Members :=
  match path.getLast? with
  | none => none
  | some k =>
    let way := path.dropLast
    within .dotted true way (addMember (!way.isEmpty) k v) o ms

/-! ## Values -/

/-- Takes the items of a list and its closing bracket; a comma may stand behind the last one. -/
def listRest (item : Scan Item) : Scan Item := fun s ↦ (do
  let entry : Scan Item := do
    gap
    let v ← item
    gap
    return v
  match ← optional (separated entry (char ',') s.length) with
  | none => pure ()
  | some items => do
    let _ ← optional (char ',')
    gap
    char ']'
    return Item.array items
  gap
  char ']'
  return Item.array [] : Scan Item) s

/-- Takes the members of a table between braces, and the closing one. -/
def tableRest (item : Scan Item) : Scan Item := fun s ↦ (do
  let entry : Scan (List String × Item) := do
    let k ← key
    char '='
    blanks
    let v ← item
    blanks
    return (k, v)
  let members := (← optional (separated entry (char ',') s.length)).getD []
  blanks
  char '\x7d'
  match members.foldlM (fun ms (k, v) ↦ assign k v .inline ms) ([] : Members) with
  | some ms => return Item.table .inline ms
  | none => failure : Scan Item) s

/-- Takes a value that nests no deeper than some number. -/
def value : (depth : Nat) → Scan Item
  | 0 => failure
  | depth + 1 => do
    match ← peek with
    | some '"' | some '\'' => return .string (String.ofList (← string))
    | some '[' => do
      char '['
      check (depth ≠ 0)
      listRest (value depth)
    | some '\x7b' => do
      char '\x7b'
      check (depth ≠ 0)
      tableRest (value depth)
    | some 't' => do
      word "true".toList
      return .boolean true
    | some 'f' => do
      word "false".toList
      return .boolean false
    | some 'i' | some 'n' => do
      namedFloat
      return .number
    | _ => (do date; return .date) <|> (do float; return .number) <|> (do integer; return .number)

/-! ## Statements -/

/-- A line of a text, if it is neither blank nor a comment. -/
inductive Statement where
  | assignment (path : List String) (v : Item)
  | header (path : List String)
  /-- A header in double brackets. -/
  | element (path : List String)

/-- Takes a statement and the rest of its line. -/
def statement : Scan Statement := do
  match ← peek with
  | some '[' => do
    char '['
    match ← peek with
    | some '[' => do
      char '['
      let path ← key
      word [']', ']']
      lineRest
      return .element path
    | _ => do
      let path ← key
      char ']'
      lineRest
      return .header path
  | _ => do
    let path ← key
    char '='
    blanks
    let v ← value nestingLimit
    lineRest
    return .assignment path v

/-- The statements of a text. The fuel is the number of characters. -/
def statements : (fuel : Nat) → (before : List Statement) → List Char → Option (List Statement)
  | 0, before, s => if s.isEmpty then some before.reverse else none
  | fuel + 1, before, s =>
    match s.dropWhile isBlank with
    | [] => some before.reverse
    | '\n' :: rest => statements fuel before rest
    | '\r' :: '\n' :: rest => statements fuel before rest
    | '#' :: rest =>
      match lineRest ('#' :: rest) with
      | some ((), rest) => statements fuel before rest
      | none => none
    | s =>
      match statement s with
      | some (st, rest) => statements fuel (st :: before) rest
      | none => none

/-! ## Documents -/

/-- A document that is being put together: its members, and the table that assignments go to. -/
structure Draft where
  members : Members
  current : List String

/-- Changes the table at a path of a document. -/
def Draft.change (d : Draft) (path : List String) (f : Origin → Members → Option Members) :
    Option Members :=
  within .implied false path f .header d.members

/-- The members with the table that a header names; it may be there only if it was implied. -/
def openTable (k : String) (_ : Origin) (ms : Members) : Option Members :=
  match ms.get? k with
  | none => some (ms ++ [(k, .table .header [])])
  | some (.table .implied inner) => some (ms.replace k (.table .header inner))
  | some _ => none

/-- The members with one more table in the list that a header in double brackets names. -/
def openElement (k : String) (_ : Origin) (ms : Members) : Option Members :=
  match ms.get? k with
  | none => some (ms ++ [(k, .tables [] [])])
  | some (.tables last earlier) => some (ms.replace k (.tables [] (last :: earlier)))
  | some _ => none

/-- A document after one more statement. -/
def Draft.step (d : Draft) : Statement → Option Draft
  | .assignment path v => do
    return { d with members := ← d.change d.current (assign path v) }
  | .header path => do
    let ms ← d.change path.dropLast (openTable (path.getLast?.getD ""))
    return ⟨ms, path⟩
  | .element path => do
    let ms ← d.change path.dropLast (openElement (path.getLast?.getD ""))
    return ⟨ms, path⟩

/-- The members of the document that a text stands for. A byte order mark at its start is left
out. -/
def parse? (text : String) : Option Members := do
  let s := match text.toList with
    | '\ufeff' :: rest => rest
    | s => s
  let d ← (← statements s.length [] s).foldlM Draft.step ⟨[], []⟩
  return d.members

end Redirector.Toml
