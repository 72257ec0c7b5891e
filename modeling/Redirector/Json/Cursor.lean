import Redirector.Json.Lexeme

/-!
# Walking over lexemes

A cursor is what remains of a cut text. This module holds the steps that do not depend on what is
being read: the separators of lists and objects, keys, values of any shape, and values that are
skipped. Each step says which breach it meets and where.

## Faults without a place

A fault that lies in the shape of a value, such as a missing field, is noticed only when the value
is over. It leaves its step without a place, and the container around it names one: the place that
has been reached once the container's end has been looked for (`Cursor.listEnd`,
`Cursor.objectEnd`). A misreading therefore keeps the cursor at which it happened.

## Depth

Containers whose content is read may be nested 127 deep; the cursor counts down. What is skipped may
be nested to any depth.
-/

namespace Redirector.Json

open Text (Place)

/-- What remains of a cut text. -/
structure Cursor where
  lexemes : List Lexeme
  /-- The place where the text ends. -/
  finish : Place
  /-- One more than the number of containers that may still be entered. -/
  depth : Nat

/-- A fault, and the cursor at which it happened. -/
structure Misread where
  fault : Fault
  cursor : Cursor

/-- A step over the lexemes. -/
abbrev Read (α : Type) := Cursor → Except Misread (α × Cursor)

namespace Cursor

/-- How deep containers may be nested, plus one. -/
def greatestDepth : Nat := 128

def ofCut (c : Cut) : Cursor := ⟨c.lexemes, c.finish, greatestDepth⟩

/-- A breach of the grammar at a place. -/
def breach (c : Cursor) (b : Breach) (p : Place) : Misread :=
  ⟨{ cause := .breach b, place := some p }, c⟩

/-- A snag inside a lexeme. -/
def snag (c : Cursor) (s : Snag) : Misread := c.breach s.breach s.place

/-- A fault in the shape of a value, at a place. -/
def misfit (c : Cursor) (cause : Cause) (p : Place) : Misread :=
  ⟨{ cause := cause, place := some p }, c⟩

/-- A fault in the shape of a value that gets its place from the container around it. -/
def unplaced (c : Cursor) (f : Fault) : Misread := ⟨f, c⟩

/-- The rest after the next lexeme. -/
def drop (c : Cursor) (rest : List Lexeme) : Cursor := { c with lexemes := rest }

/-- The place reached when a list's end has been looked for. -/
def listEnd (c : Cursor) : Place :=
  match c.lexemes with
  | [] => c.finish
  | l :: rest =>
    match l.token, rest with
    | .closeArray, _ => l.after
    | .comma, [] => c.finish
    | .comma, next :: _ => next.before
    | _, _ => l.before

/-- The place reached when an object's end has been looked for. -/
def objectEnd (c : Cursor) : Place :=
  match c.lexemes with
  | [] => c.finish
  | l :: _ =>
    match l.token with
    | .closeObject => l.after
    | _ => l.before

/-- Goes into a container that starts with the given lexeme. -/
def enter (c : Cursor) (l : Lexeme) (rest : List Lexeme) : Except Misread Cursor :=
  if c.depth ≤ 1 then .error (c.breach .tooDeep l.seen)
  else .ok { c with lexemes := rest, depth := c.depth - 1 }

/-- The fault of a value that is not what was expected: its kind is read off as far as needed. -/
def wrongType (c : Cursor) (l : Lexeme) (expected : String) : Misread :=
  let found (f : Found) (p : Place) := c.misfit (.wrongType f expected) p
  match l.token with
  | .word (.ok .null) => found .null l.after
  | .word (.ok (.boolean b)) => found (.boolean b) l.after
  | .word (.error s) => c.snag s
  | .number (.ok n) _ => found (.number n) l.after
  | .number (.error s) _ => c.snag s
  | .string (.ok s) _ => found (.string s) l.after
  | .string (.error s) _ => c.snag s
  | .openArray => found .sequence l.before
  | .openObject => found .map l.before
  | .closeArray | .closeObject | .comma | .colon | .stray => c.breach .noValue l.seen

end Cursor

/-- The same misreading, with a place if it had none. -/
def Misread.placed (endOf : Cursor → Place) (m : Misread) : Misread :=
  match m.fault.place with
  | some _ => m
  | none => { m with fault := { m.fault with place := some (endOf m.cursor) } }

/-- The same misreading, seen from further out. -/
def Misread.under (step : Step) (m : Misread) : Misread := { m with fault := m.fault.under step }

namespace Read

/-- A step whose misreadings get their places from the container it reads. -/
def placed {α : Type} (endOf : Cursor → Place) (r : Except Misread α) : Except Misread α :=
  r.mapError (Misread.placed endOf)

/-- A step into a part of the value that is being read. -/
def under {α : Type} (step : Step) (r : Except Misread α) : Except Misread α :=
  r.mapError (Misread.under step)

end Read

namespace Cursor

/-! ## Lists -/

/-- Goes to the next item of a list, if there is one. At the end the cursor stays before the
bracket. -/
def nextItem (c : Cursor) (isFirst : Bool) : Except Misread (Option Cursor) :=
  match c.lexemes with
  | [] => .error (c.breach .endInList c.finish)
  | l :: rest =>
    match l.token, isFirst, rest with
    | .closeArray, _, _ => .ok none
    | _, true, _ => .ok (some c)
    | .comma, false, [] => .error (c.breach .endInValue c.finish)
    | .comma, false, next :: _ =>
      match next.token with
      | .closeArray => .error (c.breach .trailingComma next.seen)
      | _ => .ok (some (c.drop rest))
    | _, false, _ => .error (c.breach .noListSeparator l.seen)

/-- Leaves a list, which must be over, for the depth outside. -/
def leaveList (c : Cursor) (depth : Nat) : Except Misread Cursor :=
  match c.lexemes with
  | [] => .error (c.breach .endInList c.finish)
  | l :: rest =>
    match l.token, rest with
    | .closeArray, _ => .ok { c with lexemes := rest, depth := depth }
    | .comma, [] => .error (c.breach .trailingCharacters c.finish)
    | .comma, next :: _ =>
      match next.token with
      | .closeArray => .error (c.breach .trailingComma next.seen)
      | _ => .error (c.breach .trailingCharacters next.seen)
    | _, _ => .error (c.breach .trailingCharacters l.seen)

/-- The items of a list from a position on. The fuel is what is left of the text: every item takes
one lexeme at least. -/
def readItems {α : Type} (item : Read α) : (fuel : List Lexeme) → (index : Nat) →
    (found : List α) → Cursor → Except Misread (List α × Cursor)
  | [], _, _, c => .error (c.breach .endInList c.finish)
  | _ :: fuel, index, found, c =>
    match c.nextItem (index = 0) with
    | .error m => .error m
    | .ok none => .ok (found.reverse, c)
    | .ok (some c) =>
      match Read.under (.item index) (item c) with
      | .error m => .error m
      | .ok (a, c) => readItems item fuel (index + 1) (a :: found) c

/-- A list, from its opening bracket. -/
def readList {α : Type} (item : Read α) (c : Cursor) (l : Lexeme) (rest : List Lexeme) :
    Except Misread (List α × Cursor) :=
  match c.enter l rest with
  | .error m => .error m
  | .ok inner =>
    match Read.placed listEnd (readItems item (l :: rest) 0 [] inner) with
    | .error m => .error m
    | .ok (items, inner) =>
      match inner.leaveList c.depth with
      | .error m => .error m
      | .ok outer => .ok (items, outer)

/-! ## Objects -/

/-- Goes to the next key of an object, if there is one: the key's lexeme comes next then. -/
def nextKey (c : Cursor) (isFirst : Bool) : Except Misread (Option Cursor) :=
  match c.lexemes with
  | [] => .error (c.breach .endInObject c.finish)
  | l :: rest =>
    match l.token, isFirst, rest with
    | .closeObject, _, _ => .ok none
    | .string .., true, _ => .ok (some c)
    | _, true, _ => .error (c.breach .keyNotString l.seen)
    | .comma, false, [] => .error (c.breach .endInValue c.finish)
    | .comma, false, next :: _ =>
      match next.token with
      | .string .. => .ok (some (c.drop rest))
      | .closeObject => .error (c.breach .trailingComma next.seen)
      | _ => .error (c.breach .keyNotString next.seen)
    | _, false, _ => .error (c.breach .noObjectSeparator l.seen)

def readKey (c : Cursor) : Except Misread (String × Cursor) :=
  match c.lexemes with
  | [] => .error (c.breach .endInObject c.finish)
  | l :: rest =>
    match l.token with
    | .string (.ok key) _ => .ok (key, c.drop rest)
    | .string (.error s) _ => .error (c.snag s)
    | _ => .error (c.breach .keyNotString l.seen)

def readColon (c : Cursor) : Except Misread Cursor :=
  match c.lexemes with
  | [] => .error (c.breach .endInObject c.finish)
  | l :: rest =>
    match l.token with
    | .colon => .ok (c.drop rest)
    | _ => .error (c.breach .noColon l.seen)

/-- Folds over the members of an object from some point on. `member` is given the key and stands
before the colon. The cursor stays before the closing bracket. The fuel is what is left of the text:
every member takes one lexeme at least. -/
def foldMembers {σ : Type} (member : σ → String → Read σ) :
    (fuel : List Lexeme) → (isFirst : Bool) → σ → Cursor → Except Misread (σ × Cursor)
  | [], _, _, c => .error (c.breach .endInObject c.finish)
  | _ :: fuel, isFirst, s, c =>
    match c.nextKey isFirst with
    | .error m => .error m
    | .ok none => .ok (s, c)
    | .ok (some c) =>
      match c.readKey with
      | .error m => .error m
      | .ok (key, c) =>
        match member s key c with
        | .error m => .error m
        | .ok (s, c) => foldMembers member fuel false s c

/-- Leaves an object, whose closing bracket comes next, for the depth outside. -/
def leaveObject (c : Cursor) (depth : Nat) : Cursor :=
  { c with lexemes := c.lexemes.drop 1, depth := depth }

/-- An object, from its opening bracket: a fold over its members, and what becomes of the result at
the closing bracket. -/
def readObject {σ α : Type} (member : σ → String → Read σ) (init : σ)
    (close : σ → Except Fault α) (c : Cursor) (l : Lexeme) (rest : List Lexeme) :
    Except Misread (α × Cursor) :=
  match c.enter l rest with
  | .error m => .error m
  | .ok inner =>
    Read.placed objectEnd <|
      match foldMembers member (l :: rest) true init inner with
      | .error m => .error m
      | .ok (s, inner) =>
        match close s with
        | .error f => .error (inner.unplaced f)
        | .ok a => .ok (a, inner.leaveObject c.depth)

/-! ## Values of any shape -/

/-- A value as it stands in the text, the members of objects in their order. The fuel is the depth
that is left. -/
def readAny : (fuel : Nat) → Read Json
  | 0, c => .error (c.breach .tooDeep c.finish)
  | fuel + 1, c =>
    match c.lexemes with
    | [] => .error (c.breach .endInValue c.finish)
    | l :: rest =>
      match l.token with
      | .word (.ok .null) => .ok (.null, c.drop rest)
      | .word (.ok (.boolean b)) => .ok (.boolean b, c.drop rest)
      | .word (.error s) => .error (c.snag s)
      | .number (.ok n) _ => .ok (.number n, c.drop rest)
      | .number (.error s) _ => .error (c.snag s)
      | .string (.ok s) _ => .ok (.string s, c.drop rest)
      | .string (.error s) _ => .error (c.snag s)
      | .openArray => (readList (readAny fuel) c l rest).map fun (items, c) ↦ (.array items, c)
      | .openObject =>
        let member (ms : List (String × Json)) (key : String) : Read (List (String × Json)) :=
          fun c ↦
            match c.readColon with
            | .error m => .error m
            | .ok c =>
              match readAny fuel c with
              | .error m => .error m
              | .ok (v, c) => .ok ((key, v) :: ms, c)
        readObject member [] (fun ms ↦ .ok (.object ms.reverse)) c l rest
      | .closeArray | .closeObject | .comma | .colon | .stray =>
        .error (c.breach .noValue l.seen)

/-! ## Skipping -/

/-- A container that is being skipped. -/
inductive Frame where
  | list
  | object
  deriving DecidableEq

/-- What skipping looks for next. -/
inductive Expecting where
  | value
  /-- An item or a key, or the end of a container that has just been opened. -/
  | first
  | key
  | colon
  /-- A separator or the end, after a value. -/
  | separator

/-- The breach if the text ends inside a container. -/
def Frame.ending : Frame → Breach
  | list => .endInList
  | object => .endInObject

/-- The breach if the text ends where something is looked for, in the innermost container. -/
def Expecting.ending : Expecting → List Frame → Breach
  | value, _ | _, [] => .endInValue
  | _, frame :: _ => frame.ending

/-- One lexeme further in skipping: the containers that are open then and what is looked for, or
nothing if the value is over. -/
def skipStep (c : Cursor) (frames : List Frame) (expecting : Expecting) (l : Lexeme) :
    Except Misread (Option (List Frame × Expecting)) :=
  let after (frames : List Frame) : Option (List Frame × Expecting) :=
    if frames.isEmpty then none else some (frames, .separator)
  let value : Except Misread (Option (List Frame × Expecting)) :=
    match l.token with
    | .word (.error s) | .number _ (.error s) | .string _ (.error s) => .error (c.snag s)
    | .word (.ok _) | .number _ (.ok ()) | .string _ (.ok ()) => .ok (after frames)
    | .openArray => .ok (some (.list :: frames, .first))
    | .openObject => .ok (some (.object :: frames, .first))
    | .closeArray | .closeObject | .comma | .colon | .stray => .error (c.breach .noValue l.seen)
  let key : Except Misread (Option (List Frame × Expecting)) :=
    match l.token with
    | .string _ (.error s) => .error (c.snag s)
    | .string _ (.ok ()) => .ok (some (frames, .colon))
    | _ => .error (c.breach .keyNotString l.seen)
  match expecting, frames, l.token with
  -- A value or a key is due, so an end of the container is none of the things that can come.
  | .value, _, _ => value
  | .key, _, _ => key
  | .colon, _, .colon => .ok (some (frames, .value))
  | .colon, _, _ => .error (c.breach .noColon l.seen)
  | _, .list :: outer, .closeArray | _, .object :: outer, .closeObject => .ok (after outer)
  | .separator, .list :: _, .comma => .ok (some (frames, .value))
  | .separator, .object :: _, .comma => .ok (some (frames, .key))
  | .separator, .object :: _, _ => .error (c.breach .noObjectSeparator l.seen)
  | .separator, _, _ => .error (c.breach .noListSeparator l.seen)
  | .first, .object :: _, _ => key
  | .first, _, _ => value

/-- Skips a value, given the containers that are open around what comes next. -/
def skip (c : Cursor) : List Frame → Expecting → List Lexeme → Except Misread Cursor
  | frames, expecting, [] => .error (c.breach (expecting.ending frames) c.finish)
  | frames, expecting, l :: rest =>
    match c.skipStep frames expecting l with
    | .error m => .error m
    | .ok none => .ok (c.drop rest)
    | .ok (some (frames, expecting)) => c.skip frames expecting rest

def skipValue (c : Cursor) : Except Misread Cursor := c.skip [] .value c.lexemes

end Cursor

end Redirector.Json
