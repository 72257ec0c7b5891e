import Redirector.Json.Cursor

/-!
# Decoders

A decoder reads a value of some type out of JSON. It does so in two ways that must agree: straight
from a text, where a fault names a place and the first fault in the text wins, and from a value that
has been read before, where a fault has no place. Decoders are put together from smaller ones; the
pieces below cover what the formats of this library need.

## Set-aside values

The variant of a tagged union is known only once its tag has been seen, so a tagged union is first
set aside as a value and decoded afterwards. A set-aside value still has the members of its objects
as they stood, doubled keys included, and two messages about it are worded in their own way
(`Source`).
-/

namespace Redirector.Json

open Text (Place)

/-- Where a value that has been read before comes from. -/
inductive Source where
  /-- It was read for its own sake: one member per key, in key order. -/
  | stored
  /-- It was set aside while the shape was not known. -/
  | aside
  deriving DecidableEq, Repr

/-- A decoder of values of a type. -/
structure Decoder (α : Type) where
  /-- Reads from a text. -/
  read : Read α
  /-- Reads from a value. -/
  ofJson : Source → Json → Except Fault α

/-- A fault without a place. -/
def Cause.fault (c : Cause) : Fault := { cause := c }

namespace Decoder

variable {α β δ : Type}

/-- What a decoder reads, under a function. -/
def map (f : α → β) (d : Decoder α) : Decoder β where
  read c := (d.read c).map fun (a, c) ↦ (f a, c)
  ofJson s j := (d.ofJson s j).map f

/-! ## Scalars -/

/-- A decoder of one scalar: it says of a value what it is, or why it is not one. -/
def scalar (expected : String) (take : Json → Option (Except Cause α)) : Decoder α where
  read c :=
    match c.lexemes with
    | [] => .error (c.breach .endInValue c.finish)
    | l :: rest =>
      let verdict (j : Json) : Except Misread (α × Cursor) :=
        match take j with
        | some (.ok a) => .ok (a, c.drop rest)
        | some (.error cause) => .error (c.misfit cause l.after)
        | none => .error (c.wrongType l expected)
      match l.token with
      | .word (.ok .null) => verdict .null
      | .word (.ok (.boolean b)) => verdict (.boolean b)
      | .number (.ok n) _ => verdict (.number n)
      | .string (.ok s) _ => verdict (.string s)
      | _ => .error (c.wrongType l expected)
  ofJson _ j :=
    match take j with
    | some (.ok a) => .ok a
    | some (.error cause) => .error cause.fault
    | none => .error (Cause.wrongType j.found expected).fault

def string : Decoder String :=
  scalar "a string" fun
    | .string s => some (.ok s)
    | _ => none

def boolean : Decoder Bool :=
  scalar "a boolean" fun
    | .boolean b => some (.ok b)
    | _ => none

/-- Natural numbers below `2 ^ 32`. -/
def word32 : Decoder UInt32 :=
  scalar "u32" fun
    | .number (.natural n) =>
      some (if n < UInt32.size then .ok (UInt32.ofNat n)
        else .error (.wrongValue (.number (.natural n)) "u32"))
    | .number (.negative n) => some (.error (.wrongValue (.number (.negative n)) "u32"))
    | _ => none

def unit : Decoder Unit :=
  scalar "unit" fun
    | .null => some (.ok ())
    | _ => none

/-- One of some names, each standing for a value. -/
def name (expected : String) (names : List (String × α)) : Decoder α :=
  scalar expected fun
    | .string s =>
      some (match Sorted.get? s names with
        | some a => .ok a
        | none => .error (.unknownVariant s (names.map Prod.fst)))
    | _ => none

/-! ## Options and lists -/

/-- A value, or `null`. -/
def optional (d : Decoder α) : Decoder (Option α) where
  read c :=
    match c.lexemes with
    | [] => (d.read c).map fun (a, c) ↦ (some a, c)
    | l :: rest =>
      match l.token with
      | .word (.ok .null) => .ok (none, c.drop rest)
      | _ => (d.read c).map fun (a, c) ↦ (some a, c)
  ofJson s j :=
    match j with
    | .null => .ok none
    | j => (d.ofJson s j).map some

/-- The items of a list, decoded one after the other. -/
def itemsOf (f : Json → Except Fault α) : (index : Nat) → List Json → Except Fault (List α)
  | _, [] => .ok []
  | i, j :: js =>
    match f j with
    | .error e => .error (e.under (.item i))
    | .ok a => (itemsOf f (i + 1) js).map (a :: ·)

def list (d : Decoder α) : Decoder (List α) where
  read c :=
    match c.lexemes with
    | [] => .error (c.breach .endInValue c.finish)
    | l :: rest =>
      match l.token with
      | .openArray => c.readList d.read l rest
      | _ => .error (c.wrongType l "a sequence")
  ofJson s j :=
    match j with
    | .array items => itemsOf (d.ofJson s) 0 items
    | j => .error (Cause.wrongType j.found "a sequence").fault

/-! ## Enumerations -/

/-- An enumeration: the name of a value as a text, or as the only key of an object whose value is
`null`. -/
def enumeration (names : List (String × α)) : Decoder α where
  read c :=
    let variant := (name "variant identifier" names).read
    match c.lexemes with
    | [] => .error (c.breach .endInValue c.finish)
    | l :: rest =>
      match l.token with
      | .string .. => variant c
      | .openObject =>
        match c.enter l rest with
        | .error m => .error m
        | .ok inner =>
          match variantKey variant inner with
          | .error m => .error m
          | .ok (a, inner) =>
            match inner.lexemes with
            | [] => .error (c.breach .endInObject c.finish)
            | l :: rest =>
              match l.token with
              | .closeObject => .ok (a, c.drop rest)
              | _ => .error (c.breach .noValue l.seen)
      | _ => .error (c.breach .noValue l.seen)
  ofJson s j :=
    let variant := (name "variant identifier" names).ofJson s
    match j with
    | .string _ => variant j
    | .object [(key, value)] =>
      match variant (.string key), s, value with
      | .error f, _, _ => .error f
      | .ok a, .aside, .object [] => .ok a
      | .ok a, _, value => (unit.ofJson s value).map fun _ ↦ a
    | .object _ => .error (Cause.wrongValue .map "map with a single key").fault
    | j => .error (Cause.wrongType j.found "string or map").fault
where
  /-- The key that names a value, and its `null`. -/
  variantKey (variant : Read α) : Read α := fun c ↦
    match variant c with
    | .error m => .error m
    | .ok (a, c) =>
      match c.readColon with
      | .error m => .error m
      | .ok c => (unit.read c).map fun (_, c) ↦ (a, c)

/-! ## Records -/

/-- A field of a record that is being put together: `δ` holds what has been read so far. -/
structure Field (δ : Type) where
  name : String
  /-- Whether a record without it is refused. -/
  isRequired : Bool
  /-- Whether it has been read. -/
  isFilled : δ → Bool
  /-- Reads its value and says how that goes into the draft. -/
  value : Decoder (δ → δ)

/-- A field that must be there. -/
def Field.required (name : String) (get : δ → Option α) (set : α → δ → δ) (d : Decoder α) :
    Field δ :=
  ⟨name, true, fun s ↦ (get s).isSome, d.map set⟩

/-- A field that may be missing. -/
def Field.optional (name : String) (get : δ → Option α) (set : α → δ → δ) (d : Decoder α) :
    Field δ :=
  ⟨name, false, fun s ↦ (get s).isSome, d.map set⟩

/-- A record: its fields in order, and what becomes of a draft once all of it has been read. -/
structure Record (δ α : Type) where
  /-- How a message names the type. -/
  expected : String
  fields : List (Field δ)
  /-- The draft before anything has been read. -/
  draft : δ
  /-- The record of a draft whose required fields are filled. -/
  build : δ → Option α

namespace Record

variable (r : Record δ α)

/-- The first field that must be there and is not. -/
def missing? (s : δ) : Option String :=
  (r.fields.find? fun f ↦ f.isRequired && !f.isFilled s).map Field.name

/-- The record of a draft, or the field that it lacks. -/
def close (s : δ) : Except Fault α :=
  match r.missing? s, r.build s with
  | none, some a => .ok a
  | some name, _ => .error (Cause.missingField name).fault
  | none, none => .error (Cause.missingField "").fault

/-- How a message about the length names the type. -/
def expectedLength : String :=
  let n := r.fields.length
  r.expected ++ s!" with {n} element" ++ if n = 1 then "" else "s"

/-- The fault of a list that ends before a required field. -/
def tooShort (index : Nat) : Fault := (Cause.wrongLength index r.expectedLength).fault

/-- One member of an object: a known field is read into the draft, others are skipped. -/
def readMember (s : δ) (key : String) : Read δ := fun c ↦
  match r.fields.find? (·.name = key) with
  | none =>
    match c.readColon with
    | .error m => .error m
    | .ok c => (c.skipValue).map fun c ↦ (s, c)
  | some f =>
    if f.isFilled s then .error (c.unplaced (Cause.duplicateField key).fault)
    else
      match c.readColon with
      | .error m => .error m
      | .ok c => (Read.under (.key key) (f.value.read c)).map fun (g, c) ↦ (g s, c)

/-- The fields as the items of a list. A list that ends early leaves the remaining fields out. -/
def readFields : (index : Nat) → List (Field δ) → δ → Read δ
  | _, [], s, c => .ok (s, c)
  | i, f :: fs, s, c =>
    match c.nextItem (i = 0) with
    | .error m => .error m
    | .ok none =>
      if f.isRequired then .error (c.unplaced (r.tooShort i))
      else readFields (i + 1) fs s c
    | .ok (some c) =>
      match Read.under (.item i) (f.value.read c) with
      | .error m => .error m
      | .ok (g, c) => readFields (i + 1) fs (g s) c

/-- The record written as a list. -/
def readList : Cursor → Lexeme → List Lexeme → Except Misread (α × Cursor) := fun c l rest ↦
  match c.enter l rest with
  | .error m => .error m
  | .ok inner =>
    Read.placed Cursor.listEnd <|
      match r.readFields 0 r.fields r.draft inner with
      | .error m => .error m
      | .ok (s, inner) =>
        match inner.leaveList c.depth with
        | .error m => .error m
        | .ok outer =>
          match r.close s with
          | .error f => .error (inner.unplaced f)
          | .ok a => .ok (a, outer)

/-- The members of an object, read into a draft. -/
def ofMembers (source : Source) : List (String × Json) → δ → Except Fault δ
  | [], s => .ok s
  | (key, j) :: rest, s =>
    match r.fields.find? (·.name = key) with
    | none => ofMembers source rest s
    | some f =>
      if f.isFilled s then .error (Cause.duplicateField key).fault
      else
        match f.value.ofJson source j with
        | .error e => .error (e.under (.key key))
        | .ok g => ofMembers source rest (g s)

/-- The items of a list, read into a draft; the items that are left over are returned. -/
def ofItems (source : Source) :
    (index : Nat) → List (Field δ) → List Json → δ → Except Fault (δ × List Json)
  | _, [], js, s => .ok (s, js)
  | i, f :: fs, [], s =>
    if f.isRequired then .error (r.tooShort i) else ofItems source (i + 1) fs [] s
  | i, f :: fs, j :: js, s =>
    match f.value.ofJson source j with
    | .error e => .error (e.under (.item i))
    | .ok g => ofItems source (i + 1) fs js (g s)

/-- The fault of a list with more items than fields. -/
def tooLong (source : Source) (length : Nat) : Fault :=
  let n := r.fields.length
  (Cause.wrongLength length (match source with
    | .stored => "fewer elements in array"
    | .aside => if n = 1 then "1 element in sequence" else s!"{n} elements in sequence")).fault

/-- The decoder of a record: an object, or the list of its fields in order. -/
def decoder : Decoder α where
  read c :=
    match c.lexemes with
    | [] => .error (c.breach .endInValue c.finish)
    | l :: rest =>
      match l.token with
      | .openArray => r.readList c l rest
      | .openObject => c.readObject r.readMember r.draft r.close l rest
      | _ => .error (c.wrongType l r.expected)
  ofJson source j :=
    match j with
    | .array items =>
      match r.ofItems source 0 r.fields items r.draft with
      | .error f => .error f
      | .ok (s, []) => r.close s
      | .ok (_, _ :: _) => .error (r.tooLong source items.length)
    | .object members =>
      match r.ofMembers source members r.draft with
      | .error f => .error f
      | .ok s => r.close s
    | j => .error (Cause.wrongType j.found r.expected).fault

end Record

/-! ## Tagged unions -/

/-- A union whose variant is named by one member of an object, or by the first item of a list. The
rest is set aside until the variant is known. -/
structure Tagged (α : Type) where
  /-- How a message names the type. -/
  expected : String
  tag : String
  variants : List (String × Decoder α)

namespace Tagged

variable (t : Tagged α)

/-- The decoder of the tag: it finds the decoder of the rest. -/
def variant : Decoder (Decoder α) := name "variant identifier" t.variants

/-- What has been read of a union: its variant, and the other members, the last one first. -/
abbrev Draft (α : Type) := Option (Decoder α) × List (String × Json)

def untagged : Fault := (Cause.missingField t.tag).fault

/-- One member of an object. -/
def readMember (s : Draft α) (key : String) : Read (Draft α) := fun c ↦
  if key = t.tag then
    if s.1.isSome then .error (c.unplaced (Cause.duplicateField key).fault)
    else
      match c.readColon with
      | .error m => .error m
      | .ok c => (t.variant.read c).map fun (d, c) ↦ ((some d, s.2), c)
  else
    match c.readColon with
    | .error m => .error m
    | .ok c => (c.readAny c.depth).map fun (j, c) ↦ ((s.1, (key, j) :: s.2), c)

/-- The set-aside part of a union written as an object. -/
def closeObject (s : Draft α) : Except Fault (Decoder α × Json) :=
  match s.1 with
  | none => .error t.untagged
  | some d => .ok (d, .object s.2.reverse)

/-- A union written as a list. -/
def readList (c : Cursor) (l : Lexeme) (rest : List Lexeme) :
    Except Misread ((Decoder α × Json) × Cursor) :=
  match c.enter l rest with
  | .error m => .error m
  | .ok inner =>
    Read.placed Cursor.listEnd <|
      match inner.nextItem true with
      | .error m => .error m
      | .ok none => .error (inner.unplaced t.untagged)
      | .ok (some inner) =>
        match t.variant.read inner with
        | .error m => .error m
        | .ok (d, inner) =>
          match inner.readItems (fun c ↦ c.readAny c.depth) (l :: rest) 1 [] with
          | .error m => .error m
          | .ok (items, inner) =>
            match inner.leaveList c.depth with
            | .error m => .error m
            | .ok outer => .ok ((d, .array items), outer)

/-- The decoder of a tagged union. -/
def decoder : Decoder α where
  read c :=
    match c.lexemes with
    | [] => .error (c.breach .endInValue c.finish)
    | l :: rest =>
      match l.token with
      | .openObject => decodeRest (c.readObject t.readMember (none, []) t.closeObject l rest)
      | .openArray => decodeRest (t.readList c l rest)
      | _ => .error (c.wrongType l t.expected)
  ofJson source j :=
    match j with
    | .object members =>
      match tagMembers source members (none, []) with
      | .error f => .error f
      | .ok s =>
        match t.closeObject s with
        | .error f => .error f
        | .ok (d, j) => d.ofJson .aside j
    | .array [] => .error t.untagged
    | .array (tag :: items) =>
      match t.variant.ofJson source tag with
      | .error f => .error f
      | .ok d => d.ofJson .aside (.array items)
    | j => .error (Cause.wrongType j.found t.expected).fault
where
  /-- Decodes what was set aside. A fault in it has no place of its own. -/
  decodeRest : Except Misread ((Decoder α × Json) × Cursor) → Except Misread (α × Cursor)
    | .error m => .error m
    | .ok ((d, j), c) =>
      match d.ofJson .aside j with
      | .error f => .error (c.unplaced f)
      | .ok a => .ok (a, c)
  /-- Takes the tag out of the members of an object. -/
  tagMembers (source : Source) : List (String × Json) → Draft α → Except Fault (Draft α)
    | [], s => .ok s
    | (key, j) :: rest, s =>
      if key = t.tag then
        if s.1.isSome then .error (Cause.duplicateField key).fault
        else
          match t.variant.ofJson source j with
          | .error f => .error f
          | .ok d => tagMembers source rest (some d, s.2)
      else tagMembers source rest (s.1, (key, j) :: s.2)

end Tagged

end Decoder

end Redirector.Json
