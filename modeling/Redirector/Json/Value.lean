import Redirector.Json.Decoder

/-!
# Values read for their own sake

A value that is stored or compared has one member per key, in key order: of several members with one
key the last one counts. This module brings a value into that form, decodes such values, and reads
whole texts.
-/

namespace Redirector.Json

open Text (Place)

mutual

/-- The value with the members of its objects in key order, the last one of each key. -/
def sorted : Json → Json
  | .array items => .array (sortedItems items)
  | .object members => .ofMembers (sortedMembers members)
  | j => j

def sortedItems : List Json → List Json
  | [] => []
  | j :: js => sorted j :: sortedItems js

def sortedMembers : List (String × Json) → List (String × Json)
  | [] => []
  | (key, j) :: rest => (key, sorted j) :: sortedMembers rest

end

namespace Decoder

variable {α : Type}

def value : Decoder Json where
  read c := (c.readAny c.depth).map fun (j, c) ↦ (j.sorted, c)
  ofJson _ j := .ok j.sorted

def members : Decoder (List (String × Json)) where
  read c :=
    match c.lexemes with
    | [] => .error (c.breach .endInValue c.finish)
    | l :: _ =>
      match l.token with
      | .openObject =>
        (c.readAny c.depth).map fun (j, c) ↦ ((j.sorted.members?).getD [], c)
      | _ => .error (c.wrongType l "a map")
  ofJson _ j :=
    match j with
    | .object ms => .ok ((Json.object ms).sorted.members?.getD [])
    | j => .error (Cause.wrongType j.found "a map").fault

/-- Reads a cut text, all of it. -/
def run (d : Decoder α) (cut : Cut) : Except Fault α :=
  match d.read (.ofCut cut) with
  | .error m => .error m.fault
  | .ok (a, c) =>
    match c.lexemes with
    | [] => .ok a
    | l :: _ => .error (c.breach .trailingCharacters l.seen).fault

def ofText (d : Decoder α) (s : String) : Except Fault α := d.run (Cut.ofChars false s.toList)

end Decoder

/-! ## Encoded texts -/

/-- A text decoded from bytes. A byte that belongs to no character is replaced by a delete
character, which is as wide as a byte and means as little to the grammar; the places before such
bytes are kept. -/
structure Decoded where
  chars : List Char
  strays : List Place

/-- The character that stands for a byte which belongs to none. -/
def strayChar : Char := '\x7f'

/-- Decodes the rest of some bytes from a position on. The fuel is the number of bytes left. -/
def decodeFrom (bytes : ByteArray) :
    (fuel : Nat) → (i : Nat) → Place → (chars : List Char) → (strays : List Place) → Decoded
  | 0, _, _, chars, strays => ⟨chars.reverse, strays.reverse⟩
  | fuel + 1, i, p, chars, strays =>
    if i < bytes.size then
      match bytes.utf8DecodeChar? i with
      | some c => decodeFrom bytes fuel (i + c.utf8Size) (p.step c) (c :: chars) strays
      | none => decodeFrom bytes fuel (i + 1) (p.step strayChar) (strayChar :: chars) (p :: strays)
    else ⟨chars.reverse, strays.reverse⟩

def Decoded.ofBytes (bytes : ByteArray) : Decoded :=
  match String.fromUTF8? bytes with
  | some s => ⟨s.toList, []⟩
  | none => decodeFrom bytes bytes.size 0 Place.start [] []

/-- Whether one place lies before another. -/
def precedes (p q : Place) : Bool := p.line < q.line || (p.line == q.line && p.column < q.column)

/-- A string literal with a byte in it that belongs to no character cannot be read, though it can
be skipped. -/
def Lexeme.blame (strays : List Place) (l : Lexeme) : Lexeme :=
  match l.token with
  | .string (.ok _) skipped =>
    if strays.any fun p ↦ !precedes p l.seen && precedes p l.after then
      { l with token := .string (.error ⟨.badEncoding, l.after⟩) skipped }
    else l
  | _ => l

/-- The cut of encoded text. -/
def Cut.ofBytes (pulled : Bool) (bytes : ByteArray) : Cut :=
  let decoded := Decoded.ofBytes bytes
  let cut := Cut.ofChars pulled decoded.chars
  { cut with lexemes := cut.lexemes.map (Lexeme.blame decoded.strays) }

namespace Decoder

variable {α : Type}

/-- Reads encoded text that is there as a whole. -/
def ofBytes (d : Decoder α) (bytes : ByteArray) : Except Fault α := d.run (Cut.ofBytes false bytes)

/-- Reads encoded text that is pulled in byte by byte. -/
def ofStream (d : Decoder α) (bytes : ByteArray) : Except Fault α := d.run (Cut.ofBytes true bytes)

/-- Decodes a value that has been read before. -/
def ofValue (d : Decoder α) (j : Json) : Except Fault α := d.ofJson .stored j

end Decoder

end Redirector.Json
