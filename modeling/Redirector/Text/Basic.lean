/-!
# Texts

How a text is split at a separator, how a place in it is named, and where bytes stop being encoded
text.
-/

namespace Redirector.Text

/-! ## Splitting text

A text between separators is a list of parts, one more than there are separators.
-/

/-- The parts of a text between the occurrences of a separator. -/
def split (separator : Char) : List Char → List (List Char)
  | [] => [[]]
  | c :: cs =>
    if c = separator then [] :: split separator cs
    else
      match split separator cs with
      | [] => [[c]]
      | part :: parts => (c :: part) :: parts

/-! ## Places in a text

Messages about a text name a line, counted from one, and a column, which is the number of bytes of
that line which lie before the place. A place is always the place *after* what has been read, so the
start of a text is line 1, column 0.
-/

/-- A place in a text: its line, and the bytes of that line before it. -/
structure Place where
  line : Nat
  column : Nat
  deriving DecidableEq, Repr, Inhabited

namespace Place

/-- Where every text starts. -/
def start : Place := ⟨1, 0⟩

/-- The place after a character. -/
def step (p : Place) (c : Char) : Place :=
  if c = '\n' then ⟨p.line + 1, 0⟩ else ⟨p.line, p.column + c.utf8Size⟩

/-- The place after the first byte of a character. -/
def nudge (p : Place) (c : Char) : Place :=
  if c = '\n' then ⟨p.line + 1, 0⟩ else ⟨p.line, p.column + 1⟩

/-- How messages name a place. -/
def describe (p : Place) : String := s!" at line {p.line} column {p.column}"

end Place

/-! ## Encoded text

Where bytes stop being encoded text. An encoded character is one to four bytes; the first byte tells
how many, the second may be restricted by the first so that no character has two encodings, and any
further one is a continuation byte.
-/

/-- Why bytes are not encoded text, as of some byte. -/
inductive Misencoding where
  /-- So many bytes belong to no character. -/
  | stray (length : Nat)
  /-- The bytes end within a character. -/
  | cutShort
  deriving DecidableEq, Repr

/-- Whether a byte can follow the first one of a character. -/
def isContinuation (b : UInt8) : Bool := 0x80 ≤ b && b ≤ 0xBF

/-- How many bytes a character takes whose encoding starts with a byte; none starts with some. -/
def encodedSize (b : UInt8) : Nat :=
  if b < 0x80 then 1
  else if 0xC2 ≤ b && b ≤ 0xDF then 2
  else if 0xE0 ≤ b && b ≤ 0xEF then 3
  else if 0xF0 ≤ b && b ≤ 0xF4 then 4
  else 0

/-- Whether a byte can be the second one of a character, after the first one. -/
def isSecond (first second : UInt8) : Bool :=
  if first = 0xE0 then 0xA0 ≤ second && second ≤ 0xBF
  else if first = 0xED then 0x80 ≤ second && second ≤ 0x9F
  else if first = 0xF0 then 0x90 ≤ second && second ≤ 0xBF
  else if first = 0xF4 then 0x80 ≤ second && second ≤ 0x8F
  else isContinuation second

/-- What is wrong with the bytes after the first two of a character. -/
def tailFault? : (present missing : Nat) → List UInt8 → Option Misencoding
  | _, 0, _ => none
  | _, _ + 1, [] => some .cutShort
  | present, missing + 1, b :: rest =>
    if isContinuation b then tailFault? (present + 1) missing rest else some (.stray present)

/-- What is wrong with the character at the start of some bytes. -/
def headFault? (first : UInt8) (rest : List UInt8) : Option Misencoding :=
  match encodedSize first, rest with
  | 0, _ => some (.stray 1)
  | 1, _ => none
  | _, [] => some .cutShort
  | n, second :: rest =>
    if isSecond first second then tailFault? 2 (n - 2) rest else some (.stray 1)

/-- The first fault in some bytes, and where it is. The fuel is the number of bytes. -/
def misencodingFrom : (fuel : Nat) → (index : Nat) → List UInt8 → Option (Misencoding × Nat)
  | 0, _, _ => none
  | _, _, [] => none
  | fuel + 1, i, b :: rest =>
    match headFault? b rest with
    | some e => some (e, i)
    | none => misencodingFrom fuel (i + encodedSize b) (rest.drop (encodedSize b - 1))

/-- The first fault in some bytes, and where it is. -/
def misencoding? (bytes : List UInt8) : Option (Misencoding × Nat) :=
  misencodingFrom bytes.length 0 bytes

def Misencoding.message (index : Nat) : Misencoding → String
  | stray n => s!"invalid utf-8 sequence of {n} bytes from index {index}"
  | cutShort => s!"incomplete utf-8 byte sequence from index {index}"

/-- Decodes bytes, or says what is wrong with them. -/
def decodeBytes (bytes : ByteArray) : Except String String :=
  match String.fromUTF8? bytes with
  | some s => .ok s
  | none =>
    match misencoding? bytes.toList with
    | some (e, i) => .error (e.message i)
    | none => .error ""

end Redirector.Text
