import Redirector.Forwarding
import Redirector.Text.Class

/-!
# Profile documents

A profile is edited as a text: JSON that may have comments and trailing commas. Reading a document
takes those out, in two passes, and reads the rest as a forwarding configuration; the compiler never
sees text.
-/

namespace Redirector.Document

/-! ## Comments in documents

A document may have comments from `//` to the end of the line and between `/*` and `*/`, wherever
it is not inside a string. A line comment is taken out and its line break kept; a block comment
leaves one space. Comments that are never closed reach to the end.

The text is read character by character from the left. What a slash means depends on the character
after it, so a slash waits until that one has come.
-/

/-- What the next character belongs to. -/
inductive CommentMode where
  | plain
  /-- A slash has come outside a string and is not written yet. -/
  | slash
  | string
  /-- In a string, after a backslash. -/
  | escape
  | line
  /-- In a block comment; whether the last character in it was a star. -/
  | block (star : Bool)
  deriving DecidableEq, Repr

/-- The state of comment stripping: the mode, and what has been written, the last character
first. -/
structure CommentScan where
  mode : CommentMode
  written : List Char
  deriving DecidableEq, Repr

namespace CommentScan

/-- Before any character. -/
def init : CommentScan := ⟨.plain, []⟩

/-- A character that is not in a comment, with nothing waiting. -/
def stepPlain (written : List Char) (c : Char) : CommentScan :=
  if c = '/' then ⟨.slash, written⟩
  else if c = '"' then ⟨.string, c :: written⟩
  else ⟨.plain, c :: written⟩

/-- One more character. -/
def step (s : CommentScan) (c : Char) : CommentScan :=
  match s.mode with
  | .plain => stepPlain s.written c
  | .slash =>
    if c = '/' then ⟨.line, s.written⟩
    else if c = '*' then ⟨.block false, s.written⟩
    else stepPlain ('/' :: s.written) c
  | .string =>
    ⟨if c = '\\' then .escape else if c = '"' then .plain else .string, c :: s.written⟩
  | .escape => ⟨.string, c :: s.written⟩
  | .line => if c = '\n' then ⟨.plain, c :: s.written⟩ else s
  | .block star =>
    if star ∧ c = '/' then ⟨.plain, ' ' :: s.written⟩ else ⟨.block (c = '*'), s.written⟩

/-- What has been written once the text has ended: a slash still counts, and an open block comment
leaves its space. -/
def finish (s : CommentScan) : List Char :=
  match s.mode with
  | .slash => ('/' :: s.written).reverse
  | .block _ => (' ' :: s.written).reverse
  | _ => s.written.reverse

end CommentScan

def stripComments (s : List Char) : List Char := (s.foldl CommentScan.step .init).finish

/-! ## Trailing commas in documents

A comma outside strings is trailing if, blanks aside, a closing bracket comes next. Such a comma is
taken out; the blanks stay. A comma waits until the first character that is not blank has come.
-/

/-- What the next character belongs to. -/
inductive CommaMode where
  | plain
  /-- A comma has come outside a string, and these blanks after it, the last one first. -/
  | comma (blanks : List Char)
  | string
  /-- In a string, after a backslash. -/
  | escape
  deriving DecidableEq, Repr

/-- The state of comma stripping: the mode, and what has been written, the last character first. -/
structure CommaScan where
  mode : CommaMode
  written : List Char
  deriving DecidableEq, Repr

namespace CommaScan

/-- Before any character. -/
def init : CommaScan := ⟨.plain, []⟩

def isClosing (c : Char) : Bool := c = ']' || c = '}'

/-- A character outside strings, with no comma waiting. -/
def stepPlain (written : List Char) (c : Char) : CommaScan :=
  if c = ',' then ⟨.comma [], written⟩
  else if c = '"' then ⟨.string, c :: written⟩
  else ⟨.plain, c :: written⟩

/-- One more character. -/
def step (s : CommaScan) (c : Char) : CommaScan :=
  match s.mode with
  | .plain => stepPlain s.written c
  | .comma blanks =>
    if Text.isBlank c then ⟨.comma (c :: blanks), s.written⟩
    else if isClosing c then ⟨.plain, c :: (blanks ++ s.written)⟩
    else stepPlain (blanks ++ ',' :: s.written) c
  | .string =>
    ⟨if c = '\\' then .escape else if c = '"' then .plain else .string, c :: s.written⟩
  | .escape => ⟨.string, c :: s.written⟩

/-- What has been written once the text has ended: a comma that still waits is written. -/
def finish (s : CommaScan) : List Char :=
  match s.mode with
  | .comma blanks => (blanks ++ ',' :: s.written).reverse
  | _ => s.written.reverse

end CommaScan

def stripTrailingCommas (s : List Char) : List Char := (s.foldl CommaScan.step .init).finish

/-! ## Reading a document -/

/-- The document of a profile that has never been saved. -/
def template : String :=
  "\x7b\n" ++
  "  // Redirect rules: [match pattern, target]. Use (.*) and $1 to carry paths over.\n" ++
  "  // [\"https://cdn.example.com/(.*)\", \"http://127.0.0.1:3000/$1\"]\n" ++
  "  \"proxy\": [],\n" ++
  "\n" ++
  "  // Domains whose XHR/websocket responses get permissive CORS headers.\n" ++
  "  \"cors\": []\n" ++
  "\x7d\n"

/-- The JSON text of a document. -/
def plain (text : String) : String :=
  String.ofList (stripTrailingCommas (stripComments text.toList))

def parse (text : String) : Except Json.Fault Forwarding := Forwarding.decoder.ofText (plain text)

def faultMessage (f : Json.Fault) : String := "Invalid profile document: " ++ f.message

end Redirector.Document
