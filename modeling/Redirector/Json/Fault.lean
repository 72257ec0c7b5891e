import Redirector.Json.Basic
import Redirector.Text.Basic
import Redirector.Text.Quoted

/-!
# What can be wrong with a JSON text

A text can break the grammar, or be a value of another shape than the one asked for. Both are
causes of a fault; a fault met in a text also has the place where it was noticed, and the path of
keys and positions that leads to the value it was noticed in.
-/

namespace Redirector.Json

/-- What was found where something else was expected. -/
inductive Found where
  | null
  | boolean (b : Bool)
  | number (n : Number)
  | string (s : String)
  | sequence
  | map
  deriving DecidableEq, Repr

/-- What a value is, for a message that expected another one. -/
def found : Json → Found
  | .null => .null
  | .boolean b => .boolean b
  | .number n => .number n
  | .string s => .string s
  | .array _ => .sequence
  | .object _ => .map

def Found.describe : Found → String
  | null => "null"
  | boolean b => s!"boolean `{b}`"
  | number (.real x) => s!"floating point `{x.text}`"
  | number n => s!"integer `{n.text}`"
  | string s => "string " ++ Text.quote s
  | sequence => "sequence"
  | map => "map"

inductive Breach where
  | endInValue
  | endInList
  | endInObject
  | endInString
  | noValue
  | noWord
  | noColon
  | noListSeparator
  | noObjectSeparator
  | badEscape
  | badNumber
  | numberTooLarge
  | badEncoding
  | controlCharacter
  | keyNotString
  | unpairedSurrogate
  | surrogateCutShort
  | trailingComma
  | trailingCharacters
  | tooDeep
  deriving DecidableEq, Repr

def Breach.message : Breach → String
  | endInValue => "EOF while parsing a value"
  | endInList => "EOF while parsing a list"
  | endInObject => "EOF while parsing an object"
  | endInString => "EOF while parsing a string"
  | noValue => "expected value"
  | noWord => "expected ident"
  | noColon => "expected `:`"
  | noListSeparator => "expected `,` or `]`"
  | noObjectSeparator => "expected `,` or `\x7d`"
  | badEscape => "invalid escape"
  | badNumber => "invalid number"
  | numberTooLarge => "number out of range"
  | badEncoding => "invalid unicode code point"
  | controlCharacter => "control character (\\u0000-\\u001F) found while parsing a string"
  | keyNotString => "key must be a string"
  | unpairedSurrogate => "lone leading surrogate in hex escape"
  | surrogateCutShort => "unexpected end of hex escape"
  | trailingComma => "trailing comma"
  | trailingCharacters => "trailing characters"
  | tooDeep => "recursion limit exceeded"

/-- Why a value could not be read. -/
inductive Cause where
  /-- The text is not JSON. -/
  | breach (b : Breach)
  /-- A value of another kind was expected. -/
  | wrongType (found : Found) (expected : String)
  /-- A value of this kind, but another one, was expected. -/
  | wrongValue (found : Found) (expected : String)
  /-- A sequence of another length was expected. -/
  | wrongLength (length : Nat) (expected : String)
  | missingField (name : String)
  | duplicateField (name : String)
  /-- None of the names of an enumeration. -/
  | unknownVariant (name : String) (known : List String)
  deriving DecidableEq, Repr

/-- How a message lists the names that would have been right. -/
def oneOf : List String → String
  | [] => "there are no variants"
  | [a] => s!"expected `{a}`"
  | [a, b] => s!"expected `{a}` or `{b}`"
  | names => "expected one of " ++ ", ".intercalate (names.map fun n ↦ s!"`{n}`")

def Cause.message : Cause → String
  | breach b => b.message
  | wrongType found expected => s!"invalid type: {found.describe}, expected {expected}"
  | wrongValue found expected => s!"invalid value: {found.describe}, expected {expected}"
  | wrongLength n expected => s!"invalid length {n}, expected {expected}"
  | missingField name => s!"missing field `{name}`"
  | duplicateField name => s!"duplicate field `{name}`"
  | unknownVariant name known => s!"unknown variant `{name}`, {oneOf known}"

/-- Whether the text is JSON and only its shape is wrong. -/
def Cause.isShape : Cause → Bool
  | breach _ => false
  | _ => true

/-- One step from a value to a value inside it. -/
inductive Step where
  | key (name : String)
  | item (index : Nat)
  deriving DecidableEq, Repr

/-- How a message names a path: keys are joined by dots, positions stand in brackets. -/
def describePath : List Step → String
  | [] => ""
  | .key k :: rest => rest.foldl join k
  | .item i :: rest => rest.foldl join s!"[{i}]"
where
  join (text : String) : Step → String
    | .key k => text ++ "." ++ k
    | .item i => text ++ s!"[{i}]"

/-- A fault: its cause, where in the text it was noticed, if that is known, and in which value. -/
structure Fault where
  cause : Cause
  place : Option Text.Place := none
  path : List Step := []
  deriving DecidableEq, Repr

namespace Fault

def message (f : Fault) : String :=
  f.cause.message ++ (f.place.map Text.Place.describe).getD ""

/-- The message for a fault, after the path of the value it was noticed in. -/
def messageWithPath (f : Fault) : String :=
  if f.path.isEmpty then f.message else describePath f.path ++ ": " ++ f.message

/-- The fault as seen from a value further out. -/
def under (step : Step) (f : Fault) : Fault := { f with path := step :: f.path }

end Fault

end Redirector.Json
