import Redirector.Decimal
import Redirector.Sorted
import Redirector.Text.Quoted

/-!
# JSON values

A value that has been read keeps of a number only what it denotes: an integer of 64 bits, signed or
not, or else a double. The members of an object are a list of pairs. A value that was read for its
own sake has them in key order, one per key (`Json.ofMembers`); a value that was only set aside
until its shape is known keeps them as they stood in the text.
-/

namespace Redirector

/-- A number: a natural number below `2 ^ 64`, a negative integer from `-2 ^ 63` (given by its
absolute value), or a double. -/
inductive Json.Number where
  | natural (n : Nat)
  | negative (n : Nat)
  | real (x : Binary64)
  deriving DecidableEq, Repr, Inhabited

inductive Json where
  | null
  | boolean (b : Bool)
  | number (n : Json.Number)
  | string (s : String)
  | array (items : List Json)
  | object (members : List (String × Json))
  deriving Repr, Inhabited, BEq

namespace Json

def Number.text : Number → String
  | natural n => toString n
  | negative n => "-" ++ toString n
  | real x => x.text

/-- The object with the given members in key order, the last one of each key. -/
def ofMembers (members : List (String × Json)) : Json := object (Sorted.ofList members)

def string? : Json → Option String
  | string s => some s
  | _ => none

def boolean? : Json → Option Bool
  | boolean b => some b
  | _ => none

def members? : Json → Option (List (String × Json))
  | object ms => some ms
  | _ => none

def get? (key : String) : Json → Option Json
  | object ms => Sorted.get? key ms
  | _ => none

end Json

end Redirector

namespace Redirector.Json

/-! ## Writing JSON

A value is written compactly, without any whitespace, or laid out on lines of its own, two spaces
deeper for each container around it. Either way a string escapes the quote, the backslash and the
control characters below the space, and nothing else.
-/

/-- How one character of a string is written. -/
def escapeChar (c : Char) : List Char :=
  match c with
  | '"' => ['\\', '"']
  | '\\' => ['\\', '\\']
  | '\x08' => ['\\', 'b']
  | '\x0c' => ['\\', 'f']
  | '\n' => ['\\', 'n']
  | '\r' => ['\\', 'r']
  | '\t' => ['\\', 't']
  | c =>
    if c.toNat < 0x20 then
      ['\\', 'u', '0', '0', Nat.digitChar (c.toNat / 16), Nat.digitChar (c.toNat % 16)]
    else [c]

def stringChars (s : String) : List Char := '"' :: (s.toList.flatMap escapeChar ++ ['"'])

/-- The text of a scalar; of a container, nothing. -/
def scalarChars : Json → List Char
  | null => "null".toList
  | boolean b => if b then "true".toList else "false".toList
  | number n => n.text.toList
  | string s => stringChars s
  | array _ | object _ => []

mutual

/-- The compact text of a value. -/
def compactChars : Json → List Char
  | array items => '[' :: compactItems true items
  | object members => '{' :: compactMembers true members
  | j => scalarChars j

/-- The items of a list, each after the first one behind a comma, and the closing bracket. -/
def compactItems : (isFirst : Bool) → List Json → List Char
  | _, [] => [']']
  | isFirst, j :: js =>
    (if isFirst then [] else [',']) ++ (compactChars j ++ compactItems false js)

/-- The members of an object, each after the first one behind a comma, and the closing bracket. -/
def compactMembers : (isFirst : Bool) → List (String × Json) → List Char
  | _, [] => ['}']
  | isFirst, (key, j) :: rest =>
    (if isFirst then [] else [',']) ++
      (stringChars key ++ ':' :: (compactChars j ++ compactMembers false rest))

end

/-- A new line and the indentation of some depth. -/
def newLine (depth : Nat) : List Char := '\n' :: List.replicate (2 * depth) ' '

mutual

/-- The text of a value laid out on lines, inside some containers. -/
def prettyChars (depth : Nat) : Json → List Char
  | array [] => ['[', ']']
  | object [] => ['{', '}']
  | array items => '[' :: prettyItems depth true items
  | object members => '{' :: prettyMembers depth true members
  | j => scalarChars j

/-- The items of a list on lines of their own, and the closing bracket on the next one. -/
def prettyItems (depth : Nat) : (isFirst : Bool) → List Json → List Char
  | _, [] => newLine depth ++ [']']
  | isFirst, j :: js =>
    (if isFirst then [] else [',']) ++
      (newLine (depth + 1) ++ (prettyChars (depth + 1) j ++ prettyItems depth false js))

/-- The members of an object on lines of their own, and the closing bracket on the next one. -/
def prettyMembers (depth : Nat) : (isFirst : Bool) → List (String × Json) → List Char
  | _, [] => newLine depth ++ ['}']
  | isFirst, (key, j) :: rest =>
    (if isFirst then [] else [',']) ++
      (newLine (depth + 1) ++ (stringChars key ++ ':' :: ' ' ::
        (prettyChars (depth + 1) j ++ prettyMembers depth false rest)))

end

def compact (j : Json) : String := String.ofList (compactChars j)

def pretty (j : Json) : String := String.ofList (prettyChars 0 j)

end Redirector.Json
