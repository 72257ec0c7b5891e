/-!
# The parts of a TOML text

What a settings file is made of, and the scanners for the parts of it that have no structure.
-/

namespace Redirector.Toml

/-! ## TOML values

What a settings file is made of. Of a number or a date only the kind is kept, since no setting is
one. A table remembers how it came about, because that decides what may still be added to it.
-/

/-- How a table came about. -/
inductive Origin where
  /-- It was written out between braces: nothing can be added. -/
  | inline
  /-- A header names it. -/
  | header
  /-- A header names a table inside it. -/
  | implied
  /-- A key with dots names a value inside it. -/
  | dotted
  deriving DecidableEq, Repr

/-- A value. -/
inductive Item where
  | string (s : String)
  | boolean (b : Bool)
  | number
  | date
  | array (items : List Item)
  | table (origin : Origin) (members : List (String × Item))
  /-- The tables that headers in double brackets have added, the last one first. -/
  | tables (last : List (String × Item)) (earlier : List (List (String × Item)))
  deriving Repr

abbrev Members := List (String × Item)

namespace Members

def get? (key : String) : Members → Option Item
  | [] => none
  | (k, v) :: rest => if k = key then some v else get? key rest

/-- The members with another value under a key that is there. -/
def replace (key : String) (v : Item) (ms : Members) : Members :=
  ms.map fun m ↦ if m.1 = key then (key, v) else m

end Members

/-! ## Scanning TOML

The parts of the grammar that have no structure: blanks, comments and ends of lines, digits, and the
pieces of dates and numbers. A scanner takes characters from the front of a text and yields a value,
or fails; a choice between scanners tries the next one from where the first one began.
-/

abbrev Scan := StateT (List Char) Option

namespace Scan

/-- The next character, which stays. -/
def peek : Scan (Option Char) := fun s ↦ some (s.head?, s)

def char (c : Char) : Scan Unit
  | d :: rest => if d = c then some ((), rest) else none
  | [] => none

/-- Takes a character of a class. -/
def one (p : Char → Bool) : Scan Char
  | d :: rest => if p d then some (d, rest) else none
  | [] => none

def word (w : List Char) : Scan Unit := w.forM char

/-- Takes as many characters of a class as there are. -/
def span (p : Char → Bool) : Scan (List Char) := fun s ↦ some (s.span p)

/-- Fails unless a condition holds. -/
def check (b : Bool) : Scan Unit := if b then pure () else failure

/-- Items with separators between them, as many as there are. The fuel bounds their number. -/
def separated {α : Type} (item : Scan α) (separator : Scan Unit) : (fuel : Nat) → Scan (List α)
  | 0 => return []
  | fuel + 1 => do
    let first ← item
    match ← optional (do separator; separated item separator fuel) with
    | some rest => return first :: rest
    | none => return [first]

end Scan

open Scan

/-! ### Blanks, comments, ends of lines -/

def isBlank (c : Char) : Bool := c = ' ' || c = '\t'

def blanks : Scan Unit := do let _ ← span isBlank

/-- Whether a character may stand in a comment, or in a string as it is. -/
def isText (c : Char) : Bool := c = '\t' || (32 ≤ c.toNat && c.toNat ≠ 127)

/-- Takes an end of line. -/
def newLine : Scan Unit
  | '\n' :: rest => some ((), rest)
  | '\r' :: '\n' :: rest => some ((), rest)
  | _ => none

/-- Takes a comment, up to the end of its line. -/
def comment : Scan Unit := do
  char '#'
  let _ ← span isText

/-- Takes the end of a line, or of the text. -/
def lineEnd : Scan Unit
  | [] => some ((), [])
  | s => newLine s

/-- Takes what may follow a value on its line. -/
def lineRest : Scan Unit := do
  blanks
  let _ ← optional comment
  lineEnd

/-- What is left after blanks, ends of lines and comments. -/
def skipGap : (inComment : Bool) → List Char → List Char
  | _, [] => []
  | _, '\n' :: rest => skipGap false rest
  | _, '\r' :: '\n' :: rest => skipGap false rest
  | true, c :: rest => if isText c then skipGap true rest else c :: rest
  | false, c :: rest =>
    if isBlank c then skipGap false rest
    else if c = '#' then skipGap true rest
    else c :: rest

/-- Skips blanks, ends of lines and comments. -/
def gap : Scan Unit := fun s ↦ some ((), skipGap false s)

/-! ### Digits -/

/-- The value of a digit in a base up to sixteen. -/
def digitValue? (base : Nat) (c : Char) : Option Nat :=
  let n :=
    if '0' ≤ c && c ≤ '9' then c.toNat - 48
    else if 'a' ≤ c && c ≤ 'f' then c.toNat - 87
    else if 'A' ≤ c && c ≤ 'F' then c.toNat - 55
    else base
  if n < base then some n else none

/-- The digits at the front, each after the first one perhaps behind an underscore. -/
def digitRun (base : Nat) : (before : List Nat) → List Char → List Nat × List Char
  | before, [] => (before.reverse, [])
  | before, '_' :: c :: rest =>
    match digitValue? base c with
    | some d => digitRun base (d :: before) rest
    | none => (before.reverse, '_' :: c :: rest)
  | before, c :: rest =>
    match digitValue? base c with
    | some d => digitRun base (d :: before) rest
    | none => (before.reverse, c :: rest)

/-- Takes one digit or more. -/
def digits (base : Nat) : Scan (List Nat)
  | c :: rest => (digitValue? base c).map fun d ↦ digitRun base [d] rest
  | [] => none

/-- The number that digits stand for. -/
def numberOf (base : Nat) (ds : List Nat) : Nat := ds.foldl (fun n d ↦ base * n + d) 0

/-- Takes so many decimal digits. -/
def fixedDigits : Nat → Scan (List Nat)
  | 0 => return []
  | n + 1 => do
    let c ← one Char.isDigit
    return (c.toNat - 48) :: (← fixedDigits n)

/-- Takes two digits that stand for a number between two others. -/
def twoDigits (least greatest : Nat) : Scan Nat := do
  let n := numberOf 10 (← fixedDigits 2)
  check (least ≤ n && n ≤ greatest)
  return n

/-! ### Dates -/

def isLeap (year : Nat) : Bool := year % 4 = 0 && (year % 100 ≠ 0 || year % 400 = 0)

def daysIn (year month : Nat) : Nat :=
  if month = 2 then if isLeap year then 29 else 28
  else if [4, 6, 9, 11].contains month then 30
  else 31

def day : Scan Unit := do
  let year := numberOf 10 (← fixedDigits 4)
  char '-'
  let month ← twoDigits 1 12
  char '-'
  let n ← twoDigits 1 31
  check (n ≤ daysIn year month)

def time : Scan Unit := do
  let _ ← twoDigits 0 23
  char ':'
  let _ ← twoDigits 0 59
  char ':'
  let _ ← twoDigits 0 60
  let _ ← optional do
    char '.'
    let _ ← one Char.isDigit
    span Char.isDigit

/-- Takes the distance from universal time. -/
def offset : Scan Unit := do
  if ['Z', 'z'].contains (← one fun c ↦ "Zz+-".toList.contains c) then return ()
  let _ ← twoDigits 0 23
  char ':'
  let _ ← twoDigits 0 59

/-- Takes a day, a time of day, or both. -/
def date : Scan Unit :=
  (do
    day
    let _ ← optional do
      let _ ← one fun c ↦ "Tt ".toList.contains c
      time
      optional offset) <|> time

/-! ### Numbers -/

/-- Takes a sign, and says whether the number is negative. -/
def sign : Scan Bool := do
  match ← optional (one fun c ↦ c = '+' || c = '-') with
  | some c => return c = '-'
  | none => return false

/-- Takes the digits of a decimal number, which does not start with a zero unless it is zero. -/
def decimalDigits : Scan (List Nat) := do
  match ← peek with
  | some '0' =>
    char '0'
    return [0]
  | _ => digits 10

/-- Takes the mark of a base; without one it is ten. -/
def base : Scan Nat
  | '0' :: 'x' :: rest => some (16, rest)
  | '0' :: 'o' :: rest => some (8, rest)
  | '0' :: 'b' :: rest => some (2, rest)
  | s => some (10, s)

def integer : Scan Unit := do
  match ← base with
  | 10 =>
    let isNegative ← sign
    let n := numberOf 10 (← decimalDigits)
    check (if isNegative then n ≤ Nat.pow 2 63 else n < Nat.pow 2 63)
  | b => check (numberOf b (← digits b) < Nat.pow 2 63)

/-- Whether a decimal is in the range of doubles. Its digits are those before and after the point;
only the first few hundred places can matter. -/
def isInRange (whole fraction : List Nat) (exponent : Int) : Bool :=
  let ds := (whole ++ fraction).dropWhile (· = 0)
  let zeros := (whole ++ fraction).length - ds.length
  let point : Int := (whole.length : Int) - zeros + exponent
  if ds.isEmpty || point ≤ 308 then true
  else if 309 < point then false
  else
    let kept := ds.take 800
    let n := numberOf 10 kept
    let e : Int := 309 - kept.length
    let (num, den) := if 0 ≤ e then (n * Nat.pow 10 e.toNat, 1) else (n, Nat.pow 10 (-e).toNat)
    num < (Nat.pow 2 1024 - Nat.pow 2 970) * den

/-- Takes the exponent of a float. -/
def exponent : Scan Int := do
  let _ ← one fun c ↦ c = 'e' || c = 'E'
  let isNegative ← sign
  let n := numberOf 10 (← digits 10)
  return if isNegative then -n else n

/-- Takes the name of a number that has no digits. -/
def namedFloat : Scan Unit := word ['i', 'n', 'f'] <|> word ['n', 'a', 'n']

/-- Takes a float. One that is too large for a double is refused unless it is negative. -/
def float : Scan Unit := do
  let isNegative ← sign
  let finite : Scan Unit := do
    let whole ← decimalDigits
    let fraction ← optional do
      char '.'
      digits 10
    let e ← optional exponent
    check (fraction.isSome || e.isSome)
    check (isNegative || isInRange whole (fraction.getD []) (e.getD 0))
  finite <|> namedFloat

/-! ## Strings in TOML

A string is quoted singly, and then taken as it is, or doubly, and then a backslash starts an
escape. Either kind can be written over several lines between three quotes: an end of line right
after the opening quotes does not count, and up to two quotes may stand before the closing ones. In
a doubly quoted one a backslash at the end of a line takes out all blanks and ends of lines that
follow.

An end of line within a string counts as a line feed, however it is written.
-/

def hexNumber? (cs : List Char) : Option Nat :=
  cs.foldlM (fun n c ↦ (digitValue? 16 c).map (16 * n + ·)) 0

def hexChar? (cs : List Char) : Option Char :=
  (hexNumber? cs).bind fun n ↦ if n.isValidChar then some (Char.ofNat n) else none

/-- The character that a letter stands for after a backslash. -/
def escaped? : Char → Option Char
  | 'b' => some '\x08'
  | 't' => some '\t'
  | 'n' => some '\n'
  | 'f' => some '\x0c'
  | 'r' => some '\r'
  | '"' => some '"'
  | '\\' => some '\\'
  | _ => none

/-- The rest of a doubly quoted string, and what is left. -/
def quotedRest : (before : List Char) → List Char → Option (List Char × List Char)
  | _, [] => none
  | before, '"' :: rest => some (before.reverse, rest)
  | before, '\\' :: 'u' :: a :: b :: c :: d :: rest =>
    (hexChar? [a, b, c, d]).bind fun x ↦ quotedRest (x :: before) rest
  | before, '\\' :: 'U' :: a :: b :: c :: d :: e :: f :: g :: h :: rest =>
    (hexChar? [a, b, c, d, e, f, g, h]).bind fun x ↦ quotedRest (x :: before) rest
  | before, '\\' :: c :: rest => (escaped? c).bind fun x ↦ quotedRest (x :: before) rest
  | before, c :: rest => if isText c then quotedRest (c :: before) rest else none

/-- Where a string over several lines stands after a backslash that is the last on its line. -/
inductive Fold where
  /-- Nothing is taken out. -/
  | none
  /-- The end of the line must follow. -/
  | begun
  /-- Blanks and ends of lines are taken out. -/
  | skipping
  deriving DecidableEq

/-- The rest of a doubly quoted string over several lines, and what is left. -/
def quotedLines : Fold → (before : List Char) → List Char → Option (List Char × List Char)
  | _, _, [] => Option.none
  | fold, before, '\n' :: rest =>
    if fold = .none then quotedLines .none ('\n' :: before) rest
    else quotedLines .skipping before rest
  | fold, before, '\r' :: '\n' :: rest =>
    if fold = .none then quotedLines .none ('\n' :: before) rest
    else quotedLines .skipping before rest
  | .begun, before, c :: rest => if isBlank c then quotedLines .begun before rest else Option.none
  | .skipping, before, ' ' :: rest => quotedLines .skipping before rest
  | .skipping, before, '\t' :: rest => quotedLines .skipping before rest
  | _, before, '"' :: '"' :: '"' :: '"' :: '"' :: rest => some (before.reverse ++ ['"', '"'], rest)
  | _, before, '"' :: '"' :: '"' :: '"' :: rest => some (before.reverse ++ ['"'], rest)
  | _, before, '"' :: '"' :: '"' :: rest => some (before.reverse, rest)
  | _, before, '\\' :: 'u' :: a :: b :: c :: d :: rest =>
    (hexChar? [a, b, c, d]).bind fun x ↦ quotedLines .none (x :: before) rest
  | _, before, '\\' :: 'U' :: a :: b :: c :: d :: e :: f :: g :: h :: rest =>
    (hexChar? [a, b, c, d, e, f, g, h]).bind fun x ↦ quotedLines .none (x :: before) rest
  | _, before, '\\' :: '\n' :: rest => quotedLines .skipping before rest
  | _, before, '\\' :: '\r' :: '\n' :: rest => quotedLines .skipping before rest
  | _, before, '\\' :: c :: rest =>
    if isBlank c then quotedLines .begun before rest
    else (escaped? c).bind fun x ↦ quotedLines .none (x :: before) rest
  | _, before, c :: rest =>
    if isText c then quotedLines .none (c :: before) rest else Option.none

/-- The rest of a singly quoted string, and what is left. -/
def literalRest : (before : List Char) → List Char → Option (List Char × List Char)
  | _, [] => none
  | before, '\'' :: rest => some (before.reverse, rest)
  | before, c :: rest => if isText c then literalRest (c :: before) rest else none

/-- The rest of a singly quoted string over several lines, and what is left. -/
def literalLines : (before : List Char) → List Char → Option (List Char × List Char)
  | _, [] => none
  | before, '\n' :: rest => literalLines ('\n' :: before) rest
  | before, '\r' :: '\n' :: rest => literalLines ('\n' :: before) rest
  | before, '\'' :: '\'' :: '\'' :: '\'' :: '\'' :: rest =>
    some (before.reverse ++ ['\'', '\''], rest)
  | before, '\'' :: '\'' :: '\'' :: '\'' :: rest => some (before.reverse ++ ['\''], rest)
  | before, '\'' :: '\'' :: '\'' :: rest => some (before.reverse, rest)
  | before, c :: rest => if isText c then literalLines (c :: before) rest else none

/-- What is left after an end of line, if there is one. -/
def dropNewLine : List Char → List Char
  | '\n' :: rest => rest
  | '\r' :: '\n' :: rest => rest
  | s => s

/-- Takes a string on one line. -/
def line : Scan (List Char)
  | '"' :: rest => quotedRest [] rest
  | '\'' :: rest => literalRest [] rest
  | _ => none

def string : Scan (List Char)
  | '"' :: '"' :: '"' :: rest => quotedLines .none [] (dropNewLine rest)
  | '\'' :: '\'' :: '\'' :: rest => literalLines [] (dropNewLine rest)
  | s => line s

end Redirector.Toml
