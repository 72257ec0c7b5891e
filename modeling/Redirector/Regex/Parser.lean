import Redirector.Regex.Basic
import Redirector.Text.Class

/-!
# Reading regular expressions

The syntax of filters. Groups and brackets nest, so what is open around the next character is kept
on a stack and the text is read once from the left; no step looks back. Each part that has been
read carries its height, the number of constructs nested in it, because the engine refuses what is
nested deeper than 250.

Under the option `x`, blanks and comments between the parts of an expression do not count.
-/

namespace Redirector.Regex

/-- How deep constructs may be nested. -/
def greatestHeight : Nat := 250

/-- A part of an expression, and its height. -/
structure Part (α : Type) where
  value : α
  height : Nat

namespace Parser

/-! ## Blanks -/

/-- The rest after blanks and comments. -/
def skipBlanks : (inComment : Bool) → List Char → List Char
  | _, [] => []
  | true, c :: r => skipBlanks (c ≠ '\n') r
  | false, c :: r =>
    if Text.isBlank c then skipBlanks false r else if c = '#' then skipBlanks true r else c :: r

/-- The rest after what does not count. -/
def pass (spaced : Bool) (s : List Char) : List Char := if spaced then skipBlanks false s else s

/-- The character after the next one, as far as a range looks ahead: in a comment it sees the first
character that is not blank. -/
def second? (spaced : Bool) (s : List Char) : Option Char :=
  let r := s.drop 1
  if spaced then
    match r.dropWhile Text.isBlank with
    | '#' :: r => (r.dropWhile Text.isBlank).head?
    | r => r.head?
  else r.head?

/-! ## Escapes -/

def hexDigit? (c : Char) : Option Nat :=
  if '0' ≤ c ∧ c ≤ '9' then some (c.toNat - 48)
  else if 'a' ≤ c ∧ c ≤ 'f' then some (c.toNat - 87)
  else if 'A' ≤ c ∧ c ≤ 'F' then some (c.toNat - 55)
  else none

/-- The character with a number. -/
def char? (n : Nat) : Option Char := if n.isValidChar then some (Char.ofNat n) else none

/-- A number of as many hexadecimal digits. -/
def fixedHex (spaced : Bool) : (count value : Nat) → List Char → Option (Nat × List Char)
  | 0, value, r => some (value, r)
  | _ + 1, _, [] => none
  | n + 1, value, c :: r => do
    fixedHex spaced n (value * 16 + (← hexDigit? c)) (pass spaced r)

/-- The rest up to a closing brace, without what does not count, and the rest after the brace. The
fuel is the number of characters left. -/
def untilBrace (spaced : Bool) : (fuel : Nat) → (found : List Char) → List Char →
    Option (List Char × List Char)
  | 0, _, _ => none
  | _ + 1, _, [] => none
  | fuel + 1, found, c :: r =>
    if c = '}' then some (found.reverse, r)
    else untilBrace spaced fuel (c :: found) (pass spaced r)

/-- The number of hexadecimal digits. -/
def hexNumber? (ds : List Char) : Option Nat :=
  if ds.isEmpty then none
  else ds.foldl (fun n d ↦ do return (← n) * 16 + (← hexDigit? d)) (some 0)

/-- A character by its number, after the letter that announces it. -/
def parseHex (spaced : Bool) (letter : Char) (s : List Char) : Option (Literal × List Char) :=
  match pass spaced s with
  | '{' :: r => do
    let (digits, r) ← untilBrace spaced (r.length + 1) [] (pass spaced r)
    return (⟨← char? (← hexNumber? digits), false⟩, pass spaced r)
  | r => do
    let count := if letter = 'x' then 2 else if letter = 'u' then 4 else 8
    let (n, r) ← fixedHex spaced count 0 r
    return (⟨← char? n, letter = 'x'⟩, r)

/-- The part of a name before a separator and the part after it. -/
def splitAt (separator : List Char) : (before : List Char) → List Char →
    Option (List Char × List Char)
  | _, [] => none
  | before, c :: r =>
    if separator.isPrefixOf (c :: r) then
      some (before.reverse, (c :: r).drop separator.length)
    else splitAt separator (c :: before) r

/-- The query between braces. -/
def query (name : List Char) : Property.Query :=
  match splitAt ['!', '='] [] name with
  | some (p, v) => .value p v
  | none =>
    match splitAt [':'] [] name with
    | some (p, v) => .value p v
    | none =>
      match splitAt ['='] [] name with
      | some (p, v) => .value p v
      | none => .name name

/-- A class by its property, after the letter that announces it. -/
def parseProperty (spaced : Bool) (s : List Char) : Option (Property.Query × List Char) :=
  match pass spaced s with
  | [] => none
  | '{' :: r => do
    let (name, r) ← untilBrace spaced (r.length + 1) [] (pass spaced r)
    return (query name, r)
  | '\\' :: _ => none
  | c :: r => some (.letter c, pass spaced r)

/-- Whether a character has a meaning of its own in expressions, so that a backslash takes it
away. -/
def isMeta (c : Char) : Bool := "\\.+*?()|[]\x7b\x7d^$#&-~".toList.contains c

/-- Whether a backslash before a character leaves it as it is. -/
def isEscapable (c : Char) : Bool :=
  isMeta c || (c.toNat < 128 && !c.isAlphanum && c ≠ '<' && c ≠ '>')

/-- The names of the special word boundaries. -/
def boundary? (name : String) : Option Look :=
  match name with
  | "start" => some .wordStart
  | "end" => some .wordEnd
  | "start-half" => some .wordStartHalf
  | "end-half" => some .wordEndHalf
  | _ => none

def isBoundaryChar (c : Char) : Bool := c.isAlpha || c = '-'

/-- The longest run of characters of a class, what does not count left out, and the rest. The fuel
is the number of characters left. -/
def takeRun (spaced : Bool) (p : Char → Bool) : (fuel : Nat) → (found : List Char) → List Char →
    List Char × List Char
  | 0, found, r => (found.reverse, r)
  | _ + 1, found, [] => (found.reverse, [])
  | fuel + 1, found, c :: r =>
    if p c then takeRun spaced p fuel (c :: found) (pass spaced r) else (found.reverse, c :: r)

/-- What follows `\b`: the name of a special boundary in braces, or nothing. Braces that hold no
name are left to the repetition that they announce. -/
def parseBoundary (spaced : Bool) (s : List Char) : Option (Look × List Char) :=
  match s with
  | '{' :: r =>
    match pass spaced r with
    | [] => none
    | c :: r' =>
      if isBoundaryChar c then
        match takeRun spaced isBoundaryChar (r'.length + 2) [] (c :: r') with
        | (name, '}' :: rest) => do return (← boundary? (String.ofList name), rest)
        | _ => none
      else some (.wordBoundary, s)
  | _ => some (.wordBoundary, s)

/-- What a backslash announces. -/
def parseEscape (spaced : Bool) : List Char → Option (Regex × List Char)
  | [] => none
  | c :: r =>
    let plain (d : Char) : Option (Regex × List Char) := some (.literal ⟨d, false⟩, r)
    let look (l : Look) : Option (Regex × List Char) := some (.look l, r)
    let perl (negated : Bool) (p : Perl) : Option (Regex × List Char) := some (.perl negated p, r)
    match c with
    | 'x' | 'u' | 'U' => do
      let (l, r) ← parseHex spaced c r
      return (.literal l, r)
    | 'p' | 'P' => do
      let (q, r) ← parseProperty spaced r
      return (.property (c = 'P') q, r)
    | 'd' => perl false .digit
    | 'D' => perl true .digit
    | 's' => perl false .space
    | 'S' => perl true .space
    | 'w' => perl false .word
    | 'W' => perl true .word
    | 'a' => plain '\x07'
    | 'f' => plain '\x0c'
    | 't' => plain '\t'
    | 'n' => plain '\n'
    | 'r' => plain '\r'
    | 'v' => plain '\x0b'
    | 'A' => look .textStart
    | 'z' => look .textEnd
    | 'b' => do
      let (l, r) ← parseBoundary spaced r
      return (.look l, r)
    | 'B' => look .notWordBoundary
    | '<' => look .wordStart
    | '>' => look .wordEnd
    | c => if isEscapable c then plain c else none

/-! ## Sets between brackets -/

def posix? (name : String) : Option Posix :=
  match name with
  | "alnum" => some .alnum
  | "alpha" => some .alpha
  | "ascii" => some .ascii
  | "blank" => some .blank
  | "cntrl" => some .cntrl
  | "digit" => some .digit
  | "graph" => some .graph
  | "lower" => some .lower
  | "print" => some .print
  | "punct" => some .punct
  | "space" => some .space
  | "upper" => some .upper
  | "word" => some .word
  | "xdigit" => some .xdigit
  | _ => none

/-- A class of ASCII characters by name, such as `[:alpha:]`. -/
def parsePosix? (s : List Char) : Option (CharSet × List Char) :=
  match s with
  | '[' :: ':' :: r =>
    let (negated, r) := match r with
      | '^' :: r => (true, r)
      | r => (false, r)
    let name := r.takeWhile (· ≠ ':')
    match r.dropWhile (· ≠ ':') with
    | ':' :: ']' :: rest => do return (.posix negated (← posix? (String.ofList name)), rest)
    | _ => none
  | _ => none

/-- One item of a set, or one end of a range. -/
def parseItem (spaced : Bool) : List Char → Option (Regex × List Char)
  | [] => none
  | '\\' :: r => parseEscape spaced r
  | c :: r => some (.literal ⟨c, false⟩, r)

/-- What can be an item of a set. -/
def item? : Regex → Option CharSet
  | .literal l => some (.literal l)
  | .perl negated p => some (.perl negated p)
  | .property negated q => some (.property negated q)
  | _ => none

/-- What can be an end of a range. -/
def end? : Regex → Option Literal
  | .literal l => some l
  | _ => none

/-- One item of a set or one range. -/
def parseRange (spaced : Bool) (s : List Char) : Option (CharSet × List Char) := do
  let (first, r) ← parseItem spaced s
  match pass spaced r with
  | [] => none
  | '-' :: r' =>
    let next := second? spaced ('-' :: r')
    if next = some ']' ∨ next = some '-' then return (← item? first, '-' :: r')
    else
      let (last, r) ← parseItem spaced (pass spaced r')
      let a ← end? first
      let b ← end? last
      if a.char ≤ b.char then return (.range a b, r) else none
  | r => return (← item? first, r)

/-- A set around the one that is being read: the items before it, whether it is negated, and the
operation whose left side has been read. -/
structure SetFrame where
  items : List (Part CharSet)
  negated : Bool
  pending : Option (SetOp × Part CharSet)

/-- The greatest height among some parts. -/
def tallest {α : Type} (ps : List (Part α)) : Nat := ps.foldl (fun h p ↦ max h p.height) 0

/-- The items of a set, the last one first, as one set. -/
def unionOf (items : List (Part CharSet)) : Part CharSet :=
  match items with
  | [] => ⟨.union [], 0⟩
  | [i] => i
  | items => ⟨.union (items.reverse.map Part.value), tallest items + 1⟩

/-- A set together with the operation that waits for it. -/
def applyPending (pending : Option (SetOp × Part CharSet)) (right : Part CharSet) : Part CharSet :=
  match pending with
  | none => right
  | some (o, left) => ⟨.op o left.value right.value, max left.height right.height + 1⟩

/-- The dashes that may stand first in a set. -/
def leadingDashes (spaced : Bool) : (fuel : Nat) → (found : Nat) → List Char → Nat × List Char
  | 0, found, r => (found, r)
  | fuel + 1, found, '-' :: r => leadingDashes spaced fuel (found + 1) (pass spaced r)
  | _ + 1, found, r => (found, r)

/-- What opens a set, after the bracket: whether it is negated, and the dashes or the bracket that
stand for themselves because they come first. -/
def parseOpening (spaced : Bool) (s : List Char) :
    Option (Bool × List (Part CharSet) × List Char) := do
  let (negated, r) := match pass spaced s with
    | '^' :: r => (true, pass spaced r)
    | r => (false, r)
  let (dashes, r) := leadingDashes spaced r.length 0 r
  let items := List.replicate dashes (Part.mk (CharSet.literal ⟨'-', false⟩) 0)
  let (items, r) := match items, r with
    | [], ']' :: r => ([Part.mk (CharSet.literal ⟨']', false⟩) 0], pass spaced r)
    | items, r => (items, r)
  if r.isEmpty then none else return (negated, items, r)

/-- Reads a set up to its closing bracket, given the items read so far and the sets around it, the
innermost of which belongs to it. The fuel is the number of characters left. -/
def parseSet (spaced : Bool) : (fuel : Nat) → List (Part CharSet) → List SetFrame → List Char →
    Option (Bool × Part CharSet × List Char)
  | 0, _, _, _ => none
  | _ + 1, _, [], _ => none
  | fuel + 1, items, frame :: frames, s =>
    if greatestHeight < frames.length then none
    else
      match pass spaced s with
      | [] => none
      | '[' :: r =>
        match parsePosix? ('[' :: r) with
        | some (c, r) => parseSet spaced fuel (⟨c, 0⟩ :: items) (frame :: frames) r
        | none => do
          let (negated, inner, r) ← parseOpening spaced r
          parseSet spaced fuel inner
            (⟨[], negated, none⟩ :: { frame with items := items } :: frames) r
      | ']' :: r =>
        let whole := applyPending frame.pending (unionOf items)
        match frames with
        | [] => some (frame.negated, whole, r)
        | outer :: frames =>
          let nested : Part CharSet := ⟨.bracketed frame.negated whole.value, whole.height + 1⟩
          parseSet spaced fuel (nested :: outer.items) (outer :: frames) r
      | '&' :: '&' :: r => operation fuel .intersection items frame frames r
      | '-' :: '-' :: r => operation fuel .difference items frame frames r
      | '~' :: '~' :: r => operation fuel .symmetricDifference items frame frames r
      | r => do
        let (c, r) ← parseRange spaced r
        parseSet spaced fuel (⟨c, 0⟩ :: items) (frame :: frames) r
where
  /-- Goes on with the right side of an operation. -/
  operation (fuel : Nat) (o : SetOp) (items : List (Part CharSet)) (frame : SetFrame)
      (frames : List SetFrame) (r : List Char) : Option (Bool × Part CharSet × List Char) :=
    let left := applyPending frame.pending (unionOf items)
    parseSet spaced fuel [] ({ frame with pending := some (o, left) } :: frames) r

def parseBrackets (spaced : Bool) (s : List Char) : Option (Part Regex × List Char) := do
  let (negated, items, r) ← parseOpening spaced s
  let (negated, whole, r) ← parseSet spaced (r.length + 1) items [⟨[], negated, none⟩] r
  return (⟨.set negated whole.value, whole.height + 1⟩, r)

/-! ## Repetitions -/

/-- A decimal number with what does not count around its digits; it must fit 32 bits. -/
def parseDecimal (spaced : Bool) (s : List Char) : Option Nat × List Char :=
  let r := s.dropWhile Text.isBlank
  let (digits, r) := takeRun spaced Char.isDigit (r.length + 1) [] r
  let value := digits.foldl (fun n d ↦ n * 10 + (d.toNat - 48)) 0
  let blanks := fun r ↦ pass spaced (r.dropWhile Text.isBlank)
  (if digits.isEmpty ∨ UInt32.size ≤ value then none else some value, blanks r)

/-- The bounds of a repetition, after the opening brace. -/
def parseBounds (spaced : Bool) (s : List Char) : Option ((Nat × Option Nat) × List Char) :=
  match pass spaced s with
  | [] => none
  | s =>
    match parseDecimal spaced s with
    | (least, ',' :: r) =>
      match pass spaced r with
      | [] => none
      | '}' :: r => do return ((← least, none), r)
      | r => do
        let least ← least
        match parseDecimal spaced r with
        | (some greatest, '}' :: r) =>
          if least ≤ greatest then return ((least, some greatest), r) else none
        | _ => none
    | (least, '}' :: r) => do
      let n ← least
      return ((n, some n), r)
    | _ => none

/-- Whether something can be repeated: a switch cannot. -/
def isRepeatable : Regex → Bool
  | .empty | .switch _ => false
  | _ => true

/-- The last of the parts read so far, repeated. -/
def repeatLast (least : Nat) (greatest : Option Nat) :
    List (Part Regex) → Option (List (Part Regex))
  | [] => none
  | p :: ps =>
    if isRepeatable p.value then some (⟨.repetition p.value least greatest, p.height + 1⟩ :: ps)
    else none

/-- The rest after the mark of a lazy repetition. -/
def passLazy (spaced : Bool) (braced : Bool) (s : List Char) : List Char :=
  match if braced then pass spaced s else s with
  | '?' :: r => r
  | _ => s

/-! ## Groups -/

def flag? : Char → Option Flag
  | 'i' => some .caseInsensitive
  | 'm' => some .multiLine
  | 's' => some .dotMatchesNewLine
  | 'U' => some .swapGreed
  | 'u' => some .unicode
  | 'R' => some .crlf
  | 'x' => some .ignoreWhitespace
  | _ => none

/-- The options of a group, up to the colon or the closing parenthesis. No option may come twice,
and a dash must come before an option. The fuel is the number of characters left. -/
def parseSwitch : (fuel : Nat) → (on afterDash : Bool) → (found : Switch) → List Char →
    Option (Switch × List Char)
  | 0, _, _, _, _ => none
  | _ + 1, _, _, _, [] => none
  | fuel + 1, on, afterDash, found, c :: r =>
    if c = ':' ∨ c = ')' then if afterDash then none else some (found.reverse, c :: r)
    else if c = '-' then if on then parseSwitch fuel false true found r else none
    else do
      let f ← flag? c
      if found.any (·.1 = f) then none else parseSwitch fuel on false ((f, on) :: found) r

def isNameChar (isFirst : Bool) (c : Char) : Bool :=
  if isFirst then c = '_' || Text.isAlphabetic c
  else c = '_' || c = '.' || c = '[' || c = ']' || Text.isAlphanumeric c

/-- The name of a group, up to the angle bracket. -/
def parseName : (found : List Char) → List Char → Option (List Char × List Char)
  | _, [] => none
  | found, c :: r =>
    if c = '>' then if found.isEmpty then none else some (found.reverse, r)
    else if isNameChar found.isEmpty c then parseName (c :: found) r
    else none

/-- What an opening parenthesis announces. -/
inductive Opening where
  | switch (s : Switch)
  | group (captures : Bool) (name : Option (List Char)) (s : Switch)

/-- What an opening parenthesis announces, and the rest after it. -/
def parseGroup (spaced : Bool) (s : List Char) : Option (Opening × List Char) :=
  match pass spaced s with
  | '?' :: '=' :: _ => none
  | '?' :: '!' :: _ => none
  | '?' :: '<' :: '=' :: _ => none
  | '?' :: '<' :: '!' :: _ => none
  | '?' :: 'P' :: '<' :: r => named r
  | '?' :: '<' :: r => named r
  | '?' :: r => do
    match ← parseSwitch (r.length + 1) true false [] r with
    | (s, ')' :: r) => if s.isEmpty then none else return (.switch s, r)
    | (s, _ :: r) => return (.group false none s, r)
    | (_, []) => none
  | r => some (.group true none [], r)
where
  /-- A group with a name. -/
  named (r : List Char) : Option (Opening × List Char) := do
    let (name, r) ← parseName [] r
    return (.group true (some name) [], r)

/-- Whether blanks count under a switch. -/
def spacedUnder (s : Switch) (spaced : Bool) : Bool :=
  ((s.find? (·.1 = .ignoreWhitespace)).map (·.2)).getD spaced

/-! ## The whole -/

/-- A group around the part that is being read, or the whole expression: the items of the branch
before it, the branches before that, and what the group is. -/
structure Frame where
  items : List (Part Regex)
  branches : List (Part Regex)
  captures : Bool
  switch : Switch
  spaced : Bool

/-- The items of a branch, the last one first, as one expression. -/
def concatOf (items : List (Part Regex)) : Part Regex :=
  match items with
  | [] => ⟨.empty, 0⟩
  | [i] => i
  | items => ⟨.concat (items.reverse.map Part.value), tallest items + 1⟩

/-- The branches of an alternation, the last one first, as one expression. -/
def alternationOf (branches : List (Part Regex)) (last : Part Regex) : Part Regex :=
  match branches with
  | [] => last
  | bs => ⟨.alternation ((last :: bs).reverse.map Part.value), tallest (last :: bs) + 1⟩

/-- What has been read: the items of the branch so far and the branches before it, the groups
around it, the names given so far, and whether blanks count. -/
structure State where
  items : List (Part Regex)
  branches : List (Part Regex)
  frames : List Frame
  names : List (List Char)
  spaced : Bool

def State.push (s : State) (p : Part Regex) : State := { s with items := p :: s.items }

/-- The branches read so far as one expression. -/
def State.whole (s : State) : Part Regex := alternationOf s.branches (concatOf s.items)

/-- Goes into a group, or takes over a switch. -/
def State.open (s : State) : Opening → Option State
  | .switch w => some { s.push ⟨.switch w, 0⟩ with spaced := spacedUnder w s.spaced }
  | .group captures name w =>
    if (name.map s.names.contains).getD false then none
    else some {
      items := [], branches := []
      frames := ⟨s.items, s.branches, captures, w, s.spaced⟩ :: s.frames
      names := name.toList ++ s.names
      spaced := spacedUnder w s.spaced }

/-- Leaves a group. -/
def State.close (s : State) : Option State :=
  match s.frames with
  | [] => none
  | f :: frames =>
    let whole := s.whole
    some {
      items := ⟨.group f.captures f.switch whole.value, whole.height + 1⟩ :: f.items
      branches := f.branches, frames := frames, names := s.names, spaced := f.spaced }

/-- A repetition of the last item. -/
def State.repeat (s : State) (least : Nat) (greatest : Option Nat) : Option State := do
  return { s with items := ← repeatLast least greatest s.items }

/-- The next part of an expression. -/
def step (s : State) (c : Char) (r : List Char) : Option (State × List Char) :=
  match c with
  | '(' => do
    let (o, r) ← parseGroup s.spaced r
    return (← s.open o, r)
  | ')' => do return (← s.close, r)
  | '|' => some ({ s with items := [], branches := concatOf s.items :: s.branches }, r)
  | '[' => do
    let (p, r) ← parseBrackets s.spaced r
    return (s.push p, r)
  | '?' => do return (← s.repeat 0 (some 1), passLazy s.spaced false r)
  | '*' => do return (← s.repeat 0 none, passLazy s.spaced false r)
  | '+' => do return (← s.repeat 1 none, passLazy s.spaced false r)
  | '{' => do
    let ((least, greatest), r) ← parseBounds s.spaced r
    return (← s.repeat least greatest, passLazy s.spaced true r)
  | '\\' => do
    let (p, r) ← parseEscape s.spaced r
    return (s.push ⟨p, 0⟩, r)
  | '.' => some (s.push ⟨.dot, 0⟩, r)
  | '^' => some (s.push ⟨.look .lineStart, 0⟩, r)
  | '$' => some (s.push ⟨.look .lineEnd, 0⟩, r)
  | c => some (s.push ⟨.literal ⟨c, false⟩, 0⟩, r)

/-- Reads to the end. The fuel is the number of characters left, plus one. -/
def loop : (fuel : Nat) → State → List Char → Option (Part Regex)
  | 0, _, _ => none
  | fuel + 1, s, r =>
    if greatestHeight < s.frames.length then none
    else
      match pass s.spaced r with
      | [] => if s.frames.isEmpty then some s.whole else none
      | c :: r => do
        let (s, r) ← step s c r
        loop fuel s r

end Parser

/-- Reads an expression that is not nested too deep. -/
def parse? (s : List Char) : Option Regex := do
  let p ← Parser.loop (s.length + 1) ⟨[], [], [], [], false⟩ s
  if p.height ≤ greatestHeight then return p.value else none

end Redirector.Regex
