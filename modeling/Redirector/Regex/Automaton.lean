import Redirector.Regex.Basic
import Redirector.Regex.Parser
import Redirector.Text.Class

/-!
# The automaton of an expression

The check that the program runs with (`Regex.check`). Nothing is proved from how it decides: the
rules and the engine take any check.

The library that it stands in for turns a filter into two automata over bytes, one that reads
forwards and one that reads backwards, and refuses an expression for which either grows past a
limit. It also refuses what could match part of a character. Both are decided here without building
anything: the number of states of a construct follows from the numbers of its parts, and only the
bytes of characters have to be spelled out.

## Options

An option holds from where it is switched to the end of the group around it, on to later branches
too. `cost?` therefore walks the expression from left to right with the options in force.

## What is estimated

The states of a class are counted for the backward automaton, where sequences of bytes share their
beginnings; forwards they share their ends as well, which about halves them. A class named by a
property, other than the lettered ones, is taken to be as large as that of the alphabetic
characters. Characters that differ in case alone are not counted together with the one that is
written, even where the options say that they match as well. So the check may be wrong about an
expression close to the limit. What it says about an expression is not the library's wording either.
-/

namespace Redirector.Regex

/-! ## Sets of characters by their bounds -/

namespace Bounds

/-- The bounds of a set put together from two others, point by point. The fuel is the number of
bounds left. -/
def combineFrom (f : Bool → Bool → Bool) :
    (fuel : Nat) → (inA inB inside : Bool) → List Nat → List Nat → List Nat
  | 0, _, _, _, _, _ => []
  | _ + 1, _, _, _, [], [] => []
  | fuel + 1, inA, inB, inside, a, b =>
    let next := match a.head?, b.head? with
      | some x, some y => min x y
      | some x, none => x
      | none, some y => y
      | none, none => 0
    -- Each set is left or entered at its own bounds only.
    let (inA, a) := if a.head? = some next then (!inA, a.tail) else (inA, a)
    let (inB, b) := if b.head? = some next then (!inB, b.tail) else (inB, b)
    let now := f inA inB
    let rest := combineFrom f fuel inA inB now a b
    if now = inside then rest else next :: rest

/-- The bounds of a set put together from two others, point by point. -/
def combine (f : Bool → Bool → Bool) (a b : List Nat) : List Nat :=
  combineFrom f (a.length + b.length + 1) false false false a b

/-- What is in either set. -/
def union (a b : List Nat) : List Nat := combine (· || ·) a b

/-- What is below a limit and not in the set. -/
def complement (limit : Nat) (a : List Nat) : List Nat :=
  combine (fun all inA ↦ all && !inA) [0, limit] a

/-- A set, or its complement below a limit. -/
def negateIf (negated : Bool) (limit : Nat) (a : List Nat) : List Nat :=
  if negated then complement limit a else a

/-- The ranges between the bounds, both ends included. -/
def ranges : List Nat → List (Nat × Nat)
  | first :: after :: rest => (first, after - 1) :: ranges rest
  | _ => []

def isAscii (a : List Nat) : Bool := a.all (· ≤ 128)

end Bounds

def Posix.bounds : Posix → List Nat
  | alnum => [48, 58, 65, 91, 97, 123]
  | alpha => [65, 91, 97, 123]
  | ascii => [0, 128]
  | blank => [9, 10, 32, 33]
  | cntrl => [0, 32, 127, 128]
  | digit => [48, 58]
  | graph => [33, 127]
  | lower => [97, 123]
  | print => [32, 127]
  | punct => [33, 48, 58, 65, 91, 97, 123, 127]
  | space => [9, 14, 32, 33]
  | upper => [65, 91]
  | word => [48, 58, 65, 91, 95, 96, 97, 123]
  | xdigit => [48, 58, 65, 71, 97, 103]

def Perl.bounds : Perl → List Nat
  | digit => Text.digitBounds
  | space => Text.blankBounds
  | word => Text.wordBounds

def Perl.asciiBounds : Perl → List Nat
  | digit => Posix.digit.bounds
  | space => Posix.space.bounds
  | word => Posix.word.bounds

/-- Whether a property names a class. -/
def Property.Query.isKnown : Property.Query → Bool
  | letter c => isClassName [c]
  | name n => isClassName n
  | value p v => isClassValue p v

/-! ## Bytes of characters -/

def codeLimit : Nat := 0x110000

def encode (n : Nat) : List Nat :=
  if n < 0x80 then [n]
  else if n < 0x800 then [0xC0 + n / 64, 0x80 + n % 64]
  else if n < 0x10000 then [0xE0 + n / 4096, 0x80 + n / 64 % 64, 0x80 + n % 64]
  else [0xF0 + n / 262144, 0x80 + n / 4096 % 64, 0x80 + n / 64 % 64, 0x80 + n % 64]

/-- A range of code points of one length, cut so that the bytes of each piece range independently.
The fuel bounds the cuts. -/
def cutRange : (fuel : Nat) → Nat × Nat → List (Nat × Nat)
  | 0, r => [r]
  | fuel + 1, (a, b) =>
    -- A block of `m` code points is what the last bytes of a sequence can spell out.
    let cut? := [64, 4096, 262144].findSome? fun m ↦
      if a / m = b / m then none
      else if a % m ≠ 0 then some ((a, a - a % m + m - 1), (a - a % m + m, b))
      else if b % m ≠ m - 1 then some ((a, b - b % m - 1), (b - b % m, b))
      else none
    match cut? with
    | none => [(a, b)]
    | some (left, right) => cutRange fuel left ++ cutRange fuel right

/-- The part of a range that lies in another one. -/
def clip (r : Nat × Nat) (s : Nat × Nat) : Option (Nat × Nat) :=
  let a := max r.1 s.1
  let b := min r.2 s.2
  if a ≤ b then some (a, b) else none

/-- Where characters are encoded in one length; the surrogates are left out. -/
def lengths : List (Nat × Nat) :=
  [(0, 0x7F), (0x80, 0x7FF), (0x800, 0xD7FF), (0xE000, 0xFFFF), (0x10000, 0x10FFFF)]

/-- The sequences of byte ranges for the characters of a set. -/
def byteSequences (bounds : List Nat) : List (List (Nat × Nat)) :=
  (Bounds.ranges bounds).flatMap fun r ↦
    (lengths.filterMap (clip r)).flatMap fun s ↦
      (cutRange 16 s).map fun (a, b) ↦ (encode a).zip (encode b)

/-- How many elements two lists have in common from the start. -/
def commonLength {α : Type} [DecidableEq α] : List α → List α → Nat
  | a :: as, b :: bs => if a = b then commonLength as bs + 1 else 0
  | _, _ => 0

/-- The states that sequences need if they share their beginnings. -/
def trieSize {α : Type} [DecidableEq α] : (previous : List α) → List (List α) → Nat
  | _, [] => 0
  | previous, s :: rest => s.length - commonLength previous s + trieSize s rest

/-! ## Costs -/

/-- What a part of an expression takes up in either automaton, in bytes of memory, and whether it
can match, or can only match, the empty text. -/
structure Cost where
  forward : Nat
  backward : Nat
  mayBeEmpty : Bool
  mustBeEmpty : Bool

namespace Cost

/-- What a state takes up. -/
def state : Nat := 32

/-- What a state takes up for each way out, if it has several. -/
def branch : Nat := 4

/-- What a state takes up for each range of bytes, if it has several. -/
def range : Nat := 8

/-- What the automata may take up: ten mebibytes. -/
def limit : Nat := 10 * 1024 * 1024

/-- One state that matches the empty text. -/
def nothing : Cost := ⟨state, state, true, true⟩

/-- Some bytes one after the other. -/
def bytes (n : Nat) : Cost := ⟨n * state, n * state, false, false⟩

/-- A choice between ranges of bytes. -/
def byteSet (ranges : Nat) : Cost :=
  ⟨2 * state + ranges * range, 2 * state + ranges * range, false, false⟩

/-- A choice between the characters of a set. -/
def charSet (bounds : List Nat) : Cost :=
  if Bounds.isAscii bounds then byteSet (bounds.length / 2)
  else
    let sequences := byteSequences bounds
    let backward := (2 + trieSize [] sequences) * state + sequences.length * branch
    ⟨backward / 2, backward, false, false⟩

def andThen (a b : Cost) : Cost :=
  ⟨a.forward + b.forward, a.backward + b.backward, a.mayBeEmpty && b.mayBeEmpty,
    a.mustBeEmpty && b.mustBeEmpty⟩

/-- One part or another, without the state that chooses. -/
def orElse (a b : Cost) : Cost :=
  ⟨a.forward + b.forward, a.backward + b.backward, a.mayBeEmpty || b.mayBeEmpty,
    a.mustBeEmpty && b.mustBeEmpty⟩

/-- The part with more states around it. -/
def plus (a : Cost) (states branches : Nat) : Cost :=
  { a with
    forward := a.forward + states * state + branches * branch
    backward := a.backward + states * state + branches * branch }

def captured (a : Cost) : Cost := { a with forward := a.forward + 2 * state }

def times (a : Cost) (n : Nat) : Cost :=
  if n = 0 then nothing
  else { a with forward := n * a.forward, backward := n * a.backward }

/-- A part repeated. What can only match the empty text is not repeated. -/
def repeated (a : Cost) (least : Nat) (greatest : Option Nat) : Cost :=
  let (least, greatest) :=
    if a.mustBeEmpty then (min least 1, some (min (greatest.getD 1) 1)) else (least, greatest)
  match least, greatest with
  | 0, some 0 => nothing
  | 1, some 1 => a
  | 0, some 1 => { a.plus 2 2 with mayBeEmpty := true }
  | 0, none =>
    -- A loop over what may be empty is entered through a choice of its own.
    { (if a.mayBeEmpty then a.plus 3 4 else a.plus 1 2) with mayBeEmpty := true }
  | n, none => (a.times n).plus 1 2
  | n, some m =>
    if n = m then a.times n
    else
      -- Each of the repetitions that may be left out has a choice before it; all lead to one end.
      let tail := (a.plus 1 2).times (m - n)
      { ((a.times n).andThen tail).plus 1 0 with
        mayBeEmpty := n = 0 || a.mayBeEmpty, mustBeEmpty := a.mustBeEmpty }

end Cost

/-- The options that decide what a class or a dot matches. -/
structure Options where
  unicode : Bool
  dotMatchesNewLine : Bool
  crlf : Bool

namespace Options

def default : Options := ⟨true, false, false⟩

/-- The options after a switch. -/
def switch (o : Options) (s : Switch) : Options :=
  s.foldl (fun o (f, on) ↦
    match f with
    | .unicode => { o with unicode := on }
    | .dotMatchesNewLine => { o with dotMatchesNewLine := on }
    | .crlf => { o with crlf := on }
    | _ => o) o

def dotBounds (o : Options) : List Nat :=
  if o.dotMatchesNewLine then [0, codeLimit]
  else if o.crlf then [0, 10, 11, 13, 14, codeLimit]
  else [0, 10, 11, codeLimit]

end Options

/-- The number of a literal in a set of bytes or of characters; a byte that is no character, or a
character that is no byte, has none. -/
def Literal.point? (unicode : Bool) (l : Literal) : Option Nat :=
  if unicode ∨ l.char.toNat < 128 then some l.char.toNat else none

/-- The characters of a lettered class. Without the option `u` they are bytes, and those of a
negated class would be parts of characters. -/
def Perl.bounds? (unicode negated : Bool) (p : Perl) : Option (List Nat) :=
  if unicode then some (Bounds.negateIf negated codeLimit p.bounds)
  else if negated then none
  else some p.asciiBounds

def Property.Query.bounds? (unicode negated : Bool) (q : Property.Query) : Option (List Nat) :=
  if unicode ∧ q.isKnown then some (Bounds.negateIf negated codeLimit Text.alphabeticBounds)
  else none

/-- A set that may be negated. Without the option `u` it must hold ASCII characters only. -/
def finishSet (unicode negated : Bool) (bounds : List Nat) : Option (List Nat) :=
  if unicode then some (Bounds.negateIf negated codeLimit bounds)
  else
    let bounds := Bounds.negateIf negated 256 bounds
    if Bounds.isAscii bounds then some bounds else none

mutual

/-- The characters of a set; `none` if it is not allowed. -/
def CharSet.bounds? (unicode : Bool) : CharSet → Option (List Nat)
  | .literal l => do
    let n ← l.point? unicode
    return [n, n + 1]
  | .range a b => do return [← a.point? unicode, (← b.point? unicode) + 1]
  | .posix negated p =>
    some (Bounds.negateIf negated (if unicode then codeLimit else 256) p.bounds)
  | .perl negated p => p.bounds? unicode negated
  | .property negated q => q.bounds? unicode negated
  | .bracketed negated s => do finishSet unicode negated (← s.bounds? unicode)
  | .union items => boundsOfItems unicode items
  | .op o left right => do
    let a ← left.bounds? unicode
    let b ← right.bounds? unicode
    return Bounds.combine (match o with
      | .intersection => fun x y ↦ x && y
      | .difference => fun x y ↦ x && !y
      | .symmetricDifference => fun x y ↦ x != y) a b

/-- The characters of several sets. -/
def boundsOfItems (unicode : Bool) : List CharSet → Option (List Nat)
  | [] => some []
  | s :: rest => do return Bounds.union (← s.bounds? unicode) (← boundsOfItems unicode rest)

end

def dotCost : Cost := .charSet Options.default.dotBounds

def wordCost : Cost := .charSet Text.wordBounds

/-- What the class of a property is taken to take up. -/
def propertyCost : Cost := .charSet Text.alphabeticBounds

mutual

/-- What an expression takes up under the options in force, and the options after it; `none` if it
could match part of a character or asks for a class that there is not. -/
def cost? (o : Options) : Regex → Option (Cost × Options)
  | .empty => some (.nothing, o)
  | .literal l =>
    if o.unicode = false ∧ l.isByte ∧ 128 ≤ l.char.toNat then none
    else some (.bytes l.char.utf8Size, o)
  | .dot =>
    if o.unicode = false then none
    else some (if o.dotMatchesNewLine || o.crlf then .charSet o.dotBounds else dotCost, o)
  | .look _ => some (.nothing, o)
  | .perl negated p => do
    let bounds ← p.bounds? o.unicode negated
    return (if o.unicode ∧ negated = false ∧ p = .word then wordCost else .charSet bounds, o)
  | .property negated q => do
    let bounds ← q.bounds? o.unicode negated
    return (if negated then .charSet bounds else propertyCost, o)
  | .set negated s => do
    return (.charSet (← finishSet o.unicode negated (← s.bounds? o.unicode)), o)
  | .switch s => some (.nothing, o.switch s)
  | .repetition r least greatest => do
    let (c, o) ← cost? o r
    return (c.repeated least greatest, o)
  | .group captures s r => do
    let (c, _) ← cost? (o.switch s) r
    return (if captures then c.captured else c, o)
  | .concat rs => costOfConcat o rs
  | .alternation rs => do
    let (c, o) ← costOfBranches o rs
    return (c.plus 2 rs.length, o)

/-- What parts one after the other take up. -/
def costOfConcat (o : Options) : List Regex → Option (Cost × Options)
  | [] => some (⟨0, 0, true, true⟩, o)
  | r :: rs => do
    let (a, o) ← cost? o r
    let (b, o) ← costOfConcat o rs
    return (a.andThen b, o)

/-- What branches take up, without the state that chooses. -/
def costOfBranches (o : Options) : List Regex → Option (Cost × Options)
  | [] => some (⟨0, 0, false, true⟩, o)
  | r :: rs => do
    let (a, o) ← cost? o r
    let (b, o) ← costOfBranches o rs
    return (a.orElse b, o)

end

/-- What is wrong with an expression by itself, apart from how it is written. -/
def objection? (r : Regex) : Option String :=
  match cost? .default r with
  | none => some "regex parse error"
  | some (c, _) =>
    if (c.captured.plus 3 2).forward ≤ Cost.limit ∧ c.backward ≤ Cost.limit then none
    else some "Compiled regex exceeds size limit of 10485760 bytes."

/-- The check that the program runs with. -/
def check : Check := fun filter ↦
  match parse? filter.toList with
  | none => some "regex parse error"
  | some r => objection? r

end Redirector.Regex
