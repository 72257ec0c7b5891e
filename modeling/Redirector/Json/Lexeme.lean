import Redirector.Json.Fault

/-!
# Lexemes of a JSON text

A text is first cut into lexemes, each with the places that messages may name. The cut is a fold
over the characters: the state is what has been seen of the lexeme that is still open, so that the
lexemes of a text are determined piece by piece from the left.

## Reading and skipping

A value whose content is not wanted is skipped, and skipping is more lenient than reading: it does
not pair surrogates and does not care how large a number is. A lexeme therefore carries both
verdicts, and whoever takes it from the list decides which one counts. After a lexeme that can be
neither read nor skipped nothing more is cut.

## Places

A message that objects to the next character names the place after its first byte (`Lexeme.seen`).
A message about what came before names the place before that character (`Lexeme.before`), unless the
text is pulled in byte by byte: then the character has been pulled in to be looked at, and counts
as read. `Lexer.pulled` tells the two kinds of reader apart.
-/

namespace Redirector.Json

open Text (Place)

/-- A breach of the grammar inside a lexeme. -/
structure Snag where
  breach : Breach
  place : Place
  deriving DecidableEq, Repr

inductive Word where
  | null
  | boolean (b : Bool)
  deriving DecidableEq, Repr

/-- A lexeme without its places. Strings and numbers carry what they read as and what skipping them
met. -/
inductive Token where
  | openObject
  | closeObject
  | openArray
  | closeArray
  | comma
  | colon
  | string (content : Except Snag String) (skipped : Except Snag Unit)
  | number (value : Except Snag Number) (skipped : Except Snag Unit)
  | word (value : Except Snag Word)
  /-- A character that starts no lexeme. -/
  | stray

structure Lexeme where
  token : Token
  /-- The place named by a message about what came before. -/
  before : Place
  /-- The place after its first byte. -/
  seen : Place
  /-- The place after it. -/
  after : Place

/-- Where a lexeme that is still open began. -/
structure Opening where
  before : Place
  seen : Place

/-! ## Strings -/

/-- Where in a string literal the next character stands. -/
inductive StringScan.Inside where
  | plain
  | escape
  /-- Among the four bytes of a numeric escape: how many came, and their value if all are digits. -/
  | digits (count : Nat) (value : Option Nat)

/-- A string literal so far. -/
structure StringScan where
  /-- Its characters, the last one first, or the first thing wrong with them. -/
  content : Except Snag (List Char)
  /-- A leading surrogate that still needs its other half. -/
  surrogate : Option Nat
  inside : StringScan.Inside

/-- What one more character makes of an open lexeme. -/
inductive Outcome (σ : Type) where
  | more (next : σ)
  /-- The lexeme is complete and includes the character. -/
  | complete (token : Token)
  /-- The lexeme was complete before the character. -/
  | ended (token : Token)
  /-- The lexeme can be neither read nor skipped. -/
  | broken (token : Token)

namespace StringScan

/-- Right after the opening quote. -/
def init : StringScan := ⟨.ok [], none, .plain⟩

/-- The string with one more character, if it is sound so far. -/
def push (s : StringScan) (c : Char) : StringScan := { s with content := s.content.map (c :: ·) }

/-- The string with something wrong with it, unless something was wrong before. -/
def blame (s : StringScan) (b : Breach) (p : Place) : StringScan :=
  match s.content with
  | .ok _ => { s with content := .error ⟨b, p⟩ }
  | .error _ => s

/-- The token of a string literal that ends here. -/
def token (s : StringScan) (skipped : Except Snag Unit) : Token :=
  .string (s.content.map fun cs ↦ String.ofList cs.reverse) skipped

/-- A string literal that can be neither read nor skipped. -/
def broken (s : StringScan) (b : Breach) (read skip : Place) : Outcome StringScan :=
  .broken ((s.blame b read).token (.error ⟨b, skip⟩))

/-- A pending surrogate is given up, since something else than its other half follows. -/
def dropSurrogate (s : StringScan) (p : Place) : StringScan :=
  if s.surrogate.isSome then { s.blame .surrogateCutShort p with surrogate := none } else s

/-- What a backslash and a letter stand for. -/
def escaped? : Char → Option Char
  | '"' => some '"'
  | '\\' => some '\\'
  | '/' => some '/'
  | 'b' => some '\x08'
  | 'f' => some '\x0c'
  | 'n' => some '\n'
  | 'r' => some '\r'
  | 't' => some '\t'
  | _ => none

def digit? (c : Char) : Option Nat :=
  if '0' ≤ c ∧ c ≤ '9' then some (c.toNat - 48)
  else if 'a' ≤ c ∧ c ≤ 'f' then some (c.toNat - 87)
  else if 'A' ≤ c ∧ c ≤ 'F' then some (c.toNat - 55)
  else none

def isTrailing (n : Nat) : Bool := 0xDC00 ≤ n && n ≤ 0xDFFF

def isLeading (n : Nat) : Bool := 0xD800 ≤ n && n ≤ 0xDBFF

/-- The string after a numeric escape: a leading surrogate waits, a trailing one completes the pair,
and any other number is a character. -/
def unit (s : StringScan) (n : Nat) (p : Place) : StringScan :=
  match s.surrogate with
  | some lead =>
    let s := { s with surrogate := none }
    if isTrailing n then
      s.push (Char.ofNat (0x10000 + (lead - 0xD800) * 0x400 + (n - 0xDC00)))
    else s.blame .unpairedSurrogate p
  | none =>
    if isTrailing n then s.blame .unpairedSurrogate p
    else if isLeading n then { s with surrogate := some n }
    else s.push (Char.ofNat n)

/-- One more character of a string literal, at a place. -/
def step (s : StringScan) (p : Place) (c : Char) : Outcome StringScan :=
  match s.inside with
  | .plain =>
    if c = '\\' then .more { s with inside := .escape }
    else
      let s := s.dropSurrogate (p.nudge c)
      if c = '"' then .complete (s.token (.ok ()))
      else if c.toNat < 0x20 then s.broken .controlCharacter (p.nudge c) p
      else .more (s.push c)
  | .escape =>
    if c = 'u' then .more { s with inside := .digits 0 (some 0) }
    else
      let s := s.dropSurrogate (p.nudge c)
      match escaped? c with
      | some d => .more { s.push d with inside := .plain }
      | none => s.broken .badEscape (p.nudge c) (p.nudge c)
  | .digits count value =>
    let value := do return (← value) * 16 + (← digit? c)
    let count' := count + c.utf8Size
    if count' < 4 then .more { s with inside := .digits count' value }
    else
      let after := if count' = 4 then p.step c else ⟨p.line, p.column + (4 - count)⟩
      match value with
      | some n => .more { s.unit n after with inside := .plain }
      | none => s.broken .badEscape after after

/-- The text ends inside a string literal. -/
def finish (s : StringScan) (p : Place) : Token :=
  (s.blame .endInString p).token (.error ⟨.endInString, p⟩)

end StringScan

/-! ## Numbers -/

/-- Which part of a number came last. -/
inductive NumberScan.Part where
  | minus
  | zero
  | whole
  | point
  | fraction
  | mark
  | sign
  | power
  deriving DecidableEq

/-- A number so far. The significand takes digits as long as it stays below `2 ^ 64`; whole digits
after that only raise the exponent, and digits of the fraction are dropped. -/
structure NumberScan where
  negative : Bool
  part : NumberScan.Part
  significand : Nat
  exponent : Int
  full : Bool
  powerNegative : Bool
  power : Nat
  /-- The place after the digit that made the written exponent too large to hold. -/
  overrun : Option Place

namespace NumberScan

def minus : NumberScan := ⟨true, .minus, 0, 0, false, false, 0, none⟩

def ofDigit (negative : Bool) (d : Nat) : NumberScan :=
  ⟨negative, if d = 0 then .zero else .whole, d, 0, false, false, 0, none⟩

/-- The significand stays below this. -/
def limit : Nat := UInt64.size

/-- The written exponent stays below this. -/
def powerLimit : Nat := Nat.pow 2 31

def digit? (c : Char) : Option Nat :=
  if '0' ≤ c ∧ c ≤ '9' then some (c.toNat - 48) else none

/-- One more digit before the point. -/
def pushWhole (n : NumberScan) (d : Nat) : NumberScan :=
  if n.full ∨ limit ≤ n.significand * 10 + d then
    { n with full := true, exponent := n.exponent + 1 }
  else { n with significand := n.significand * 10 + d }

/-- One more digit after the point. -/
def pushFraction (n : NumberScan) (d : Nat) : NumberScan :=
  if n.full ∨ limit ≤ n.significand * 10 + d then { n with full := true }
  else { n with significand := n.significand * 10 + d, exponent := n.exponent - 1 }

/-- One more digit of the written exponent, which ends at a place. -/
def pushPower (n : NumberScan) (d : Nat) (p : Place) : NumberScan :=
  if n.overrun.isSome then n
  else if powerLimit ≤ n.power * 10 + d then { n with overrun := some p }
  else { n with power := n.power * 10 + d }

/-- The double that the number denotes; the place is named if it is out of range. -/
def real (n : NumberScan) (p : Place) : Except Snag Number :=
  let signed (x : Binary64) : Number := .real { x with negative := n.negative }
  match n.overrun with
  | some q =>
    if n.significand ≠ 0 ∧ n.powerNegative = false then .error ⟨.numberTooLarge, q⟩
    else .ok (signed ⟨false, 0, Binary64.leastExponent⟩)
  | none =>
    let e := if n.powerNegative then n.exponent - n.power else n.exponent + n.power
    match Binary64.ofDecimal n.significand e with
    | some x => .ok (signed x)
    | none => .error ⟨.numberTooLarge, p⟩

/-- What a complete number denotes: an integer if it has no point and no exponent, its digits fit,
and it is not a negative zero; else a double. -/
def value (n : NumberScan) (p : Place) : Except Snag Number :=
  let whole := n.part = .zero ∨ n.part = .whole
  if whole ∧ n.full = false ∧ n.negative = false then .ok (.natural n.significand)
  else if whole ∧ n.full = false ∧ 0 < n.significand ∧ n.significand ≤ Nat.pow 2 63 then
    .ok (.negative n.significand)
  else n.real p

/-- The token of a number that is complete. -/
def token (n : NumberScan) (p : Place) : Token := .number (n.value p) (.ok ())

/-- A number that breaks off at a character. -/
def broken (p : Place) : Outcome NumberScan :=
  .broken (.number (.error ⟨.badNumber, p⟩) (.error ⟨.badNumber, p⟩))

/-- Whether a character marks an exponent. -/
def isMark (c : Char) : Bool := c = 'e' || c = 'E'

/-- One more character of a number, at a place. `stop` is the place named if the number was complete
before the character and its value is out of range. -/
def step (n : NumberScan) (stop p : Place) (c : Char) : Outcome NumberScan :=
  match n.part, digit? c with
  | .minus, some d => .more (ofDigit true d)
  | .minus, none => broken (p.nudge c)
  | .zero, some _ => broken (p.nudge c)
  | .whole, some d => .more (n.pushWhole d)
  | .point, some d => .more { n.pushFraction d with part := .fraction }
  | .fraction, some d => .more (n.pushFraction d)
  | .mark, some d => .more { n.pushPower d (p.step c) with part := .power }
  | .sign, some d => .more { n.pushPower d (p.step c) with part := .power }
  | .power, some d => .more (n.pushPower d (p.step c))
  | .zero, none => afterWhole
  | .whole, none => afterWhole
  | .point, none => broken (p.nudge c)
  | .fraction, none => if isMark c then .more { n with part := .mark } else .ended (n.token stop)
  | .mark, none =>
    if c = '+' then .more { n with part := .sign }
    else if c = '-' then .more { n with part := .sign, powerNegative := true }
    else broken (p.nudge c)
  | .sign, none => broken (p.nudge c)
  | .power, none => .ended (n.token stop)
where
  /-- After the whole part there may come a point or an exponent. -/
  afterWhole : Outcome NumberScan :=
    if c = '.' then .more { n with part := .point, full := false }
    else if isMark c then .more { n with part := .mark }
    else .ended (n.token stop)

/-- The text ends with a number. -/
def finish (n : NumberScan) (p : Place) : Token :=
  match n.part with
  | .zero | .whole | .fraction | .power => n.token p
  | .minus | .point | .mark | .sign =>
    .number (.error ⟨.endInValue, p⟩) (.error ⟨.badNumber, p⟩)

end NumberScan

/-! ## The cut -/

/-- What the next character belongs to. -/
inductive Lexer.Mode where
  | between
  | string (opening : Opening) (scan : StringScan)
  | number (opening : Opening) (scan : NumberScan)
  | word (opening : Opening) (rest : List Char) (value : Word)
  /-- A broken lexeme: what follows is never looked at. -/
  | halted

/-- The state of the cut. -/
structure Lexer where
  /-- Whether the text is pulled in byte by byte. -/
  pulled : Bool
  place : Place
  mode : Lexer.Mode
  /-- The lexemes that are complete, the last one first. -/
  lexemes : List Lexeme

namespace Lexer

/-- Before any character. -/
def init (pulled : Bool) : Lexer := ⟨pulled, Place.start, .between, []⟩

def emit (l : Lexer) (o : Opening) (t : Token) (after : Place) (mode : Mode) : Lexer :=
  { l with lexemes := ⟨t, o.before, o.seen, after⟩ :: l.lexemes, mode := mode }

/-- A character between lexemes. -/
def stepBetween (l : Lexer) (c : Char) : Lexer :=
  let seen := l.place.nudge c
  let o : Opening := ⟨if l.pulled then seen else l.place, seen⟩
  let after := l.place.step c
  let single (t : Token) := l.emit o t after .between
  let word (rest : String) (w : Word) : Lexer := { l with mode := .word o rest.toList w }
  match c with
  | ' ' | '\n' | '\t' | '\r' => l
  | '{' => single .openObject
  | '}' => single .closeObject
  | '[' => single .openArray
  | ']' => single .closeArray
  | ',' => single .comma
  | ':' => single .colon
  | '"' => { l with mode := .string o .init }
  | '-' => { l with mode := .number o .minus }
  | 'n' => word "ull" .null
  | 't' => word "rue" (.boolean true)
  | 'f' => word "alse" (.boolean false)
  | c =>
    match NumberScan.digit? c with
    | some d => { l with mode := .number o (.ofDigit false d) }
    | none => l.emit o .stray after .halted

/-- One more character; its place is the lexer's. -/
def stepMode (l : Lexer) (c : Char) : Lexer :=
  match l.mode with
  | .between => l.stepBetween c
  | .string o s =>
    match s.step l.place c with
    | .more s => { l with mode := .string o s }
    | .complete t => l.emit o t (l.place.step c) .between
    | .ended t => (l.emit o t l.place .between).stepBetween c
    | .broken t => l.emit o t l.place .halted
  | .number o n =>
    let stop := if l.pulled then l.place.nudge c else l.place
    match n.step stop l.place c with
    | .more n => { l with mode := .number o n }
    | .complete t => l.emit o t (l.place.step c) .between
    | .ended t => (l.emit o t stop .between).stepBetween c
    | .broken t => l.emit o t l.place .halted
  | .word o (d :: rest) w =>
    if c = d then
      if rest.isEmpty then l.emit o (.word (.ok w)) (l.place.step c) .between
      else { l with mode := .word o rest w }
    else l.emit o (.word (.error ⟨.noWord, l.place.nudge c⟩)) l.place .halted
  | .word o [] w => (l.emit o (.word (.ok w)) l.place .between).stepBetween c
  | .halted => l

/-- One more character. -/
def step (l : Lexer) (c : Char) : Lexer :=
  { l.stepMode c with place := l.place.step c }

/-- The lexemes once the text has ended. -/
def finish (l : Lexer) : List Lexeme :=
  let l := match l.mode with
    | .between | .halted => l
    | .string o s => l.emit o (s.finish l.place) l.place .halted
    | .number o n => l.emit o (n.finish l.place) l.place .halted
    | .word o [] w => l.emit o (.word (.ok w)) l.place .halted
    | .word o _ _ => l.emit o (.word (.error ⟨.endInValue, l.place⟩)) l.place .halted
  l.lexemes.reverse

end Lexer

/-- A text cut into lexemes, and the place where it ends. -/
structure Cut where
  lexemes : List Lexeme
  finish : Place

/-- The cut of a text. -/
def Cut.ofChars (pulled : Bool) (s : List Char) : Cut :=
  let l := s.foldl Lexer.step (Lexer.init pulled)
  ⟨l.finish, l.place⟩

end Redirector.Json
