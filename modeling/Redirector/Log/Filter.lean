import Redirector.Regex.Basic
import Redirector.Text.Basic
import Redirector.Text.Class

/-!
# Log filters

A log filter says which messages of the program are written: it is a list of directives, each with a
level and perhaps restricted to a part of the program, to spans or to fields. A directive that is a
level alone holds everywhere; one that is no level names a part, all of whose messages are written.

The part that has the longest name in common with a message decides about it (`isEnabled`).
-/

namespace Redirector.Log

/-- Levels, the least talkative one first. -/
inductive Level where
  | off
  | error
  | warn
  | info
  | debug
  | trace
  deriving DecidableEq, Repr

namespace Level

/-- How much a level lets through. -/
def rank : Level → Nat
  | off => 0
  | error => 1
  | warn => 2
  | info => 3
  | debug => 4
  | trace => 5

def names : List (String × Level) := [
  ("off", off), ("error", error), ("warn", warn), ("info", info), ("debug", debug),
  ("trace", trace)]

/-- The level of a number: a sign and leading zeros do not matter. -/
def ofDigits? (cs : List Char) : Option Level :=
  let cs := if cs.head? = some '+' then cs.tail else cs
  if cs ≠ [] ∧ cs.all Char.isDigit then
    let n := cs.foldl (fun n c ↦ 10 * n + (c.toNat - 48)) 0
    (names.find? fun p ↦ p.2.rank = n).map Prod.snd
  else none

/-- The level that is written as a text, by name or by number; nothing at all means errors. -/
def parse? (cs : List Char) : Option Level :=
  match ofDigits? cs with
  | some l => some l
  | none =>
    if cs = [] then some error
    else (names.find? fun p ↦ p.1.toList = cs.map Char.toLower).map Prod.snd

end Level

/-- A restriction to messages or spans with a field, perhaps of some value. -/
structure FieldMatch where
  name : List Char
  value : Option (List Char)
  deriving DecidableEq, Repr

/-- One part of a log filter. -/
structure Directive where
  level : Level
  target : Option (List Char)
  span : Option (List Char)
  fields : List FieldMatch
  deriving DecidableEq, Repr

namespace Directive

/-- Whether some characters are digits, and at least one. -/
def areDigits (cs : List Char) : Bool := cs ≠ [] && cs.all Char.isDigit

/-- Whether a text is an exponent, or nothing. -/
def isExponent : List Char → Bool
  | [] => true
  | e :: cs =>
    (e = 'e' || e = 'E') &&
      areDigits (if cs.head? = some '-' ∨ cs.head? = some '+' then cs.tail else cs)

/-- Whether a text is a number without a sign: digits with a point anywhere among them and perhaps
an exponent, or one of the words for numbers that have no digits. -/
def isUnsigned (cs : List Char) : Bool :=
  let (whole, rest) := cs.span Char.isDigit
  match rest with
  | '.' :: rest =>
    let (fraction, rest) := rest.span Char.isDigit
    areDigits (whole ++ fraction) && isExponent rest
  | rest =>
    (areDigits whole && isExponent rest) ||
      ["inf".toList, "infinity".toList, "nan".toList].contains (cs.map Char.toLower)

/-- Whether a text is a number as values of fields are. -/
def isNumber (cs : List Char) : Bool :=
  isUnsigned (if cs.head? = some '-' ∨ cs.head? = some '+' then cs.tail else cs)

section

variable (check : Regex.Check)

/-- The restriction that is written as a text. A value that is neither a number nor a truth value is
a regular expression. -/
def field? (cs : List Char) : Option FieldMatch :=
  match cs with
  | [] => none
  | cs =>
    match Text.split '=' cs with
    | name :: value :: _ =>
      if value = "true".toList ∨ value = "false".toList ∨ isNumber value ∨
          check (String.ofList value) = none then some ⟨name, some value⟩
      else none
    | name :: [] => some ⟨name, none⟩
    | [] => none

/-- How far a directive has been read: where the part that is being read began. -/
inductive State where
  | start
  | levelOrTarget
  | span (first : Nat)
  | field (first : Nat)
  | fields
  | target
  | level (first : Nat)

def slice (whole : List Char) (first last : Nat) : List Char := (whole.take last).drop first

/-- Whether a directive can begin with a character: a letter or digit of any script, a hyphen, a
colon or an underscore. -/
def isStart (c : Char) : Bool :=
  c = '-' || c = ':' || c = '_' || Text.within Text.alphabeticBounds c ||
    Text.within Text.numberBounds c

/-- Reads one more character, at some position. -/
def step (whole : List Char) (d : Directive) (state : State) (i : Nat) (c : Char) :
    Option (Directive × State) :=
  match state, c with
  | .start, '[' => some (d, .span (i + 1))
  | .start, c => if isStart c then some (d, .levelOrTarget) else none
  | .levelOrTarget, '=' => some ({ d with target := some (slice whole 0 i) }, .level (i + 1))
  | .levelOrTarget, '[' => some ({ d with target := some (slice whole 0 i) }, .span (i + 1))
  | .levelOrTarget, _ => some (d, state)
  | .target, '=' => some (d, .level (i + 1))
  | .span first, ']' => some ({ d with span := some (slice whole first i) }, .target)
  | .span first, '\x7b' =>
    let name := slice whole first i
    some ({ d with span := if name.isEmpty then none else some name }, .field (i + 1))
  | .span _, _ => some (d, state)
  | .field first, '\x7d' => do
    let f ← field? check (slice whole first i)
    return ({ d with fields := d.fields ++ [f] }, .fields)
  | .field _, _ => some (d, state)
  | .fields, ']' => some (d, .target)
  | .level _, _ => some (d, state)
  | .target, _ | .fields, _ => none

/-- Reads all characters from a position on. -/
def readFrom (whole : List Char) :
    Directive → State → (i : Nat) → List Char → Option (Directive × State)
  | d, state, _, [] => some (d, state)
  | d, state, i, c :: rest => do
    let (d, state) ← step check whole d state i c
    readFrom whole d state (i + 1) rest

/-- A directive without restrictions that lets everything through. -/
def everything : Directive := ⟨.trace, none, none, []⟩

/-- The directive that is written as a text. Blanks around it are skipped, but positions are those
without the blanks in front. -/
def parse? (whole : List Char) : Option Directive := do
  let (d, state) ← readFrom check whole everything .start 0 (Text.trim whole)
  match state with
  | .levelOrTarget =>
    match Level.parse? whole with
    | some l => some { d with level := l }
    | none => some { d with target := some whole }
  | .level first =>
    match whole.drop first with
    | [] => some d
    | cs => (Level.parse? cs).map fun l ↦ { d with level := l }
  | .target => some d
  | _ => none

end

/-- Whether the directive holds for messages rather than for spans alone. -/
def isStatic (d : Directive) : Bool := d.span.isNone && d.fields.all (·.value.isNone)

/-- Whether the directive is about messages of a part of the program that have some fields. -/
def covers (d : Directive) (target : String) (fields : List String) : Bool :=
  d.isStatic &&
    (match d.target with
      | none => true
      | some t => t.isPrefixOf target.toList) &&
    d.fields.all fun f ↦ fields.contains (String.ofList f.name)

/-- How specific the directive is: first about the part of the program, then about the fields. -/
def specificity (d : Directive) : List Nat :=
  [(d.target.map (·.length + 1)).getD 0, d.fields.length]

/-- Whether another directive about the same message, which comes later, gives way to this one. Of
two that are equally specific, the one whose fields come later in the alphabet stands. -/
def prevails (d other : Directive) : Bool :=
  other.specificity < d.specificity ||
    (other.specificity = d.specificity &&
      decide (other.fields.map FieldMatch.name < d.fields.map FieldMatch.name))

end Directive

abbrev Filter := List Directive

namespace Filter

/-- The log filter that is written as a text; nothing at all lets errors through. -/
def parse? (check : Regex.Check) (s : String) : Option Filter := do
  match (Text.split ',' s.toList).filter (· ≠ []) with
  | [] => some [{ Directive.everything with level := .error }]
  | parts => parts.mapM (Directive.parse? check)

/-- Whether messages of a level that have some fields are written for a part of the program. Of the
directives about them the most specific one decides, and of these the last one. -/
def isEnabled (f : Filter) (target : String) (fields : List String) (level : Level) : Bool :=
  let about := f.filter (·.covers target fields)
  let decisive := about.foldl (fun (best : Option Directive) d ↦
    match best with
    | none => some d
    | some b => if b.prevails d then some b else some d) none
  match decisive with
  | none => false
  | some d => level.rank ≤ d.level.rank

end Filter

end Redirector.Log
