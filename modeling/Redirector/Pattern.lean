import Redirector.Text.Class

/-!
# Match patterns and target templates

A profile author writes a match pattern as plain text with `(.*)` for "anything", and refers to what
was captured as `$1`, `$2`, … in the target. The rule engine wants a regular expression and a
substitution with `\1`, `\2`, …. Both translations are total: a pattern that is no regular
expression afterwards is refused when it is installed, not here.

## Patterns

A pattern is translated in three passes: every dot is escaped, then every dash, and then each group
that the first pass turned into `(\.*)` is given back its dot. The order matters only in that the
groups are restored last; no pass can produce or destroy what another one looks for.

## Templates

A reference is a dollar sign and the longest run of decimal digits after it; only the dollar sign
is replaced. Nothing else is escaped, so a template that already has backslashes keeps them.
-/

namespace Redirector

namespace Pattern

/-- Puts a backslash before every occurrence of a character. -/
def escape (c : Char) (s : List Char) : List Char :=
  s.flatMap fun d ↦ if d = c then ['\\', d] else [d]

/-- The capture group as authors write it. -/
def group : List Char := ['(', '.', '*', ')']

/-- One step of `restoreGroups`, from the right: an opening parenthesis that now stands before an
escaped group body takes the backslash away. -/
def restoreStep (c : Char) (rest : List Char) : List Char :=
  match c, rest with
  | '(', '\\' :: '.' :: '*' :: ')' :: tail => group ++ tail
  | c, rest => c :: rest

/-- Gives every group `(\.*)` back its plain dot. -/
def restoreGroups (s : List Char) : List Char := s.foldr restoreStep []

/-- The regular expression for a match pattern. -/
def toFilter (pattern : String) : String :=
  String.ofList (restoreGroups (escape '-' (escape '.' pattern.toList)))

end Pattern

namespace Template

/-- Replaces the dollar sign of every reference by a backslash, reading from the left and taking
each reference with all its digits. -/
def replaceReferences : List Char → List Char
  | [] => []
  | c :: rest =>
    let digits := rest.takeWhile Text.isDigit
    if c = '$' ∧ digits ≠ [] then
      '\\' :: digits ++ replaceReferences (rest.dropWhile Text.isDigit)
    else c :: replaceReferences rest
termination_by s => s.length
decreasing_by
  · have := (List.dropWhile_suffix (l := rest) Text.isDigit).length_le
    simp only [List.length_cons]
    omega
  · simp

/-- The substitution for a target template. -/
def toSubstitution (template : String) : String :=
  String.ofList (replaceReferences template.toList)

end Template

end Redirector
