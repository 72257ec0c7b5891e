import Redirector.Json.Value

/-!
# Forwarding configurations

What a profile asks for: redirects, in the order in which they are tried, and the domains whose
responses get permissive cross-origin headers. The active profiles are merged into one
configuration before anything is compiled. Merging keeps the first of several equal entries where
it stands, so that the first match is never another one than before.
-/

namespace Redirector

open Json (Decoder)
open Json.Decoder (Field Record)

/-- A redirect as its author writes it. -/
structure Redirect where
  pattern : String
  target : String
  deriving DecidableEq, Repr, Inhabited

namespace Redirect

/-- A redirect from the parts of a list: what is missing or absent is empty, what is too much is
dropped. -/
def ofParts (parts : List (Option String)) : Redirect :=
  let part (i : Nat) := (parts[i]?.join).getD ""
  ⟨part 0, part 1⟩

/-- A redirect is written as a list of two texts. -/
def toJson (r : Redirect) : Json := .array [.string r.pattern, .string r.target]

def decoder : Decoder Redirect := (Decoder.list (.optional .string)).map ofParts

end Redirect

/-- What a profile asks for. -/
structure Forwarding where
  redirects : List Redirect
  domains : List String
  deriving DecidableEq, Repr, Inhabited

namespace Forwarding

def empty : Forwarding := ⟨[], []⟩

def isEmpty (f : Forwarding) : Bool := f.redirects.isEmpty && f.domains.isEmpty

/-- A configuration with its two lists. -/
def toJson (f : Forwarding) : Json :=
  .object [
    ("proxy", .array (f.redirects.map Redirect.toJson)),
    ("cors", .array (f.domains.map .string))]

/-- A configuration as far as it has been read. -/
structure Draft where
  redirects : Option (List Redirect)
  domains : Option (List String)

def record : Record Draft Forwarding where
  expected := "struct ForwardConfig"
  fields := [
    Field.optional "proxy" Draft.redirects (fun a s ↦ { s with redirects := some a })
      (.list Redirect.decoder),
    Field.optional "cors" Draft.domains (fun a s ↦ { s with domains := some a })
      (.list .string)]
  draft := ⟨none, none⟩
  build s := some ⟨s.redirects.getD [], s.domains.getD []⟩

def decoder : Decoder Forwarding := record.decoder

/-! ## Merging -/

/-- One step of `firstOccurrences`: an element that is already there is dropped. -/
def addNew {α : Type} [DecidableEq α] (kept : List α) (a : α) : List α :=
  if a ∈ kept then kept else kept ++ [a]

/-- The elements of a list without those that occurred before. -/
def firstOccurrences {α : Type} [DecidableEq α] (xs : List α) : List α := xs.foldl addNew []

/-- The configuration that asks for everything that some configurations ask for, once. -/
def union (fs : List Forwarding) : Forwarding :=
  ⟨firstOccurrences (fs.flatMap redirects), firstOccurrences (fs.flatMap domains)⟩

end Forwarding

end Redirector
