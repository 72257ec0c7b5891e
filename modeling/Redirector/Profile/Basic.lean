import Redirector.Json.Value

/-!
# Profiles

A profile is a named set of forwarding entries that can be switched on and off. Its entry in the
profile list and its document are stored apart: the list under one key, each document under a key of
its own.
-/

namespace Redirector

open Json (Decoder)
open Json.Decoder (Field Record)

/-- The entry of a profile in the profile list. -/
structure Profile where
  id : String
  name : String
  active : Bool
  deriving DecidableEq, Repr, Inhabited

namespace Profile

/-- The identifier of the profile that is always there. -/
def defaultId : String := "0"

/-- The profile that is always there. -/
def default : Profile := ⟨defaultId, "Default", true⟩

/-- Whether this is the profile that is always there. -/
def isDefault (p : Profile) : Bool := p.id == defaultId

/-- An entry of the profile list. Members are in key order, as stored values have them. -/
def toJson (p : Profile) : Json :=
  .object [("active", .boolean p.active), ("id", .string p.id), ("name", .string p.name)]

/-- An entry as a reply has it, with its members in the order of the fields. -/
def toReply (p : Profile) : Json :=
  .object [("id", .string p.id), ("name", .string p.name), ("active", .boolean p.active)]

/-- An entry as far as it has been read. -/
structure Draft where
  id : Option String
  name : Option String
  active : Option Bool

def record : Record Draft Profile where
  expected := "struct ProfileItem"
  fields := [
    Field.required "id" Draft.id (fun a s ↦ { s with id := some a }) .string,
    Field.required "name" Draft.name (fun a s ↦ { s with name := some a }) .string,
    Field.required "active" Draft.active (fun a s ↦ { s with active := some a }) .boolean]
  draft := ⟨none, none, none⟩
  build s := do return ⟨← s.id, ← s.name, ← s.active⟩

def decoder : Decoder Profile := record.decoder

def listToJson (ps : List Profile) : Json := .array (ps.map toJson)

def listDecoder : Decoder (List Profile) := .list decoder

/-- The stored form of a document. -/
def documentToJson (text : String) : Json := .object [("jsonc_config", .string text)]

/-- The field of a stored document. -/
def documentRecord : Record (Option String) String where
  expected := "struct ProfileDocument"
  fields := [Field.required "jsonc_config" (fun s ↦ s) (fun a _ ↦ some a) .string]
  draft := none
  build s := s

def documentDecoder : Decoder String := documentRecord.decoder

end Profile

end Redirector

namespace Redirector.Profile

/-! ## Profile lists

The order of the list is the order in which profiles are shown, and in which the rules they compile
to are looked at. A list is in normal form if no identifier occurs twice and the default profile is
in it and active; `normalize` brings any list into that form and leaves the order alone.
-/

/-- The list without entries whose identifier has occurred before. -/
def distinct : (seen : List String) → List Profile → List Profile
  | _, [] => []
  | seen, p :: ps => if p.id ∈ seen then distinct seen ps else p :: distinct (p.id :: seen) ps

/-- The profile, active if it is the default one. -/
def activateDefault (p : Profile) : Profile := if p.isDefault then { p with active := true } else p

/-- The list in normal form: the first entry of each identifier is kept, and the default profile is
put in front if it is missing. -/
def normalize (ps : List Profile) : List Profile :=
  let ps := (distinct [] ps).map activateDefault
  if ps.any isDefault then ps else default :: ps

def listed (id : String) (ps : List Profile) : Bool := ps.any (·.id == id)

def rename (id name : String) (ps : List Profile) : List Profile :=
  ps.map fun p ↦ if p.id = id then { p with name } else p

/-- The list with the profile under an identifier switched on or off. -/
def setActive (id : String) (active : Bool) (ps : List Profile) : List Profile :=
  ps.map fun p ↦ if p.id = id then { p with active } else p

def remove (id : String) (ps : List Profile) : List Profile := ps.filter (·.id ≠ id)

/-- The profile directly before the one under an identifier. -/
def before? (id : String) (ps : List Profile) : Option Profile :=
  (ps.takeWhile (·.id ≠ id)).getLast?

def swap (a b : Profile) (ps : List Profile) : List Profile :=
  ps.map fun p ↦ if p.id = a.id then b else if p.id = b.id then a else p

/-- The first number, from one on, whose text is not used. The fuel is the number of texts that are
used: each candidate that is refused is one of them. -/
def firstUnused (used : List String) : (fuel : Nat) → Nat → Nat
  | 0, n => n
  | fuel + 1, n => if toString n ∈ used then firstUnused used fuel (n + 1) else n

end Redirector.Profile
