import Redirector.Json.Basic
import Redirector.Json.Value
import Redirector.Text.Basic

/-!
# Requests and replies

What the admin API needs of a request, and what it answers. The body of a request is the one part
of it that can be wrong in several ways at once, so it is settled here which of them counts.
-/

namespace Redirector.Admin

/-! ## Requests

A request of the admin API: a method, a target, headers and a body. What the API needs of it is the
path that the target names, the values of a few headers, and whether it carries the key.
-/

structure Request where
  method : String
  target : String
  headers : List (String × String)
  body : ByteArray

/-- A name in lower case, as far as it is ASCII. -/
def lower (s : String) : String := s.map Char.toLower

/-- Whether a header value can be read as text: spaces, tabs and printable ASCII characters. -/
def isVisible (value : String) : Bool :=
  value.toList.all fun c ↦ (32 ≤ c.toNat && c.toNat < 127) || c == '\t'

/-- What some characters have after a first part. -/
def dropStart? : (first cs : List Char) → Option (List Char)
  | [], cs => some cs
  | a :: first, c :: cs => if a = c then dropStart? first cs else none
  | _ :: _, [] => none

namespace Request

/-- The value of the first header of a name, which is given in lower case, if it can be read. -/
def header? (r : Request) (name : String) : Option String :=
  match r.headers.find? fun h ↦ lower h.1 = name with
  | some (_, value) => if isVisible value then some value else none
  | none => none

def isAuthorized (r : Request) (key : String) : Bool :=
  ((r.header? "authorization").bind fun value ↦
    dropStart? "Bearer ".toList value.toList) == some key.toList

/-- A target without the scheme and the host, if it has them. -/
def originForm (target : List Char) : List Char :=
  if target.head? = some '/' then target
  else
    let rest := target.dropWhile (· ≠ ':')
    match dropStart? "://".toList rest with
    | some rest => rest.dropWhile fun c ↦ !(c = '/' || c = '?' || c = '#')
    | none => if target = ['*'] then target else []

/-- The path that the target names. -/
def path (r : Request) : List Char :=
  (originForm r.target.toList).takeWhile fun c ↦ !(c = '?' || c = '#')

end Request

/-! ## Replies

A reply of the admin API has a status and may have content: plain text for people, or JSON.
-/

/-- What a reply carries. -/
inductive Content where
  | none
  | text (s : String)
  | json (j : Json)

namespace Content

def mediaType? : Content → Option String
  | none => Option.none
  | text _ => some "text/plain; charset=utf-8"
  | json _ => some "application/json"

def body : Content → String
  | none => ""
  | text s => s
  | json j => j.compact

end Content

structure Reply where
  status : Nat
  content : Content
  /-- The allowed methods, if another one was used. -/
  allow : Option String := none
  /-- Whether the content itself is sent, or only described. -/
  sendsContent : Bool := true

namespace Reply

/-- A status alone. -/
def bare (status : Nat) : Reply := { status, content := .none }

def message (status : Nat) (s : String) : Reply := { status, content := .text s }

/-- A value. -/
def json (j : Json) : Reply := { status := 200, content := .json j }

def body (r : Reply) : String := if r.sendsContent then r.content.body else ""

def profileNotFound : Reply := message 404 "Profile not found"

end Reply

end Redirector.Admin

namespace Redirector.Admin.MediaType

/-! ## Media types

A body is read as JSON only if the request says that it is: its media type is `application/json`, or
another type of `application` with the suffix `json`. Case does not matter, and parameters may
follow; but a media type that breaks the grammar is none.
-/

/-- The characters of names. -/
def isToken (c : Char) : Bool := c.isAlphanum || "!#$%&'+-.^_|~".toList.contains c || c = '\x60'

/-- Whether a character may stand between quotes. -/
def isQuotable (c : Char) : Bool := 31 < c.toNat && c.toNat ≠ 127

/-- What is left after the name of a parameter and the equals sign. -/
def skipName (s : List Char) : Option (List Char) :=
  match s.span isToken with
  | (_ :: _, '=' :: rest) => some rest
  | _ => none

/-- What is left after the quote that ends a quoted value. A quote right at the start does not end
it. -/
def skipQuoted : (isStart : Bool) → List Char → Option (List Char)
  | _, [] => none
  | false, '"' :: rest => some rest
  | _, '\\' :: c :: rest => if isQuotable c then skipQuoted false rest else none
  | _, c :: rest => if isQuotable c then skipQuoted false rest else none

/-- What is left after the value of a parameter and the semicolon behind it. -/
def skipValue : List Char → Option (List Char)
  | '"' :: rest => do
    match (← skipQuoted true rest).dropWhile (· = ' ') with
    | [] => some []
    | ';' :: rest => some rest
    | _ => none
  | s =>
    match s.span isToken with
    | (_, []) => some []
    | (_ :: _, ';' :: rest) => some rest
    | _ => none

/-- Whether the parameters are well formed. The fuel is the number of characters. -/
def areParameters : (fuel : Nat) → List Char → Bool
  | 0, s => s.isEmpty
  | fuel + 1, s =>
    match s.dropWhile (· = ' ') with
    | [] => true
    | s =>
      match (skipName s).bind skipValue with
      | none => false
      | some rest => areParameters fuel rest

/-- The main type and the subtype of a well-formed media type. -/
def parse? (value : List Char) : Option (List Char × List Char) :=
  match value.span isToken with
  | (main@(_ :: _), '/' :: rest) =>
    match rest.span isToken with
    | (sub, []) => some (main, sub)
    | (sub@(_ :: _), separator :: rest) =>
      if (separator = ';' ∨ separator = ' ') ∧ areParameters rest.length rest then some (main, sub)
      else none
    | _ => none
  | _ => none

/-- A subtype without its suffix, and the suffix: what follows the last plus sign, unless that comes
first. -/
def splitSuffix (sub : List Char) : List Char × Option (List Char) :=
  match sub.reverse.span (· ≠ '+') with
  | (suffix, '+' :: name@(_ :: _)) => (name.reverse, some suffix.reverse)
  | _ => (sub, none)

def isJson (value : String) : Bool :=
  match parse? (value.toList.map Char.toLower) with
  | some (main, sub) =>
    let json := "json".toList
    let (name, suffix) := splitSuffix sub
    main = "application".toList && (name = json || suffix = some json)
  | none => false

end Redirector.Admin.MediaType

namespace Redirector.Admin

/-! ## Bodies of requests

What an operation needs of the body of its request. A body that is too large, not marked as JSON,
not JSON, or JSON of another shape is answered at once, in this order of precedence: the mark, the
size, then the content.
-/

open Json (Decoder)
open Json.Decoder (Field Record)

def bodyLimit : Nat := 2 * 1024 * 1024

/-- The bytes of a body, unless there are too many. -/
def Request.limitedBody (r : Request) : Except Reply ByteArray :=
  if bodyLimit < r.body.size then
    .error (.message 413 "Failed to buffer the request body: length limit exceeded")
  else .ok r.body

/-- The text in a body. -/
def Request.text (r : Request) : Except Reply String := do
  match Text.decodeBytes (← r.limitedBody) with
  | .ok s => .ok s
  | .error e => .error (.message 400 ("Request body didn't contain valid UTF-8: " ++ e))

/-- The reply to JSON that cannot be decoded. -/
def Reply.ofFault (f : Json.Fault) : Reply :=
  if f.cause.isShape then
    message 422 ("Failed to deserialize the JSON body into the target type: " ++ f.messageWithPath)
  else message 400 ("Failed to parse the request body as JSON: " ++ f.messageWithPath)

/-- Whether the request says that its body is JSON. -/
def Request.hasJson (r : Request) : Bool :=
  ((r.header? "content-type").map MediaType.isJson).getD false

/-- The value in a body. -/
def Request.decode {α : Type} (d : Decoder α) (r : Request) : Except Reply α := do
  if r.hasJson then
    match d.ofBytes (← r.limitedBody) with
    | .ok a => .ok a
    | .error f => .error (.ofFault f)
  else .error (.message 415 "Expected request with \x60Content-Type: application/json\x60")

/-! ### Forms of bodies -/

/-- An object with one text. -/
def textRecord (expected field : String) : Record (Option String) String where
  expected := expected
  fields := [Field.required field id (fun a _ ↦ some a) .string]
  draft := none
  build s := s

/-- The name of a new profile. -/
def newProfile : Decoder String := (textRecord "struct CreateProfile" "name").decoder

def newName : Decoder String := (textRecord "struct RenameProfile" "name").decoder

def editedProfile : Decoder String := (textRecord "struct EditingPointer" "id").decoder

structure Pair where
  a : String
  b : String

def swappedProfiles : Decoder Pair :=
  Record.decoder (δ := Option String × Option String) {
    expected := "struct SwapProfiles"
    fields := [
      Field.required "a" Prod.fst (fun a s ↦ (some a, s.2)) .string,
      Field.required "b" Prod.snd (fun b s ↦ (s.1, some b)) .string]
    draft := (none, none)
    build := fun s ↦ do return ⟨← s.1, ← s.2⟩ }

/-- The switches, as far as they are mentioned. -/
structure Switches where
  enabled : Option Bool
  headers : Option Bool

/-- The switches to be set: those that are absent or `null` stay. -/
def newSwitches : Decoder Switches :=
  Record.decoder (δ := Option (Option Bool) × Option (Option Bool)) {
    expected := "struct Switches"
    fields := [
      Field.optional "enabled" Prod.fst (fun a s ↦ (some a, s.2)) (.optional .boolean),
      Field.optional "cors_enabled" Prod.snd (fun b s ↦ (s.1, some b)) (.optional .boolean)]
    draft := (none, none)
    build := fun s ↦ some ⟨s.1.join, s.2.join⟩ }

end Redirector.Admin
