import Redirector.Admin.Message
import Redirector.Apply
import Redirector.Rule.Wire
import Redirector.Text.Basic

/-!
# The admin API

Each request is answered in three steps: the key is checked, the path and the method name an
operation, and the operation is carried out on the profile store and the engine. An operation that
may change what is to be installed asks the worker for an apply afterwards; only one operation
applies at once, so that its reply can say how that went.

An operation that refuses its request, or whose request is refused before, asks for nothing.
-/

namespace Redirector.Admin

/-! ## Path segments

A path is cut at its slashes before anything in it is decoded, so a slash that is written as a
percent code belongs to its segment. A percent sign that is not followed by two hexadecimal digits
stands for itself.
-/

def hexValue? (b : UInt8) : Option UInt8 :=
  if 48 ≤ b && b ≤ 57 then some (b - 48)
  else if 65 ≤ b && b ≤ 70 then some (b - 55)
  else if 97 ≤ b && b ≤ 102 then some (b - 87)
  else none

/-- The bytes with each percent code replaced by the byte that it stands for. -/
def percentDecode : List UInt8 → List UInt8
  | [] => []
  | 37 :: a :: b :: rest =>
    match hexValue? a, hexValue? b with
    | some x, some y => (16 * x + y) :: percentDecode rest
    | _, _ => 37 :: percentDecode (a :: b :: rest)
  | b :: rest => b :: percentDecode rest

/-- The text that a segment stands for, if its bytes are encoded text. -/
def decodeSegment? (segment : List Char) : Option String :=
  String.fromUTF8? ⟨(percentDecode (String.ofList segment).toUTF8.toList).toArray⟩

/-! ## Routes

Each path of the admin API allows some methods, and each of these is an operation. `HEAD` is allowed
wherever `GET` is. The identifier of a profile is one segment of the path; it may be empty, unless
the path ends with it, and it is not decoded before the method is known to be allowed.
-/

/-- The methods that paths allow. -/
inductive Method where
  | get
  | post
  | put
  | delete
  deriving DecidableEq, Repr

namespace Method

/-- The method that a request uses, if any path allows it. -/
def ofName? : String → Option Method
  | "GET" | "HEAD" => some get
  | "POST" => some post
  | "PUT" => some put
  | "DELETE" => some delete
  | _ => none

/-- How a reply lists a method that is allowed. -/
def listing : Method → String
  | get => "GET,HEAD"
  | post => "POST"
  | put => "PUT"
  | delete => "DELETE"

end Method

/-- The operations of the API. An identifier is given as it stands in the path. -/
inductive Operation where
  | readStatus
  | listProfiles
  | createProfile
  | swapProfiles
  | renameProfile (segment : List Char)
  | deleteProfile (segment : List Char)
  | toggleProfile (segment : List Char)
  | readDocument (segment : List Char)
  | saveDocument (segment : List Char)
  | readEditing
  | setEditing
  | collectGarbage
  | applyNow
  | listRules
  | readSwitches
  | setSwitches
  deriving DecidableEq, Repr

/-- What the paths of one form allow. -/
abbrev Allowed := List (Method × Operation)

/-- What a path allows by its last names; no path of the API has other ones. -/
def Allowed.ofNames : List String → Allowed
  | ["status"] => [(.get, .readStatus)]
  | ["profiles"] => [(.get, .listProfiles), (.post, .createProfile)]
  | ["profiles", "swap"] => [(.post, .swapProfiles)]
  | ["editing"] => [(.get, .readEditing), (.put, .setEditing)]
  | ["gc"] => [(.post, .collectGarbage)]
  | ["apply"] => [(.post, .applyNow)]
  | ["rules"] => [(.get, .listRules)]
  | ["switch"] => [(.get, .readSwitches), (.put, .setSwitches)]
  | _ => []

/-- What a path with an identifier allows. -/
def Allowed.ofProfile (segment : List Char) : List String → Allowed
  | [] =>
    if segment = [] then []
    else [(.put, .renameProfile segment), (.delete, .deleteProfile segment)]
  | ["toggle"] => [(.post, .toggleProfile segment)]
  | ["config"] => [(.get, .readDocument segment), (.put, .saveDocument segment)]
  | _ => []

/-- What a path allows; nothing if the API does not have it. Names come before identifiers. -/
def Allowed.ofPath (path : List Char) : Allowed :=
  match Text.split '/' path with
  | [] :: segments =>
    match ofNames (segments.map String.ofList), segments with
    | [], first :: segment :: rest =>
      if first = "profiles".toList then ofProfile segment (rest.map String.ofList) else []
    | allowed, _ => allowed
  | _ => []

def Allowed.operation? (a : Allowed) (m : Method) : Option Operation :=
  (a.find? (·.1 = m)).map Prod.snd

/-- The list of the allowed methods. -/
def Allowed.listing (a : Allowed) : String := ",".intercalate (a.map fun p ↦ p.1.listing)

/-! ## The service -/

open Store (Program)

def version : String := "0.1.0"

/-- What the API works on, and the key that every request must carry. -/
structure Service (m : Type → Type) where
  backend : Store.Backend m
  engine : Engine m
  key : String

/-- What changes while requests are answered, the store and the engine apart. -/
structure Session where
  record : Apply.Record
  queue : Apply.Queue

/-- A step in answering a request. -/
abbrev Action (m : Type → Type) := StateT Session m

def Reply.ofStoreFault : Store.Fault → Reply
  | .emptyName => message 400 Store.Fault.emptyName.message
  | _ => message 500 "Profile store failure"

def Reply.ofEngineFault (f : Engine.Fault) : Reply := message 502 f.message

/-- A number as a value. -/
def count (n : Nat) : Json := .number (.natural n)

def idJson (id : String) : Json := .object [("id", .string id)]

namespace Service

variable {m : Type → Type} [Monad m] (s : Service m)

/-- Carries out an operation on the store. -/
def run {α : Type} (p : Program α) : Action m (Except Store.Fault α) := p.run s.backend

/-- Carries out an operation on the store and goes on with its result. -/
def withStore {α : Type} (p : Program α) (next : α → Action m Reply) : Action m Reply := do
  match ← s.run p with
  | .ok a => next a
  | .error f => return .ofStoreFault f

def requestApply : Action m Unit := modify fun t ↦ { t with queue := t.queue ++ [.admin] }

/-- Goes on with the value in the body of a request. -/
def withBody {α : Type} (body : Except Reply α) (next : α → Action m Reply) : Action m Reply :=
  match body with
  | .ok a => next a
  | .error reply => return reply

/-- Goes on with the identifier that a segment stands for. -/
def withId (segment : List Char) (next : String → Action m Reply) : Action m Reply :=
  match decodeSegment? segment with
  | some id => next id
  | none => return .message 400 "Invalid URL: Invalid UTF-8 in \x60id\x60"

/-! ## Operations -/

/-- An overview. All of the store is read before anything of it counts. -/
def readStatus : Action m Reply := do
  let profiles ← s.run Profiles.list
  let enabled ← s.run Profiles.isEnabled
  let headers ← s.run Profiles.headersEnabled
  match profiles, enabled, headers with
  | .error f, _, _ | _, .error f, _ | _, _, .error f => return .ofStoreFault f
  | .ok profiles, .ok enabled, .ok headers =>
    match ← (s.engine.ids : Action m _) with
    | .error f => return .ofEngineFault f
    | .ok ids =>
      return .json (.object [
        ("version", .string version), ("enabled", .boolean enabled),
        ("cors_enabled", .boolean headers), ("profiles", count profiles.length),
        ("active_profiles", count (profiles.countP Profile.active)),
        ("installed_rules", count ids.length)])

def listProfiles : Action m Reply :=
  s.withStore Profiles.list fun ps ↦ return .json (.array (ps.map Profile.toReply))

def createProfile (clock : Nat) (r : Request) : Action m Reply :=
  withBody (r.decode newProfile) fun name ↦
    s.withStore (Profiles.add clock name) fun p ↦ do
      requestApply
      return { status := 201, content := .json p.toReply }

def renameProfile (segment : List Char) (r : Request) : Action m Reply :=
  withId segment fun id ↦
    withBody (r.decode newName) fun name ↦
      s.withStore (Profiles.rename id name) fun isListed ↦
        return if isListed then .bare 204 else .profileNotFound

def deleteProfile (segment : List Char) : Action m Reply :=
  withId segment fun id ↦
    if id = Profile.defaultId then return .message 400 "Default profile cannot be removed"
    else
      s.withStore (Profiles.remove id) fun isListed ↦ do
        if isListed then
          requestApply
          return .bare 204
        else return .profileNotFound

def toggleProfile (segment : List Char) : Action m Reply :=
  withId segment fun id ↦
    s.withStore (Profiles.toggle id) fun
      | none => return .profileNotFound
      | some active => do
        requestApply
        return .json (.object [("id", .string id), ("active", .boolean active)])

def swapProfiles (r : Request) : Action m Reply :=
  withBody (r.decode swappedProfiles) fun pair ↦
    s.withStore (Profiles.swap pair.a pair.b) fun areListed ↦ do
      if areListed then
        requestApply
        return .bare 204
      else return .profileNotFound

def readDocument (segment : List Char) : Action m Reply :=
  withId segment fun id ↦
    s.withStore Profiles.list fun ps ↦
      if Profile.listed id ps then
        s.withStore (Profiles.document id) fun text ↦ return .message 200 text
      else return .profileNotFound

/-- The reply to a document that was saved: whether it can be read, and if not, why. -/
def savedReply (id text : String) : Reply :=
  match Document.parse text with
  | .ok _ => .json (.object [("id", .string id), ("valid", .boolean true)])
  | .error f =>
    .json (.object [
      ("id", .string id), ("valid", .boolean false), ("error", .string (Document.faultMessage f))])

/-- Saves the document of a profile, whether it can be read or not. -/
def saveDocument (segment : List Char) (r : Request) : Action m Reply :=
  withId segment fun id ↦
    withBody r.text fun text ↦
      s.withStore (Profiles.save text id) fun isListed ↦ do
        if isListed then
          requestApply
          return savedReply id text
        else return .profileNotFound

def readEditing : Action m Reply :=
  s.withStore Profiles.editing fun id ↦ return .json (idJson id)

def setEditing (r : Request) : Action m Reply :=
  withBody (r.decode editedProfile) fun id ↦
    s.withStore (Profiles.setEditing id) fun isListed ↦
      return if isListed then .json (idJson id) else .profileNotFound

/-- Takes out the documents of profiles that are gone. -/
def collectGarbage : Action m Reply :=
  s.withStore Profiles.collectGarbage fun n ↦ return .json (.object [("removed", count n)])

def reportJson (r : Apply.Report) : Json :=
  .object [
    ("removed", count r.removed), ("redirect_rules", count r.redirectRules),
    ("header_rules", count r.headerRules)]

def applyNow : Action m Reply := fun t ↦ do
  let (outcome, record) ← Apply.store s.engine s.backend t.record
  let reply : Reply := match outcome with
    | .ok report => .json (reportJson report)
    | .error (.store f) => .ofStoreFault f
    | .error f => .message 502 f.message
  return (reply, { t with record })

def listRules : Action m Reply := do
  match ← (s.engine.rules : Action m _) with
  | .ok rules => return .json (Rule.listToJson rules)
  | .error f => return .ofEngineFault f

/-- Both switches. Both are read before either counts. -/
def readSwitches : Action m Reply := do
  let enabled ← s.run Profiles.isEnabled
  let headers ← s.run Profiles.headersEnabled
  match enabled, headers with
  | .error f, _ | _, .error f => return .ofStoreFault f
  | .ok enabled, .ok headers =>
    return .json (.object [("enabled", .boolean enabled), ("cors_enabled", .boolean headers)])

/-- Sets a switch that is mentioned. -/
def setMentioned (set : Bool → Program Unit) : Option Bool → Program Unit
  | none => return ()
  | some on => set on

/-- Sets the switches that are mentioned. -/
def setSwitches (r : Request) : Action m Reply :=
  withBody (r.decode newSwitches) fun sw ↦
    s.withStore (setMentioned Profiles.setEnabled sw.enabled) fun () ↦
      s.withStore (setMentioned Profiles.setHeadersEnabled sw.headers) fun () ↦ do
        requestApply
        s.readSwitches

def perform (clock : Nat) (r : Request) : Operation → Action m Reply
  | .readStatus => s.readStatus
  | .listProfiles => s.listProfiles
  | .createProfile => s.createProfile clock r
  | .swapProfiles => s.swapProfiles r
  | .renameProfile segment => s.renameProfile segment r
  | .deleteProfile segment => s.deleteProfile segment
  | .toggleProfile segment => s.toggleProfile segment
  | .readDocument segment => s.readDocument segment
  | .saveDocument segment => s.saveDocument segment r
  | .readEditing => s.readEditing
  | .setEditing => s.setEditing r
  | .collectGarbage => s.collectGarbage
  | .applyNow => s.applyNow
  | .listRules => s.listRules
  | .readSwitches => s.readSwitches
  | .setSwitches => s.setSwitches r

/-! ## Answering requests -/

/-- Answers a request, at some reading of the clock. The key is checked before anything is done;
that a path does not allow the method is said even to those who do not have the key. The reply to
`HEAD` is that to `GET` without the content itself. -/
def respond (clock : Nat) (r : Request) : Action m Reply :=
  let allowed := Allowed.ofPath r.path
  let refused (status : Nat) : Reply :=
    if allowed.isEmpty then .bare status
    else { Reply.bare status with allow := some allowed.listing }
  match (Method.ofName? r.method).bind allowed.operation? with
  | none =>
    let status := if allowed.isEmpty then 404 else 405
    return refused (if r.isAuthorized s.key then status else 401)
  | some operation =>
    if r.isAuthorized s.key then do
      return { ← s.perform clock r operation with sendsContent := r.method ≠ "HEAD" }
    else return .bare 401

end Service

end Redirector.Admin
