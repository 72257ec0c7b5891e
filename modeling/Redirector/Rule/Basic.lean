import Redirector.Forwarding
import Redirector.Json.Basic
import Redirector.Metrics
import Redirector.Pattern

/-!
# Rules

A rule tells the engine what to do with the requests that match its condition. There are two kinds:
a redirect sends matching requests elsewhere, and a header rule changes the headers of matching
responses. The engine knows rules by their identifiers, and the two kinds draw theirs from separate
ranges.
-/

namespace Redirector

/-- The kinds of resource that a request can be for. -/
inductive ResourceType where
  | mainFrame
  | subFrame
  | stylesheet
  | script
  | image
  | font
  | object
  | xmlHttpRequest
  | ping
  | cspReport
  | media
  | webSocket
  | other
  deriving DecidableEq, Repr

namespace ResourceType

/-- Every resource type with its name, in the engine's order. -/
def names : List (String × ResourceType) := [
  ("main_frame", mainFrame), ("sub_frame", subFrame), ("stylesheet", stylesheet),
  ("script", script), ("image", image), ("font", font), ("object", object),
  ("xmlhttprequest", xmlHttpRequest), ("ping", ping), ("csp_report", cspReport), ("media", media),
  ("websocket", webSocket), ("other", other)]

/-- Every resource type: redirects apply to all of them. -/
def all : List ResourceType := names.map Prod.snd

/-- The resource types that scripts ask for: header rules apply to these. -/
def scripted : List ResourceType := [xmlHttpRequest, webSocket]

def name : ResourceType → String
  | mainFrame => "main_frame"
  | subFrame => "sub_frame"
  | stylesheet => "stylesheet"
  | script => "script"
  | image => "image"
  | font => "font"
  | object => "object"
  | xmlHttpRequest => "xmlhttprequest"
  | ping => "ping"
  | cspReport => "csp_report"
  | media => "media"
  | webSocket => "websocket"
  | other => "other"

end ResourceType

/-- What is done to a header. There is one operation: to set it. -/
inductive HeaderOperation where
  | set
  deriving DecidableEq, Repr

structure HeaderChange where
  header : String
  operation : HeaderOperation
  value : Option String
  deriving DecidableEq, Repr

def HeaderChange.set (header value : String) : HeaderChange := ⟨header, .set, some value⟩

/-- What a rule does with a request that matches. -/
inductive RuleAction where
  /-- Sends it to the address that the substitution makes of its own. -/
  | redirect (substitution : String)
  /-- Changes headers of the response. -/
  | modifyHeaders (changes : List HeaderChange)
  deriving DecidableEq, Repr

structure RuleCondition where
  /-- A regular expression over the address. -/
  regexFilter : Option String
  /-- A pattern of address parts. -/
  urlFilter : Option String
  resourceTypes : List ResourceType
  deriving DecidableEq, Repr

structure Rule where
  id : UInt32
  priority : UInt32
  action : RuleAction
  condition : RuleCondition
  deriving DecidableEq, Repr

namespace Rule

inductive Kind where
  | redirect
  | header
  deriving DecidableEq, Repr

/-- The kind of a rule, by its action. -/
def kind (r : Rule) : Kind :=
  match r.action with
  | .redirect _ => .redirect
  | .modifyHeaders _ => .header

/-- The priority of every compiled rule: among equals the engine takes the first in the list. -/
def defaultPriority : UInt32 := 1

def firstRedirectId : Nat := 1

def lastRedirectId : Nat := 999

def firstHeaderId : Nat := 1000

end Rule

/-- A change to the installed rules: the listed ones are removed, then the new ones are added. -/
structure RuleUpdate where
  add : List Rule
  remove : List UInt32
  deriving DecidableEq, Repr

namespace RuleUpdate

def adding (rules : List Rule) : RuleUpdate := ⟨rules, []⟩

def removing (ids : List UInt32) : RuleUpdate := ⟨[], ids⟩

end RuleUpdate

/-! ## Compiling configurations to rules

Each redirect of a configuration compiles to a redirect rule and each domain to a header rule, or is
skipped for a reason. Identifiers are given out in order, per kind, and only to what compiles: a
skipped entry uses up none.

What an entry compiles to depends on the entries before it only through the next free identifier, so
the results are one pass over the list with that identifier as its state (`compileFrom`).
-/

namespace Rule

/-- The headers that a page may send in a cross-origin request. -/
def allowedHeaders : String :=
  "Content-Type, access-control-allow-headers, Authorization, X-Requested-With, X-Referer"

/-- The redirect rule of an entry with an identifier. -/
def ofRedirect (r : Redirect) (id : Nat) : Except SkipReason Rule :=
  if r.pattern = "" then .error .emptyPattern
  else if r.target = "" then .error .emptyTarget
  else if lastRedirectId < id then .error .idRangeExhausted
  else .ok {
    id := UInt32.ofNat id
    priority := defaultPriority
    action := .redirect (Template.toSubstitution r.target)
    condition := ⟨some (Pattern.toFilter r.pattern), none, ResourceType.all⟩ }

/-- The header changes that let any page read a response. -/
def permissiveHeaders : List HeaderChange := [
  .set "access-control-allow-origin" "*",
  .set "access-control-allow-credentials" "true",
  .set "access-control-allow-methods" "*",
  .set "access-control-allow-headers" allowedHeaders]

/-- The header rule of a domain with an identifier. -/
def ofDomain (domain : String) (id : Nat) : Except SkipReason Rule :=
  if domain = "" then .error .emptyDomain
  else .ok {
    id := UInt32.ofNat id
    priority := defaultPriority
    action := .modifyHeaders permissiveHeaders
    condition := ⟨none, some ("||" ++ domain), ResourceType.scripted⟩ }

/-- Compiles a list of entries. Only an entry that compiles uses up an identifier. -/
def compileFrom {α : Type} (compile : α → Nat → Except SkipReason Rule) :
    (next : Nat) → List α → List (Except SkipReason Rule)
  | _, [] => []
  | next, a :: rest =>
    match compile a next with
    | .ok r => .ok r :: compileFrom compile (next + 1) rest
    | .error reason => .error reason :: compileFrom compile next rest

def compiled (entries : List (Except SkipReason Rule)) : List Rule :=
  entries.filterMap Except.toOption

/-- The reasons among compiled entries. -/
def skipped (entries : List (Except SkipReason Rule)) : List SkipReason :=
  entries.filterMap fun
    | .ok _ => none
    | .error reason => some reason

end Rule

namespace Forwarding

/-- One result for each redirect. -/
def redirectEntries (f : Forwarding) : List (Except SkipReason Rule) :=
  Rule.compileFrom Rule.ofRedirect Rule.firstRedirectId f.redirects

/-- One result for each domain. -/
def domainEntries (f : Forwarding) : List (Except SkipReason Rule) :=
  Rule.compileFrom Rule.ofDomain Rule.firstHeaderId f.domains

def redirectRules (f : Forwarding) : List Rule := Rule.compiled f.redirectEntries

def headerRules (f : Forwarding) : List Rule := Rule.compiled f.domainEntries

/-- The rules of some configurations together: redirects first, then header rules if they are
wanted. -/
def compileAll (fs : List Forwarding) (withHeaders : Bool) : List Rule :=
  let merged := union fs
  merged.redirectRules ++ if withHeaders then merged.headerRules else []

/-- The entries that `compileAll` skips. Domains count only if header rules are wanted. -/
def skippedBy (fs : List Forwarding) (withHeaders : Bool) : List SkipReason :=
  let merged := union fs
  Rule.skipped merged.redirectEntries ++
    if withHeaders then Rule.skipped merged.domainEntries else []

end Forwarding

end Redirector
