import Redirector.Json.Value
import Redirector.Rule.Basic

/-!
# Rules in JSON

The engine takes rules as JSON objects: an action is a union tagged by `type`, and what is absent is
left out. For each type there is an encoder and, beside it, its decoder.
-/

namespace Redirector

open Json (Decoder)
open Json.Decoder (Field Record)

/-- The members of an object whose optional members may be absent. -/
def presentMembers (members : List (String × Option Json)) : Json :=
  .object (members.filterMap fun (key, j) ↦ j.map (key, ·))

namespace ResourceType

/-- A resource type is written by name. -/
def toJson (t : ResourceType) : Json := .string t.name

def decoder : Decoder ResourceType := .enumeration names

end ResourceType

namespace HeaderOperation

def names : List (String × HeaderOperation) := [("set", set)]

/-- An operation is written by name. -/
def toJson : HeaderOperation → Json
  | set => .string "set"

def decoder : Decoder HeaderOperation := .enumeration names

end HeaderOperation

namespace HeaderChange

/-- A header change without its value, if it has none. -/
def toJson (h : HeaderChange) : Json :=
  presentMembers [
    ("header", some (.string h.header)), ("operation", some h.operation.toJson),
    ("value", h.value.map .string)]

/-- A header change as far as it has been read. -/
structure Draft where
  header : Option String
  operation : Option HeaderOperation
  value : Option (Option String)

def record : Record Draft HeaderChange where
  expected := "struct HeaderInfo"
  fields := [
    Field.required "header" Draft.header (fun a s ↦ { s with header := some a }) .string,
    Field.required "operation" Draft.operation (fun a s ↦ { s with operation := some a })
      HeaderOperation.decoder,
    Field.optional "value" Draft.value (fun a s ↦ { s with value := some a })
      (.optional .string)]
  draft := ⟨none, none, none⟩
  build s := do return ⟨← s.header, ← s.operation, s.value.getD none⟩

def decoder : Decoder HeaderChange := record.decoder

end HeaderChange

namespace RuleAction

/-- An action: its tag, then what goes with it. -/
def toJson : RuleAction → Json
  | redirect substitution =>
    .object [
      ("type", .string "redirect"),
      ("redirect", .object [("regexSubstitution", .string substitution)])]
  | modifyHeaders changes =>
    .object [
      ("type", .string "modifyHeaders"),
      ("responseHeaders", .array (changes.map HeaderChange.toJson))]

/-- The target of a redirect. -/
def targetRecord : Record (Option String) String where
  expected := "struct Redirect"
  fields := [Field.required "regexSubstitution" id (fun a _ ↦ some a) .string]
  draft := none
  build := id

/-- What goes with the tag of a redirect. -/
def redirectRecord : Record (Option String) RuleAction where
  expected := "struct variant RuleAction::Redirect"
  fields := [Field.required "redirect" id (fun a _ ↦ some a) targetRecord.decoder]
  draft := none
  build s := s.map redirect

/-- What goes with the tag of a header rule. -/
def headersRecord : Record (Option (List HeaderChange)) RuleAction where
  expected := "struct variant RuleAction::ModifyHeaders"
  fields := [Field.required "responseHeaders" id (fun a _ ↦ some a) (.list HeaderChange.decoder)]
  draft := none
  build s := s.map modifyHeaders

def tagged : Decoder.Tagged RuleAction where
  expected := "internally tagged enum RuleAction"
  tag := "type"
  variants := [("redirect", redirectRecord.decoder), ("modifyHeaders", headersRecord.decoder)]

def decoder : Decoder RuleAction := tagged.decoder

end RuleAction

namespace RuleCondition

/-- A condition without the filters that it does not have. -/
def toJson (c : RuleCondition) : Json :=
  presentMembers [
    ("regexFilter", c.regexFilter.map .string), ("urlFilter", c.urlFilter.map .string),
    ("resourceTypes", some (.array (c.resourceTypes.map ResourceType.toJson)))]

/-- A condition as far as it has been read. -/
structure Draft where
  regexFilter : Option (Option String)
  urlFilter : Option (Option String)
  resourceTypes : Option (List ResourceType)

def record : Record Draft RuleCondition where
  expected := "struct RuleCondition"
  fields := [
    Field.optional "regexFilter" Draft.regexFilter (fun a s ↦ { s with regexFilter := some a })
      (.optional .string),
    Field.optional "urlFilter" Draft.urlFilter (fun a s ↦ { s with urlFilter := some a })
      (.optional .string),
    Field.required "resourceTypes" Draft.resourceTypes
      (fun a s ↦ { s with resourceTypes := some a }) (.list ResourceType.decoder)]
  draft := ⟨none, none, none⟩
  build s := do return ⟨s.regexFilter.getD none, s.urlFilter.getD none, ← s.resourceTypes⟩

def decoder : Decoder RuleCondition := record.decoder

end RuleCondition

namespace Rule

def toJson (r : Rule) : Json :=
  .object [
    ("id", .number (.natural r.id.toNat)), ("priority", .number (.natural r.priority.toNat)),
    ("action", r.action.toJson), ("condition", r.condition.toJson)]

/-- A rule as far as it has been read. -/
structure Draft where
  id : Option UInt32
  priority : Option UInt32
  action : Option RuleAction
  condition : Option RuleCondition

def record : Record Draft Rule where
  expected := "struct CompiledRule"
  fields := [
    Field.required "id" Draft.id (fun a s ↦ { s with id := some a }) .word32,
    Field.required "priority" Draft.priority (fun a s ↦ { s with priority := some a }) .word32,
    Field.required "action" Draft.action (fun a s ↦ { s with action := some a })
      RuleAction.decoder,
    Field.required "condition" Draft.condition (fun a s ↦ { s with condition := some a })
      RuleCondition.decoder]
  draft := ⟨none, none, none, none⟩
  build s := do return ⟨← s.id, ← s.priority, ← s.action, ← s.condition⟩

def decoder : Decoder Rule := record.decoder

def listToJson (rules : List Rule) : Json := .array (rules.map toJson)

end Rule

namespace RuleUpdate

/-- An update without the lists that are empty. -/
def toJson (u : RuleUpdate) : Json :=
  presentMembers [
    ("addRules", if u.add.isEmpty then none else some (Rule.listToJson u.add)),
    ("removeRuleIds", if u.remove.isEmpty then none
      else some (.array (u.remove.map fun id ↦ .number (.natural id.toNat))))]

/-- An update as far as it has been read. -/
structure Draft where
  add : Option (List Rule)
  remove : Option (List UInt32)

def record : Record Draft RuleUpdate where
  expected := "struct RuleUpdate"
  fields := [
    Field.optional "addRules" Draft.add (fun a s ↦ { s with add := some a })
      (.list Rule.decoder),
    Field.optional "removeRuleIds" Draft.remove (fun a s ↦ { s with remove := some a })
      (.list .word32)]
  draft := ⟨none, none⟩
  build s := some ⟨s.add.getD [], s.remove.getD []⟩

def decoder : Decoder RuleUpdate := record.decoder

end RuleUpdate

end Redirector
