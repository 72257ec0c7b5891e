import Redirector.Document
import Redirector.Profile.Basic
import Redirector.Store
import Redirector.Text.Class

/-!
# The profile store

Profiles are kept in a key-value store: the list under one key, each document under a key made of
its identifier, the identifier of the profile that is being edited, and two switches. What is stored
is read with care: a missing or empty list is replaced by the default profile, one that is not in
normal form is brought into it, and a switch or pointer of another form than it should have counts
as missing. A list or document that cannot be decoded is a fault.

An unknown identifier is no fault: the operation does nothing and says so.
-/

namespace Redirector.Profiles

open Store (Program)
open Store.Program (valueOf put erase allKeys decode)

/-! ## Keys -/

def listKey : String := "config_items"

def editingKey : String := "editing_config_key"

def enabledKey : String := "enabled"

def headersKey : String := "cors_enabled"

/-- What the key of a document starts with. -/
def documentMark : List Char := "config/".toList

def documentKey (id : String) : String := String.ofList (documentMark ++ id.toList)

def documentId? (key : String) : Option String :=
  if documentMark.isPrefixOf key.toList then
    some (String.ofList (key.toList.drop documentMark.length))
  else none

/-! ## The list -/

def write (ps : List Profile) : Program Unit := put listKey (Profile.listToJson ps)

/-- Writes the list that there is to start with. -/
def bootstrap : Program (List Profile) := do
  write [Profile.default]
  return [Profile.default]

/-- The list in normal form. -/
def list : Program (List Profile) := do
  match ← valueOf listKey with
  | none => bootstrap
  | some j =>
    match ← decode Profile.listDecoder j with
    | [] => bootstrap
    | ps => return Profile.normalize ps

/-- Replaces the list by the normal form of another one. -/
def setList (ps : List Profile) : Program (List Profile) := do
  let ps := Profile.normalize ps
  write ps
  return ps

/-- The name without blanks around it; a blank name is refused. -/
def checkName (name : String) : Program String :=
  match Text.trim name.toList with
  | [] => .fail .emptyName
  | cs => .done (String.ofList cs)

/-- Adds a profile at the end, active, and edits it. Its identifier is the clock reading, or the
next number that neither a profile nor a document is using. -/
def add (clock : Nat) (name : String) : Program Profile := do
  let name ← checkName name
  let ps ← list
  let used := ps.map Profile.id ++ (← allKeys).filterMap documentId?
  let p : Profile := ⟨toString (Profile.firstUnused used used.length clock), name, true⟩
  write (ps ++ [p])
  put editingKey (.string p.id)
  return p

def rename (id name : String) : Program Bool := do
  let name ← checkName name
  let ps ← list
  if Profile.listed id ps then
    write (Profile.rename id name ps)
    return true
  else return false

/-- The identifier that is stored as the one being edited. -/
def storedEditing : Program (Option String) := do
  return (← valueOf editingKey).bind Json.string?

/-- Edits another profile, or none in particular. -/
def retarget : Option Profile → Program Unit
  | some p => put editingKey (.string p.id)
  | none => erase editingKey

/-- Removes a profile other than the default one. If it was being edited, the one before it is
edited from now on. Its document stays. -/
def remove (id : String) : Program Bool :=
  if id = Profile.defaultId then return false
  else do
    let ps ← list
    if Profile.listed id ps then
      write (Profile.remove id ps)
      -- The one before it is looked up in the list as it was.
      if (← storedEditing) = some id then
        retarget (Profile.before? id ps)
      return true
    else return false

def swap (a b : String) : Program Bool := do
  let ps ← list
  match ps.find? (·.id == a), ps.find? (·.id == b) with
  | some p, some q =>
    write (Profile.swap p q ps)
    return true
  | _, _ => return false

/-- Switches a profile on or off and says which. The default profile stays on. -/
def toggle (id : String) : Program (Option Bool) := do
  let ps ← list
  match ps.find? (·.id == id) with
  | none => return none
  | some p =>
    if p.isDefault then return some true
    else
      write (Profile.setActive id (!p.active) ps)
      return some !p.active

/-! ## The profile that is being edited -/

/-- The identifier of the profile that is being edited. -/
def editing : Program String := do return (← storedEditing).getD Profile.defaultId

def setEditing (id : String) : Program Bool := do
  if Profile.listed id (← list) then
    put editingKey (.string id)
    return true
  else return false

/-! ## Documents -/

/-- The document of a profile, if there is one. -/
def document? (id : String) : Program (Option String) := do
  match ← valueOf (documentKey id) with
  | none => return none
  | some j => return some (← decode Profile.documentDecoder j)

/-- The document of a profile; one that was never saved is the template. -/
def document (id : String) : Program String := do
  return (← document? id).getD Document.template

def save (text id : String) : Program Bool := do
  if Profile.listed id (← list) then
    put (documentKey id) (Profile.documentToJson text)
    return true
  else return false

def documentsOf : List Profile → Program (List (Profile × String))
  | [] => return []
  | p :: ps => do
    let text ← document p.id
    return (p, text) :: (← documentsOf ps)

/-- The active profiles with their documents, in the order of the list. -/
def activeDocuments : Program (List (Profile × String)) := do
  documentsOf ((← list).filter Profile.active)

/-- Takes out keys one after the other. -/
def eraseAll : List String → Program Unit
  | [] => return ()
  | key :: rest => do
    erase key
    eraseAll rest

/-- Takes out the documents of profiles that are not in the list, and says how many there were. -/
def collectGarbage : Program Nat := do
  let ps ← list
  let orphans := (← allKeys).filter fun key ↦
    ((documentId? key).map fun id ↦ !Profile.listed id ps).getD false
  eraseAll orphans
  return orphans.length

/-! ## Switches -/

/-- A switch; it is on unless it is stored as off. -/
def switch (key : String) : Program Bool := do
  return ((← valueOf key).bind Json.boolean?).getD true

/-- Sets a switch if nothing is stored for it. -/
def initSwitch (key : String) (on : Bool) : Program Unit := do
  if (← valueOf key).isNone then put key (.boolean on)

/-- Sets both switches if nothing is stored for them. -/
def initSwitches (enabled headers : Bool) : Program Unit := do
  initSwitch enabledKey enabled
  initSwitch headersKey headers

/-- Whether any rules are wanted. -/
def isEnabled : Program Bool := switch enabledKey

def setEnabled (on : Bool) : Program Unit := put enabledKey (.boolean on)

def headersEnabled : Program Bool := switch headersKey

def setHeadersEnabled (on : Bool) : Program Unit := put headersKey (.boolean on)

end Redirector.Profiles
