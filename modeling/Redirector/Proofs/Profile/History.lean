import Mathlib.Data.List.Induction
import Redirector.Proofs.Profile.Operation

/-!
# Histories of the profile store

A history is a list of operations that are carried out in memory, one after the other, starting
with no entries at all. Each of them takes its turn (`Shows.step`), so that what holds of the list
and the pointer after any history is a matter of what no turn can break.

## The list and the pointer

Every turn leaves a list in normal form, and a list in normal form is read as it is stored.
Replacing the list as a whole is no exception, since the list is brought into normal form on the
way.

The pointer is another matter. It is to a profile of the list after every turn but that one:
replacing the list says nothing of the pointer, and so leaves it dangling if the profile that is
being edited is not in the new list (`always_editsListed_iff`). Removing a profile on its own moves
the pointer away from it.
-/

namespace Redirector.Profiles

open Store (Program Entries)

def after (es : Entries) (os : List Operation) : Entries :=
  os.foldl (fun es o ↦ (o.program.run Store.memory es).2) es

theorem after_append (es : Entries) (os : List Operation) (o : Operation) :
    after es (os ++ [o]) = (o.program.run Store.memory (after es os)).2 := by
  rw [after, List.foldl_append, ← after]
  rfl

/-- **One operation**: the list and the pointer take their turn. -/
theorem Shows.step {es : Entries} {ps : List Profile} (h : Shows es ps) (o : Operation) :
    ∃ qs, Turn ps (pointer es) o qs (pointer (o.program.run Store.memory es).2) ∧
      Shows (o.program.run Store.memory es).2 qs := by
  rcases hrun : o.program.run Store.memory es with ⟨f | a, es'⟩
  · -- In memory no call is refused, so the operation was not broken off between two writes.
    have hkept : Kept es es' := by
      cases (o.ends es).memory_error hrun with
      | kept _ hkept => exact hkept
      | torn _ hc => cases hc
    exact Operation.does_of_kept hkept ps h
  · exact (o.ends es).memory_ok hrun ps h

theorem exists_shows_after (os : List Operation) : ∃ ps, Shows (after [] os) ps := by
  induction os using List.reverseRecOn with
  | nil => exact ⟨_, shows_nil⟩
  | append_singleton os o ih =>
    obtain ⟨ps, hps⟩ := ih
    obtain ⟨qs, -, hqs⟩ := hps.step o
    rw [after_append]
    exact ⟨qs, hqs⟩

/-! ## The list -/

/-- **The list is in normal form after any history**, and it is read as it is stored. A list that
others have stored is brought into normal form as it is read. -/
theorem list_always_normal :
    (∀ os j, Sorted.get? listKey (after [] os) = some j →
      ∃ ps, j = Profile.listToJson ps ∧ Profile.Normal ps ∧
        list.run Store.memory (after [] os) = (.ok ps, after [] os)) ∧
    ∀ es j ps, Sorted.get? listKey es = some j → Profile.listDecoder.ofValue j = .ok ps →
      ∃ qs, (list.run Store.memory es).1 = .ok qs ∧ Profile.Normalizes ps qs := by
  constructor
  · intro os j hstored
    obtain ⟨ps, hps⟩ := exists_shows_after os
    have hj : j = Profile.listToJson ps := by
      rcases hps.stored with hlist | ⟨hmissing, -⟩
      · exact Option.some.inj (hstored.symm.trans hlist)
      · rw [hmissing] at hstored
        cases hstored
    have hsame : withList (after [] os) = after [] os := by
      rw [hj] at hstored
      exact withList_of_stored hps.normal hstored
    exact ⟨ps, hj, hps.normal, Prod.ext hps.listing_eq hsame⟩
  · intro es j ps hstored hdecoded
    exact ⟨_, listing_of_decoded hstored hdecoded, Profile.normalizes_normalize ps⟩

/-- A history that has come back to the default profile, and a list with duplicates but without
it. -/
theorem list_always_normal_restored :
    let os : List Operation := [.add 1 "a", .swap "0" "1", .toggle "1", .remove "1"]
    let ps : List Profile := [⟨"1", "a", false⟩, ⟨"2", "b", true⟩, ⟨"1", "c", true⟩]
    (∃ qs, Profile.Normal qs ∧ list.run Store.memory (after [] os) = (.ok qs, after [] os)) ∧
      ∃ qs, (list.run Store.memory [(listKey, Profile.listToJson ps)]).1 = .ok qs ∧
        Profile.Normalizes ps qs := by
  intro os ps
  have hsome : (Sorted.get? listKey (after [] os)).isSome = true := by decide +kernel
  obtain ⟨j, hj⟩ := Option.isSome_iff_exists.mp hsome
  obtain ⟨qs, -, hnormal, hread⟩ := list_always_normal.1 os j hj
  have hstored : Sorted.get? listKey [(listKey, Profile.listToJson ps)]
      = some (Profile.listToJson ps) := if_pos rfl
  exact ⟨⟨qs, hnormal, hread⟩, list_always_normal.2 _ _ ps hstored (listDecoder_listToJson ps)⟩

/-! ## The pointer -/

def editingId (es : Entries) : String := (pointer es).getD Profile.defaultId

theorem editing_run (es : Entries) : editing.run Store.memory es = (.ok (editingId es), es) := by
  change (Program.get editingKey _).run Store.memory es = _
  rw [Program.run_memory_get]
  rfl

/-- The profile that is being edited is in the list. -/
def EditsListed (es : Entries) : Prop :=
  ∃ ps id, (list.run Store.memory es).1 = .ok ps ∧ (editing.run Store.memory es).1 = .ok id ∧
    id ∈ Profile.ids ps

theorem Shows.editsListed_iff {es : Entries} {ps : List Profile} (h : Shows es ps) :
    EditsListed es ↔ editingId es ∈ Profile.ids ps := by
  have hlist : (list.run Store.memory es).1 = .ok ps := h.listing_eq
  constructor
  · rintro ⟨qs, id, hqs, hid, hmem⟩
    rw [hlist] at hqs
    rw [editing_run] at hid
    cases hqs
    cases hid
    exact hmem
  · intro hmem
    exact ⟨ps, _, hlist, congrArg Prod.fst (editing_run es), hmem⟩

/-- Every turn keeps the pointer on the list, unless the list is replaced. -/
theorem Turn.listed {ps qs : List Profile} {aim aim' : Option String} {o : Operation}
    (h : Turn ps aim o qs aim') (hps : Profile.Normal ps)
    (hlisted : aim.getD Profile.defaultId ∈ Profile.ids ps) :
    aim'.getD Profile.defaultId ∈ Profile.ids qs ∨
      ∃ rs, o = .setList rs ∧ qs = Profile.normalize rs ∧ aim' = aim := by
  cases h with
  | nothing => exact Or.inl hlisted
  | setList rs => exact Or.inr ⟨rs, rfl, rfl, rfl⟩
  | add =>
    refine Or.inl ?_
    rw [Profile.ids_append]
    exact List.mem_append_right _ (List.mem_singleton_self _)
  | rename id name trimmed =>
    rw [Profile.ids_rename]
    exact Or.inl hlisted
  | @remove id hid hmem =>
    left
    split_ifs with haim
    · cases hbefore : Profile.before? id ps with
      | some p => exact Profile.mem_ids_remove_of_before? hbefore
      | none => exact (hps.remove hid).defaultId_mem
    · refine Profile.mem_ids_remove.mpr ⟨hlisted, ?_⟩
      cases aim with
      | none => exact Ne.symm hid
      | some j => exact fun heq ↦ haim (congrArg some heq)
  | swap hp hq => exact Or.inl (Profile.mem_ids_swap hp hq hlisted)
  | toggle =>
    rw [Profile.ids_setActive]
    exact Or.inl hlisted
  | setEditing hmem => exact Or.inl hmem

/-- **The profile that is being edited is in the list** all through a history exactly if it is in
every list that replaces the list in it. -/
theorem always_editsListed_iff (os : List Operation) :
    (∀ before, before <+: os → EditsListed (after [] before)) ↔
      ∀ before ps, before ++ [.setList ps] <+: os →
        editingId (after [] before) ∈ Profile.ids (Profile.normalize ps) := by
  constructor
  · intro h before ps hprefix
    have hlisted := h _ hprefix
    have hafter : after [] (before ++ [.setList ps])
        = written (Profile.normalize ps) (after [] before) := after_append [] before (.setList ps)
    rw [hafter, (shows_written (Profile.normal_normalize ps) _).editsListed_iff] at hlisted
    rwa [editingId, pointer_written, ← editingId] at hlisted
  · intro h before
    induction before using List.reverseRecOn with
    | nil =>
      intro _
      exact shows_nil.editsListed_iff.mpr (List.mem_singleton_self _)
    | append_singleton before o ih =>
      intro hprefix
      -- The last operation takes one turn, and only replacing the list needs the assumption.
      have hbefore := ih ((List.prefix_append before [o]).trans hprefix)
      obtain ⟨ps, hps⟩ := exists_shows_after before
      obtain ⟨qs, hturn, hqs⟩ := hps.step o
      rw [after_append, hqs.editsListed_iff]
      rcases hturn.listed hps.normal (hps.editsListed_iff.mp hbefore) with
        hlisted | ⟨rs, rfl, rfl, haim⟩
      · exact hlisted
      · rw [editingId, haim]
        exact h before rs hprefix

/-- The profile that was added last is being edited, and is not in the list that replaces the one it
was added to. -/
theorem editsListed_not_always :
    ¬ EditsListed (after [] [.add 1 "a", .setList []]) := by
  rintro ⟨ps, id, hlist, hediting, hmem⟩
  have hps : (list.run Store.memory (after [] [.add 1 "a", .setList []])).1
      = .ok [Profile.default] := by decide +kernel
  have hid : (editing.run Store.memory (after [] [.add 1 "a", .setList []])).1 = .ok "1" := by
    decide +kernel
  rw [hps] at hlist
  rw [hid] at hediting
  cases hlist
  cases hediting
  revert hmem
  decide

/-! ## Operations that fail

Whichever calls of an operation are refused, and whatever entries it finds: if it fails, readers see
what they saw before, with one exception. An operation that writes both the list and the pointer
writes the list first, and a call about the pointer that is refused after that leaves the new list
behind. So a profile may be there although adding it failed, or be gone although removing it failed,
and in the second case it may still be the one that is being edited.

That these are the only two operations of that kind, and the pointer the only place, is what
`seen_eq_iff_of_error` says.
-/

open Store (Call Program Entries Scheduled)

/-- What readers see: the list and the identifier of the profile that is being edited. -/
def seen (es : Entries) : Except Store.Fault (List Profile) × Except Store.Fault String :=
  ((list.run Store.memory es).1, (editing.run Store.memory es).1)

theorem seen_eq (es : Entries) : seen es = (listing es, .ok (editingId es)) := by
  rw [seen, editing_run]
  rfl

theorem Kept.seen_eq {es es' : Entries} (h : Kept es es') : seen es' = seen es := by
  have hediting : editingId es' = editingId es := by rw [editingId, h.pointer, editingId]
  rw [Profiles.seen_eq, Profiles.seen_eq, h.listing_eq, hediting]

/-- **An operation that fails leaves what readers see as it was**, unless it writes both the list
and the pointer and the call that was refused is about the pointer. -/
theorem seen_eq_iff_of_error {o : Operation} {s s' : Scheduled} {f : Store.Fault}
    (h : o.program.run Store.scheduled s = (.error f, s')) :
    seen s'.entries = seen s.entries ↔
      (o.writesTwice = true →
        (o.program.refused? Store.scheduled s).bind Call.key? ≠ some editingKey) := by
  have hhalt : o.Halt s.entries (o.program.refused? Store.scheduled s) s'.entries :=
    (o.ends s.entries).scheduled_error h
  cases hhalt with
  | kept hc hkept => exact ⟨fun _ ↦ hc, fun _ ↦ hkept.seen_eq⟩
  | @torn ps qs aim ho hc hbefore _ hne hafter =>
    have hdiffers : seen s'.entries ≠ seen s.entries := by
      intro heq
      rw [seen_eq, seen_eq, hbefore, hafter] at heq
      exact hne (Except.ok.inj (Prod.mk.inj heq).1)
    exact ⟨fun heq ↦ absurd heq hdiffers, fun hother ↦ absurd hc (hother ho)⟩

/-- Two profiles, of which the second one is being edited. -/
def pairOfProfiles : Entries :=
  [(listKey, Profile.listToJson [Profile.default, ⟨"1", "a", true⟩]), (editingKey, .string "1")]

/-- The second write is refused. -/
def secondWriteRefused (es : Entries) : Scheduled :=
  ⟨es, { Store.Schedule.clear with set := [none, some .poisoned] }⟩

/-- Renaming writes once, and changes nothing if that is refused. Removing the profile that is being
edited writes again, and the first write stays. -/
theorem seen_eq_iff_of_error_pair :
    let refused : Scheduled :=
      ⟨pairOfProfiles, { Store.Schedule.clear with set := [some .poisoned] }⟩
    let renamed := (rename "1" "b").run Store.scheduled refused
    let removed := (remove "1").run Store.scheduled (secondWriteRefused pairOfProfiles)
    renamed.1 = .error .poisoned ∧ seen renamed.2.entries = seen pairOfProfiles ∧
      removed.1 = .error .poisoned ∧ seen removed.2.entries ≠ seen pairOfProfiles := by
  intro refused renamed removed
  have hrenamed : renamed.1 = .error .poisoned := by decide +kernel
  have hremoved : removed.1 = .error .poisoned := by decide +kernel
  have hcall : (((remove "1").refused? Store.scheduled (secondWriteRefused pairOfProfiles)).bind
      Call.key?) = some editingKey := by decide +kernel
  refine ⟨hrenamed, ?_, hremoved, fun heq ↦ ?_⟩
  · have hiff := seen_eq_iff_of_error (o := .rename "1" "b") (s := refused) (Prod.ext hrenamed rfl)
    exact hiff.mpr fun htwice ↦ by cases htwice
  · have hiff := seen_eq_iff_of_error (o := .remove "1") (s := secondWriteRefused pairOfProfiles)
      (Prod.ext hremoved rfl)
    exact hiff.mp heq rfl hcall

/-- Adding a profile fails, and it is there; removing one fails, and it is gone but being edited. -/
theorem seen_after_error :
    let added := (add 1 "b").run Store.scheduled (secondWriteRefused pairOfProfiles)
    let removed := (remove "1").run Store.scheduled (secondWriteRefused pairOfProfiles)
    let before : List Profile := [Profile.default, ⟨"1", "a", true⟩]
    seen pairOfProfiles = (.ok before, .ok "1") ∧
      added.1 = .error .poisoned ∧
      seen added.2.entries = (.ok (before ++ [⟨"2", "b", true⟩]), .ok "1") ∧
      removed.1 = .error .poisoned ∧
      seen removed.2.entries = (.ok [Profile.default], .ok "1") := by
  decide +kernel

end Redirector.Profiles
