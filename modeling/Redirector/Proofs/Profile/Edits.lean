import Redirector.Proofs.Profile.Effect
import Redirector.Proofs.Profile.History
import Redirector.Proofs.Profile.Operation
import Redirector.Proofs.Profile.Outcome
import Redirector.Proofs.Profile.View

/-!
# Single edits of the list

What each operation that changes the list comes to: a profile is added, removed, put in the place of
another one, or switched, the list is replaced as a whole, or the operation is declined and nothing
changes. All of this is about the list that is read, which is in normal form whatever is stored.
-/

namespace Redirector

/-! ## New profiles

The identifier of a new profile is the clock reading, or the next number that is not taken: neither
by a profile of the list nor by a document. The second matters because documents outlive their
profiles, and a new profile must not be given what another one has left behind.

### The search

Nothing but what is taken bounds the search for the number. So it is stated here as it is, without
a bound (`Searches`): a candidate that is taken is followed by the next one. That it ends is a
matter of counting. Different numbers have different texts, so there are at most as many candidates
to refuse as identifiers are taken, and the one after them is new (`searches_firstUnused`).

The clock is only where the search starts. Nothing is assumed about it here: it may stand still
between two profiles, or go back.
-/

namespace Profile

/-- **The search for a number whose text is not taken**, for as long as it takes: where it starts,
where it ends, and how many candidates it tries. -/
inductive Searches (taken : String → Prop) : Nat → Nat → Nat → Prop
  | found {n : Nat} (h : ¬ taken (toString n)) : Searches taken n n 1
  | next {n m tried : Nat} (h : taken (toString n)) (rest : Searches taken (n + 1) m tried) :
    Searches taken n m (tried + 1)

section

variable {taken : String → Prop} {n m tried : Nat}

theorem Searches.le (h : Searches taken n m tried) : n ≤ m := by
  induction h with
  | found _ => exact Nat.le_refl _
  | next _ _ ih => exact Nat.le_of_succ_le ih

variable {used : List String} (hused : ∀ id, taken id ↔ id ∈ used)

include hused

/-- A bounded search that is successful has tried no more candidates than the bound allows. -/
private theorem searches_of_unused {fuel : Nat}
    (h : toString (firstUnused used fuel n) ∉ used) :
    ∃ tried, Searches taken n (firstUnused used fuel n) tried ∧ tried ≤ fuel + 1 := by
  induction fuel generalizing n with
  | zero => exact ⟨1, .found fun htaken ↦ h ((hused _).mp htaken), Nat.le_refl _⟩
  | succ fuel ih =>
    rw [firstUnused] at h ⊢
    by_cases hmem : toString n ∈ used
    · rw [if_pos hmem] at h ⊢
      obtain ⟨tried, hrest, hle⟩ := ih h
      exact ⟨tried + 1, .next ((hused _).mpr hmem) hrest, Nat.succ_le_succ hle⟩
    · rw [if_neg hmem]
      exact ⟨1, .found fun htaken ↦ hmem ((hused _).mp htaken), Nat.le_add_left 1 _⟩

/-- **The search ends**: it tries at most one more candidate than there are texts in use. -/
theorem searches_firstUnused (n : Nat) :
    ∃ tried, Searches taken n (firstUnused used used.length n) tried ∧ tried ≤ used.length + 1 :=
  searches_of_unused hused (toString_firstUnused used n)

end

end Profile

namespace Profiles

open Store (Entries KeyOrder)

/-! ### What is taken -/

/-- A profile of the list has the identifier, or a document is stored under it. -/
def Taken (ps : List Profile) (es : Entries) (id : String) : Prop :=
  id ∈ Profile.ids ps ∨ Sorted.get? (documentKey id) es ≠ none

def documentCount (es : Entries) : Nat :=
  (Sorted.keys es).countP fun key ↦ (documentId? key).isSome

theorem documentCount_withList (es : Entries) : documentCount (withList es) = documentCount es := by
  rcases withList_cases es with hes | hes
  · rw [hes]
  · rw [hes, documentCount, started, Sorted.countP_keys_insert (by decide), documentCount]

/-! ### Adding a profile -/

/-- **What adding a profile does.** -/
structure Added (clock : Nat) (name : String) (ps : List Profile) (es : Entries) (p : Profile)
    (es' : Entries) : Prop where
  /-- The identifier is the number that the search from the clock reading ends at, and the search
  tries at most one more candidate than there are profiles and documents. -/
  number : ∃ n tried, Profile.Searches (Taken ps es) clock n tried ∧
    tried ≤ ps.length + documentCount es + 1 ∧ clock ≤ n ∧ p.id = toString n
  unlisted : p.id ∉ Profile.ids ps
  undocumented : Sorted.get? (documentKey p.id) es = none
  name : p.name = String.ofList (Text.trim name.toList)
  active : p.active = true
  list : (Profiles.list.run Store.memory es').1 = .ok (ps ++ [p])
  editing : (Profiles.editing.run Store.memory es').1 = .ok p.id
  document : ((document? p.id).run Store.memory es').1 = .ok none

theorem added_newcomer {ps : List Profile} {es : Entries} (hps : Profile.Normal ps) (clock : Nat)
    (name : String) :
    let p := newcomer clock (String.ofList (Text.trim name.toList)) ps (withList es)
    Added clock name ps es p (aimed p.id (written (ps ++ [p]) (withList es))) := by
  intro p
  have hused : ∀ id, Taken ps es id ↔
      id ∈ ps.map Profile.id ++ (Sorted.keys (withList es)).filterMap documentId? := by
    intro id
    rw [List.mem_append, mem_filterMap_documentId?_iff, get?_withList (beside_documentKey id)]
    rfl
  obtain ⟨tried, hsearch, htried⟩ := Profile.searches_firstUnused hused clock
  rw [List.length_append, List.length_map, List.length_filterMap_eq_countP, ← documentCount,
    documentCount_withList] at htried
  have hunlisted : p.id ∉ Profile.ids ps := newcomer_unlisted clock _ ps _
  have hundocumented : Sorted.get? (documentKey p.id) (withList es) = none :=
    newcomer_undocumented clock _ ps _
  exact {
    number := ⟨_, tried, hsearch, htried, hsearch.le, rfl⟩
    unlisted := hunlisted
    undocumented := by rwa [get?_withList (beside_documentKey _)] at hundocumented
    name := rfl
    active := rfl
    list := by
      rw [list_run_congr (get?_aimed (Ne.symm beside_editingKey) p.id _)]
      exact listing_written (hps.append hunlisted) _
    editing := by rw [editing_run, editingId, pointer_aimed, Option.getD_some]
    document := by
      rw [document?_run, get?_aimed (documentKey_ne_fixed (by decide) _),
        get?_written (beside_documentKey _), hundocumented] }

/-- **A new profile is new.** As long as the list can be decoded and something is left of the name,
adding a profile ends, whatever the clock says and in whatever order the store lists its keys; the
profile comes last in the list and is edited, and there is no document for it. -/
theorem add_fresh {es : Entries}
    (hlist : ∀ j, Sorted.get? listKey es = some j →
      ∃ ps, Profile.listDecoder.ofValue j = .ok ps) {name : String}
    (hname : Text.trim name.toList ≠ []) (o : KeyOrder) (clock : Nat) :
    ∃ ps p es', listing es = .ok ps ∧ (add clock name).run o.backend es = (.ok p, es') ∧
      Added clock name ps es p es' := by
  obtain ⟨ps, hps⟩ := exists_listing_of_decodes hlist
  exact ⟨ps, _, _, hps, add_run hps hname o clock,
    added_newcomer (normal_of_listing hps) clock name⟩

/-- The clock stands at zero, and three numbers from there on are taken: one by the default profile,
which is not even stored, and two by documents that have lost their profiles. So the search ends at
its fourth candidate, the last one that the bound allows. -/
theorem add_fresh_leftovers :
    let es : Entries := [("config/1", .null), ("config/2", .null), ("config_items", .array [])]
    ∃ ps p es', listing es = .ok ps ∧
      (add 0 " a ").run KeyOrder.descending.backend es = (.ok p, es') ∧
      p = ⟨"3", "a", true⟩ ∧ ps.length + documentCount es + 1 = 4 ∧ Added 0 " a " ps es p es' := by
  intro es
  have hname : Text.trim " a ".toList ≠ [] := by decide +kernel
  have hps : listing es = .ok [Profile.default] := by decide +kernel
  have hrun : ((add 0 " a ").run KeyOrder.descending.backend es).1 = .ok ⟨"3", "a", true⟩ := by
    decide +kernel
  obtain ⟨ps, p, es', hfound, hadd, hadded⟩ :=
    add_fresh (decodes_of_listing hps) hname KeyOrder.descending 0
  obtain rfl : ps = _ := Except.ok.inj (hfound.symm.trans hps)
  rw [hadd] at hrun
  exact ⟨_, p, es', hps, hadd, Except.ok.inj hrun, by decide +kernel, hadded⟩

end Profiles

end Redirector

namespace Redirector.Profiles

/-! ## Removing a profile

What is removed is a profile of the list that is read, and the list that is written is the rest of
it. So the others keep their order, whatever was stored, and an entry that normal form drops does
not come back. If the profile was being edited, the one that stood directly before it is edited from
now on. That one is looked up in the list as it was, and it is not there if the profile stood first;
then the pointer is taken out, which leaves the default profile being edited.
-/

open Store (Entries)

/-- **What removing a profile does**, given what stands before it and after it. -/
structure Removed (id : String) (before after : List Profile) (es es' : Entries) : Prop where
  list : (Profiles.list.run Store.memory es').1 = .ok (before ++ after)
  /-- Another profile that is being edited stays so. -/
  editing : ∃ edited, (Profiles.editing.run Store.memory es).1 = .ok edited ∧
    (Profiles.editing.run Store.memory es').1
      = .ok (if edited = id then (before.getLast?.map Profile.id).getD Profile.defaultId
          else edited)
  /-- The documents stay, the one of the profile included, and so do the switches. -/
  others : ∀ key ∉ [listKey, editingKey], Sorted.get? key es' = Sorted.get? key es

theorem removed_unaimed {es : Entries} {before after : List Profile} {p : Profile}
    (hps : Profile.Normal (before ++ p :: after)) (hid : p.id ≠ Profile.defaultId) :
    Removed p.id before after es
      (unaimed p.id (before ++ p :: after) (written (before ++ after) (withList es))) where
  list := by
    have hrest : Profile.Normal (before ++ after) := by
      rw [← Profile.remove_around hps.distinct]
      exact hps.remove hid
    rw [list_run_congr (get?_unaimed (Ne.symm beside_editingKey) _ _ _)]
    exact listing_written hrest _
  editing := by
    refine ⟨editingId es, congrArg Prod.fst (editing_run es), ?_⟩
    have hsame : editingId (written (before ++ after) (withList es)) = editingId es := by
      rw [editingId, Operation.pointer_written_withList, ← editingId]
    rw [editing_run, editingId_unaimed hid, hsame, Profile.before?_around hps.distinct]
  others key hkey := by
    have hlist : Beside key := List.ne_of_not_mem_cons hkey
    have hediting : key ≠ editingKey := List.ne_of_not_mem_cons (List.not_mem_of_not_mem_cons hkey)
    rw [get?_unaimed hediting, get?_written hlist, get?_withList hlist]

/-- **Removing a profile is exact.** As long as the list can be decoded, every profile in it but the
default one can be removed. -/
theorem remove_exact {es : Entries}
    (hlist : ∀ j, Sorted.get? listKey es = some j →
      ∃ ps, Profile.listDecoder.ofValue j = .ok ps) :
    ∃ ps, listing es = .ok ps ∧ ∀ id ∈ Profile.ids ps, id ≠ Profile.defaultId →
      ∃ before p after es', ps = before ++ p :: after ∧ p.id = id ∧
        (remove id).run Store.memory es = (.ok true, es') ∧ Removed id before after es es' := by
  obtain ⟨ps, hps⟩ := exists_listing_of_decodes hlist
  refine ⟨ps, hps, fun id hlisted hid ↦ ?_⟩
  obtain ⟨p, hp, rfl⟩ := List.mem_map.mp hlisted
  obtain ⟨before, after, rfl⟩ := List.append_of_mem hp
  have hnormal := normal_of_listing hps
  have hrun := remove_run hps hid
  rw [Profile.listed_iff.mpr hlisted, if_pos rfl, Profile.remove_around hnormal.distinct] at hrun
  exact ⟨before, p, after, _, rfl, rfl, hrun, removed_unaimed hnormal hid⟩

/-- The list that is stored has a duplicate and an inactive default profile. The profile that is
being edited stands first, so there is none before it. -/
theorem remove_exact_first :
    let es : Entries := [("config/1", .null),
      ("config_items",
        Profile.listToJson [⟨"1", "a", false⟩, ⟨"0", "b", false⟩, ⟨"1", "c", true⟩]),
      ("editing_config_key", .string "1")]
    ∃ es', (remove "1").run Store.memory es = (.ok true, es') ∧
      (editing.run Store.memory es').1 = .ok "0" ∧ Removed "1" [] [⟨"0", "b", true⟩] es es' := by
  intro es
  have hps : listing es = .ok [⟨"1", "a", false⟩, ⟨"0", "b", true⟩] := by decide +kernel
  have hedited : (editing.run Store.memory es).1 = .ok "1" := by decide +kernel
  obtain ⟨ps, hfound, hremove⟩ := remove_exact (decodes_of_listing hps)
  obtain rfl : ps = _ := Except.ok.inj (hfound.symm.trans hps)
  obtain ⟨before, p, after, es', hsplit, hid, hrun, hremoved⟩ :=
    hremove "1" (by decide) (by decide)
  -- Nothing stands before the profile: the one after it has another identifier.
  rcases before with _ | ⟨b, before⟩
  · obtain ⟨-, rfl⟩ := List.cons.inj hsplit
    obtain ⟨edited, hbefore, hafter⟩ := hremoved.editing
    obtain rfl : edited = "1" := Except.ok.inj (hbefore.symm.trans hedited)
    exact ⟨es', hrun, hafter, hremoved⟩
  · obtain ⟨-, hrest⟩ := List.cons.inj hsplit
    have hp : p ∈ [(⟨"0", "b", true⟩ : Profile)] := by
      rw [hrest]
      exact List.mem_append_right _ List.mem_cons_self
    rw [List.mem_singleton.mp hp] at hid
    exact absurd hid (by decide)

/-! ## Swapping profiles and switching them on and off

Both operations read the list, change it and write it back. The list that they change is in normal
form, so the identifiers they are given stand at one place each (`Profile.getElem?_swap`,
`Profile.setActive_around`); and the list that they write is in normal form too, so it is read as it
was written and the second time starts from where the first one ended. Done twice, either comes back
to the list that was read in the beginning.

That need not be the list that was stored in the beginning, if it was not in normal form. Under all
other keys nothing is written at all.
-/

/-- Another list is read, and nothing else has changed: no document, no switch, and not the profile
that is being edited. -/
structure Relisted (qs : List Profile) (es es' : Entries) : Prop where
  list : (Profiles.list.run Store.memory es').1 = .ok qs
  others : ∀ key, Beside key → Sorted.get? key es' = Sorted.get? key es

theorem relisted_written {qs : List Profile} (h : Profile.Normal qs) (es : Entries) :
    Relisted qs es (written qs (withList es)) where
  list := listing_written h _
  others _ hkey := (get?_written hkey qs _).trans (get?_withList hkey es)

theorem Relisted.trans {qs rs : List Profile} {es es' es'' : Entries} (h : Relisted qs es es')
    (h' : Relisted rs es' es'') : Relisted rs es es'' where
  list := h'.list
  others key hkey := (h'.others key hkey).trans (h.others key hkey)

/-- The second list is the first one with two identifiers' places exchanged. -/
def Exchanged (a b : String) (ps qs : List Profile) : Prop :=
  ∃ i j : Nat, (Profile.ids ps)[i]? = some a ∧ (Profile.ids ps)[j]? = some b ∧
    ∀ k, qs[k]? = ps[Equiv.swap i j k]?

/-- Swapping exchanges the places of two profiles, in whatever order they are given; the second time
the list is what it was. -/
def SwapsBack (a b : String) (ps : List Profile) (es : Entries) : Prop :=
  ∃ qs es' es'', Exchanged a b ps qs ∧
    (swap a b).run Store.memory es = (.ok true, es') ∧ Relisted qs es es' ∧
    (swap b a).run Store.memory es = (.ok true, es') ∧
    (swap a b).run Store.memory es' = (.ok true, es'') ∧ Relisted ps es es''

/-- Switching gives the other flag and changes no more of the list than that; the second time the
list is what it was. -/
def TogglesBack (id : String) (ps : List Profile) (es : Entries) : Prop :=
  ∃ before p after es' es'', ps = before ++ p :: after ∧ p.id = id ∧
    (toggle id).run Store.memory es = (.ok (some !p.active), es') ∧
    Relisted (before ++ { p with active := !p.active } :: after) es es' ∧
    (toggle id).run Store.memory es' = (.ok (some p.active), es'') ∧ Relisted ps es es''

section

variable {es : Entries} {ps : List Profile} (hps : listing es = .ok ps)

include hps

theorem swapsBack_of_mem {a b : String} (ha : a ∈ Profile.ids ps) (hb : b ∈ Profile.ids ps) :
    SwapsBack a b ps es := by
  have hnormal := normal_of_listing hps
  obtain ⟨p, hp, rfl⟩ := List.mem_map.mp ha
  obtain ⟨q, hq, rfl⟩ := List.mem_map.mp hb
  obtain ⟨i, hi⟩ := List.mem_iff_getElem?.mp hp
  obtain ⟨j, hj⟩ := List.mem_iff_getElem?.mp hq
  have hswapped := hnormal.swap hp hq
  have hfirst := relisted_written hswapped es
  refine ⟨Profile.swap p q ps, written (Profile.swap p q ps) (withList es), _,
    ⟨i, j, Profile.getElem?_ids hi, Profile.getElem?_ids hj,
      Profile.getElem?_swap hnormal.distinct hi hj⟩, swap_run hps hp hq, hfirst, ?_,
    swap_run hfirst.list (Profile.mem_swap_of_mem hnormal.distinct hp hq hp)
      (Profile.mem_swap_of_mem hnormal.distinct hp hq hq), ?_⟩
  · rw [Profile.swap_comm hnormal.distinct hp hq]
    exact swap_run hps hq hp
  · rw [Profile.swap_swap hnormal hp hq]
    exact hfirst.trans (relisted_written hnormal _)

theorem togglesBack_of_mem {id : String} (hlisted : id ∈ Profile.ids ps)
    (hid : id ≠ Profile.defaultId) : TogglesBack id ps es := by
  have hnormal := normal_of_listing hps
  obtain ⟨p, hp, rfl⟩ := List.mem_map.mp hlisted
  obtain ⟨before, after, rfl⟩ := List.append_of_mem hp
  have htoggled := hnormal.setActive hid (!p.active)
  rw [Profile.setActive_around hnormal.distinct] at htoggled
  have hfirst := relisted_written htoggled es
  have hrun := toggle_run hps hp hid
  rw [Profile.setActive_around hnormal.distinct] at hrun
  have hagain := toggle_run (p := { p with active := !p.active }) hfirst.list
    (List.mem_append_right _ List.mem_cons_self) hid
  rw [Profile.setActive_around (p := { p with active := !p.active }) htoggled.distinct] at hagain
  simp only [Bool.not_not] at hagain
  exact ⟨before, p, after, _, _, rfl, rfl, hrun, hfirst, hagain,
    hfirst.trans (relisted_written hnormal _)⟩

end

/-- **Swapping and switching are exact, and undo themselves**, as long as the list can be decoded:
for any two profiles in it, which may be the same one, and for any profile in it but the default
one. -/
theorem swap_toggle_involutive {es : Entries}
    (hlist : ∀ j, Sorted.get? listKey es = some j →
      ∃ ps, Profile.listDecoder.ofValue j = .ok ps) :
    ∃ ps, listing es = .ok ps ∧
      (∀ a ∈ Profile.ids ps, ∀ b ∈ Profile.ids ps, SwapsBack a b ps es) ∧
      ∀ id ∈ Profile.ids ps, id ≠ Profile.defaultId → TogglesBack id ps es := by
  obtain ⟨ps, hps⟩ := exists_listing_of_decodes hlist
  exact ⟨ps, hps, fun _ ha _ hb ↦ swapsBack_of_mem hps ha hb,
    fun _ hlisted hid ↦ togglesBack_of_mem hps hlisted hid⟩

/-- The list that is stored has a duplicate and no default profile, which is then the first one of
the two that are swapped. -/
theorem swap_toggle_involutive_restored :
    let es : Entries := [("config_items",
      Profile.listToJson [⟨"1", "a", false⟩, ⟨"1", "b", true⟩, ⟨"2", "c", true⟩])]
    let ps : List Profile := [⟨"0", "Default", true⟩, ⟨"1", "a", false⟩, ⟨"2", "c", true⟩]
    SwapsBack "0" "2" ps es ∧ SwapsBack "1" "1" ps es ∧
    ∃ es' es'', (toggle "1").run Store.memory es = (.ok (some true), es') ∧
      (toggle "1").run Store.memory es' = (.ok (some false), es'') ∧ Relisted ps es es'' := by
  intro es ps
  have hps : listing es = .ok ps := by decide +kernel
  obtain ⟨found, hfound, hswap, htoggle⟩ := swap_toggle_involutive (decodes_of_listing hps)
  obtain rfl : found = ps := Except.ok.inj (hfound.symm.trans hps)
  refine ⟨hswap "0" (by decide) "2" (by decide), hswap "1" (by decide) "1" (by decide), ?_⟩
  obtain ⟨before, p, after, es', es'', hsplit, hid, hfirst, -, hsecond, hback⟩ :=
    htoggle "1" (by decide) (by decide)
  have hp : p ∈ ps := hsplit ▸ List.mem_append_right _ List.mem_cons_self
  obtain rfl : p = ⟨"1", "a", false⟩ :=
    Profile.eq_of_id_eq (normal_of_listing hps).distinct hp (by decide) hid
  exact ⟨es', es'', hfirst, hsecond, hback⟩

/-! ## Replacing the list

Any list may be given to replace the list of profiles, with duplicates, without the default profile,
or with nothing in it. What is written and returned is its normal form, of which there is only one
(`Profile.normalizes_iff`). A list in normal form is read as it is stored, and it is its own normal
form: so from then on reading the list and replacing it by what was read go round in a circle, and
not even the entries change.

Reading is what makes the normal form of a list that others have stored. If the list that is read is
written back, the normal form is stored from then on, and what is read stays the same.
-/

theorem setList_run (ps : List Profile) (es : Entries) :
    (setList ps).run Store.memory es
      = (.ok (Profile.normalize ps), written (Profile.normalize ps) es) := rfl

theorem written_written (ps qs : List Profile) (es : Entries) :
    written qs (written ps es) = written qs es :=
  Sorted.insert_insert String.lt_irrefl listKey _ _ es

section

variable {ps : List Profile} (h : Profile.Normal ps)

include h

theorem setList_run_of_normal (es : Entries) :
    (setList ps).run Store.memory es = (.ok ps, written ps es) := by
  rw [setList_run, h.normalize_eq]

theorem list_run_written (es : Entries) :
    list.run Store.memory (written ps es) = (.ok ps, written ps es) :=
  Prod.ext (listing_written h es) (withList_of_stored h (get?_listKey_written ps es))

end

/-- **Replacing the list is canonical and stable.** What is returned for a list is its normal form,
which no other list is. It is read afterwards, and replacing the list by it once more changes
nothing. If the list of a store can be decoded, then replacing it by what is read leaves what is
read as it is. -/
theorem setList_stable :
    (∀ es ps, ∃ qs es', (∀ rs, Profile.Normalizes ps rs ↔ rs = qs) ∧
      (setList ps).run Store.memory es = (.ok qs, es') ∧
      list.run Store.memory es' = (.ok qs, es') ∧
      (setList qs).run Store.memory es' = (.ok qs, es')) ∧
    ∀ es, (∀ j, Sorted.get? listKey es = some j →
        ∃ ps, Profile.listDecoder.ofValue j = .ok ps) →
      ∃ ps es' es'', list.run Store.memory es = (.ok ps, es') ∧
        (setList ps).run Store.memory es' = (.ok ps, es'') ∧
        list.run Store.memory es'' = (.ok ps, es'') := by
  constructor
  · intro es ps
    have hnormal := Profile.normal_normalize ps
    refine ⟨Profile.normalize ps, written (Profile.normalize ps) es,
      fun _ ↦ Profile.normalizes_iff, setList_run ps es, list_run_written hnormal es, ?_⟩
    rw [setList_run_of_normal hnormal, written_written]
  · intro es hlist
    obtain ⟨ps, hps⟩ := exists_listing_of_decodes hlist
    have hnormal := normal_of_listing hps
    exact ⟨ps, withList es, written ps (withList es), Prod.ext hps rfl,
      setList_run_of_normal hnormal _, list_run_written hnormal _⟩

/-- The default profile is given twice, inactive the first time; and a list is stored that is not in
normal form. -/
theorem setList_stable_twice :
    let ps : List Profile :=
      [⟨"1", "a", false⟩, ⟨"0", "b", false⟩, ⟨"1", "c", true⟩, ⟨"0", "d", true⟩]
    let qs : List Profile := [⟨"1", "a", false⟩, ⟨"0", "b", true⟩]
    let es : Entries := [("config_items", Profile.listToJson ps)]
    (∃ es', (setList ps).run Store.memory [] = (.ok qs, es') ∧
      list.run Store.memory es' = (.ok qs, es') ∧
      (setList qs).run Store.memory es' = (.ok qs, es')) ∧
    ∃ es', (setList qs).run Store.memory es = (.ok qs, es') ∧
      list.run Store.memory es' = (.ok qs, es') := by
  intro ps qs es
  have hqs : Profile.normalize ps = qs := by decide +kernel
  have hlisting : listing es = .ok qs := hqs ▸ listing_of_decoded rfl (listDecoder_listToJson ps)
  have hes : list.run Store.memory es = (.ok qs, es) :=
    Prod.ext hlisting
      (withList_of_decoded rfl (listDecoder_listToJson ps) (List.cons_ne_nil _ _))
  obtain ⟨hreplace, hrestore⟩ := setList_stable
  constructor
  · obtain ⟨rs, es', hrs, hset, hread⟩ := hreplace [] ps
    obtain rfl : qs = rs := (hrs qs).mp (Profile.normalizes_iff.mpr hqs.symm)
    exact ⟨es', hset, hread⟩
  · obtain ⟨rs, es', es'', hread, hset, hagain⟩ :=
      hrestore es (decodes_of_listing (congrArg Prod.fst hes))
    obtain ⟨hrs, hes'⟩ := Prod.mk.inj (hes.symm.trans hread)
    obtain rfl := Except.ok.inj hrs
    subst hes'
    exact ⟨es'', hset, hagain⟩

/-! ## Operations that are declined

An operation that cannot do what it is told says so in its result and is no fault of the store: the
name is blank, a profile is not in the list, or it is the default one and has to stay as it is.
Whether that is so depends on the arguments and on the list that is read (`Operation.Unfit`), and
the result tells (`Operation.Declined`).

Nothing has been written by then. The one write that can have happened is the one that reading the
list makes if no profile is listed: the default profile is stored. A list that is stored but is not
in normal form stays as it is.
-/

/-- The result by which an operation says that it has not done what it was told. Switching the
default profile on or off has no result of its own for that. -/
def Operation.Declined : (o : Operation) → Except Store.Fault o.Result → Prop
  | .add .., x => x = .error .emptyName
  | .rename .., x => x = .error .emptyName ∨ x = .ok false
  | .remove _, x | .swap .., x | .setEditing _, x | .save .., x => x = .ok false
  | .toggle id, x => x = .ok none ∨ id = Profile.defaultId
  | _, _ => False

/-- What an operation is told does not fit the list. -/
def Operation.Unfit (ps : List Profile) : Operation → Prop
  | .add _ name => Text.trim name.toList = []
  | .rename id name => Text.trim name.toList = [] ∨ id ∉ Profile.ids ps
  | .remove id => id = Profile.defaultId ∨ id ∉ Profile.ids ps
  | .swap a b => a ∉ Profile.ids ps ∨ b ∉ Profile.ids ps
  | .toggle id => id ∉ Profile.ids ps ∨ id = Profile.defaultId
  | .setEditing id | .save _ id => id ∉ Profile.ids ps
  | _ => False

theorem AsFound.get?_cases {es es' : Entries} (h : AsFound es es') (key : String) :
    Sorted.get? key es' = Sorted.get? key es ∨
      key = listKey ∧ Unlisted es ∧
        Sorted.get? key es' = some (Profile.listToJson [Profile.default]) := by
  by_cases hkey : key = listKey
  · rcases h with rfl | rfl
    · exact Or.inl rfl
    · rcases withList_eq_or_unlisted es with hsame | ⟨hunlisted, hstarted⟩
      · exact Or.inl (by rw [hsame])
      · refine Or.inr ⟨hkey, hunlisted, ?_⟩
        rw [hkey, hstarted, get?_listKey_started]
  · exact Or.inl (h.get? hkey)

section

variable {es : Entries} {ps : List Profile} (hps : listing es = .ok ps) {o : Operation}

include hps

/-- An operation that does not fit the list says so, and leaves the entries as it found them. -/
theorem Operation.declined_of_unfit (h : o.Unfit ps) :
    ∃ x es', o.program.run Store.memory es = (x, es') ∧ o.Declined x ∧ AsFound es es' := by
  cases o with
  | add clock name => exact ⟨_, _, add_run_of_trim_eq_nil h clock es, rfl, Or.inl rfl⟩
  | rename id name =>
    by_cases hname : Text.trim name.toList = []
    · exact ⟨_, _, rename_run_of_trim_eq_nil hname id es, Or.inl rfl, Or.inl rfl⟩
    · have hrun := rename_run hps hname id
      rw [Profile.listed_eq_false (h.resolve_left hname)] at hrun
      exact ⟨_, _, hrun, Or.inr rfl, Or.inr rfl⟩
  | remove id =>
    by_cases hid : id = Profile.defaultId
    · subst hid
      exact ⟨_, _, remove_run_default es, rfl, Or.inl rfl⟩
    · have hrun := remove_run hps hid
      rw [Profile.listed_eq_false (h.resolve_left hid)] at hrun
      exact ⟨_, _, hrun, rfl, Or.inr rfl⟩
  | swap a b => exact ⟨_, _, swap_run_of_not_mem hps h, rfl, Or.inr rfl⟩
  | toggle id =>
    rcases h with hid | rfl
    · exact ⟨_, _, toggle_run_of_not_mem hps hid, Or.inl rfl, Or.inr rfl⟩
    · exact ⟨_, _, toggle_run_default hps, Or.inr rfl, Or.inr rfl⟩
  | setEditing id =>
    have hrun := setEditing_run hps id
    rw [Profile.listed_eq_false h] at hrun
    exact ⟨_, _, hrun, rfl, Or.inr rfl⟩
  | save text id =>
    have hrun := save_run hps text id
    rw [Profile.listed_eq_false h] at hrun
    exact ⟨_, _, hrun, rfl, Or.inr rfl⟩
  | _ => exact h.elim

theorem Operation.not_declined_of_fit (h : ¬ o.Unfit ps) :
    ∃ x es', o.program.run Store.memory es = (x, es') ∧ ¬ o.Declined x := by
  cases o with
  | add clock name => exact ⟨_, _, add_run hps h .ascending clock, nofun⟩
  | rename id name =>
    obtain ⟨hname, hid⟩ := not_or.mp h
    have hrun := rename_run hps hname id
    rw [Profile.listed_iff.mpr (not_not.mp hid)] at hrun
    exact ⟨_, _, hrun, nofun⟩
  | remove id =>
    obtain ⟨hdefault, hid⟩ := not_or.mp h
    have hrun := remove_run hps hdefault
    rw [Profile.listed_iff.mpr (not_not.mp hid)] at hrun
    exact ⟨_, _, hrun, nofun⟩
  | swap a b =>
    obtain ⟨ha, hb⟩ := not_or.mp h
    obtain ⟨p, hp, rfl⟩ := List.mem_map.mp (not_not.mp ha)
    obtain ⟨q, hq, rfl⟩ := List.mem_map.mp (not_not.mp hb)
    exact ⟨_, _, swap_run hps hp hq, nofun⟩
  | toggle id =>
    obtain ⟨hid, hdefault⟩ := not_or.mp h
    obtain ⟨p, hp, rfl⟩ := List.mem_map.mp (not_not.mp hid)
    exact ⟨_, _, toggle_run hps hp hdefault, not_or.mpr ⟨nofun, hdefault⟩⟩
  | setEditing id =>
    have hrun := setEditing_run hps id
    rw [Profile.listed_iff.mpr (not_not.mp h)] at hrun
    exact ⟨_, _, hrun, nofun⟩
  | save text id =>
    have hrun := save_run hps text id
    rw [Profile.listed_iff.mpr (not_not.mp h)] at hrun
    exact ⟨_, _, hrun, nofun⟩
  | _ => exact ⟨_, _, rfl, not_false⟩

end

/-- **An operation that is declined changes nothing.** As long as the list can be decoded, an
operation is declined exactly if what it is told does not fit the list, and then every key has the
value that it had, unless there was no list or an empty one: then the list to start with may be in
its place. -/
theorem declined_changes_nothing {es : Entries}
    (hlist : ∀ j, Sorted.get? listKey es = some j →
      ∃ ps, Profile.listDecoder.ofValue j = .ok ps) (o : Operation) :
    ∃ ps x es', listing es = .ok ps ∧ o.program.run Store.memory es = (x, es') ∧
      (o.Declined x ↔ o.Unfit ps) ∧
      (o.Declined x → ∀ key, Sorted.get? key es' = Sorted.get? key es ∨
        key = listKey ∧ Unlisted es ∧
          Sorted.get? key es' = some (Profile.listToJson [Profile.default])) := by
  obtain ⟨ps, hps⟩ := exists_listing_of_decodes hlist
  by_cases hunfit : o.Unfit ps
  · obtain ⟨x, es', hrun, hdeclined, hfound⟩ := o.declined_of_unfit hps hunfit
    exact ⟨ps, x, es', hps, hrun, iff_of_true hdeclined hunfit, fun _ ↦ hfound.get?_cases⟩
  · obtain ⟨x, es', hrun, hnot⟩ := o.not_declined_of_fit hps hunfit
    exact ⟨ps, x, es', hps, hrun, iff_of_false hnot hunfit, fun h ↦ absurd h hnot⟩

/-- Of two profiles that are to be swapped, only the first one is listed, in a list that is not in
normal form. It stays as it is stored. -/
theorem declined_changes_nothing_swap :
    let es : Entries := [("config_items",
      Profile.listToJson [⟨"1", "a", true⟩, ⟨"1", "b", true⟩])]
    ∃ es', (swap "1" "2").run Store.memory es = (.ok false, es') ∧
      ∀ key, Sorted.get? key es' = Sorted.get? key es := by
  intro es
  have hlisted : ¬ Unlisted es := by
    intro hunlisted
    have hempty := hunlisted _ rfl
    rw [listDecoder_listToJson] at hempty
    cases hempty
  have hps : listing es = .ok [Profile.default, ⟨"1", "a", true⟩] := by decide +kernel
  obtain ⟨ps, x, es', hfound, hrun, hiff, hkeys⟩ :=
    declined_changes_nothing (decodes_of_listing hps) (.swap "1" "2")
  obtain rfl : ps = _ := Except.ok.inj (hfound.symm.trans hps)
  have hdeclined : Operation.Declined (.swap "1" "2") x := hiff.mpr (Or.inr (by decide))
  have hresult : x = .ok false := hdeclined
  rw [hresult] at hrun
  exact ⟨es', hrun, fun key ↦ (hkeys hdeclined key).resolve_right fun h ↦ hlisted h.2.1⟩

end Redirector.Profiles
