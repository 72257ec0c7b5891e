import Redirector.Proofs.Profile.Store
import Redirector.Proofs.Sorted

/-!
# What the operations on the profile store do

Each operation that writes first reads the list, settles what to write, and then makes one write, or
two: adding a profile also edits it, and removing the one that is being edited also edits another
one. For each of them there is one statement here, of the kind `Ends`: the result and the entries it
leaves behind at its end, and what it leaves behind where it is broken off.

## Where an operation can be broken off

Up to its first write the entries are as they were found, apart from the list that there is to start
with (`AsFound`). With a single write that is all there is to say. Between two writes the list is
the new one and the pointer to the profile that is being edited is the old one; the calls that can
be refused there are those about the pointer, and no others.
-/

namespace Redirector.Profiles

open Store (Call Program Entries)
open Store.Program (ReadsOnly Ends)

/-! ## Entries after a write -/

/-- The identifier that is stored as the one being edited. -/
def pointer (es : Entries) : Option String := (Sorted.get? editingKey es).bind Json.string?

/-- The entries with another list. -/
def written (ps : List Profile) (es : Entries) : Entries :=
  Sorted.insert listKey (Profile.listToJson ps) es

/-- The entries with another profile being edited. -/
def aimed (id : String) (es : Entries) : Entries := Sorted.insert editingKey (.string id) es

/-- The entries after a profile of the list was removed: if it was being edited, the one before it
is edited, or none in particular. -/
def unaimed (id : String) (ps : List Profile) (es : Entries) : Entries :=
  if pointer es = some id then
    match Profile.before? id ps with
    | some p => aimed p.id es
    | none => Sorted.erase editingKey es
  else es

/-- The entries without some keys. -/
def without (keys : List String) (es : Entries) : Entries :=
  keys.foldl (fun es key ↦ Sorted.erase key es) es

theorem beside_editingKey : Beside editingKey := by
  rw [Beside]
  decide

theorem get?_listKey_written (ps : List Profile) (es : Entries) :
    Sorted.get? listKey (written ps es) = some (Profile.listToJson ps) := by
  rw [written, Store.get?_insert, if_pos rfl]

/-- A list in normal form is read as it was written. -/
theorem listing_written {ps : List Profile} (h : Profile.Normal ps) (es : Entries) :
    listing (written ps es) = .ok ps := listing_of_stored h (get?_listKey_written ps es)

theorem get?_written {key : String} (h : Beside key) (ps : List Profile) (es : Entries) :
    Sorted.get? key (written ps es) = Sorted.get? key es := by
  rw [written, Store.get?_insert, if_neg (Ne.symm h)]

theorem get?_aimed {key : String} (h : key ≠ editingKey) (id : String) (es : Entries) :
    Sorted.get? key (aimed id es) = Sorted.get? key es := by
  rw [aimed, Store.get?_insert, if_neg (Ne.symm h)]

theorem get?_unaimed {key : String} (h : key ≠ editingKey) (id : String) (ps : List Profile)
    (es : Entries) : Sorted.get? key (unaimed id ps es) = Sorted.get? key es := by
  unfold unaimed
  split
  · cases Profile.before? id ps with
    | some p => exact get?_aimed h p.id es
    | none => rw [Sorted.get?_erase, if_neg h]
  · rfl

theorem without_eq_filter (keys : List String) (es : Entries) :
    without keys es = es.filter fun entry ↦ entry.1 ∉ keys := by
  induction keys generalizing es with
  | nil => simp [without]
  | cons key keys ih =>
    rw [without, List.foldl_cons, ← without, ih, Sorted.erase, List.filter_filter]
    refine List.filter_congr fun entry _ ↦ ?_
    simp [Bool.and_comm]

theorem get?_without {key : String} {keys : List String} (h : key ∉ keys) (es : Entries) :
    Sorted.get? key (without keys es) = Sorted.get? key es := by
  rw [without_eq_filter, Sorted.get?_filter (· ∉ keys), if_pos h]

theorem get?_without_of_mem {key : String} {keys : List String} (h : key ∈ keys) (es : Entries) :
    Sorted.get? key (without keys es) = none := by
  rw [without_eq_filter, Sorted.get?_filter (· ∉ keys), if_neg (not_not_intro h)]

/-- The keys that are not of documents. -/
def fixedKeys : List String := [listKey, editingKey, enabledKey, headersKey]

theorem documentKey_ne_fixed {key : String} (h : key ∈ fixedKeys) (id : String) :
    documentKey id ≠ key := by
  refine documentKey_ne ?_ id
  revert key
  decide

theorem pointer_congr {es es' : Entries}
    (h : Sorted.get? editingKey es' = Sorted.get? editingKey es) : pointer es' = pointer es := by
  rw [pointer, h, pointer]

theorem pointer_aimed (id : String) (es : Entries) : pointer (aimed id es) = some id := by
  rw [pointer, aimed, Store.get?_insert, if_pos rfl]
  rfl

theorem pointer_written (ps : List Profile) (es : Entries) : pointer (written ps es) = pointer es :=
  pointer_congr (get?_written beside_editingKey ps es)

theorem pointer_unaimed (id : String) (ps : List Profile) (es : Entries) :
    pointer (unaimed id ps es)
      = if pointer es = some id then (Profile.before? id ps).map Profile.id else pointer es := by
  unfold unaimed
  split
  · cases Profile.before? id ps with
    | some p => exact pointer_aimed p.id es
    | none =>
      rw [pointer, Sorted.get?_erase, if_pos rfl]
      rfl
  · rfl

theorem readsOnly_editing : editing.ReadsOnly Beside := ⟨beside_editingKey, fun _ ↦ trivial⟩

/-! ## Entries as they were found -/

/-- The entries as they were found, apart from the list that there is to start with. -/
def AsFound (es es' : Entries) : Prop := es' = es ∨ es' = withList es

theorem AsFound.get? {es es' : Entries} (h : AsFound es es') {key : String} (hkey : Beside key) :
    Sorted.get? key es' = Sorted.get? key es := by
  rcases h with rfl | rfl
  · rfl
  · exact get?_withList hkey es

theorem AsFound.pointer_eq {es es' : Entries} (h : AsFound es es') : pointer es' = pointer es :=
  pointer_congr (h.get? beside_editingKey)

theorem AsFound.listing_eq {es es' : Entries} (h : AsFound es es') : listing es' = listing es := by
  rcases h with rfl | rfl
  · rfl
  · exact congrArg Prod.fst (list_run_again es)

/-! ## New profiles -/

/-- The profile that is added under a name, given the clock and the list. -/
def newcomer (clock : Nat) (name : String) (ps : List Profile) (es : Entries) : Profile :=
  let used := ps.map Profile.id ++ (Sorted.keys es).filterMap documentId?
  ⟨toString (Profile.firstUnused used used.length clock), name, true⟩

theorem documentId?_documentKey (id : String) : documentId? (documentKey id) = some id := by
  have hprefix : documentMark.isPrefixOf (documentMark ++ id.toList) = true :=
    List.isPrefixOf_iff_prefix.mpr (List.prefix_append _ _)
  rw [documentId?, documentKey_toList, if_pos hprefix, List.drop_left, String.ofList_toList]

theorem eq_documentKey_of_documentId? {key id : String} (h : documentId? key = some id) :
    key = documentKey id := by
  rw [documentId?] at h
  split_ifs at h with hprefix
  obtain ⟨rest, hrest⟩ := List.isPrefixOf_iff_prefix.mp hprefix
  rw [← hrest, List.drop_left, Option.some.injEq] at h
  refine String.toList_injective ?_
  rw [documentKey_toList, ← h, String.toList_ofList, hrest]

theorem mem_filterMap_documentId?_iff {id : String} {es : Entries} :
    id ∈ (Sorted.keys es).filterMap documentId? ↔ Sorted.get? (documentKey id) es ≠ none := by
  rw [← Option.isSome_iff_ne_none, ← Sorted.contains, Sorted.contains_iff_mem_keys,
    List.mem_filterMap]
  constructor
  · rintro ⟨key, hkey, hid⟩
    exact eq_documentKey_of_documentId? hid ▸ hkey
  · intro hkey
    exact ⟨documentKey id, hkey, documentId?_documentKey id⟩

private theorem newcomer_id_not_mem (clock : Nat) (name : String) (ps : List Profile)
    (es : Entries) :
    (newcomer clock name ps es).id ∉
      ps.map Profile.id ++ (Sorted.keys es).filterMap documentId? :=
  Profile.toString_firstUnused _ clock

theorem newcomer_unlisted (clock : Nat) (name : String) (ps : List Profile) (es : Entries) :
    (newcomer clock name ps es).id ∉ Profile.ids ps := fun hmem ↦
  newcomer_id_not_mem clock name ps es (List.mem_append_left _ hmem)

theorem newcomer_undocumented (clock : Nat) (name : String) (ps : List Profile) (es : Entries) :
    Sorted.get? (documentKey (newcomer clock name ps es).id) es = none := by
  by_contra hne
  refine newcomer_id_not_mem clock name ps es (List.mem_append_right _ ?_)
  exact mem_filterMap_documentId?_iff.mpr hne

theorem checkName_cases (name : String) :
    checkName name = .fail .emptyName ∨ ∃ trimmed, checkName name = .done trimmed := by
  unfold checkName
  cases Text.trim name.toList with
  | nil => exact Or.inl rfl
  | cons c cs => exact Or.inr ⟨_, rfl⟩

/-! ## Operations on the list -/

/-- Writing the list is not about the pointer. -/
theorem key?_set_listKey_ne (value : Json) :
    (some (Call.set listKey value)).bind Call.key? ≠ some editingKey := by
  change some listKey ≠ some editingKey
  decide

section

variable (es : Entries)

theorem setList_ends (ps : List Profile) :
    (setList ps).Ends
      (fun qs es' ↦ qs = Profile.normalize ps ∧ es' = written (Profile.normalize ps) es)
      (fun _ es' ↦ es' = es) es := ⟨rfl, rfl, rfl⟩

theorem add_ends (clock : Nat) (name : String) :
    (add clock name).Ends
      (fun p es' ↦ ∃ ps trimmed, listing es = .ok ps ∧ checkName name = .done trimmed ∧
        p = newcomer clock trimmed ps (withList es) ∧
        es' = aimed p.id (written (ps ++ [p]) (withList es)))
      (fun c es' ↦ c.bind Call.key? ≠ some editingKey ∧ AsFound es es' ∨
        c.bind Call.key? = some editingKey ∧ ∃ ps trimmed, listing es = .ok ps ∧
          es' = written (ps ++ [newcomer clock trimmed ps (withList es)]) (withList es)) es := by
  unfold add
  rcases checkName_cases name with hname | ⟨trimmed, hname⟩
  · rw [hname]
    exact Or.inl ⟨by decide, Or.inl rfl⟩
  · rw [hname]
    refine Ends.bind (p := .done trimmed) (Ends.bind (list_ends ?_ ?_))
    · exact fun c hc ↦ Or.inl ⟨hc, Or.inl rfl⟩
    · intro ps hps
      have hfound : AsFound es (withList es) := Or.inr rfl
      -- The calls that are left: for the keys, for the list and for the pointer.
      refine ⟨Or.inl ⟨by decide, hfound⟩, Or.inl ⟨key?_set_listKey_ne _, hfound⟩,
        Or.inr ⟨rfl, ?_⟩, ?_⟩
      · exact ⟨ps, trimmed, hps, rfl⟩
      · exact ⟨ps, trimmed, hps, rfl, rfl, rfl⟩

theorem rename_ends (id name : String) :
    (rename id name).Ends
      (fun done es' ↦ ∃ ps trimmed, listing es = .ok ps ∧ checkName name = .done trimmed ∧
        done = Profile.listed id ps ∧
        es' = if done then written (Profile.rename id trimmed ps) (withList es) else withList es)
      (fun _ es' ↦ AsFound es es') es := by
  unfold rename
  rcases checkName_cases name with hname | ⟨trimmed, hname⟩
  · rw [hname]
    exact Or.inl rfl
  · rw [hname]
    refine Ends.bind (p := .done trimmed) (Ends.bind (list_ends (fun _ _ ↦ Or.inl rfl) ?_))
    intro ps hps
    cases hlisted : Profile.listed id ps with
    | true => exact ⟨Or.inr rfl, ps, trimmed, hps, rfl, hlisted.symm, rfl⟩
    | false => exact ⟨ps, trimmed, hps, rfl, hlisted.symm, rfl⟩

/-- The end of a removal: the pointer follows if it was to the profile that is gone. -/
private theorem followed_ends {D : Bool → Entries → Prop} {B : Option Call → Entries → Prop}
    {es : Entries} {id : String} {ps : List Profile}
    (hB : ∀ c, c.bind Call.key? = some editingKey → B c es)
    (hD : D true (unaimed id ps es)) :
    (do
      if (← storedEditing) = some id then
        retarget (Profile.before? id ps)
      return true : Program Bool).Ends D B es := by
  refine ⟨hB _ rfl, ?_⟩
  rw [unaimed] at hD
  change (if pointer es = some id then retarget (Profile.before? id ps) >>= fun _ ↦ .done true
    else .done true).Ends D B es
  by_cases hpointer : pointer es = some id
  · rw [if_pos hpointer] at hD ⊢
    cases hbefore : Profile.before? id ps with
    | some p =>
      rw [hbefore] at hD
      exact ⟨hB _ rfl, hD⟩
    | none =>
      rw [hbefore] at hD
      exact ⟨hB _ rfl, hD⟩
  · rw [if_neg hpointer] at hD ⊢
    exact hD

theorem remove_ends (id : String) :
    (remove id).Ends
      (fun done es' ↦ id = Profile.defaultId ∧ done = false ∧ es' = es ∨
        id ≠ Profile.defaultId ∧ ∃ ps, listing es = .ok ps ∧ done = Profile.listed id ps ∧
          es' = if done then unaimed id ps (written (Profile.remove id ps) (withList es))
            else withList es)
      (fun c es' ↦ c.bind Call.key? ≠ some editingKey ∧ AsFound es es' ∨
        c.bind Call.key? = some editingKey ∧ id ≠ Profile.defaultId ∧ ∃ ps, listing es = .ok ps ∧
          Profile.listed id ps = true ∧ es' = written (Profile.remove id ps) (withList es)) es := by
  unfold remove
  split_ifs with hid
  · exact Or.inl ⟨hid, rfl, rfl⟩
  · refine Ends.bind (list_ends (fun c hc ↦ Or.inl ⟨hc, Or.inl rfl⟩) ?_)
    intro ps hps
    cases hlisted : Profile.listed id ps with
    | false => exact Or.inr ⟨hid, ps, hps, hlisted.symm, rfl⟩
    | true =>
      -- Once the list is written, all calls that are left are about the pointer.
      refine ⟨Or.inl ⟨key?_set_listKey_ne _, Or.inr rfl⟩, followed_ends ?_ ?_⟩
      · exact fun c hc ↦ Or.inr ⟨hc, hid, ps, hps, hlisted, rfl⟩
      · exact Or.inr ⟨hid, ps, hps, hlisted.symm, rfl⟩

theorem swap_ends (a b : String) :
    (swap a b).Ends
      (fun done es' ↦ ∃ ps, listing es = .ok ps ∧
        ((a ∉ Profile.ids ps ∨ b ∉ Profile.ids ps) ∧ done = false ∧ es' = withList es ∨
          ∃ p ∈ ps, ∃ q ∈ ps, p.id = a ∧ q.id = b ∧ done = true ∧
            es' = written (Profile.swap p q ps) (withList es)))
      (fun _ es' ↦ AsFound es es') es := by
  refine Ends.bind (list_ends (fun _ _ ↦ Or.inl rfl) fun ps hps ↦ ?_)
  cases hp : ps.find? (·.id == a) with
  | none => exact ⟨ps, hps, Or.inl ⟨Or.inl (Profile.not_mem_ids_of_find? hp), rfl, rfl⟩⟩
  | some p =>
    cases hq : ps.find? (·.id == b) with
    | none => exact ⟨ps, hps, Or.inl ⟨Or.inr (Profile.not_mem_ids_of_find? hq), rfl, rfl⟩⟩
    | some q =>
      obtain ⟨hpmem, hpid⟩ := Profile.mem_of_find?_id hp
      obtain ⟨hqmem, hqid⟩ := Profile.mem_of_find?_id hq
      exact ⟨Or.inr rfl, ps, hps, Or.inr ⟨p, hpmem, q, hqmem, hpid, hqid, rfl, rfl⟩⟩

theorem toggle_ends (id : String) :
    (toggle id).Ends
      (fun active es' ↦ ∃ ps, listing es = .ok ps ∧
        (es' = withList es ∧ (active = none ∧ id ∉ Profile.ids ps ∨
            active = some true ∧ id = Profile.defaultId) ∨
          ∃ p ∈ ps, p.id = id ∧ id ≠ Profile.defaultId ∧ active = some !p.active ∧
            es' = written (Profile.setActive id (!p.active) ps) (withList es)))
      (fun _ es' ↦ AsFound es es') es := by
  refine Ends.bind (list_ends (fun _ _ ↦ Or.inl rfl) fun ps hps ↦ ?_)
  cases hp : ps.find? (·.id == id) with
  | none =>
    exact ⟨ps, hps, Or.inl ⟨rfl, Or.inl ⟨rfl, Profile.not_mem_ids_of_find? hp⟩⟩⟩
  | some p =>
    obtain ⟨hpmem, hpid⟩ := Profile.mem_of_find?_id hp
    dsimp only
    split_ifs with hdefault
    · exact ⟨ps, hps, Or.inl ⟨rfl, Or.inr ⟨rfl, hpid ▸ Profile.isDefault_iff.mp hdefault⟩⟩⟩
    · rw [Profile.isDefault_iff, hpid] at hdefault
      exact ⟨Or.inr rfl, ps, hps, Or.inr ⟨p, hpmem, hpid, hdefault, rfl, rfl⟩⟩

/-! ## Operations beside the list -/

theorem setEditing_ends (id : String) :
    (setEditing id).Ends
      (fun done es' ↦ ∃ ps, listing es = .ok ps ∧ done = Profile.listed id ps ∧
        es' = if done then aimed id (withList es) else withList es)
      (fun _ es' ↦ AsFound es es') es := by
  refine Ends.bind (list_ends (fun _ _ ↦ Or.inl rfl) fun ps hps ↦ ?_)
  cases hlisted : Profile.listed id ps with
  | true => exact ⟨Or.inr rfl, ps, hps, hlisted.symm, rfl⟩
  | false => exact ⟨ps, hps, hlisted.symm, rfl⟩

/-- The entries with another document. -/
def saved (text id : String) (es : Entries) : Entries :=
  Sorted.insert (documentKey id) (Profile.documentToJson text) es

theorem get?_saved {key : String} {id : String} (h : documentKey id ≠ key) (text : String)
    (es : Entries) : Sorted.get? key (saved text id es) = Sorted.get? key es := by
  rw [saved, Store.get?_insert, if_neg h]

theorem save_ends (text id : String) :
    (save text id).Ends
      (fun done es' ↦ ∃ ps, listing es = .ok ps ∧ done = Profile.listed id ps ∧
        es' = if done then saved text id (withList es) else withList es)
      (fun _ es' ↦ AsFound es es') es := by
  refine Ends.bind (list_ends (fun _ _ ↦ Or.inl rfl) fun ps hps ↦ ?_)
  cases hlisted : Profile.listed id ps with
  | true => exact ⟨Or.inr rfl, ps, hps, hlisted.symm, rfl⟩
  | false => exact ⟨ps, hps, hlisted.symm, rfl⟩

/-- The keys of documents whose profile is not in the list. -/
def orphans (ps : List Profile) (es : Entries) : List String :=
  (Sorted.keys es).filter fun key ↦
    ((documentId? key).map fun id ↦ !Profile.listed id ps).getD false

/-- The key is that of a document whose profile is not in the list. -/
def Orphaned (ps : List Profile) (key : String) : Prop :=
  ∃ id, key = documentKey id ∧ id ∉ Profile.ids ps

theorem orphaned_iff {ps : List Profile} {key : String} :
    ((documentId? key).map fun id ↦ !Profile.listed id ps).getD false = true ↔ Orphaned ps key := by
  constructor
  · intro h
    cases hid : documentId? key with
    | none =>
      rw [hid] at h
      cases h
    | some id =>
      rw [hid, Option.map_some, Option.getD_some] at h
      refine ⟨id, eq_documentKey_of_documentId? hid, fun hlisted ↦ ?_⟩
      rw [← Profile.listed_iff] at hlisted
      rw [hlisted] at h
      cases h
  · rintro ⟨id, rfl, hid⟩
    rw [← Profile.listed_iff, Bool.not_eq_true] at hid
    rw [documentId?_documentKey, Option.map_some, Option.getD_some, hid, Bool.not_false]

instance (ps : List Profile) : DecidablePred (Orphaned ps) := fun _ ↦
  decidable_of_iff _ orphaned_iff

theorem exists_of_mem_orphans {ps : List Profile} {es : Entries} {key : String}
    (h : key ∈ orphans ps es) : ∃ id, key = documentKey id ∧ id ∉ Profile.ids ps :=
  orphaned_iff.mp (List.mem_filter.mp h).2

theorem eraseAll_ends (keys : List String) :
    (eraseAll keys).Ends (fun _ es' ↦ es' = without keys es)
      (fun _ es' ↦ ∃ before, before <+: keys ∧ es' = without before es) es := by
  induction keys generalizing es with
  | nil => exact rfl
  | cons key keys ih =>
    -- Refused at this key, or later on: then this key is one of those that are gone.
    refine ⟨⟨[], List.nil_prefix, rfl⟩, (ih (Sorted.erase key es)).mono (fun _ _ h ↦ h) ?_⟩
    rintro c es' ⟨before, hbefore, rfl⟩
    exact ⟨key :: before, List.prefix_cons_inj key |>.mpr hbefore, rfl⟩

/-- Collecting garbage takes documents out one by one, so it can be broken off anywhere between. -/
theorem collectGarbage_ends :
    collectGarbage.Ends
      (fun n es' ↦ ∃ ps, listing es = .ok ps ∧ n = (orphans ps (withList es)).length ∧
        es' = without (orphans ps (withList es)) (withList es))
      (fun _ es' ↦ AsFound es es' ∨ ∃ ps before, listing es = .ok ps ∧
        before <+: orphans ps (withList es) ∧ es' = without before (withList es)) es := by
  refine Ends.bind (list_ends (fun _ _ ↦ Or.inl (Or.inl rfl)) fun ps hps ↦ ?_)
  -- The list was read before the keys, so the orphans are those of the entries with the list.
  refine Ends.bind ⟨Or.inl (Or.inr rfl), Ends.bind ((eraseAll_ends _ _).mono ?_ ?_)⟩
  · rintro _ es' rfl
    exact ⟨ps, hps, rfl, rfl⟩
  · rintro c es' ⟨before, hbefore, rfl⟩
    exact Or.inr ⟨ps, before, hps, hbefore, rfl⟩

theorem initSwitch_ends (key : String) (on : Bool) :
    (initSwitch key on).Ends
      (fun _ es' ↦ es' = if (Sorted.get? key es).isNone then Sorted.insert key (.boolean on) es
        else es)
      (fun _ es' ↦ es' = es) es := by
  refine ⟨rfl, ?_⟩
  cases Sorted.get? key es with
  | none => exact ⟨rfl, rfl⟩
  | some j => exact rfl

theorem initSwitches_ends (enabled headers : Bool) :
    (initSwitches enabled headers).Ends
      (fun _ es' ↦ ∀ key ∉ [enabledKey, headersKey], Sorted.get? key es' = Sorted.get? key es)
      (fun _ es' ↦ ∀ key ∉ [enabledKey, headersKey], Sorted.get? key es' = Sorted.get? key es)
      es := by
  have hframe : ∀ {k : String} {on : Bool} {es es' : Entries},
      (es' = if (Sorted.get? k es).isNone then Sorted.insert k (.boolean on) es else es) →
      ∀ key ≠ k, Sorted.get? key es' = Sorted.get? key es := by
    rintro k on es es' rfl key hkey
    split_ifs
    · rw [Store.get?_insert, if_neg (Ne.symm hkey)]
    · rfl
  refine Ends.bind ((initSwitch_ends es enabledKey enabled).mono (fun _ es₁ h₁ ↦ ?_) ?_)
  · have hkeys : ∀ key ∉ [enabledKey, headersKey], Sorted.get? key es₁ = Sorted.get? key es :=
      fun key hkey ↦ hframe h₁ key (List.ne_of_not_mem_cons hkey)
    refine (initSwitch_ends es₁ headersKey headers).mono (fun _ es' h' key hkey ↦ ?_) ?_
    · refine (hframe h' key ?_).trans (hkeys key hkey)
      exact List.ne_of_not_mem_cons (List.not_mem_of_not_mem_cons hkey)
    · rintro _ es' rfl
      exact hkeys
  · rintro _ es' rfl key -
    rfl

end

end Redirector.Profiles
