import Redirector.Proofs.Profile.Document
import Redirector.Proofs.Profile.History
import Redirector.Proofs.Profile.Outcome

/-!
# All that is read of the profile store

What can be read of the store is a `View`: the list, which profile is being edited, the documents
and the two switches. In terms of it an operation is a function. Each of those that a request can
carry out has one statement here, which gives its result and the view after it (`Reads.add` and so
on); what the entries look like, and under which keys they are, is not needed to go on from there.

## Frames

Each part of a view is read under keys of its own. So what changes one part leaves the others alone
as soon as it keeps to the keys of that part, and there is one statement of this kind for each part
(`Reads.withProfiles` and so on). The list is the exception: reading it may write it, which changes
no part (`Reads.asFound`).
-/

namespace Redirector

namespace Profiles

open Store (Program Entries)

/-- All that can be read of the profiles. A document may be one that cannot be decoded. -/
structure View where
  profiles : List Profile
  editing : String
  document : String → Except Store.Fault String
  enabled : Bool
  headers : Bool

/-- What is read of entries in memory. -/
structure Reads (es : Entries) (v : View) : Prop where
  profiles : (list.run Store.memory es).1 = .ok v.profiles
  editing : (Profiles.editing.run Store.memory es).1 = .ok v.editing
  document : ∀ id, ((Profiles.document id).run Store.memory es).1 = v.document id
  enabled : (isEnabled.run Store.memory es).1 = .ok v.enabled
  headers : (headersEnabled.run Store.memory es).1 = .ok v.headers

theorem exists_reads {es : Entries} {ps : List Profile} (h : listing es = .ok ps) :
    ∃ v, Reads es v ∧ v.profiles = ps :=
  ⟨⟨ps, _, _, _, _⟩, ⟨h, congrArg Prod.fst (editing_run es), fun _ ↦ rfl,
    switch_run enabledKey es, switch_run headersKey es⟩, rfl⟩

/-! ## What a part depends on -/

section

variable {es es' : Entries}

theorem editing_run_congr (h : Sorted.get? editingKey es' = Sorted.get? editingKey es) :
    (editing.run Store.memory es').1 = (editing.run Store.memory es).1 := by
  rw [editing_run, editing_run, editingId, pointer_congr h, ← editingId]

theorem switch_run_congr {key : String} (h : Sorted.get? key es' = Sorted.get? key es) :
    ((switch key).run Store.memory es').1 = ((switch key).run Store.memory es).1 := by
  rw [switch_run, switch_run, h]

/-- Another profile than the default one is edited only if there is a pointer to it. -/
theorem editingId_eq_iff {id : String} (hid : id ≠ Profile.defaultId) :
    editingId es = id ↔ pointer es = some id := by
  rw [editingId]
  cases pointer es with
  | none => simp [hid.symm]
  | some aim => simp

/-- The profile that is edited after another one was removed from the list. -/
theorem editingId_unaimed {id : String} (hid : id ≠ Profile.defaultId) (ps : List Profile) :
    editingId (unaimed id ps es)
      = if editingId es = id then ((Profile.before? id ps).map Profile.id).getD Profile.defaultId
        else editingId es := by
  rw [editingId, pointer_unaimed]
  by_cases haim : pointer es = some id
  · rw [if_pos haim, if_pos ((editingId_eq_iff hid).mpr haim)]
  · rw [if_neg haim, if_neg fun heq ↦ haim ((editingId_eq_iff hid).mp heq), editingId]

end

/-! ## Where operations end -/

theorem eraseAll_run (keys : List String) (es : Entries) :
    (eraseAll keys).run Store.memory es = (.ok (), without keys es) := by
  induction keys generalizing es with
  | nil => rfl
  | cons key keys ih => exact (Program.run_memory_remove key _ es).trans (ih _)

namespace View

/-! ## Changes of a view -/

/-- With another profile at the end, which is edited. -/
def added (p : Profile) (v : View) : View :=
  { v with profiles := v.profiles ++ [p], editing := p.id }

/-- Without a profile; if it was being edited, the one before it is. -/
def removed (id : String) (v : View) : View :=
  { v with
    profiles := Profile.remove id v.profiles
    editing := if v.editing = id then
        ((Profile.before? id v.profiles).map Profile.id).getD Profile.defaultId
      else v.editing }

/-- With a profile switched on or off. -/
def toggled (p : Profile) (active : Bool) (v : View) : View :=
  { v with profiles := Profile.setActive p.id active v.profiles }

/-- With two profiles in each other's place. -/
def swapped (p q : Profile) (v : View) : View :=
  { v with profiles := Profile.swap p q v.profiles }

/-- With another document. -/
def saved (text id : String) (v : View) : View :=
  { v with document := fun i ↦ if i = id then .ok text else v.document i }

end View

namespace Reads

variable {es es' : Entries} {v : View}

/-! ## One part of a view -/

theorem withProfiles (h : Reads es v) {ps : List Profile} (hps : listing es' = .ok ps)
    (hbeside : ∀ key, Beside key → Sorted.get? key es' = Sorted.get? key es) :
    Reads es' { v with profiles := ps } where
  profiles := hps
  editing := (readsOnly_editing.run_congr hbeside).trans h.editing
  document id := ((readsOnly_document id).run_congr hbeside).trans (h.document id)
  enabled := ((readsOnly_switch beside_enabledKey).run_congr hbeside).trans h.enabled
  headers := ((readsOnly_switch beside_headersKey).run_congr hbeside).trans h.headers

theorem asFound (h : Reads es v) (hfound : AsFound es es') : Reads es' v :=
  h.withProfiles (hfound.listing_eq.trans h.profiles) fun _ ↦ hfound.get?

theorem written (h : Reads es v) {ps : List Profile} (hps : Profile.Normal ps) :
    Reads (Profiles.written ps es) { v with profiles := ps } :=
  h.withProfiles (listing_written hps es) fun _ hkey ↦ get?_written hkey ps es

theorem withEditing (h : Reads es v) {id : String} (hid : editingId es' = id)
    (hother : ∀ key ≠ editingKey, Sorted.get? key es' = Sorted.get? key es) :
    Reads es' { v with editing := id } where
  profiles := (list_run_congr (hother _ (by decide))).trans h.profiles
  editing := by rw [editing_run, hid]
  document id := by
    rw [document_run_congr (hother _ (documentKey_ne_fixed (by decide) id)), h.document]
  enabled := (switch_run_congr (hother _ (by decide))).trans h.enabled
  headers := (switch_run_congr (hother _ (by decide))).trans h.headers

theorem aimed (h : Reads es v) (id : String) :
    Reads (Profiles.aimed id es) { v with editing := id } := by
  refine h.withEditing ?_ fun key hkey ↦ get?_aimed hkey id es
  rw [editingId, pointer_aimed, Option.getD_some]

theorem saved (h : Reads es v) (text id : String) :
    Reads (Profiles.saved text id es) (v.saved text id) := by
  have hfixed : ∀ {key}, key ∈ fixedKeys →
      Sorted.get? key (Profiles.saved text id es) = Sorted.get? key es := fun hkey ↦
    get?_saved (documentKey_ne_fixed hkey id) text es
  refine ⟨?_, ?_, ?_, ?_, ?_⟩
  · exact (list_run_congr (hfixed (by decide))).trans h.profiles
  · exact (editing_run_congr (hfixed (by decide))).trans h.editing
  · intro i
    by_cases hi : i = id
    · subst hi
      rw [document_run_stored (get?_saved_self text i es)]
      exact (if_pos rfl).symm
    · have hkey : documentKey id ≠ documentKey i := fun heq ↦
        hi (documentKey_injective heq).symm
      rw [document_run_congr (get?_saved hkey text es), h.document]
      exact (if_neg hi).symm
  · exact (switch_run_congr (hfixed (by decide))).trans h.enabled
  · exact (switch_run_congr (hfixed (by decide))).trans h.headers

theorem withSwitches (h : Reads es v) {enabled headers : Bool}
    (henabled : (isEnabled.run Store.memory es').1 = .ok enabled)
    (hheaders : (headersEnabled.run Store.memory es').1 = .ok headers)
    (hother : ∀ key ∉ [enabledKey, headersKey], Sorted.get? key es' = Sorted.get? key es) :
    Reads es' { v with enabled, headers } where
  profiles := (list_run_congr (hother _ (by decide))).trans h.profiles
  editing := (editing_run_congr (hother _ (by decide))).trans h.editing
  document id := by
    have hkey : documentKey id ∉ [enabledKey, headersKey] := by
      intro hmem
      exact documentKey_ne_fixed (List.mem_of_mem_drop (i := 2) hmem) id rfl
    rw [document_run_congr (hother _ hkey), h.document]
  enabled := henabled
  headers := hheaders

theorem setEnabled (h : Reads es v) (on : Bool) :
    Reads (Sorted.insert enabledKey (.boolean on) es) { v with enabled := on } := by
  have hother : ∀ key ≠ enabledKey,
      Sorted.get? key (Sorted.insert enabledKey (.boolean on) es) = Sorted.get? key es :=
    fun key hkey ↦ by rw [Store.get?_insert, if_neg hkey.symm]
  refine h.withSwitches ?_ ?_ fun key hkey ↦ hother key (List.ne_of_not_mem_cons hkey)
  · rw [isEnabled, switch_run, Store.get?_insert, if_pos rfl]
    rfl
  · exact (switch_run_congr (hother _ (by decide))).trans h.headers

theorem setHeadersEnabled (h : Reads es v) (on : Bool) :
    Reads (Sorted.insert headersKey (.boolean on) es) { v with headers := on } := by
  have hother : ∀ key ≠ headersKey,
      Sorted.get? key (Sorted.insert headersKey (.boolean on) es) = Sorted.get? key es :=
    fun key hkey ↦ by rw [Store.get?_insert, if_neg hkey.symm]
  refine h.withSwitches ?_ ?_ fun key hkey ↦
    hother key (List.ne_of_not_mem_cons (List.not_mem_of_not_mem_cons hkey))
  · exact (switch_run_congr (hother _ (by decide))).trans h.enabled
  · rw [headersEnabled, switch_run, Store.get?_insert, if_pos rfl]
    rfl

/-! ## Operations -/

theorem withList (h : Reads es v) : Reads (Profiles.withList es) v := h.asFound (Or.inr rfl)

theorem normal (h : Reads es v) : Profile.Normal v.profiles := normal_of_listing h.profiles

theorem add (h : Reads es v) {name : String} (hname : ∃ c ∈ name.toList, Text.isBlank c = false)
    (clock : Nat) :
    ∃ p es', (Profiles.add clock name).run Store.memory es = (.ok p, es') ∧
      p.name = String.ofList (Text.trim name.toList) ∧ p.active = true ∧
      p.id ∉ Profile.ids v.profiles ∧ v.document p.id = .ok Document.template ∧
      Reads es' (v.added p) := by
  have htrim : Text.trim name.toList ≠ [] := by
    intro hnil
    obtain ⟨c, hc, hblank⟩ := hname
    rw [Text.trim_eq_nil_iff.mp hnil c hc] at hblank
    cases hblank
  have hrun := add_run h.profiles htrim .ascending clock
  generalize String.ofList (Text.trim name.toList) = trimmed at hrun
  have hnew := newcomer_unlisted clock trimmed v.profiles (Profiles.withList es)
  have hundocumented := newcomer_undocumented clock trimmed v.profiles (Profiles.withList es)
  refine ⟨_, _, hrun, rfl, rfl, hnew, ?_, (h.withList.written (h.normal.append hnew)).aimed _⟩
  rw [← h.withList.document, document_run, document?_run, hundocumented]
  rfl

theorem remove (h : Reads es v) {id : String} (hid : id ≠ Profile.defaultId) :
    ∃ es', (Profiles.remove id).run Store.memory es = (.ok (Profile.listed id v.profiles), es') ∧
      Reads es' (if Profile.listed id v.profiles then v.removed id else v) := by
  refine ⟨_, remove_run h.profiles hid, ?_⟩
  cases Profile.listed id v.profiles with
  | false => exact h.withList
  | true =>
    have hwritten := h.withList.written (h.normal.remove hid)
    have hediting := hwritten.editing
    rw [editing_run, Except.ok.injEq] at hediting
    refine hwritten.withEditing ?_ fun key hkey ↦ get?_unaimed hkey id v.profiles _
    rw [if_pos rfl, editingId_unaimed hid, hediting]

theorem toggle (h : Reads es v) (id : String) :
    (∃ p ∈ v.profiles, p.id = id ∧ ∃ es',
      (Profiles.toggle id).run Store.memory es = (.ok (some (p.isDefault || !p.active)), es') ∧
        Reads es' (v.toggled p (p.isDefault || !p.active))) ∨
    (id ∉ Profile.ids v.profiles ∧
      ∃ es', (Profiles.toggle id).run Store.memory es = (.ok none, es') ∧ Reads es' v) := by
  by_cases hlisted : id ∈ Profile.ids v.profiles
  · obtain ⟨p, hp, rfl⟩ := List.mem_map.mp hlisted
    refine Or.inl ⟨p, hp, rfl, ?_⟩
    by_cases hdefault : p.isDefault = true
    · rw [hdefault, Bool.true_or, View.toggled, Profile.isDefault_iff.mp hdefault,
        h.normal.setActive_default]
      exact ⟨_, toggle_run_default h.profiles, h.withList⟩
    · rw [Bool.eq_false_iff.mpr hdefault, Bool.false_or]
      rw [Profile.isDefault_iff] at hdefault
      exact ⟨_, toggle_run h.profiles hp hdefault,
        h.withList.written (h.normal.setActive hdefault _)⟩
  · exact Or.inr ⟨hlisted, _, toggle_run_of_not_mem h.profiles hlisted, h.withList⟩

theorem swap (h : Reads es v) (a b : String) :
    (∃ p ∈ v.profiles, ∃ q ∈ v.profiles, p.id = a ∧ q.id = b ∧ ∃ es',
      (Profiles.swap a b).run Store.memory es = (.ok true, es') ∧ Reads es' (v.swapped p q)) ∨
    ((a ∉ Profile.ids v.profiles ∨ b ∉ Profile.ids v.profiles) ∧
      ∃ es', (Profiles.swap a b).run Store.memory es = (.ok false, es') ∧ Reads es' v) := by
  by_cases hlisted : a ∈ Profile.ids v.profiles ∧ b ∈ Profile.ids v.profiles
  · obtain ⟨p, hp, rfl⟩ := List.mem_map.mp hlisted.1
    obtain ⟨q, hq, rfl⟩ := List.mem_map.mp hlisted.2
    exact Or.inl ⟨p, hp, q, hq, rfl, rfl, _, swap_run h.profiles hp hq,
      h.withList.written (h.normal.swap hp hq)⟩
  · rw [not_and_or] at hlisted
    exact Or.inr ⟨hlisted, _, swap_run_of_not_mem h.profiles hlisted, h.withList⟩

theorem collectGarbage (h : Reads es v) :
    ∃ n es', Profiles.collectGarbage.run Store.memory es = (.ok n, es') := by
  rw [Profiles.collectGarbage, list_bind_run h.profiles]
  change ∃ n es', (Program.keys fun keys ↦ eraseAll (List.filter _ keys) >>= fun _ ↦
    .done (List.filter _ keys).length).run Store.memory (Profiles.withList es) = (.ok n, es')
  rw [Program.run_memory_keys, Program.run_bind_apply, eraseAll_run]
  exact ⟨_, _, rfl⟩

theorem save (h : Reads es v) (text id : String) :
    ∃ es', (Profiles.save text id).run Store.memory es
        = (.ok (Profile.listed id v.profiles), es') ∧
      Reads es' (if Profile.listed id v.profiles then v.saved text id else v) := by
  refine ⟨_, save_run h.profiles text id, ?_⟩
  cases Profile.listed id v.profiles with
  | false => exact h.withList
  | true => exact h.withList.saved text id

end Reads

end Profiles

end Redirector
