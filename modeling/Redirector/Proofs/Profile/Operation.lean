import Redirector.Proofs.Profile.Effect

/-!
# What readers see of an operation

Readers of the profile store see a list and which profile is being edited. This is where the effects
of all operations are brought together in these terms: an operation that comes to its end takes its
`Turn`, and one that is broken off has changed nothing, or has written the list and not yet the
pointer (`Halt`). Both are read off the effects, one lemma for each operation that writes, and
everything that is to hold of any operation starts from there (`Operation.ends`).
-/

namespace Redirector.Profiles

open Store (Call Program Entries)
open Store.Program (ReadsOnly Ends)

/-- An operation on the profile store, with its arguments. -/
inductive Operation where
  | list
  | setList (ps : List Profile)
  | add (clock : Nat) (name : String)
  | rename (id name : String)
  | remove (id : String)
  | swap (a b : String)
  | toggle (id : String)
  | editing
  | setEditing (id : String)
  | document? (id : String)
  | document (id : String)
  | save (text id : String)
  | activeDocuments
  | collectGarbage
  | initSwitches (enabled headers : Bool)
  | isEnabled
  | setEnabled (on : Bool)
  | headersEnabled
  | setHeadersEnabled (on : Bool)

namespace Operation

def Result : Operation → Type
  | list | setList _ => List Profile
  | add .. => Profile
  | rename .. | remove _ | swap .. | setEditing _ | save .. | isEnabled | headersEnabled => Bool
  | toggle _ => Option Bool
  | editing | document _ => String
  | document? _ => Option String
  | activeDocuments => List (Profile × String)
  | collectGarbage => Nat
  | initSwitches .. | setEnabled _ | setHeadersEnabled _ => Unit

def program : (o : Operation) → Program o.Result
  | list => Profiles.list
  | setList ps => Profiles.setList ps
  | add clock name => Profiles.add clock name
  | rename id name => Profiles.rename id name
  | remove id => Profiles.remove id
  | swap a b => Profiles.swap a b
  | toggle id => Profiles.toggle id
  | editing => Profiles.editing
  | setEditing id => Profiles.setEditing id
  | document? id => Profiles.document? id
  | document id => Profiles.document id
  | save text id => Profiles.save text id
  | activeDocuments => Profiles.activeDocuments
  | collectGarbage => Profiles.collectGarbage
  | initSwitches enabled headers => Profiles.initSwitches enabled headers
  | isEnabled => Profiles.isEnabled
  | setEnabled on => Profiles.setEnabled on
  | headersEnabled => Profiles.headersEnabled
  | setHeadersEnabled on => Profiles.setHeadersEnabled on

/-- Whether an operation writes both the list and the pointer. -/
def writesTwice : Operation → Bool
  | add .. | remove _ => true
  | _ => false

end Operation

/-! ## What readers see -/

/-- Entries in which a list in normal form is stored, or none and it is the one to start with. -/
structure Shows (es : Entries) (ps : List Profile) : Prop where
  normal : Profile.Normal ps
  stored : Sorted.get? listKey es = some (Profile.listToJson ps) ∨
    Sorted.get? listKey es = none ∧ ps = [Profile.default]

/-- Nothing has happened to the list and the pointer, apart from the list that there is to start
with. -/
structure Kept (es es' : Entries) : Prop where
  list : Sorted.get? listKey es' = Sorted.get? listKey es ∨
    Sorted.get? listKey es' = Sorted.get? listKey (withList es)
  pointer : pointer es' = pointer es

section

variable {es es' : Entries} {ps : List Profile}

theorem shows_nil : Shows [] [Profile.default] where
  normal := Profile.normal_default
  stored := Or.inr ⟨rfl, rfl⟩

theorem shows_written (h : Profile.Normal ps) (es : Entries) : Shows (written ps es) ps where
  normal := h
  stored := Or.inl (get?_listKey_written ps es)

theorem Shows.listing_eq (h : Shows es ps) : listing es = .ok ps := by
  rcases h.stored with hstored | ⟨hmissing, rfl⟩
  · exact listing_of_stored h.normal hstored
  · exact listing_of_missing hmissing

theorem Shows.congr (h : Shows es ps)
    (hlist : Sorted.get? listKey es' = Sorted.get? listKey es) : Shows es' ps where
  normal := h.normal
  stored := by rw [hlist]; exact h.stored

theorem Shows.withList (h : Shows es ps) : Shows (withList es) ps := by
  rcases h.stored with hstored | ⟨hmissing, rfl⟩
  · rwa [withList_of_stored h.normal hstored]
  · rw [withList_of_missing hmissing]
    exact shows_written Profile.normal_default es

theorem Shows.kept (h : Shows es ps) (hkept : Kept es es') : Shows es' ps := by
  rcases hkept.list with hlist | hlist
  · exact h.congr hlist
  · exact h.withList.congr hlist

theorem Kept.listing_eq (h : Kept es es') : listing es' = listing es := by
  rcases h.list with hlist | hlist
  · exact list_run_congr hlist
  · exact (list_run_congr hlist).trans (congrArg Prod.fst (list_run_again es))

theorem AsFound.kept (h : AsFound es es') : Kept es es' where
  list := by
    rcases h with rfl | rfl
    · exact Or.inl rfl
    · exact Or.inr rfl
  pointer := h.pointer_eq

/-- Only keys that are neither the list's nor the pointer's have changed since the list was read. -/
theorem AsFound.kept_of_get? {es₁ : Entries} (h : AsFound es es₁)
    (hkeys : ∀ key ∈ [listKey, editingKey], Sorted.get? key es' = Sorted.get? key es₁) :
    Kept es es' where
  list := by
    rw [hkeys listKey (by simp)]
    exact h.kept.list
  pointer := (pointer_congr (hkeys editingKey (by simp))).trans h.pointer_eq

end

/-! ## What an operation does -/

/-- What an operation makes of the list and the pointer. Any operation may leave both as they are:
because it only reads, finds nothing to do, or is refused for its argument. -/
inductive Turn (ps : List Profile) (aim : Option String) :
    Operation → List Profile → Option String → Prop
  | nothing {o : Operation} : Turn ps aim o ps aim
  | setList (qs : List Profile) : Turn ps aim (.setList qs) (Profile.normalize qs) aim
  | add {clock : Nat} {name : String} {p : Profile} (hnew : p.id ∉ Profile.ids ps) :
    Turn ps aim (.add clock name) (ps ++ [p]) (some p.id)
  | rename (id name trimmed : String) :
    Turn ps aim (.rename id name) (Profile.rename id trimmed ps) aim
  | remove {id : String} (hid : id ≠ Profile.defaultId) (hlisted : id ∈ Profile.ids ps) :
    Turn ps aim (.remove id) (Profile.remove id ps)
      (if aim = some id then (Profile.before? id ps).map Profile.id else aim)
  | swap {p q : Profile} (hp : p ∈ ps) (hq : q ∈ ps) :
    Turn ps aim (.swap p.id q.id) (Profile.swap p q ps) aim
  | toggle {p : Profile} (hp : p ∈ ps) (hid : p.id ≠ Profile.defaultId) :
    Turn ps aim (.toggle p.id) (Profile.setActive p.id (!p.active) ps) aim
  | setEditing {id : String} (hlisted : id ∈ Profile.ids ps) :
    Turn ps aim (.setEditing id) ps (some id)

/-- No turn breaks the normal form. -/
theorem Turn.normal {ps qs : List Profile} {aim aim' : Option String} {o : Operation}
    (h : Turn ps aim o qs aim') (hps : Profile.Normal ps) : Profile.Normal qs := by
  cases h with
  | nothing => exact hps
  | setList qs => exact Profile.normal_normalize qs
  | add hnew => exact hps.append hnew
  | rename id name trimmed => exact hps.rename id trimmed
  | remove hid => exact hps.remove hid
  | swap hp hq => exact hps.swap hp hq
  | toggle _ hid => exact hps.setActive hid _
  | setEditing => exact hps

/-- The entries after an operation: what readers see has taken its turn. -/
def Operation.Does (o : Operation) (es es' : Entries) : Prop :=
  ∀ ps, Shows es ps → ∃ qs, Turn ps (pointer es) o qs (pointer es') ∧ Shows es' qs

/-- The entries where an operation is broken off. Nothing has happened, unless it writes twice and
is refused at the pointer: then the list is the new one and the pointer the old one. -/
inductive Operation.Halt (o : Operation) (es : Entries) (c : Option Call) (es' : Entries) : Prop
  | kept (hc : o.writesTwice = true → c.bind Call.key? ≠ some editingKey) (h : Kept es es')
  | torn {ps qs : List Profile} {aim : Option String} (ho : o.writesTwice = true)
    (hc : c.bind Call.key? = some editingKey) (hbefore : listing es = .ok ps)
    (hturn : Turn ps (pointer es) o qs aim) (hne : qs ≠ ps) (hafter : listing es' = .ok qs)
    (hpointer : pointer es' = pointer es)

namespace Operation

/-- An operation takes its turn or is broken off on the way. -/
def Turns (o : Operation) (es : Entries) : Prop :=
  o.program.Ends (fun _ es' ↦ o.Does es es') (o.Halt es) es

section

variable {o : Operation} {es es' : Entries} {ps : List Profile}

theorem does_of_kept (h : Kept es es') : o.Does es es' := fun ps hps ↦
  ⟨ps, by rw [h.pointer]; exact .nothing, hps.kept h⟩

theorem halt_of_kept {c : Option Call} (ho : o.writesTwice = false) (h : Kept es es') :
    o.Halt es c es' := .kept (fun htwice ↦ by rw [ho] at htwice; cases htwice) h

theorem pointer_written_withList (qs : List Profile) (es : Entries) :
    pointer (written qs (withList es)) = pointer es := by
  rw [pointer_written]
  exact AsFound.pointer_eq (Or.inr rfl)

/-- An operation that leaves behind another list, and maybe another pointer. -/
theorem does_of_get? {qs : List Profile} (hps : listing es = .ok ps)
    (hturn : Turn ps (pointer es) o qs (pointer es'))
    (hlist : Sorted.get? listKey es' = Sorted.get? listKey (written qs (withList es))) :
    o.Does es es' := by
  intro rs hrs
  obtain rfl : rs = ps := Except.ok.inj (hrs.listing_eq.symm.trans hps)
  exact ⟨qs, hturn, (shows_written (hturn.normal hrs.normal) _).congr hlist⟩

theorem does_of_written {qs : List Profile} (hps : listing es = .ok ps)
    (hturn : Turn ps (pointer es) o qs (pointer es)) :
    o.Does es (written qs (withList es)) := by
  have hsame : Turn ps (pointer es) o qs (pointer (written qs (withList es))) := by
    rwa [pointer_written_withList]
  exact does_of_get? hps hsame rfl

theorem halt_of_written {c : Option Call} {qs : List Profile} {aim : Option String}
    (ho : o.writesTwice = true) (hc : c.bind Call.key? = some editingKey)
    (hps : listing es = .ok ps) (hturn : Turn ps (pointer es) o qs aim) (hne : qs ≠ ps) :
    o.Halt es c (written qs (withList es)) :=
  .torn ho hc hps hturn hne (listing_written (hturn.normal (normal_of_listing hps)) _)
    (pointer_written_withList qs es)

end

section

variable (es : Entries)

theorem kept_self : Kept es es := AsFound.kept (Or.inl rfl)

theorem kept_withList : Kept es (Profiles.withList es) := AsFound.kept (Or.inr rfl)

theorem turns_of_readsOnly {o : Operation} (ho : o.writesTwice = false)
    (h : o.program.ReadsOnly Beside) : o.Turns es := by
  have hkept := kept_self es
  exact h.ends (fun _ _ ↦ halt_of_kept ho hkept) (halt_of_kept ho hkept)
    fun _ _ ↦ does_of_kept hkept

private theorem turns_of_put {o : Operation} {key : String} {value : Json}
    (ho : o.writesTwice = false) (hkey : key ∉ [listKey, editingKey]) :
    (Program.put key value).Ends (fun _ es' ↦ o.Does es es') (o.Halt es) es := by
  have hfound : AsFound es es := Or.inl rfl
  refine ⟨halt_of_kept ho hfound.kept, does_of_kept (hfound.kept_of_get? fun k hk ↦ ?_)⟩
  rw [Store.get?_insert, if_neg]
  rintro rfl
  exact hkey hk

theorem list_turns : list.Turns es :=
  list_ends (fun _ _ ↦ halt_of_kept rfl (kept_self es)) fun _ _ ↦ does_of_kept (kept_withList es)

theorem setList_turns (ps : List Profile) : (setList ps).Turns es := by
  refine (setList_ends es ps).mono ?_ ?_
  · rintro qs es' ⟨-, rfl⟩ rs hrs
    refine ⟨_, ?_, shows_written (Profile.normal_normalize ps) es⟩
    rw [pointer_written]
    exact .setList ps
  · rintro c es' rfl
    exact halt_of_kept rfl (kept_self es')

theorem add_turns (clock : Nat) (name : String) : (add clock name).Turns es := by
  refine (Profiles.add_ends es clock name).mono ?_ ?_
  · rintro p es' ⟨ps, trimmed, hps, -, rfl, rfl⟩
    have hnew := newcomer_unlisted clock trimmed ps (withList es)
    refine does_of_get? hps ?_ (get?_aimed (Ne.symm beside_editingKey) _ _)
    rw [pointer_aimed]
    exact .add hnew
  · rintro c es' (⟨hc, hfound⟩ | ⟨hc, ps, trimmed, hps, rfl⟩)
    · exact .kept (fun _ ↦ hc) hfound.kept
    · refine halt_of_written rfl hc hps (.add (newcomer_unlisted clock trimmed ps (withList es))) ?_
      -- The new list is longer by one profile.
      exact fun heq ↦ List.cons_ne_nil _ _ (List.append_right_eq_self.mp heq)

theorem rename_turns (id name : String) : (rename id name).Turns es := by
  refine (rename_ends es id name).mono ?_ fun _ _ h ↦ halt_of_kept rfl h.kept
  rintro done es' ⟨ps, trimmed, hps, -, -, rfl⟩
  cases done with
  | true => exact does_of_written hps (.rename id name trimmed)
  | false => exact does_of_kept (kept_withList es)

theorem remove_turns (id : String) : (remove id).Turns es := by
  refine (Profiles.remove_ends es id).mono ?_ ?_
  · rintro done es' (⟨-, -, rfl⟩ | ⟨hid, ps, hps, hdone, rfl⟩)
    · exact does_of_kept (kept_self es')
    · cases done with
      | false => exact does_of_kept (kept_withList es)
      | true =>
        have hlisted := Profile.listed_iff.mp hdone.symm
        refine does_of_get? hps ?_ (get?_unaimed (Ne.symm beside_editingKey) _ _ _)
        rw [if_pos rfl, pointer_unaimed, pointer_written_withList]
        exact .remove hid hlisted
  · rintro c es' (⟨hc, hfound⟩ | ⟨hc, hid, ps, hps, hlisted, rfl⟩)
    · exact .kept (fun _ ↦ hc) hfound.kept
    · refine halt_of_written rfl hc hps (.remove hid (Profile.listed_iff.mp hlisted)) ?_
      -- The profile is in the old list and not in the new one.
      intro heq
      have hmem := Profile.listed_iff.mp hlisted
      rw [← heq, Profile.mem_ids_remove] at hmem
      exact hmem.2 rfl

theorem swap_turns (a b : String) : (swap a b).Turns es := by
  refine (swap_ends es a b).mono ?_ fun _ _ h ↦ halt_of_kept rfl h.kept
  rintro done es' ⟨ps, hps, ⟨-, -, rfl⟩ | ⟨p, hp, q, hq, rfl, rfl, -, rfl⟩⟩
  · exact does_of_kept (kept_withList es)
  · exact does_of_written hps (.swap hp hq)

theorem toggle_turns (id : String) : (toggle id).Turns es := by
  refine (toggle_ends es id).mono ?_ fun _ _ h ↦ halt_of_kept rfl h.kept
  rintro active es' ⟨ps, hps, ⟨rfl, -⟩ | ⟨p, hp, rfl, hid, -, rfl⟩⟩
  · exact does_of_kept (kept_withList es)
  · exact does_of_written hps (.toggle hp hid)

theorem setEditing_turns (id : String) : (setEditing id).Turns es := by
  refine (setEditing_ends es id).mono ?_ fun _ _ h ↦ halt_of_kept rfl h.kept
  rintro done es' ⟨ps, hps, hdone, rfl⟩ rs hrs
  obtain rfl : rs = ps := Except.ok.inj (hrs.listing_eq.symm.trans hps)
  cases done with
  | true =>
    refine ⟨rs, ?_, hrs.withList.congr (get?_aimed (Ne.symm beside_editingKey) _ _)⟩
    rw [if_pos rfl, pointer_aimed]
    exact .setEditing (Profile.listed_iff.mp hdone.symm)
  | false => exact does_of_kept (kept_withList es) rs hrs

/-- A document is neither the list nor the pointer. -/
theorem save_turns (text id : String) : (save text id).Turns es := by
  refine (save_ends es text id).mono ?_ fun _ _ h ↦ halt_of_kept rfl h.kept
  rintro done es' ⟨ps, hps, -, rfl⟩
  cases done with
  | true =>
    refine does_of_kept (AsFound.kept_of_get? (Or.inr rfl) fun key hkey ↦ ?_)
    exact get?_saved (documentKey_ne_fixed (List.mem_append_left _ hkey) id) text _
  | false => exact does_of_kept (kept_withList es)

theorem activeDocuments_turns : activeDocuments.Turns es := by
  have hwithList := kept_withList es
  refine Ends.bind (list_ends (fun _ _ ↦ halt_of_kept rfl (kept_self es)) fun ps _ ↦ ?_)
  exact (readsOnly_documentsOf _).ends (fun _ _ ↦ halt_of_kept rfl hwithList)
    (halt_of_kept rfl hwithList) fun _ _ ↦ does_of_kept hwithList

/-- Orphans are documents, so taking out some of them leaves the list and the pointer. -/
theorem kept_without {ps : List Profile} {before : List String}
    (h : before <+: orphans ps (withList es)) : Kept es (without before (withList es)) := by
  refine AsFound.kept_of_get? (Or.inr rfl) fun key hkey ↦ get?_without (fun hmem ↦ ?_) _
  obtain ⟨id, rfl, -⟩ := exists_of_mem_orphans (h.subset hmem)
  exact documentKey_ne_fixed (List.mem_append_left _ hkey) id rfl

theorem collectGarbage_turns : collectGarbage.Turns es := by
  refine (collectGarbage_ends es).mono ?_ ?_
  · rintro n es' ⟨ps, hps, -, rfl⟩
    exact does_of_kept (kept_without es (List.prefix_refl _))
  · rintro c es' (hfound | ⟨ps, before, -, hbefore, rfl⟩)
    · exact halt_of_kept rfl hfound.kept
    · exact halt_of_kept rfl (kept_without es hbefore)

theorem initSwitches_turns (enabled headers : Bool) : (initSwitches enabled headers).Turns es := by
  have hframe {es' : Entries} (h : ∀ key ∉ [enabledKey, headersKey],
      Sorted.get? key es' = Sorted.get? key es) : Kept es es' :=
    AsFound.kept_of_get? (Or.inl rfl) fun key hkey ↦ h key (by revert key; decide)
  exact (initSwitches_ends es enabled headers).mono (fun _ _ h ↦ does_of_kept (hframe h))
    fun _ _ h ↦ halt_of_kept rfl (hframe h)

/-- **What any operation does**, and where it may be broken off. -/
theorem ends (o : Operation) : o.Turns es := by
  cases o with
  | list => exact list_turns es
  | setList ps => exact setList_turns es ps
  | add clock name => exact add_turns es clock name
  | rename id name => exact rename_turns es id name
  | remove id => exact remove_turns es id
  | swap a b => exact swap_turns es a b
  | toggle id => exact toggle_turns es id
  | editing => exact turns_of_readsOnly es rfl readsOnly_editing
  | setEditing id => exact setEditing_turns es id
  | document? id => exact turns_of_readsOnly es rfl (readsOnly_document? id)
  | document id => exact turns_of_readsOnly es rfl (readsOnly_document id)
  | save text id => exact save_turns es text id
  | activeDocuments => exact activeDocuments_turns es
  | collectGarbage => exact collectGarbage_turns es
  | initSwitches enabled headers => exact initSwitches_turns es enabled headers
  | isEnabled => exact turns_of_readsOnly es rfl (readsOnly_switch beside_enabledKey)
  | setEnabled on => exact turns_of_put es rfl (by decide)
  | headersEnabled => exact turns_of_readsOnly es rfl (readsOnly_switch beside_headersKey)
  | setHeadersEnabled on => exact turns_of_put es rfl (by decide)

end

end Operation

/-! ## What operations write

The profile store has one key for each thing that it keeps, and an operation writes little: a list
under the list's key, an identifier under the pointer's, a switch under its own, and that only if
the operation has a value for the switch. Documents are written by two operations only. Saving puts
in the document of the profile that it is told, and collecting garbage takes documents out. This is
one statement about all operations (`Operation.writes`), whatever the entries are and whatever the
calls are answered. It is read off the calls that an operation may make (`Operation.makes`), and so
is which operations ask for all keys.
-/

open Store (Program)

/-! ### The switches -/

inductive Switch where
  /-- For all rules. -/
  | rules
  /-- For header rules. -/
  | headers

namespace Switch

def key : Switch → String
  | rules => enabledKey
  | headers => headersKey

def program : Switch → Program Bool
  | rules => isEnabled
  | headers => headersEnabled

/-- The value that an operation sets a switch to. -/
def set? : Switch → Operation → Option Bool
  | rules, .setEnabled on | headers, .setHeadersEnabled on => some on
  | _, _ => none

/-- The value that an operation has for a switch if nothing is stored for it. -/
def seed? : Switch → Operation → Option Bool
  | rules, .initSwitches on _ | headers, .initSwitches _ on => some on
  | _, _ => none

theorem key_injective : Function.Injective key := by
  intro s s' h
  cases s with
  | rules =>
    cases s' with
    | rules => rfl
    | headers => exact absurd h (by decide)
  | headers =>
    cases s' with
    | rules => exact absurd h (by decide)
    | headers => rfl

theorem key_mem_fixedKeys (s : Switch) : s.key ∈ fixedKeys := by
  cases s with
  | rules | headers => decide

end Switch

/-! ### Kinds of writes -/

/-- What an operation may write: a value under a key, or nothing in its place. -/
inductive Operation.Write : Operation → String → Option Json → Prop
  | list {o : Operation} (ps : List Profile) : Write o listKey (some (Profile.listToJson ps))
  | aim {o : Operation} (id : String) : Write o editingKey (some (.string id))
  | unaim {o : Operation} : Write o editingKey none
  | switch {o : Operation} {s : Switch} {on : Bool} (h : s.set? o = some on ∨ s.seed? o = some on) :
    Write o s.key (some (.boolean on))
  | document (text id : String) :
    Write (.save text id) (documentKey id) (some (Profile.documentToJson text))
  | orphan (id : String) : Write .collectGarbage (documentKey id) none

/-- Two operations write documents, and saving writes the one that it is told. -/
theorem Operation.Write.of_documentKey {o : Operation} {id : String} {value : Option Json}
    (h : o.Write (documentKey id) value) : (∃ text, o = .save text id) ∨ o = .collectGarbage := by
  generalize hkey : documentKey id = key at h
  have hne : ∀ fixed ∈ fixedKeys, key ≠ fixed := fun _ hmem ↦ hkey ▸ documentKey_ne_fixed hmem id
  cases h with
  | list ps => exact absurd rfl (hne listKey (by decide))
  | aim aim => exact absurd rfl (hne editingKey (by decide))
  | unaim => exact absurd rfl (hne editingKey (by decide))
  | @switch _ s => exact absurd rfl (hne s.key s.key_mem_fixedKeys)
  | document text target =>
    obtain rfl := documentKey_injective hkey
    exact .inl ⟨text, rfl⟩
  | orphan target => exact .inr rfl

/-- Collecting garbage alone takes documents out. -/
theorem Operation.Write.eq_collectGarbage {o : Operation} {id : String}
    (h : o.Write (documentKey id) none) : o = .collectGarbage := by
  generalize hkey : documentKey id = key at h
  cases h with
  | unaim => exact absurd hkey (documentKey_ne_fixed (by decide) id)
  | orphan target => rfl

/-! ### Parts of operations -/

/-- Adding a profile and collecting garbage ask for all keys. -/
def Operation.asksForKeys : Operation → Bool
  | add .. | collectGarbage => true
  | _ => false

/-- What calls an operation may make. -/
inductive Operation.May (o : Operation) : Call → Prop
  | get (key : String) : May o (.get key)
  | set {key : String} {value : Json} (h : o.Write key (some value)) : May o (.set key value)
  | remove {key : String} (h : o.Write key none) : May o (.remove key)
  | keys (h : o.asksForKeys = true) : May o .keys

section

variable {o : Operation} {α : Type}

/-- All that the program writes is for the operation to write. -/
abbrev Operation.Covers (o : Operation) (p : Program α) : Prop := p.Writes o.Write

/-- All calls of the program are for the operation to make. -/
abbrev Operation.Admits (o : Operation) (p : Program α) : Prop := p.Makes o.May

theorem admits_put {key : String} {value : Json} (h : o.Write key (some value)) :
    o.Admits (Program.put key value) := ⟨.set h, trivial⟩

theorem admits_write (ps : List Profile) : o.Admits (write ps) := admits_put (.list ps)

theorem admits_of_readsOnly {K : String → Prop} {p : Program α} (h : p.ReadsOnly K) :
    o.Admits p := .of_readsOnly h .get

theorem admits_list : o.Admits list := by
  have hbootstrap : o.Admits bootstrap := (admits_write _).bind fun _ ↦ trivial
  refine ⟨.get listKey, fun v ↦ ?_⟩
  cases v with
  | none => exact hbootstrap
  | some j =>
    change o.Admits (Program.decode Profile.listDecoder j >>= _)
    rw [Program.decode]
    rcases Profile.listDecoder.ofValue j with f | _ | ⟨p, ps⟩
    · trivial
    · exact hbootstrap
    · trivial

theorem admits_checkName (name : String) : o.Admits (checkName name) := by
  rcases checkName_cases name with hname | ⟨trimmed, hname⟩
  · rw [hname]
    trivial
  · rw [hname]
    trivial

theorem admits_retarget (p : Option Profile) : o.Admits (retarget p) := by
  cases p with
  | none => exact ⟨.remove .unaim, trivial⟩
  | some p => exact admits_put (.aim p.id)

theorem admits_initSwitch {s : Switch} {on : Bool} (h : s.seed? o = some on) :
    o.Admits (initSwitch s.key on) := by
  refine ⟨.get s.key, fun v ↦ ?_⟩
  cases v with
  | none => exact admits_put (.switch (.inr h))
  | some j => trivial

theorem makes_eraseAll {C : Call → Prop} {keys : List String}
    (h : ∀ key ∈ keys, C (.remove key)) : (eraseAll keys).Makes C := by
  induction keys with
  | nil => trivial
  | cons key keys ih =>
    obtain ⟨hkey, hkeys⟩ := List.forall_mem_cons.mp h
    exact ⟨hkey, ih hkeys⟩

end

/-! ### Whole operations -/

namespace Operation

theorem add_admits (clock : Nat) (name : String) :
    (add clock name).Admits (Profiles.add clock name) := by
  refine (admits_checkName name).bind fun trimmed ↦ admits_list.bind fun ps ↦ ?_
  refine ⟨.keys rfl, fun keys ↦ (admits_write _).bind fun _ ↦ ?_⟩
  exact (admits_put (.aim _)).bind fun _ ↦ trivial

theorem rename_admits (id name : String) : (rename id name).Admits (Profiles.rename id name) := by
  refine (admits_checkName name).bind fun trimmed ↦ admits_list.bind fun ps ↦ ?_
  exact .ite ((admits_write _).bind fun _ ↦ trivial) trivial

theorem remove_admits (id : String) : (remove id).Admits (Profiles.remove id) := by
  refine .ite trivial (admits_list.bind fun ps ↦ .ite ?_ trivial)
  refine (admits_write _).bind fun _ ↦ ⟨.get editingKey, fun v ↦ ?_⟩
  exact .ite ((admits_retarget _).bind fun _ ↦ trivial) trivial

theorem swap_admits (a b : String) : (swap a b).Admits (Profiles.swap a b) := by
  refine admits_list.bind fun ps ↦ ?_
  split
  · exact (admits_write _).bind fun _ ↦ trivial
  · trivial

theorem toggle_admits (id : String) : (toggle id).Admits (Profiles.toggle id) := by
  refine admits_list.bind fun ps ↦ ?_
  split
  · trivial
  · exact .ite trivial ((admits_write _).bind fun _ ↦ trivial)

theorem setEditing_admits (id : String) : (setEditing id).Admits (Profiles.setEditing id) := by
  refine admits_list.bind fun ps ↦ .ite ?_ trivial
  exact (admits_put (.aim id)).bind fun _ ↦ trivial

theorem save_admits (text id : String) : (save text id).Admits (Profiles.save text id) := by
  refine admits_list.bind fun ps ↦ .ite ?_ trivial
  exact (admits_put (.document text id)).bind fun _ ↦ trivial

theorem collectGarbage_admits : collectGarbage.Admits Profiles.collectGarbage := by
  refine admits_list.bind fun ps ↦ ⟨.keys rfl, fun keys ↦ ?_⟩
  refine (makes_eraseAll fun key hkey ↦ ?_).bind fun _ ↦ trivial
  obtain ⟨id, rfl, -⟩ := orphaned_iff.mp (List.mem_filter.mp hkey).2
  exact .remove (.orphan id)

theorem initSwitches_admits (enabled headers : Bool) :
    (initSwitches enabled headers).Admits (Profiles.initSwitches enabled headers) := by
  have hrules := admits_initSwitch (o := .initSwitches enabled headers) (s := .rules) rfl
  have hheaders := admits_initSwitch (o := .initSwitches enabled headers) (s := .headers) rfl
  exact hrules.bind fun _ ↦ hheaders

/-- **What calls an operation makes.** -/
theorem makes (o : Operation) : o.Admits o.program := by
  cases o with
  | list => exact admits_list
  | setList ps => exact (admits_write _).bind fun _ ↦ trivial
  | add clock name => exact add_admits clock name
  | rename id name => exact rename_admits id name
  | remove id => exact remove_admits id
  | swap a b => exact swap_admits a b
  | toggle id => exact toggle_admits id
  | setEditing id => exact setEditing_admits id
  | save text id => exact save_admits text id
  | collectGarbage => exact collectGarbage_admits
  | initSwitches enabled headers => exact initSwitches_admits enabled headers
  | activeDocuments =>
    exact admits_list.bind fun ps ↦ admits_of_readsOnly (readsOnly_documentsOf _)
  | editing => exact admits_of_readsOnly readsOnly_editing
  | document? id => exact admits_of_readsOnly (readsOnly_document? id)
  | document id => exact admits_of_readsOnly (readsOnly_document id)
  | isEnabled => exact admits_of_readsOnly (readsOnly_switch beside_enabledKey)
  | headersEnabled => exact admits_of_readsOnly (readsOnly_switch beside_headersKey)
  | setEnabled on => exact admits_put (.switch (s := .rules) (.inl rfl))
  | setHeadersEnabled on => exact admits_put (.switch (s := .headers) (.inl rfl))

/-- **What an operation writes.** -/
theorem writes (o : Operation) : o.Covers o.program := by
  refine o.makes.writes (fun key value hset ↦ ?_) fun key hremove ↦ ?_
  · cases hset with
    | set h => exact h
  · cases hremove with
    | remove h => exact h

/-- An operation that does not ask for all keys cannot tell in which order they are listed. -/
theorem keyless {o : Operation} (h : o.asksForKeys = false) : o.program.Keyless := by
  refine o.makes.keyless fun hkeys ↦ ?_
  cases hkeys with
  | keys hasks =>
    rw [h] at hasks
    cases hasks

end Operation

end Redirector.Profiles
