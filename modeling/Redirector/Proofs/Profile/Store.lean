import Redirector.Profile.Store
import Redirector.Proofs.Json.Agreement
import Redirector.Proofs.Profile.Listing
import Redirector.Proofs.Store.Refusal

/-!
# Reading the profile store

Everything that is read of the profiles is looked up, with one exception: a list that is missing or
empty is written first. That write is the only one, it concerns no key but the list's, and reading
the list again finds what was read before (`list_run_again`). So whoever reads the store may be
taken to have changed nothing, as far as others who read it can tell.

A list that is found is in normal form, whatever is stored (`listing_of_decoded`).
-/

namespace Redirector.Profiles

open Store (Call Program Entries)
open Store.Program (ReadsOnly Along)

/-! ## Keys -/

/-- Any key but the list's. -/
def Beside (key : String) : Prop := key ≠ listKey

theorem beside_enabledKey : Beside enabledKey := by
  rw [Beside]
  decide

theorem beside_headersKey : Beside headersKey := by
  rw [Beside]
  decide

theorem documentKey_toList (id : String) :
    (documentKey id).toList = documentMark ++ id.toList := String.toList_ofList

theorem documentKey_ne {key : String} (h : key.toList.take documentMark.length ≠ documentMark)
    (id : String) : documentKey id ≠ key := by
  intro heq
  rw [← heq, documentKey_toList, List.take_left] at h
  exact h rfl

theorem beside_documentKey (id : String) : Beside (documentKey id) :=
  documentKey_ne (by decide) id

theorem documentKey_injective : Function.Injective documentKey := by
  intro a b heq
  have hlists := congrArg String.toList heq
  rw [documentKey_toList, documentKey_toList] at hlists
  exact String.toList_injective (List.append_cancel_left hlists)

/-! ## The list -/

theorem listDecoder_listToJson (ps : List Profile) :
    Profile.listDecoder.ofValue (Profile.listToJson ps) = .ok ps := by
  have hitem (p : Profile) : Profile.decoder.ofJson .stored p.toJson = .ok p := rfl
  exact Json.Decoder.itemsOf_map hitem 0 ps

/-- The entries with the list that there is to start with. -/
def started (es : Entries) : Entries :=
  Sorted.insert listKey (Profile.listToJson [Profile.default]) es

/-- What follows from the value that is stored for the list. -/
private def listOf : Option Json → Program (List Profile)
  | none => bootstrap
  | some j => do
    match ← Store.Program.decode Profile.listDecoder j with
    | [] => bootstrap
    | ps => return Profile.normalize ps

private theorem list_eq : list = .get listKey listOf := rfl

private theorem bootstrap_run (es : Entries) :
    bootstrap.run Store.memory es = (.ok [Profile.default], started es) := by
  change (Program.set listKey _ (.done [Profile.default])).run Store.memory es = _
  rw [Program.run_memory_set]
  rfl

/-- What reading the list comes to once the value that is stored for it is known. -/
theorem list_answered (es : Entries) :
    ∃ next, list = .get listKey next ∧ ((∃ f, next (Sorted.get? listKey es) = .fail f) ∨
      ∃ ps, (list.run Store.memory es).1 = .ok ps ∧ (next (Sorted.get? listKey es) = .done ps ∨
        ps = [Profile.default] ∧ next (Sorted.get? listKey es) = bootstrap)) := by
  refine ⟨listOf, list_eq, ?_⟩
  rw [list_eq, Program.run_memory_get]
  cases Sorted.get? listKey es with
  | none => exact Or.inr ⟨_, congrArg Prod.fst (bootstrap_run es), Or.inr ⟨rfl, rfl⟩⟩
  | some j =>
    simp only [listOf, Program.decode]
    rcases Profile.listDecoder.ofValue j with f | _ | ⟨p, ps⟩
    · exact Or.inl ⟨_, rfl⟩
    · exact Or.inr ⟨_, congrArg Prod.fst (bootstrap_run es), Or.inr ⟨rfl, rfl⟩⟩
    · exact Or.inr ⟨_, rfl, Or.inl rfl⟩

/-- Reading the list changes nothing, or writes the list that there is to start with. -/
theorem list_run_cases (es : Entries) :
    (∃ x, list.run Store.memory es = (x, es)) ∨
      list.run Store.memory es = (.ok [Profile.default], started es) := by
  obtain ⟨next, hlist, hnext⟩ := list_answered es
  rw [hlist, Program.run_memory_get]
  rcases hnext with ⟨f, hfail⟩ | ⟨ps, -, hdone | ⟨-, hstart⟩⟩
  · rw [hfail]
    exact Or.inl ⟨_, rfl⟩
  · rw [hdone]
    exact Or.inl ⟨_, rfl⟩
  · rw [hstart]
    exact Or.inr (bootstrap_run es)

theorem get?_started {key : String} (h : Beside key) (es : Entries) :
    Sorted.get? key (started es) = Sorted.get? key es := by
  rw [started, Store.get?_insert, if_neg (Ne.symm h)]

theorem get?_listKey_started (es : Entries) :
    Sorted.get? listKey (started es) = some (Profile.listToJson [Profile.default]) := by
  rw [started, Store.get?_insert, if_pos rfl]

private theorem list_run_started (es : Entries) :
    list.run Store.memory (started es) = (.ok [Profile.default], started es) := by
  rw [list_eq, Program.run_memory_get, get?_listKey_started]
  simp only [listOf, Program.decode, listDecoder_listToJson]
  change (Except.ok (Profile.normalize [Profile.default]), started es) = _
  rw [Profile.normal_default.normalize_eq]

theorem list_run_congr {es es' : Entries}
    (h : Sorted.get? listKey es = Sorted.get? listKey es') :
    (list.run Store.memory es).1 = (list.run Store.memory es').1 := by
  rw [list_eq, Program.run_memory_get, Program.run_memory_get, h]
  cases Sorted.get? listKey es' with
  | none => rw [listOf, bootstrap_run, bootstrap_run]
  | some j =>
    simp only [listOf, Program.decode]
    rcases Profile.listDecoder.ofValue j with f | _ | ⟨p, ps⟩
    · rfl
    · have hrun := congrArg Prod.fst (bootstrap_run es)
      exact hrun.trans (congrArg Prod.fst (bootstrap_run es')).symm
    · rfl

/-- The list that is found. -/
def listing (es : Entries) : Except Store.Fault (List Profile) := (list.run Store.memory es).1

/-- The entries after the list was read. -/
def withList (es : Entries) : Entries := (list.run Store.memory es).2

theorem withList_cases (es : Entries) : withList es = es ∨ withList es = started es := by
  rcases list_run_cases es with ⟨x, hx⟩ | hx
  · exact Or.inl (by rw [withList, hx])
  · exact Or.inr (by rw [withList, hx])

theorem get?_withList {key : String} (h : Beside key) (es : Entries) :
    Sorted.get? key (withList es) = Sorted.get? key es := by
  rcases withList_cases es with hes | hes
  · rw [hes]
  · rw [hes, get?_started h]

/-- Who only looks things up beside the list cannot tell whether it was written. -/
theorem run_withList {α : Type} {p : Program α} (h : p.ReadsOnly Beside) (es : Entries) :
    (p.run Store.memory (withList es)).1 = (p.run Store.memory es).1 :=
  h.run_congr fun _ hkey ↦ get?_withList hkey es

/-- **Reading the list again finds the same list** and changes nothing. -/
theorem list_run_again (es : Entries) :
    list.run Store.memory (withList es) = list.run Store.memory es := by
  rcases list_run_cases es with ⟨x, hx⟩ | hx
  · rw [withList, hx, hx]
  · rw [withList, hx, list_run_started]

private theorem listOf_along {P : Entries → Prop} {es : Entries} (v : Option Json) (h : P es)
    (hafter : P ((listOf v).run Store.memory es).2) : (listOf v).Along P es := by
  cases v with
  | none => exact ⟨h, hafter⟩
  | some j =>
    simp only [listOf, Program.decode] at hafter ⊢
    rcases hj : Profile.listDecoder.ofValue j with f | _ | ⟨p, ps⟩
    · exact h
    · rw [hj] at hafter
      exact ⟨h, hafter⟩
    · exact h

theorem list_along {P : Entries → Prop} {es : Entries} (h : P es) (hafter : P (withList es)) :
    list.Along P es := by
  rw [withList, list_eq, Program.run_memory_get] at hafter
  exact ⟨h, listOf_along _ h hafter⟩

theorem listing_of_decoded {es : Entries} {j : Json} {ps : List Profile}
    (hstored : Sorted.get? listKey es = some j)
    (hdecoded : Profile.listDecoder.ofValue j = .ok ps) :
    listing es = .ok (Profile.normalize ps) := by
  rw [listing, list_eq, Program.run_memory_get, hstored]
  simp only [listOf, Program.decode, hdecoded]
  cases ps with
  | nil => exact congrArg Prod.fst (bootstrap_run es)
  | cons p ps => rfl

theorem withList_of_decoded {es : Entries} {j : Json} {ps : List Profile}
    (hstored : Sorted.get? listKey es = some j) (hdecoded : Profile.listDecoder.ofValue j = .ok ps)
    (hne : ps ≠ []) : withList es = es := by
  rw [withList, list_eq, Program.run_memory_get, hstored]
  simp only [listOf, Program.decode, hdecoded]
  cases ps with
  | nil => exact absurd rfl hne
  | cons p ps => rfl

section

variable {es : Entries} {ps : List Profile}

theorem listing_of_stored (h : Profile.Normal ps)
    (hstored : Sorted.get? listKey es = some (Profile.listToJson ps)) : listing es = .ok ps := by
  rw [listing_of_decoded hstored (listDecoder_listToJson ps), h.normalize_eq]

theorem withList_of_stored (h : Profile.Normal ps)
    (hstored : Sorted.get? listKey es = some (Profile.listToJson ps)) : withList es = es :=
  withList_of_decoded hstored (listDecoder_listToJson ps) h.ne_nil

end

theorem listing_of_missing {es : Entries} (h : Sorted.get? listKey es = none) :
    listing es = .ok [Profile.default] := by
  rw [listing, list_eq, Program.run_memory_get, h]
  exact congrArg Prod.fst (bootstrap_run es)

theorem withList_of_missing {es : Entries} (h : Sorted.get? listKey es = none) :
    withList es = started es := by
  rw [withList, list_eq, Program.run_memory_get, h]
  exact congrArg Prod.snd (bootstrap_run es)

/-- No profile is listed: there is no list, or it has no entries. -/
def Unlisted (es : Entries) : Prop :=
  ∀ j, Sorted.get? listKey es = some j → Profile.listDecoder.ofValue j = .ok []

/-- A list is written only if there was none. -/
theorem withList_eq_or_unlisted (es : Entries) :
    withList es = es ∨ Unlisted es ∧ withList es = started es := by
  cases hstored : Sorted.get? listKey es with
  | none =>
    refine Or.inr ⟨fun j hj ↦ ?_, withList_of_missing hstored⟩
    rw [hstored] at hj
    cases hj
  | some j =>
    rw [withList, list_eq, Program.run_memory_get, hstored]
    simp only [listOf, Program.decode]
    rcases hdecoded : Profile.listDecoder.ofValue j with f | _ | ⟨p, ps⟩
    · exact Or.inl rfl
    · refine Or.inr ⟨fun j' hj ↦ ?_, congrArg Prod.snd (bootstrap_run es)⟩
      obtain rfl : j = j' := Option.some.inj (hstored.symm.trans hj)
      exact hdecoded
    · exact Or.inl rfl

/-- Whether a profile is listed depends on what is stored for the list alone. -/
theorem unlisted_congr {es es' : Entries}
    (h : Sorted.get? listKey es' = Sorted.get? listKey es) : Unlisted es' ↔ Unlisted es := by
  rw [Unlisted, Unlisted, h]

theorem withList_of_unlisted {es : Entries} (h : Unlisted es) : withList es = started es := by
  cases hstored : Sorted.get? listKey es with
  | none => exact withList_of_missing hstored
  | some j =>
    rw [withList, list_eq, Program.run_memory_get, hstored]
    simp only [listOf, Program.decode, h j hstored]
    exact congrArg Prod.snd (bootstrap_run es)

theorem withList_of_listed {es : Entries} (h : ¬ Unlisted es) : withList es = es :=
  (withList_eq_or_unlisted es).resolve_right fun hunlisted ↦ h hunlisted.1

theorem not_unlisted_withList (es : Entries) : ¬ Unlisted (withList es) := by
  by_cases hunlisted : Unlisted es
  · rw [withList_of_unlisted hunlisted]
    intro hstarted
    have hempty := hstarted _ (get?_listKey_started es)
    rw [listDecoder_listToJson] at hempty
    cases hempty
  · rwa [withList_of_listed hunlisted]

theorem decodes_of_listing {es : Entries} {ps : List Profile} (h : listing es = .ok ps) :
    ∀ j, Sorted.get? listKey es = some j → ∃ qs, Profile.listDecoder.ofValue j = .ok qs := by
  intro j hstored
  cases hdecoded : Profile.listDecoder.ofValue j with
  | error f =>
    rw [listing, list_eq, Program.run_memory_get, hstored] at h
    simp only [listOf, Program.decode, hdecoded] at h
    cases h
  | ok qs => exact ⟨qs, rfl⟩

theorem normal_of_listing {es : Entries} {ps : List Profile} (h : listing es = .ok ps) :
    Profile.Normal ps := by
  cases hstored : Sorted.get? listKey es with
  | none =>
    rw [listing_of_missing hstored] at h
    cases h
    exact Profile.normal_default
  | some j =>
    obtain ⟨qs, hdecoded⟩ := decodes_of_listing h j hstored
    rw [listing_of_decoded hstored hdecoded] at h
    cases h
    exact Profile.normal_normalize qs

private theorem listOf_ends {D : List Profile → Entries → Prop}
    {B : Option Call → Entries → Prop} {es : Entries} (v : Option Json)
    (hB : ∀ c, c.bind Call.key? ≠ some editingKey → B c es)
    (hD : ∀ ps, ((listOf v).run Store.memory es).1 = .ok ps →
      D ps ((listOf v).run Store.memory es).2) : (listOf v).Ends D B es := by
  cases v with
  | none => exact ⟨hB _ (by decide), hD _ rfl⟩
  | some j =>
    simp only [listOf, Program.decode] at hD ⊢
    rcases hj : Profile.listDecoder.ofValue j with f | _ | ⟨p, ps⟩
    · exact hB none (by decide)
    · rw [hj] at hD
      exact ⟨hB _ (by decide), hD _ rfl⟩
    · rw [hj] at hD
      exact hD _ rfl

/-- **Reading the list**, when calls may be refused: as long as it has not come to its end, nothing
has happened. -/
theorem list_ends {D : List Profile → Entries → Prop} {B : Option Call → Entries → Prop}
    {es : Entries} (hB : ∀ c, c.bind Call.key? ≠ some editingKey → B c es)
    (hD : ∀ ps, listing es = .ok ps → D ps (withList es)) : list.Ends D B es := by
  rw [listing, withList, list_eq, Program.run_memory_get] at hD
  exact ⟨hB _ (by decide), listOf_ends _ hB hD⟩

/-! ## Everything else is only looked up -/

private theorem readsOnly_decode {K : String → Prop} {α : Type} (d : Json.Decoder α) (j : Json) :
    (Program.decode d j).ReadsOnly K := by
  rw [Program.decode]
  cases d.ofValue j with
  | ok a => trivial
  | error f => trivial

theorem readsOnly_switch {key : String} (h : Beside key) : (switch key).ReadsOnly Beside :=
  ⟨h, fun _ ↦ trivial⟩

theorem readsOnly_document? (id : String) : (document? id).ReadsOnly Beside := by
  refine ⟨beside_documentKey id, fun v ↦ ?_⟩
  cases v with
  | none => trivial
  | some j => exact (readsOnly_decode _ j).bind fun _ ↦ trivial

theorem readsOnly_document (id : String) : (document id).ReadsOnly Beside :=
  (readsOnly_document? id).bind fun _ ↦ trivial

theorem readsOnly_documentsOf (ps : List Profile) : (documentsOf ps).ReadsOnly Beside := by
  induction ps with
  | nil => trivial
  | cons p ps ih =>
    exact (readsOnly_document p.id).bind fun _ ↦ ih.bind fun _ ↦ trivial

/-! ## What is found -/

theorem switch_run (key : String) (es : Entries) :
    ((switch key).run Store.memory es).1
      = .ok (((Sorted.get? key es).bind Json.boolean?).getD true) := by
  change ((Program.get key _).run Store.memory es).1 = _
  rw [Program.run_memory_get]
  rfl

theorem document?_run (id : String) (es : Entries) :
    ((document? id).run Store.memory es).1 =
      match Sorted.get? (documentKey id) es with
      | none => .ok none
      | some j => ((Profile.documentDecoder.ofValue j).map some).mapError .format := by
  change ((Program.get (documentKey id) _).run Store.memory es).1 = _
  rw [Program.run_memory_get]
  cases Sorted.get? (documentKey id) es with
  | none => rfl
  | some j =>
    change ((Program.decode Profile.documentDecoder j >>= _).run Store.memory es).1
      = ((Profile.documentDecoder.ofValue j).map some).mapError .format
    rw [Program.decode]
    rcases Profile.documentDecoder.ofValue j with f | text
    · rfl
    · rfl

theorem document_run (id : String) (es : Entries) :
    ((document id).run Store.memory es).1
      = ((document? id).run Store.memory es).1.map (·.getD Document.template) := by
  rw [document, (readsOnly_document? id).run_bind]
  rcases ((document? id).run Store.memory es).1 with e | text
  · rfl
  · rfl

theorem document_run_congr {id : String} {es es' : Entries}
    (h : Sorted.get? (documentKey id) es = Sorted.get? (documentKey id) es') :
    ((document id).run Store.memory es).1 = ((document id).run Store.memory es').1 := by
  rw [document_run, document_run, document?_run, document?_run, h]

theorem document_run_stored {id text : String} {es : Entries}
    (h : Sorted.get? (documentKey id) es = some (Profile.documentToJson text)) :
    ((document id).run Store.memory es).1 = .ok text := by
  rw [document_run, document?_run, h]
  rfl

theorem documentsOf_cons_run (p : Profile) (ps : List Profile) (es : Entries) :
    ((documentsOf (p :: ps)).run Store.memory es).1 =
      match ((document p.id).run Store.memory es).1 with
      | .error e => .error e
      | .ok text => ((documentsOf ps).run Store.memory es).1.map ((p, text) :: ·) := by
  rw [documentsOf, (readsOnly_document p.id).run_bind]
  rcases ((document p.id).run Store.memory es).1 with e | text
  · rfl
  · dsimp only
    rw [(readsOnly_documentsOf ps).run_bind]
    rcases ((documentsOf ps).run Store.memory es).1 with e | rest
    · rfl
    · rfl

theorem documentsOf_run_saved {ps : List Profile} {es : Entries} {saved : String → Option String}
    (h : ∀ p ∈ ps, ((document? p.id).run Store.memory es).1 = .ok (saved p.id)) :
    ((documentsOf ps).run Store.memory es).1
      = .ok (ps.map fun p ↦ (p, (saved p.id).getD Document.template)) := by
  induction ps with
  | nil => rfl
  | cons p ps ih =>
    obtain ⟨hp, hps⟩ := List.forall_mem_cons.mp h
    rw [documentsOf_cons_run, document_run, hp, ih hps]
    rfl

/-! ## What can be decoded -/

/-- The list is found as soon as it can be decoded. -/
theorem exists_listing_of_decodes {es : Entries}
    (h : ∀ j, Sorted.get? listKey es = some j → ∃ ps, Profile.listDecoder.ofValue j = .ok ps) :
    ∃ ps, listing es = .ok ps := by
  cases hstored : Sorted.get? listKey es with
  | none => exact ⟨_, listing_of_missing hstored⟩
  | some j =>
    obtain ⟨ps, hps⟩ := h j hstored
    exact ⟨_, listing_of_decoded hstored hps⟩

/-- The list can be decoded, and so can every document. -/
structure Decodable (es : Entries) : Prop where
  list : ∀ j, Sorted.get? listKey es = some j → ∃ ps, Profile.listDecoder.ofValue j = .ok ps
  document : ∀ id j, Sorted.get? (documentKey id) es = some j →
    ∃ text, Profile.documentDecoder.ofValue j = .ok text

namespace Decodable

variable {es : Entries} (h : Decodable es)

include h

theorem exists_listing : ∃ ps, listing es = .ok ps := exists_listing_of_decodes h.list

theorem exists_document? (id : String) :
    ∃ text, ((document? id).run Store.memory es).1 = .ok text := by
  rw [document?_run]
  cases hstored : Sorted.get? (documentKey id) es with
  | none => exact ⟨none, rfl⟩
  | some j =>
    obtain ⟨text, htext⟩ := h.document id j hstored
    refine ⟨some text, ?_⟩
    dsimp only
    rw [htext]
    rfl

end Decodable

end Redirector.Profiles
