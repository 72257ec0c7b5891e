import Mathlib.Data.List.Infix
import Redirector.Proofs.Profile.History
import Redirector.Proofs.Profile.Operation

/-!
# Saved documents

Documents are stored under keys of their own beside the list, the pointer and the switches, and the
key of a document belongs to one identifier. Most operations write under none of these keys. Two do:
saving writes under the key of the profile that it is told, and collecting garbage takes out the
keys of profiles that are not in the list. So there are three things that an operation can do to the
document of a profile (`Fate`), and as long as the profile is in the list and no one saves another
document for it, the one that was saved last is there (`saved_document_stays`).

What is stored under the key of a document is always a document, since nothing else is ever put
there (`exists_document_after`). Reading the documents of all active profiles therefore never comes
to a fault because of another one.
-/

namespace Redirector.Profiles

open Store (Program Entries)

/-! ## The document of one profile -/

/-- **What an operation does to the document of a profile.** -/
inductive Fate (es : Entries) (id : String) : Operation → Entries → Prop
  | kept {o : Operation} {es' : Entries}
    (h : Sorted.get? (documentKey id) es' = Sorted.get? (documentKey id) es) : Fate es id o es'
  | saved {text : String} {es' : Entries}
    (hdone : ((save text id).run Store.memory es).1 = .ok true)
    (h : Sorted.get? (documentKey id) es' = some (Profile.documentToJson text)) :
    Fate es id (.save text id) es'
  | collected {ps : List Profile} {es' : Entries} (hps : listing es = .ok ps)
    (hid : id ∉ Profile.ids ps) (h : Sorted.get? (documentKey id) es' = none) :
    Fate es id .collectGarbage es'

theorem get?_saved_self (text id : String) (es : Entries) :
    Sorted.get? (documentKey id) (saved text id es) = some (Profile.documentToJson text) := by
  rw [saved, Store.get?_insert, if_pos rfl]

section

variable (es : Entries) (id : String)

theorem fate_save (text : String) :
    Fate es id (.save text id) ((save text id).run Store.memory es).2 := by
  rcases hrun : (save text id).run Store.memory es with ⟨f | done, es'⟩
  · have hfound : AsFound es es' := (save_ends es text id).memory_error hrun
    exact .kept (hfound.get? (beside_documentKey id))
  · obtain ⟨ps, -, -, rfl⟩ := (save_ends es text id).memory_ok hrun
    cases done with
    | false => exact .kept (get?_withList (beside_documentKey id) es)
    | true => exact .saved (congrArg Prod.fst hrun) (get?_saved_self text id _)

/-- Collecting garbage takes out no documents but those of profiles that are not in the list. -/
theorem fate_without {ps : List Profile} (hps : listing es = .ok ps) {keys : List String}
    (hkeys : keys ⊆ orphans ps (withList es)) :
    Fate es id .collectGarbage (without keys (withList es)) := by
  by_cases hmem : documentKey id ∈ keys
  · obtain ⟨orphan, hkey, horphan⟩ := exists_of_mem_orphans (hkeys hmem)
    obtain rfl : id = orphan := documentKey_injective hkey
    exact .collected hps horphan (get?_without_of_mem hmem _)
  · refine .kept ?_
    rw [get?_without hmem, get?_withList (beside_documentKey id)]

theorem fate_collectGarbage :
    Fate es id .collectGarbage (collectGarbage.run Store.memory es).2 := by
  rcases hrun : collectGarbage.run Store.memory es with ⟨f | n, es'⟩
  · rcases (collectGarbage_ends es).memory_error hrun with hfound | ⟨ps, keys, hps, hkeys, rfl⟩
    · exact .kept (AsFound.get? hfound (beside_documentKey id))
    · exact fate_without es id hps hkeys.subset
  · obtain ⟨ps, hps, -, rfl⟩ := (collectGarbage_ends es).memory_ok hrun
    exact fate_without es id hps (List.Subset.refl _)

/-- **One operation**: the document meets one of its fates. -/
theorem Operation.fate (o : Operation) : Fate es id o (o.program.run Store.memory es).2 := by
  -- Either nothing is written under the key of the document, or it is one of two operations.
  by_cases hwrites : ∃ value, o.Write (documentKey id) value
  · obtain ⟨value, hwrite⟩ := hwrites
    rcases hwrite.of_documentKey with ⟨text, rfl⟩ | rfl
    · exact fate_save es id text
    · exact fate_collectGarbage es id
  · exact .kept (o.writes.get?_run (not_exists.mp hwrites) es)

end

/-! ## Histories -/

theorem exists_document_after (os : List Operation) (id : String) :
    ∃ document : Option String,
      Sorted.get? (documentKey id) (after [] os) = document.map Profile.documentToJson := by
  induction os using List.reverseRecOn with
  | nil => exact ⟨none, rfl⟩
  | append_singleton os o ih =>
    obtain ⟨document, hdocument⟩ := ih
    rw [after_append]
    cases o.fate (after [] os) id with
    | kept h => exact ⟨document, h.trans hdocument⟩
    | @saved text _ _ h => exact ⟨some text, h⟩
    | collected _ _ h => exact ⟨none, h⟩

theorem document?_run_of_get? {es : Entries} {id : String} {document : Option String}
    (h : Sorted.get? (documentKey id) es = document.map Profile.documentToJson) :
    ((document? id).run Store.memory es).1 = .ok document := by
  rw [document?_run, h]
  cases document with
  | none => rfl
  | some text => rfl

/-- After any history, the active profiles have documents: those that were saved, or the
template. -/
theorem activeDocuments_run_after {os : List Operation} {ps : List Profile}
    (hps : listing (after [] os) = .ok ps) {saved : String → Option String}
    (hsaved : ∀ id, ((document? id).run Store.memory (after [] os)).1 = .ok (saved id)) :
    (activeDocuments.run Store.memory (after [] os)).1
      = .ok ((ps.filter Profile.active).map fun p ↦ (p, (saved p.id).getD Document.template)) := by
  have hlist : list.run Store.memory (after [] os) = (.ok ps, withList (after [] os)) :=
    Prod.ext hps rfl
  -- Reading the list may have written it, but no documents.
  have hwithList : ∀ p ∈ ps.filter Profile.active,
      ((document? p.id).run Store.memory (withList (after [] os))).1 = .ok (saved p.id) := by
    intro p _
    rw [document?_run, get?_withList (beside_documentKey p.id), ← document?_run, hsaved]
  rw [activeDocuments, Program.run_bind_apply, hlist]
  exact documentsOf_run_saved hwithList

section

variable {os₁ os₂ : List Operation} {text id : String}

/-- The entries hold what was saved, as long as the profile is in the list and nothing else is
saved. -/
private theorem get?_after_save
    (hsaved : ((save text id).run Store.memory (after [] os₁)).1 = .ok true)
    (hlisted : ∀ before, before <+: os₂ → ∃ ps,
      (list.run Store.memory (after [] (os₁ ++ .save text id :: before))).1 = .ok ps ∧
        id ∈ Profile.ids ps)
    (hlast : ∀ before text', before ++ [.save text' id] <+: os₂ →
      ((save text' id).run Store.memory (after [] (os₁ ++ .save text id :: before))).1
        ≠ .ok true) :
    Sorted.get? (documentKey id) (after [] (os₁ ++ .save text id :: os₂))
      = some (Profile.documentToJson text) := by
  induction os₂ using List.reverseRecOn with
  | nil =>
    have hrun : (save text id).run Store.memory (after [] os₁)
        = (.ok true, ((save text id).run Store.memory (after [] os₁)).2) := Prod.ext hsaved rfl
    obtain ⟨ps, -, -, hes⟩ := (save_ends (after [] os₁) text id).memory_ok hrun
    rw [after_append]
    change Sorted.get? (documentKey id) ((save text id).run Store.memory (after [] os₁)).2 = _
    rw [hes]
    exact get?_saved_self text id _
  | append_singleton os₂ o ih =>
    have hprefix : os₂ <+: os₂ ++ [o] := List.prefix_append os₂ [o]
    have hbefore := ih (fun before h ↦ hlisted before (h.trans hprefix))
      fun before text' h ↦ hlast before text' (h.trans hprefix)
    have hafter : after [] (os₁ ++ .save text id :: (os₂ ++ [o])) = (o.program.run Store.memory
        (after [] (os₁ ++ .save text id :: os₂))).2 := by
      rw [← after_append, List.append_assoc, List.cons_append]
    rw [hafter]
    -- Of the three fates, being saved again and being collected are ruled out here.
    cases o.fate (after [] (os₁ ++ .save text id :: os₂)) id with
    | kept h => exact h.trans hbefore
    | @saved text' _ hdone _ => exact absurd hdone (hlast os₂ text' (List.prefix_refl _))
    | collected hps hid _ =>
      obtain ⟨qs, hqs, hmem⟩ := hlisted os₂ hprefix
      obtain rfl := Except.ok.inj (hps.symm.trans hqs)
      exact absurd hmem hid

/-- **Saved documents stay.** A document was saved for a profile. As long as the profile is in the
list and nothing else is saved for it, the document is read as it was saved, whatever operations
there have been in between; and reading the documents of the active profiles goes well and gives
that document for the profile. -/
theorem saved_document_stays
    (hsaved : ((save text id).run Store.memory (after [] os₁)).1 = .ok true)
    (hlisted : ∀ before, before <+: os₂ → ∃ ps,
      (list.run Store.memory (after [] (os₁ ++ .save text id :: before))).1 = .ok ps ∧
        id ∈ Profile.ids ps)
    (hlast : ∀ before text', before ++ [.save text' id] <+: os₂ →
      ((save text' id).run Store.memory (after [] (os₁ ++ .save text id :: before))).1
        ≠ .ok true) :
    let es := after [] (os₁ ++ .save text id :: os₂)
    ((document? id).run Store.memory es).1 = .ok (some text) ∧
      ∃ (ps : List Profile) (textOf : String → String), (list.run Store.memory es).1 = .ok ps ∧
        (activeDocuments.run Store.memory es).1
          = .ok ((ps.filter Profile.active).map fun p ↦ (p, textOf p.id)) ∧
        textOf id = text := by
  intro es
  have hdocument : ((document? id).run Store.memory es).1 = .ok (some text) :=
    document?_run_of_get? (get?_after_save hsaved hlisted hlast)
  choose saved hstored using exists_document_after (os₁ ++ .save text id :: os₂)
  have hall : ∀ id, ((document? id).run Store.memory es).1 = .ok (saved id) :=
    fun id ↦ document?_run_of_get? (hstored id)
  obtain ⟨ps, hps, -⟩ := hlisted os₂ (List.prefix_refl _)
  refine ⟨hdocument, ps, fun id ↦ (saved id).getD Document.template, hps,
    activeDocuments_run_after hps hall, ?_⟩
  have hsame : saved id = some text := Except.ok.inj ((hall id).symm.trans hdocument)
  exact congrArg (·.getD Document.template) hsame

/-- Another profile is added, given a document, removed and collected in the meantime, and the list
is replaced by one in which the profile has another name. -/
theorem saved_document_stays_renamed :
    let os₂ : List Operation := [.add 2 "b", .save "other" "2", .remove "2", .collectGarbage,
      .toggle "1", .setList [⟨"1", "c", true⟩], .collectGarbage]
    let es := after [] ([.add 1 "a"] ++ .save "text" "1" :: os₂)
    ((document? "1").run Store.memory es).1 = .ok (some "text") ∧
      ∃ documents, (activeDocuments.run Store.memory es).1 = .ok documents ∧
        documents.length = 2 ∧ (⟨"1", "c", true⟩, "text") ∈ documents := by
  intro os₂ es
  have hsaved : ((save "text" "1").run Store.memory (after [] [.add 1 "a"])).1 = .ok true := by
    decide +kernel
  have hruns : ∀ before ∈ os₂.inits, ((list.run Store.memory
      (after [] ([.add 1 "a"] ++ .save "text" "1" :: before))).1.toOption.any
        fun ps ↦ "1" ∈ Profile.ids ps) = true := by
    decide +kernel
  have hlisted : ∀ before, before <+: os₂ → ∃ ps, (list.run Store.memory
      (after [] ([.add 1 "a"] ++ .save "text" "1" :: before))).1 = .ok ps ∧
        "1" ∈ Profile.ids ps := by
    intro before hprefix
    have hany := hruns before ((List.mem_inits _ _).mpr hprefix)
    cases hrun : (list.run Store.memory
      (after [] ([.add 1 "a"] ++ .save "text" "1" :: before))).1 with
    | error f =>
      rw [hrun] at hany
      cases hany
    | ok ps =>
      rw [hrun] at hany
      exact ⟨ps, rfl, of_decide_eq_true hany⟩
  have hlast : ∀ before text', before ++ [.save text' "1"] <+: os₂ → ((save text' "1").run
      Store.memory (after [] ([.add 1 "a"] ++ .save "text" "1" :: before))).1 ≠ .ok true := by
    intro before text' hprefix
    have hmem : Operation.save text' "1" ∈ os₂ :=
      hprefix.subset (List.mem_append_right _ (List.mem_singleton_self _))
    simp [os₂] at hmem
  have hlist : (list.run Store.memory es).1 = .ok [Profile.default, ⟨"1", "c", true⟩] := by
    decide +kernel
  obtain ⟨hdocument, ps, textOf, hps, hdocuments, htext⟩ :=
    saved_document_stays hsaved hlisted hlast
  obtain rfl := Except.ok.inj (hps.symm.trans hlist)
  refine ⟨hdocument, _, hdocuments, rfl, ?_⟩
  rw [← htext]
  exact List.mem_map_of_mem (by decide)

end

end Redirector.Profiles
