import Redirector.Proofs.Apply.Meaning
import Redirector.Proofs.Profile.Effect

/-!
# Which rules the store demands

What would be compiled from the store, if it were applied now, is its demand. It depends on the two
switches and on the entries in the documents of the active profiles, in the order of the list, and
on nothing else: not on names, not on which profile is being edited, and not on the documents of
profiles that are gone. Most operations therefore leave it alone, wherever they are broken off
(`Harmless`).

A new profile is active, but it has no document, and the template that stands in for one has no
entries. So adding a profile leaves the demand alone as well, even if it fails halfway.
-/

namespace Redirector.Apply

open Store (Call Program Entries)
open Store.Program (ReadsOnly Ends)
open Profiles (listing withList written aimed without newcomer AsFound documentKey)

/-- The rules that an apply of some entries would compile. -/
def demand (es : Entries) : Except Store.Fault (List Rule) :=
  ((asked es).map Request.ofWanted).map Request.rules

/-- A demand that can be read is for the rules that the entries mean. -/
theorem demand_eq_ok_iff {es : Entries} {rules : List Rule} :
    demand es = .ok rules ↔ Means es rules := by
  rw [means_iff_asked, demand]
  constructor
  · intro h
    rcases hasked : asked es with f | w
    · rw [hasked] at h
      cases h
    · rw [hasked] at h
      exact ⟨w, rfl, Except.ok.inj h⟩
  · rintro ⟨w, hasked, rfl⟩
    rw [hasked]
    rfl

/-! ## What the demand depends on -/

section

variable {es es' : Entries} {ps qs : List Profile}

theorem demand_congr (hps : listing es = .ok ps) (hqs : listing es' = .ok qs)
    (hswitches : ∀ key ∈ [Profiles.enabledKey, Profiles.headersKey],
      Sorted.get? key es' = Sorted.get? key es)
    (hgather : gather (qs.filter Profile.active) es' = gather (ps.filter Profile.active) es) :
    demand es' = demand es := by
  refine congrArg (Except.map Request.rules) (ofWanted_asked_of_gather hswitches ?_)
  rw [listing] at hps hqs
  rw [hps, hqs]
  exact hgather

theorem demand_of_asFound (h : AsFound es es') : demand es' = demand es := by
  rcases h with rfl | rfl
  · rfl
  · exact congrArg (fun x ↦ (x.map Request.ofWanted).map Request.rules) (asked_withList es)

theorem gather_eq (hids : qs.map Profile.id = ps.map Profile.id)
    (hdocuments : ∀ p ∈ ps,
      Sorted.get? (documentKey p.id) es' = Sorted.get? (documentKey p.id) es) :
    gather qs es' = gather ps es := by
  -- A document is looked up by the identifier alone, so the profiles are compared by that.
  have hsame : List.Forall₂ (fun id id' ↦ id = id' ∧
      Sorted.get? (documentKey id') es' = Sorted.get? (documentKey id') es)
      (qs.map Profile.id) (ps.map Profile.id) := by
    rw [hids, List.forall₂_same]
    intro id hid
    obtain ⟨p, hp, rfl⟩ := List.mem_map.mp hid
    exact ⟨rfl, hdocuments p hp⟩
  rw [List.forall₂_map_left_iff, List.forall₂_map_right_iff] at hsame
  refine gather_congr (hsame.imp fun q p hqp ↦ ?_)
  rw [hqp.1, Profiles.document_run_congr hqp.2]

private theorem contribution_template : contribution Document.template = .empty := by
  rw [contribution, Document.parse, Document.plain, Json.Decoder.ofText, String.toList_ofList,
    Document.template]
  -- Each line is taken apart by itself, which is faster than to do it with all of them at once.
  simp only [String.toList_append]
  decide +kernel

theorem gather_append_undocumented {p : Profile}
    (hdocument : Sorted.get? (documentKey p.id) es = none) :
    gather (ps ++ [p]) es = gather ps es := by
  have htemplate : ((Profiles.document p.id).run Store.memory es).1 = .ok Document.template := by
    rw [Profiles.document_run, Profiles.document?_run, hdocument]
    rfl
  induction ps with
  | nil =>
    rw [List.nil_append, gather, concat_documentsOf_cons, htemplate, Except.map,
      contribution_template]
    rfl
  | cons q ps ih =>
    rw [gather, gather] at ih
    rw [List.cons_append, gather, gather, concat_documentsOf_cons, concat_documentsOf_cons, ih]

theorem demand_written (hps : listing es = .ok ps) (hqs : Profile.Normal qs)
    (hgather : gather (qs.filter Profile.active) es = gather (ps.filter Profile.active) es) :
    demand (written qs (withList es)) = demand es := by
  have hfound : AsFound es (withList es) := Or.inr rfl
  have hbeside : ∀ key, Profiles.Beside key →
      Sorted.get? key (written qs (withList es)) = Sorted.get? key es := fun key hkey ↦
    (Profiles.get?_written hkey qs _).trans (hfound.get? hkey)
  refine demand_congr hps (Profiles.listing_written hqs _) (fun key hkey ↦ hbeside key ?_) ?_
  · rw [Profiles.Beside]
    revert key
    decide
  · rw [← hgather]
    exact gather_eq rfl fun p _ ↦ hbeside _ (Profiles.beside_documentKey p.id)

theorem demand_newcomer (hps : listing es = .ok ps) (clock : Nat) (name : String) :
    demand (written (ps ++ [newcomer clock name ps (withList es)]) (withList es)) = demand es := by
  have hundocumented := Profiles.newcomer_undocumented clock name ps (withList es)
  rw [Profiles.get?_withList (Profiles.beside_documentKey _)] at hundocumented
  have hnormal := (Profiles.normal_of_listing hps).append
    (Profiles.newcomer_unlisted clock name ps (withList es))
  refine demand_written hps hnormal ?_
  rw [List.filter_append]
  exact gather_append_undocumented hundocumented

/-- The list stays, and so do the switches and the documents of its profiles. -/
theorem demand_beside (hps : listing es = .ok ps)
    (hkeys : ∀ key ∈ Profiles.fixedKeys, key ≠ Profiles.editingKey →
      Sorted.get? key es' = Sorted.get? key (withList es))
    (hdocuments : ∀ p ∈ ps, Sorted.get? (documentKey p.id) es'
      = Sorted.get? (documentKey p.id) (withList es)) :
    demand es' = demand es := by
  have hfound : AsFound es (withList es) := Or.inr rfl
  have hlisting : listing (withList es) = .ok ps := hfound.listing_eq.trans hps
  have hqs : listing es' = .ok ps :=
    (Profiles.list_run_congr (hkeys Profiles.listKey (by decide) (by decide))).trans hlisting
  refine (demand_congr hlisting hqs (fun key hkey ↦ hkeys key ?_ ?_) ?_).trans
    (demand_of_asFound hfound)
  · exact List.mem_append_right [Profiles.listKey, Profiles.editingKey] hkey
  · revert key
    decide
  · exact gather_eq rfl fun p hp ↦ hdocuments p (List.mem_filter.mp hp).1

end

/-! ## Operations that leave it alone -/

/-- The program leaves the demand alone, wherever it ends. -/
def Harmless {α : Type} (p : Program α) : Prop :=
  ∀ es, p.Ends (fun _ es' ↦ demand es' = demand es) (fun _ es' ↦ demand es' = demand es) es

theorem harmless_of_asFound {α : Type} {p : Program α}
    (h : ∀ es, p.Ends (fun _ es' ↦ AsFound es es') (fun _ es' ↦ AsFound es es') es) : Harmless p :=
  fun es ↦ (h es).mono (fun _ _ ↦ demand_of_asFound) fun _ _ ↦ demand_of_asFound

theorem harmless_of_readsOnly {α : Type} {p : Program α} (h : p.ReadsOnly Profiles.Beside) :
    Harmless p := fun _ ↦ h.ends (fun _ _ ↦ rfl) rfl fun _ _ ↦ rfl

theorem Harmless.demand_run {α : Type} {p : Program α} (h : Harmless p) (s : Store.Scheduled) :
    demand (p.run Store.scheduled s).2.entries = demand s.entries := by
  rcases hrun : p.run Store.scheduled s with ⟨f | a, s'⟩
  · exact (h s.entries).scheduled_error hrun
  · exact (h s.entries).scheduled_ok hrun

theorem harmless_list : Harmless Profiles.list := harmless_of_asFound fun _ ↦
  Profiles.list_ends (fun _ _ ↦ Or.inl rfl) fun _ _ ↦ Or.inr rfl

theorem harmless_rename (id name : String) : Harmless (Profiles.rename id name) := by
  intro es
  refine (Profiles.rename_ends es id name).mono ?_ fun _ _ ↦ demand_of_asFound
  rintro done es' ⟨ps, trimmed, hps, -, -, rfl⟩
  cases done with
  | false => exact demand_of_asFound (Or.inr rfl)
  | true =>
    refine demand_written hps ((Profiles.normal_of_listing hps).rename id trimmed) ?_
    rw [Profile.filter_active_rename]
    exact gather_eq (Profile.ids_rename id trimmed _) fun _ _ ↦ rfl

theorem harmless_setEditing (id : String) : Harmless (Profiles.setEditing id) := by
  intro es
  refine (Profiles.setEditing_ends es id).mono ?_ fun _ _ ↦ demand_of_asFound
  rintro done es' ⟨ps, hps, -, rfl⟩
  cases done with
  | false => exact demand_of_asFound (Or.inr rfl)
  | true =>
    exact demand_beside hps (fun key _ hne ↦ Profiles.get?_aimed hne id _) fun p _ ↦
      Profiles.get?_aimed (Profiles.documentKey_ne_fixed (by decide) p.id) id _

theorem harmless_collectGarbage : Harmless Profiles.collectGarbage := by
  intro es
  have hwithout : ∀ ps before, listing es = .ok ps →
      before <+: Profiles.orphans ps (withList es) → demand (without before (withList es))
        = demand es := by
    intro ps before hps hbefore
    refine demand_beside hps (fun key hkey _ ↦ ?_) fun p hp ↦ ?_
    · refine Profiles.get?_without (fun hmem ↦ ?_) _
      obtain ⟨id, rfl, -⟩ := Profiles.exists_of_mem_orphans (hbefore.subset hmem)
      exact Profiles.documentKey_ne_fixed hkey id rfl
    · refine Profiles.get?_without (fun hmem ↦ ?_) _
      obtain ⟨id, hid, hmissing⟩ := Profiles.exists_of_mem_orphans (hbefore.subset hmem)
      rw [← Profiles.documentKey_injective hid] at hmissing
      exact hmissing (Profile.mem_ids_of_mem hp)
  refine (Profiles.collectGarbage_ends es).mono ?_ ?_
  · rintro n es' ⟨ps, hps, -, rfl⟩
    exact hwithout ps _ hps (List.prefix_refl _)
  · rintro c es' (hfound | ⟨ps, before, hps, hbefore, rfl⟩)
    · exact demand_of_asFound hfound
    · exact hwithout ps before hps hbefore

end Redirector.Apply
